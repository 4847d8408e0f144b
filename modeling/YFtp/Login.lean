import YFtp.Server

/-!
# Login

The handlers of `client_node.cpp` for USER, PASS and REIN.  They are the only ones that write the
login state of a client node and the client lists of the users.
-/

namespace YFtp.FtpServer

/-- The test of `process_user_cmd` for the branch of anonymous logins. -/
def asksAnonymous (σ : FtpServer) (cmdArg : WString) : Bool :=
  σ.isAllowAnonymous && (cmdArg = "anonymous".toList || cmdArg = "ftp".toList)

/-- The account that the other branch of `process_user_cmd` stores in `user_`. -/
def enabledUser (σ : FtpServer) (cmdArg : WString) : Option UserRef :=
  (σ.userManager.findUser cmdArg).filter fun u ↦ (σ.userManager.users u).isEnable

/-- The first lines of `process_user_cmd`: a session that is logged in is logged out. -/
def logOut (σ : FtpServer) (c : ClientRef) : Except Fault FtpServer :=
  if (σ.nodes c).isLogged then
    match (σ.nodes c).user with
    -- `is_logged_` is tested, `user_` is not
    | none => .error .nullUser
    | some u =>
      .ok ((σ.deleteClient u c).setNode c { σ.nodes c with isLogged := false, user := none })
  else .ok σ

/-- The rest of `process_user_cmd`. -/
def bindUser (σ : FtpServer) (c : ClientRef) (cmdArg : WString) : FtpServer × Reply × Bool :=
  if cmdArg = [] then (σ, .create 501 "Invalid number of arguments.", true)
  else if σ.asksAnonymous cmdArg then
    match σ.userManager.findUser "anonymous".toList with
    | some u =>
      match σ.addClient u c with
      | some σ' =>
        (σ'.setNode c { σ.nodes c with isLogged := true, isAnonymous := true, user := some u },
          .create 230 "User Logged In.", true)
      | none => (σ, .create 421 "Too many users logged in for this account.", false)
    -- nothing is answered when the anonymous account is missing
    | none => (σ, {}, true)
  else
    -- `user_` is replaced, but the list that the client may stand in is not left
    let σ := σ.setNode c { σ.nodes c with user := σ.enabledUser cmdArg }
    match (σ.nodes c).user with
    | some u =>
      match σ.addClient u c with
      | some σ' => (σ', .create 331 "Password required for this user.", true)
      | none => (σ, .create 550 "Internal Error-Can't add client.", false)
    | none => (σ, .create 331 "Password required for this user.", true)

/-- `process_user_cmd`. -/
def processUserCmd (σ : FtpServer) (c : ClientRef) (cmdArg : WString) :
    Except Fault (FtpServer × Reply × Bool) := do
  let σ ← σ.logOut c
  .ok (σ.bindUser c cmdArg)

/-- The user is unbound: PASS after a wrong password, and REIN. -/
def unbind (σ : FtpServer) (c : ClientRef) : FtpServer :=
  match (σ.nodes c).user with
  | some u => (σ.deleteClient u c).setNode c { σ.nodes c with user := none }
  | none => σ

/-- `user_ && user_->is_enable() && cmd_arg == user_->get_user_password()`. -/
def passwordMatches (σ : FtpServer) (c : ClientRef) (cmdArg : WString) : Bool :=
  match (σ.nodes c).user with
  | some u =>
    (σ.userManager.users u).isEnable && cmdArg = (σ.userManager.users u).userPassword
  | none => false

/-- `process_password_cmd`. -/
def processPasswordCmd (σ : FtpServer) (c : ClientRef) (cmdArg : WString) : FtpServer × Reply :=
  if (σ.nodes c).isAnonymous then
    -- `is_anonymous_` outlives USER, and while it is set no password is compared
    (σ.setNode c { σ.nodes c with isLogged := true }, .create 230 "User Logged In.")
  else if cmdArg ≠ [] then
    if σ.passwordMatches c cmdArg then
      (σ.setNode c { σ.nodes c with isLogged := true }, .create 230 "User Logged In.")
    else (σ.unbind c, .create 530 "Please login with valid USER and PASS.")
  else (σ.unbind c, .create 501 "Invalid number of arguments.")

/-- `process_rein_cmd`. -/
def processReinCmd (σ : FtpServer) (c : ClientRef) : FtpServer × Reply :=
  let σ := σ.unbind c
  let n := σ.nodes c
  (σ.setNode c
    { n with
      isLogged := false, isAnonymous := false, binaryMode := true, currentDirectory := ['/']
      curDataMode := .none, renameFromPath := [] },
    .create 200 "Reinitialize Successful.")

end YFtp.FtpServer
