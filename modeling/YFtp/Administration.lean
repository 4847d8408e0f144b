import YFtp.Server

/-!
# Administration

The operations of `ftp_server` on its user table, and the two settings of a user that only the
classes below it offer.
-/

namespace YFtp

/-- A call of the program that runs the server. -/
inductive AdminOp
  | addUser (name password homeDir : WString) (priv : UInt8)
  | allowAnonymous (doAllow : Bool) (homeDir : WString) (priv : UInt8)
  | setUserPassword (name password : WString)
  | setUserPrivilege (name : WString) (priv : UInt8)
  | setUserHomeDirectory (name homeDir : WString)
  | setUserMaxClient (name : WString) (maxClient : Int)
  | setIsEnable (user : UserRef) (enable : Bool)
deriving DecidableEq, Repr

namespace FtpServer

/-- `ftp_server::add_user`. -/
def addUser (env : Env) (σ : FtpServer) (name password homeDir : WString) (priv : UInt8) :
    Except ErrorCode FtpServer :=
  if name = "anonymous".toList ∨ name = "ftp".toList then .error .usernameInvalid
  else (σ.userManager.addUser env name password homeDir priv).map fun m ↦
    { σ with userManager := m }

/-- `ftp_server::allow_anonymous`. -/
def allowAnonymous (env : Env) (σ : FtpServer) (doAllow : Bool) (homeDir : WString)
    (priv : UInt8) : Except ErrorCode FtpServer :=
  if doAllow then
    if σ.isAllowAnonymous = false then
      (σ.userManager.addUser env "anonymous".toList [] homeDir priv).map fun m ↦
        { σ with userManager := m, isAllowAnonymous := true }
    else .ok σ
  else if σ.isAllowAnonymous then
    match σ.userManager.deleteUser "anonymous".toList with
    | .ok m => .ok { σ with userManager := m, isAllowAnonymous := false }
    | .error .userNotFound => .ok { σ with isAllowAnonymous := false }
    | .error e => .error e
  else .ok σ

/-- One administrative call. -/
def administer (env : Env) (σ : FtpServer) : AdminOp → Except ErrorCode FtpServer
  | .addUser name password homeDir priv => σ.addUser env name password homeDir priv
  | .allowAnonymous doAllow homeDir priv => σ.allowAnonymous env doAllow homeDir priv
  | .setUserPassword name password =>
    (σ.userManager.setUserPassword name password).map fun m ↦ { σ with userManager := m }
  | .setUserPrivilege name priv =>
    (σ.userManager.setUserPrivilege name priv).map fun m ↦ { σ with userManager := m }
  | .setUserHomeDirectory name homeDir =>
    (σ.userManager.setUserHomeDirectory env name homeDir).map fun m ↦ { σ with userManager := m }
  | .setUserMaxClient name maxClient =>
    (σ.userManager.setUserMaxClient name maxClient).map fun m ↦ { σ with userManager := m }
  | .setIsEnable user enable =>
    .ok { σ with userManager :=
      σ.userManager.modify user fun node ↦ { node with isEnable := enable } }

end FtpServer

end YFtp
