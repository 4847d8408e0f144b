import YFtp.Registry

/-!
# Accounts

What the administration sets up and what the sessions make of it.  The accounts of a server are
those that the administrative calls alone make, whatever the sessions do meanwhile; and whoever logs
in and out, no account has more clients than its limit lets in.
-/

namespace YFtp

namespace UserManager

variable {m m' : UserManager} {env : Env} {u : UserRef} {f : UserNode → UserNode}

/-- The user table without the clients. -/
def accounts (m : UserManager) : UserManager := { m with users := fun u ↦ (m.users u).account }

@[simp] theorem accounts_findUser (m : UserManager) (name : WString) :
    m.accounts.findUser name = m.findUser name := rfl

theorem accounts_modify (m : UserManager) (u : UserRef) (hf : ∀ x, (f x).account = f x.account) :
    (m.modify u f).accounts = m.accounts.modify u f := by
  unfold accounts modify
  dsimp only
  congr 1
  funext v
  by_cases hv : v = u
  · subst hv
    rw [Function.update_self, Function.update_self, hf]
  · rw [Function.update_of_ne hv, Function.update_of_ne hv]

/-- A change of the client list is no change of the account. -/
theorem accounts_modify_clients (m : UserManager) (u : UserRef)
    (hf : ∀ x, (f x).account = x.account) : (m.modify u f).accounts = m.accounts := by
  unfold accounts modify
  dsimp only
  congr 1
  funext v
  by_cases hv : v = u
  · subst hv
    rw [Function.update_self, hf]
  · rw [Function.update_of_ne hv]

theorem accounts_foldl_modify (hf : ∀ x, (f x).account = f x.account) (us : List UserRef)
    (m : UserManager) :
    (us.foldl (fun m u ↦ m.modify u f) m).accounts
      = us.foldl (fun m u ↦ m.modify u f) m.accounts := by
  induction us generalizing m with
  | nil => rfl
  | cons u us ih => rw [List.foldl_cons, List.foldl_cons, ih, accounts_modify m u hf]

theorem accounts_modifyNamed (hf : ∀ x, (f x).account = f x.account) (m : UserManager)
    (name : WString) :
    (m.modifyNamed name f).map accounts = m.accounts.modifyNamed name f := by
  unfold modifyNamed
  have hlist : m.accounts.ftpUserList = m.ftpUserList := rfl
  rw [accounts_findUser, hlist]
  split
  · split
    · rfl
    · exact congrArg Except.ok (accounts_foldl_modify hf _ m)
  · split
    · exact congrArg Except.ok (accounts_modify m _ hf)
    · rfl

theorem accounts_addUser (env : Env) (m : UserManager) (name password homeDir : WString)
    (priv : UInt8) :
    (m.addUser env name password homeDir priv).map accounts
      = m.accounts.addUser env name password homeDir priv := by
  unfold addUser
  split
  · rfl
  · cases processHomeDirectory env homeDir with
    | error e => rfl
    | ok home =>
      show Except.map accounts (if _ then _ else _) = if _ then _ else _
      rw [accounts_findUser]
      split
      · rfl
      · refine congrArg Except.ok ?_
        unfold accounts
        dsimp only
        congr 1
        funext v
        by_cases hv : v = m.nextUser
        · subst hv
          rw [Function.update_self, Function.update_self]
          rfl
        · rw [Function.update_of_ne hv, Function.update_of_ne hv]

theorem accounts_deleteUser (m : UserManager) (name : WString) :
    (m.deleteUser name).map accounts = (m.accounts.deleteUser name).map accounts := by
  unfold deleteUser
  rw [accounts_findUser]
  have hclients (m : UserManager) (u : UserRef) : (m.deleteAllClient u).accounts = m.accounts :=
    accounts_modify_clients m u fun _ ↦ rfl
  cases m.findUser name with
  | none => rfl
  | some u =>
    have herased (m : UserManager) : accounts { m.deleteAllClient u with
        ftpUserList := m.ftpUserList.erase u }
        = { m.accounts with ftpUserList := m.ftpUserList.erase u } :=
      congrArg (fun m' : UserManager ↦ { m' with ftpUserList := m.ftpUserList.erase u })
        (hclients m u)
    exact congrArg Except.ok ((herased m).trans (herased m.accounts).symm)

theorem accounts_setUserPassword (m : UserManager) (name password : WString) :
    (m.setUserPassword name password).map accounts = m.accounts.setUserPassword name password :=
  accounts_modifyNamed (f := fun user ↦ { user with userPassword := password }) (fun _ ↦ rfl) m name

theorem accounts_setUserPrivilege (m : UserManager) (name : WString) (priv : UInt8) :
    (m.setUserPrivilege name priv).map accounts = m.accounts.setUserPrivilege name priv :=
  accounts_modifyNamed (f := fun user ↦ { user with userPrivilege := priv }) (fun _ ↦ rfl) m name

theorem accounts_setUserHomeDirectory (env : Env) (m : UserManager) (name homeDir : WString) :
    (m.setUserHomeDirectory env name homeDir).map accounts
      = m.accounts.setUserHomeDirectory env name homeDir := by
  unfold setUserHomeDirectory
  rw [accounts_findUser]
  cases processHomeDirectory env homeDir with
  | error e => rfl
  | ok home =>
    cases m.findUser name with
    | none => rfl
    | some u => exact congrArg Except.ok (accounts_modify m u fun _ ↦ rfl)

theorem accounts_setUserMaxClient (m : UserManager) (name : WString) (maxClient : Int) :
    (m.setUserMaxClient name maxClient).map accounts
      = m.accounts.setUserMaxClient name maxClient := by
  unfold setUserMaxClient
  rw [accounts_findUser]
  cases m.findUser name with
  | none => rfl
  | some u => exact congrArg Except.ok (accounts_modify m u fun _ ↦ rfl)

end UserManager

/-- The call of the administration that an event is. -/
def Event.adminCall {Input : Type} : Event Input → Option (AdminOp × Env)
  | .admin op env => some (op, env)
  | _ => none

namespace FtpServer

/-- What the administration sets up: the user table without the clients, and the switch for
anonymous logins. -/
def accountState (σ : FtpServer) : UserManager × Bool :=
  (σ.userManager.accounts, σ.isAllowAnonymous)

/-! ## The administration -/

section Administration

variable {env : Env} {σ τ : FtpServer} {op : AdminOp}

/-- A call that replaces the user table. -/
theorem accounts_map (σ : FtpServer) (allow : Bool) (x : Except ErrorCode UserManager) :
    (x.map fun m ↦ { σ with userManager := m, isAllowAnonymous := allow }).map accountState
      = (x.map UserManager.accounts).map fun m ↦ (m, allow) := by
  cases x <;> rfl

theorem accounts_setManager (σ : FtpServer) (x : Except ErrorCode UserManager) :
    (x.map fun m ↦ { σ with userManager := m }).map accountState
      = (x.map UserManager.accounts).map fun m ↦ (m, σ.isAllowAnonymous) := by
  cases x <;> rfl

theorem accounts_allowAnonymous (h : τ.accountState = σ.accountState) (doAllow : Bool)
    (homeDir : WString) (priv : UInt8) :
    (τ.allowAnonymous env doAllow homeDir priv).map accountState
      = (σ.allowAnonymous env doAllow homeDir priv).map accountState := by
  have hmanager : τ.userManager.accounts = σ.userManager.accounts := congrArg Prod.fst h
  have hallow : τ.isAllowAnonymous = σ.isAllowAnonymous := congrArg Prod.snd h
  unfold allowAnonymous
  rw [hallow]
  split
  · split
    · rw [accounts_map, accounts_map, UserManager.accounts_addUser, UserManager.accounts_addUser,
        hmanager]
    · exact congrArg Except.ok h
  · split
    · have hdelete := UserManager.accounts_deleteUser σ.userManager "anonymous".toList
      rw [← hmanager, ← UserManager.accounts_deleteUser] at hdelete
      revert hdelete
      cases σ.userManager.deleteUser "anonymous".toList with
      | ok m =>
        cases τ.userManager.deleteUser "anonymous".toList with
        | ok m' =>
          intro hdelete
          have hsame : m.accounts = m'.accounts := Except.ok.inj hdelete
          show Except.ok (m'.accounts, false) = Except.ok (m.accounts, false)
          rw [hsame]
        | error e => exact nofun
      | error e =>
        cases τ.userManager.deleteUser "anonymous".toList with
        | ok m' => exact nofun
        | error e' =>
          intro hdelete
          cases hdelete
          cases e with
          | userNotFound =>
            exact congrArg (fun m ↦ Except.ok (m, false)) hmanager
          | _ => rfl
    · exact congrArg Except.ok h

/-- What a call makes of the accounts, and whether it fails, depends on the accounts alone. -/
theorem accounts_administer (h : τ.accountState = σ.accountState) (env : Env) (op : AdminOp) :
    (τ.administer env op).map accountState = (σ.administer env op).map accountState := by
  have hmanager : τ.userManager.accounts = σ.userManager.accounts := congrArg Prod.fst h
  have hallow : τ.isAllowAnonymous = σ.isAllowAnonymous := congrArg Prod.snd h
  cases op with
  | addUser name password homeDir priv =>
    rw [administer, administer, addUser, addUser]
    split
    · rfl
    · rw [accounts_setManager, accounts_setManager, UserManager.accounts_addUser,
        UserManager.accounts_addUser, hmanager, hallow]
  | allowAnonymous doAllow homeDir priv => exact accounts_allowAnonymous h doAllow homeDir priv
  | setUserPassword name password =>
    rw [administer, administer, accounts_setManager, accounts_setManager,
      UserManager.accounts_setUserPassword, UserManager.accounts_setUserPassword, hmanager, hallow]
  | setUserPrivilege name priv =>
    rw [administer, administer, accounts_setManager, accounts_setManager,
      UserManager.accounts_setUserPrivilege, UserManager.accounts_setUserPrivilege, hmanager,
      hallow]
  | setUserHomeDirectory name homeDir =>
    rw [administer, administer, accounts_setManager, accounts_setManager,
      UserManager.accounts_setUserHomeDirectory, UserManager.accounts_setUserHomeDirectory,
      hmanager, hallow]
  | setUserMaxClient name maxClient =>
    rw [administer, administer, accounts_setManager, accounts_setManager,
      UserManager.accounts_setUserMaxClient, UserManager.accounts_setUserMaxClient, hmanager,
      hallow]
  | setIsEnable user enable =>
    have hmodify (m : UserManager) : (m.modify user fun node ↦
        { node with isEnable := enable }).accounts
          = m.accounts.modify user fun node ↦ { node with isEnable := enable } :=
      UserManager.accounts_modify m user fun _ ↦ rfl
    refine congrArg Except.ok (Prod.ext ?_ hallow)
    exact (hmodify _).trans (hmanager ▸ (hmodify _).symm)

end Administration

/-! ## The sessions -/

section Sessions

variable {build : Build} {σ τ : FtpServer} {c : ClientRef}

theorem accounts_congr (hmanager : τ.userManager = σ.userManager)
    (hallow : τ.isAllowAnonymous = σ.isAllowAnonymous) : τ.accountState = σ.accountState := by
  unfold accountState
  rw [hmanager, hallow]

theorem ClientFrame.accountState (h : ClientFrame c σ τ) : τ.accountState = σ.accountState := by
  have husers : (fun u ↦ (τ.userManager.users u).account)
      = fun u ↦ (σ.userManager.users u).account := funext h.account
  unfold FtpServer.accountState UserManager.accounts
  rw [husers, h.ftpUserList, h.nextUser, h.isAllowAnonymous]

theorem endWork_accounts {s : Handle} (h : σ.endWork s = .ok τ) :
    τ.accountState = σ.accountState := by
  rcases endWork_ok h with ⟨-, rfl⟩ | ⟨c, -, hend⟩
  · rfl
  · exact (endClient_frame hend).accountState

/-- Whatever arrives, no account changes but by a call of the administration. -/
theorem exec_accounts {Input : Type} {onData : FtpServer → Connection → Input → Except Fault Answer}
    (hdata : Serving build onData) {e : Event Input} {fs : List Effect}
    (hadmin : ∀ op env, e ≠ .admin op env) (h : exec onData σ e = .ok (τ, fs)) :
    τ.accountState = σ.accountState := by
  cases e with
  | connect k =>
    rw [exec] at h
    split at h <;> cases h <;> rfl
  | receive s input =>
    rcases exec_receive h with ⟨-, rfl, -⟩ | ⟨k, a, -, -, ha, hreplied⟩
    · rfl
    · rcases hdata ha with ⟨env, p, cmd, hhandled⟩
      have hserved : a.server.accountState = σ.accountState := by
        refine hhandled.frame.accountState.trans (accounts_congr ?_ ?_)
        · exact (clientFor_frame σ k).userManager
        · exact (clientFor_frame σ k).isAllowAnonymous
      cases hreplied with
      | goesOn => exact hserved
      | ended _ hend => exact (endWork_accounts hend).trans hserved
  | close s =>
    rcases exec_close h with ⟨rfl, -⟩ | ⟨-, υ, hυ, rfl⟩
    · rfl
    · have hended := endWork_accounts hυ
      exact hended
  | worker i act env =>
    have hframe := runWorker_frame h
    exact accounts_congr hframe.userManager hframe.isAllowAnonymous
  | admin op env => exact absurd rfl (hadmin op env)

end Sessions

/-! ## Room in an account -/

section Room

variable {build : Build} {env : Env} {σ τ : FtpServer} {c : ClientRef} {u : UserRef} {cmd : Command}

/-- The client list of the account has not become longer, or only as far as the limit of the account
lets in. -/
def WithinLimit (u : UserRef) (σ τ : FtpServer) : Prop :=
  (τ.clientsOf u).length ≤ (σ.clientsOf u).length ∨
    (σ.userManager.users u).maxClientNum = -1 ∨
    ((τ.clientsOf u).length : Int) ≤ (σ.userManager.users u).maxClientNum

theorem deleteClient_length (σ : FtpServer) (v : UserRef) (c : ClientRef) :
    ((σ.deleteClient v c).clientsOf u).length ≤ (σ.clientsOf u).length := by
  rw [deleteClient_clientsOf]
  split
  · rename_i hv
    rw [hv]
    exact List.length_erase_le
  · exact Nat.le_refl _

theorem unbind_length (σ : FtpServer) (c : ClientRef) :
    ((σ.unbind c).clientsOf u).length ≤ (σ.clientsOf u).length := by
  unfold unbind
  split
  · rename_i v _
    have hdeleted := deleteClient_length (u := u) σ v c
    exact hdeleted
  · exact Nat.le_refl _

theorem logOut_length (h : σ.logOut c = .ok τ) :
    (τ.clientsOf u).length ≤ (σ.clientsOf u).length := by
  rcases logOut_cases h with ⟨-, rfl⟩ | ⟨-, v, -, rfl⟩
  · exact Nat.le_refl _
  · have hdeleted := deleteClient_length (u := u) σ v c
    exact hdeleted

theorem endClient_length (h : σ.endClient c = .ok τ) :
    (τ.clientsOf u).length ≤ (σ.clientsOf u).length := by
  rcases endClient_ok h with ⟨v, -, rfl⟩
  have hdeleted := deleteClient_length (u := u)
    (σ.setNode c { σ.nodes c with isCtrlCanalOpen := false }) v c
  exact hdeleted

/-- A client enters a list only where there is room for it. -/
theorem addClient_withinLimit {v : UserRef} (h : σ.addClient v c = some τ) : WithinLimit u σ τ := by
  have hroom := (addClient_eq_some h).1
  unfold WithinLimit
  rw [addClient_clientsOf h]
  split
  · rename_i hv
    subst hv
    simp only [UserManager.hasRoom, Bool.or_eq_true, decide_eq_true_eq] at hroom
    have hlength : (σ.clientsOf u).length = (σ.userManager.users u).clientList.length := rfl
    rw [List.length_append, List.length_singleton]
    omega
  · exact .inl (Nat.le_refl _)

theorem Bound.withinLimit {name : WString} {r : FtpServer × Reply × Bool} (h : Bound σ c name r) :
    WithinLimit u σ r.1 := by
  cases h with
  | unchanged => exact .inl (Nat.le_refl _)
  | anonymous _ _ _ hadd =>
    have hadded := addClient_withinLimit (u := u) hadd
    exact hadded
  | named _ _ _ hadd =>
    have hadded := addClient_withinLimit (u := u) hadd
    exact hadded
  | full => exact .inl (Nat.le_refl _)
  | unknown => exact .inl (Nat.le_refl _)

theorem runSwitch_withinLimit {a : Answer} (h : σ.runSwitch build env c cmd = .ok a) :
    WithinLimit u σ a.server := by
  rcases runSwitch_cases h with ⟨-, r, hr, rfl⟩ | ⟨-, rfl⟩ | ⟨-, rfl⟩ | ⟨-, o, ports, -, rfl⟩
  · rcases processUserCmd_ok hr with ⟨τ, hτ, hbound⟩
    have hshorter := logOut_length (u := u) hτ
    have hmax := (logOut_frame hτ).maxClientNum u
    rcases hbound.withinLimit (u := u) with hlength | hlimit
    · exact .inl (Nat.le_trans hlength hshorter)
    · rw [hmax] at hlimit
      exact .inr hlimit
  · dsimp only
    rw [processPasswordCmd_eq]
    split
    · exact .inl (Nat.le_refl _)
    · exact .inl (unbind_length σ c)
  · exact .inl (unbind_length σ c)
  · have hsame := conclude_sameLogin env { σ with dataPorts := ports } c o
    refine .inl (Nat.le_of_eq ?_)
    rw [hsame.clientsOf]
    rfl

end Room

/-! ## Runs -/

/-- The calls of the administration in a run, the latest first. -/
def adminCalls {Input : Type} (trace : List (FtpServer × Event Input)) : List (AdminOp × Env) :=
  trace.filterMap (·.2.adminCall)

/-- The server after these calls, the latest first, and nothing else. -/
def administered (σ : FtpServer) (calls : List (AdminOp × Env)) : FtpServer :=
  calls.foldr (fun call σ ↦ ((σ.administer call.2 call.1).toOption).getD σ) σ

section Runs

variable {build : Build} {σ τ : FtpServer}

/-- A call that fails leaves the accounts as they are. -/
theorem accounts_getD {ρ : FtpServer} (h : τ.accountState = ρ.accountState) (env : Env)
    (op : AdminOp) :
    (((τ.administer env op).toOption).getD τ).accountState
      = (((ρ.administer env op).toOption).getD ρ).accountState := by
  have hsame := accounts_administer h env op
  cases hτ : τ.administer env op with
  | error e =>
    rw [hτ] at hsame
    cases hρ : ρ.administer env op with
    | error e' => exact h
    | ok ρ' =>
      rw [hρ] at hsame
      cases hsame
  | ok τ' =>
    rw [hτ] at hsame
    cases hρ : ρ.administer env op with
    | error e' =>
      rw [hρ] at hsame
      cases hsame
    | ok ρ' =>
      rw [hρ] at hsame
      exact Except.ok.inj hsame

/-- Whatever is received, and whoever logs in or out: after any run the accounts are those that the
calls of the administration alone make, and each of these calls has the outcome that it has then. -/
theorem accounts_of_administration {trace : List (FtpServer × Event Chunk)}
    (run : ChunkRun build σ trace τ) :
    τ.accountState = (administered σ (adminCalls trace)).accountState ∧
    ∀ newer ρ op env older, trace = newer ++ (ρ, .admin op env) :: older →
      (ρ.administer env op).map accountState
        = ((administered σ (adminCalls older)).administer env op).map accountState := by
  induction run with
  | refl => exact ⟨rfl, fun newer _ _ _ _ h ↦ absurd h (by simp)⟩
  | @snoc trace ρ e τ before last ih =>
    rcases ih with ⟨haccounts, hcalls⟩
    constructor
    · rcases last with ⟨fs, hexec⟩
      by_cases hadmin : ∃ op env, e = .admin op env
      · rcases hadmin with ⟨op, env, rfl⟩
        cases hexec
        exact accounts_getD haccounts env op
      · have hsame : adminCalls ((ρ, e) :: trace) = adminCalls trace := by
          cases e with
          | admin op env => exact absurd ⟨op, env, rfl⟩ hadmin
          | connect | receive | close | worker => rfl
        have hsessions : ∀ op env, e ≠ .admin op env := fun op env he ↦ hadmin ⟨op, env, he⟩
        rw [hsame, exec_accounts (onChunk_serving build) hsessions hexec]
        exact haccounts
    · intro newer υ op env older htrace
      cases newer with
      | nil =>
        cases htrace
        exact accounts_administer haccounts env op
      | cons p newer =>
        cases htrace
        exact hcalls newer υ op env older rfl

/-- As long as the account is listed, its limit is no more than this. -/
def LimitedTo (u : UserRef) (limit : Nat) (σ : FtpServer) : Prop :=
  u ∈ σ.userManager.ftpUserList →
    (σ.userManager.users u).maxClientNum ≠ -1 ∧ (σ.userManager.users u).maxClientNum ≤ limit

instance (u : UserRef) (limit : Nat) (σ : FtpServer) : Decidable (LimitedTo u limit σ) :=
  inferInstanceAs (Decidable (_ → _))

/-- The account has no more clients than this, if it is listed. -/
def AtMost (u : UserRef) (limit : Nat) (σ : FtpServer) : Prop :=
  u ∈ σ.userManager.ftpUserList → (σ.clientsOf u).length ≤ limit

/-- Only USER lets a client in, and only as far as the limit goes. -/
theorem exec_atMost {u : UserRef} {limit : Nat} {e : Event Line} {fs : List Effect}
    (hcons : Consistent σ) (hσ : AtMost u limit σ) (hlimit : LimitedTo u limit σ)
    (h : exec (onLine build) σ e = .ok (τ, fs)) : AtMost u limit τ := by
  refine exec_invariant (P := AtMost u limit) hcons hσ ?_ ?_ ?_ ?_ ?_ ?_ ?_ h
  · exact fun ks h ↦ h
  · intro k hu
    have hsame := (clientFor_frame σ k).userManager
    rw [clientsOf, hsame]
    exact hσ (hsame ▸ hu)
  · exact fun c p h ↦ h
  · intro k p env cmd a _ hstored hrun hu
    have hlisted := (runSwitch_frame hrun).ftpUserList
    have hmanager := stored_userManager (σ := σ) (k := k) (p := p)
    rw [hlisted] at hu
    rcases hlimit (hmanager ▸ hu) with ⟨hfinite, hmax⟩
    rcases runSwitch_withinLimit (u := u) hrun with hlength | hlast | hlength
    · exact Nat.le_trans hlength (hstored hu)
    · rw [hmanager] at hlast
      exact absurd hlast hfinite
    · rw [hmanager] at hlength
      exact Int.ofNat_le.mp (Int.le_trans hlength hmax)
  · intro σ τ s c _ _ hσ hend hu
    have hlisted := (endClient_frame hend).ftpUserList
    exact Nat.le_trans (endClient_length hend) (hσ (hlisted ▸ hu))
  · intro τ hframe hu
    rw [clientsOf, hframe.userManager]
    exact hσ (hframe.userManager ▸ hu)
  · intro τ op env _ _ hframe hu
    rcases hframe.clients u hu with ⟨hbefore, hsame⟩ | ⟨-, -, hnone⟩
    · rw [hsame]
      exact hσ hbefore
    · rw [hnone]
      exact Nat.zero_le _

/-- In any run, an account whose limit is at no point more than `limit` never has more clients than
that: whatever the sessions do, and whenever the limit is changed. -/
theorem clients_within_limit {trace : List (FtpServer × Event Line)} {u : UserRef} {limit : Nat}
    (hσ : Initial σ) (run : LineRun build σ trace τ)
    (hlimit : ∀ p ∈ trace, LimitedTo u limit p.1) : AtMost u limit τ := by
  have hstart : Consistent σ ∧ AtMost u limit σ := by
    refine ⟨hσ.consistent, fun _ ↦ ?_⟩
    rw [clientsOf, hσ.noClients u]
    exact Nat.zero_le _
  refine (run.invariant_of_steps (P := fun τ ↦ Consistent τ ∧ AtMost u limit τ)
    (C := fun ρ _ ↦ LimitedTo u limit ρ) hstart ?_ hlimit).2
  rintro ρ e υ ⟨hcons, hρ⟩ hlimited ⟨fs, hexec⟩
  exact ⟨exec_consistent (onLine_serving build) hcons hexec, exec_atMost hcons hρ hlimited hexec⟩

end Runs

/-- A password is changed while bob logs in. -/
theorem accounts_of_administration_login : ∃ trace τ, ChunkRun {} Sample.server trace τ ∧
    adminCalls trace = [(.setUserPassword "bob".toList "qw".toList, Sample.env)] ∧
    τ.accountState = (administered Sample.server
      [(.setUserPassword "bob".toList "qw".toList, Sample.env)]).accountState := by
  rcases exists_chunkRun_of {} Sample.server
      [.connect Sample.connection, Sample.chunk "USER bob\r\n",
        .admin (.setUserPassword "bob" "qw") Sample.env, Sample.chunk "PASS qw\r\n"]
      (fun r ↦ (r.2.nodes 0).isLogged) (by decide +kernel) with ⟨trace, τ, run, hevents, -⟩
  have hcalls : adminCalls trace = [(.setUserPassword "bob".toList "qw".toList, Sample.env)] := by
    have hmapped : (trace.map (·.2)).filterMap Event.adminCall = adminCalls trace :=
      List.filterMap_map ..
    rw [← hmapped, hevents]
    rfl
  have haccounts := (accounts_of_administration run).1
  rw [hcalls] at haccounts
  exact ⟨trace, τ, run, hcalls, haccounts⟩

/-- The limit of an account is lowered to 1 before anybody uses it: then one client is in the
list of the account, and USER is refused to the next one. -/
theorem clients_within_limit_login : ∃ trace τ, LineRun {} Sample.server trace τ ∧
    AtMost 1 10 τ ∧ (τ.clientsOf 1).length = 1 := by
  rcases exists_lineRun {} Sample.server
      [.admin (.setUserMaxClient "bob" 1) Sample.env, .connect Sample.connection,
        .connect { Sample.connection with handle := 8 }, Sample.line "USER bob",
        .receive 8 { bytes := "USER bob".toUTF8.toList, env := Sample.env }]
      (fun r ↦ r.1.all (fun p ↦ LimitedTo 1 10 p.1) && (r.2.clientsOf 1).length = 1)
      (by decide +kernel) with ⟨trace, τ, run, h⟩
  simp only [Bool.and_eq_true, List.all_eq_true, decide_eq_true_eq] at h
  exact ⟨trace, τ, run, clients_within_limit Sample.initial run h.1, h.2⟩

end FtpServer

end YFtp
