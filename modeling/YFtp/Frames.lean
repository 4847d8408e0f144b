import YFtp.System

/-!
# Frames

What a command, a worker and a call of the administration leave alone.  Only USER, PASS, REIN and
the end of a connection touch the login state of a client and the client lists, and each of them
only those of its own client.
-/

namespace YFtp

/-- What of a user node no command changes. -/
def UserNode.account (u : UserNode) : UserNode := { u with clientList := [] }

theorem eq_ok_of_bind {α β : Type} {x : Except Fault α} {f : α → Except Fault β} {b : β}
    (h : x.bind f = .ok b) : ∃ a, x = .ok a ∧ f a = .ok b := by
  cases hx : x with
  | error fault => rw [hx] at h; cases h
  | ok a => rw [hx] at h; exact ⟨a, rfl, h⟩

theorem eq_ok_of_ite_bind {α β : Type} {c : Prop} [Decidable c] {x y : Except Fault α}
    {f : α → Except Fault β} {b : β} (h : (if c then x.bind f else y.bind f) = .ok b) :
    ∃ a, (if c then x else y) = .ok a ∧ f a = .ok b := by
  split at h
  · rename_i hc
    rw [if_pos hc]
    exact eq_ok_of_bind h
  · rename_i hc
    rw [if_neg hc]
    exact eq_ok_of_bind h

theorem eq_ok_of_map {ε α β : Type} {x : Except ε α} {f : α → β} {b : β}
    (h : x.map f = .ok b) : ∃ a, x = .ok a ∧ f a = b := by
  cases hx : x with
  | error e => rw [hx] at h; cases h
  | ok a => rw [hx] at h; exact ⟨a, rfl, Except.ok.inj h⟩

namespace FtpServer

/-- The client list of a user. -/
def clientsOf (σ : FtpServer) (u : UserRef) : List ClientRef :=
  (σ.userManager.users u).clientList

/-! ## Steps that leave the login state alone -/

/-- The login state of every client, the user table and the set of open connections agree. -/
structure SameLogin (σ τ : FtpServer) : Prop where
  userManager : τ.userManager = σ.userManager
  isAllowAnonymous : τ.isAllowAnonymous = σ.isAllowAnonymous
  nextClient : τ.nextClient = σ.nextClient
  ctrlSocket : ∀ d, (τ.nodes d).ctrlSocket = (σ.nodes d).ctrlSocket
  user : ∀ d, (τ.nodes d).user = (σ.nodes d).user
  isLogged : ∀ d, (τ.nodes d).isLogged = (σ.nodes d).isLogged
  isAnonymous : ∀ d, (τ.nodes d).isAnonymous = (σ.nodes d).isAnonymous
  handles : τ.connections.map (·.handle) = σ.connections.map (·.handle)

theorem SameLogin.refl (σ : FtpServer) : SameLogin σ σ :=
  ⟨rfl, rfl, rfl, fun _ ↦ rfl, fun _ ↦ rfl, fun _ ↦ rfl, fun _ ↦ rfl, rfl⟩

theorem SameLogin.trans {σ τ υ : FtpServer} (h₁ : SameLogin σ τ) (h₂ : SameLogin τ υ) :
    SameLogin σ υ where
  userManager := h₂.userManager.trans h₁.userManager
  isAllowAnonymous := h₂.isAllowAnonymous.trans h₁.isAllowAnonymous
  nextClient := h₂.nextClient.trans h₁.nextClient
  ctrlSocket d := (h₂.ctrlSocket d).trans (h₁.ctrlSocket d)
  user d := (h₂.user d).trans (h₁.user d)
  isLogged d := (h₂.isLogged d).trans (h₁.isLogged d)
  isAnonymous d := (h₂.isAnonymous d).trans (h₁.isAnonymous d)
  handles := h₂.handles.trans h₁.handles

/-- Replacing a node by one with the same login state. -/
theorem setNode_sameLogin (σ : FtpServer) (c : ClientRef) {n : ClientNode}
    (hsocket : n.ctrlSocket = (σ.nodes c).ctrlSocket) (huser : n.user = (σ.nodes c).user)
    (hlogged : n.isLogged = (σ.nodes c).isLogged)
    (hanonymous : n.isAnonymous = (σ.nodes c).isAnonymous) :
    SameLogin σ (σ.setNode c n) := by
  have field : ∀ {α : Type} (f : ClientNode → α), f n = f (σ.nodes c) →
      ∀ d, f ((σ.setNode c n).nodes d) = f (σ.nodes d) := by
    intro α f hf d
    by_cases hd : d = c
    · rw [hd, setNode_self, hf]
    · rw [setNode_of_ne σ n hd]
  exact ⟨rfl, rfl, rfl, field _ hsocket, field _ huser, field _ hlogged, field _ hanonymous, rfl⟩

theorem setParser_sameLogin (σ : FtpServer) (c : ClientRef) (p : RequestParser) :
    SameLogin σ (σ.setParser c p) :=
  setNode_sameLogin σ c rfl rfl rfl rfl

theorem setSession_sameLogin (σ : FtpServer) (c : ClientRef) (s : Session) :
    SameLogin σ (σ.setSession c s) :=
  setNode_sameLogin σ c rfl rfl rfl rfl

@[simp] theorem setSession_toSession (σ : FtpServer) (c : ClientRef) (s : Session) :
    ((σ.setSession c s).nodes c).toSession = s := by
  simp [setSession]

theorem setSession_of_ne (σ : FtpServer) {c d : ClientRef} (s : Session) (h : d ≠ c) :
    (σ.setSession c s).nodes d = σ.nodes d :=
  setNode_of_ne σ _ h

@[simp] theorem setSession_same (σ : FtpServer) (c : ClientRef) :
    σ.setSession c (σ.nodes c).toSession = σ := by
  change { σ with nodes := Function.update σ.nodes c (σ.nodes c) } = σ
  rw [Function.update_eq_self]

@[simp] theorem setParser_nodes_self (σ : FtpServer) (c : ClientRef) (p : RequestParser) :
    (σ.setParser c p).nodes c = { σ.nodes c with requestParser := p } := by
  simp [setParser]

theorem setParser_of_ne (σ : FtpServer) {c d : ClientRef} (p : RequestParser) (h : d ≠ c) :
    (σ.setParser c p).nodes d = σ.nodes d :=
  setNode_of_ne σ _ h

/-- The worker that an effect creates. -/
def jobOf : Effect → Option Job
  | .startList cmd => some (.list cmd false)
  | .startRetrieve _ => some .retrieve
  | .startStore _ => some .store
  | _ => none

theorem perform_nodes (env : Env) (c : ClientRef) (σ : FtpServer) (f : Effect) :
    (perform env c σ f).nodes = σ.nodes := by
  cases f <;> rfl

theorem perform_workers (env : Env) (c : ClientRef) (σ : FtpServer) (f : Effect) :
    (perform env c σ f).workers = σ.workers ++ ((jobOf f).map (Worker.mk c)).toList := by
  cases f <;> simp [perform, jobOf]

theorem perform_sameLogin (env : Env) (c : ClientRef) (σ : FtpServer) (f : Effect) :
    SameLogin σ (perform env c σ f) := by
  have hhandles : (perform env c σ f).connections.map (·.handle)
      = σ.connections.map (·.handle) := by
    cases f with
    -- only the handshake of AUTH touches the connections, and it keeps their handles
    | handshake =>
      simp only [perform, List.map_map]
      refine List.map_congr_left fun k _ ↦ ?_
      by_cases hk : k.handle = (σ.nodes c).ctrlSocket <;> simp [hk]
    | _ => rfl
  have hnodes := perform_nodes env c σ f
  refine ⟨?_, ?_, ?_, ?_, ?_, ?_, ?_, hhandles⟩
  · cases f <;> rfl
  · cases f <;> rfl
  · cases f <;> rfl
  all_goals
    intro d
    rw [hnodes]

theorem foldl_perform_nodes (env : Env) (c : ClientRef) (fs : List Effect) (σ : FtpServer) :
    (fs.foldl (perform env c) σ).nodes = σ.nodes := by
  induction fs generalizing σ with
  | nil => rfl
  | cons f fs ih => rw [List.foldl_cons, ih, perform_nodes]

theorem foldl_perform_workers (env : Env) (c : ClientRef) (fs : List Effect) (σ : FtpServer) :
    (fs.foldl (perform env c) σ).workers
      = σ.workers ++ (fs.filterMap jobOf).map (Worker.mk c) := by
  induction fs generalizing σ with
  | nil => simp
  | cons f fs ih =>
    rw [List.foldl_cons, ih, perform_workers]
    cases hf : jobOf f <;> simp [hf]

theorem foldl_perform_sameLogin (env : Env) (c : ClientRef) (fs : List Effect) (σ : FtpServer) :
    SameLogin σ (fs.foldl (perform env c) σ) := by
  induction fs generalizing σ with
  | nil => exact .refl σ
  | cons f fs ih => exact (perform_sameLogin env c σ f).trans (ih _)

theorem conclude_nodes (env : Env) (σ : FtpServer) (c : ClientRef) (o : Outcome) :
    (σ.conclude env c o).server.nodes = (σ.setSession c o.session).nodes :=
  foldl_perform_nodes ..

theorem conclude_workers (env : Env) (σ : FtpServer) (c : ClientRef) (o : Outcome) :
    (σ.conclude env c o).server.workers
      = σ.workers ++ (o.effects.filterMap jobOf).map (Worker.mk c) :=
  foldl_perform_workers ..

theorem conclude_sameLogin (env : Env) (σ : FtpServer) (c : ClientRef) (o : Outcome) :
    SameLogin σ (σ.conclude env c o).server :=
  (setSession_sameLogin σ c o.session).trans (foldl_perform_sameLogin ..)

/-! ## What the switch can do -/

/-- The outcome of a command that stays within the session. -/
inductive SessionRun (build : Build) (env : Env) (σ : FtpServer) (c : ClientRef) (cmd : Command) :
    Outcome → DataPorts → Prop
  | handler {o} (h : σ.sessionHandler build env c cmd = some (.ok o)) :
      SessionRun build env σ c cmd o σ.dataPorts
  | pasv {o ports} (hid : cmd.id = .PASV)
      (h : (σ.nodes c).processPasvCmd env (σ.nodes c).serverIp σ.dataPorts = .ok (o, ports)) :
      SessionRun build env σ c cmd o ports
  | plain (h : σ.sessionHandler build env c cmd = none) :
      SessionRun build env σ c cmd
        { session := (σ.nodes c).toSession, reply := plainReply (σ.nodes c).currentDirectory cmd }
        σ.dataPorts

/-- The commands that change the login state. -/
def Commands.isLogin : Commands → Bool
  | .USER | .PASS | .REIN => true
  | _ => false

theorem runSwitch_cases {build : Build} {env : Env} {σ : FtpServer} {c : ClientRef}
    {cmd : Command} {a : Answer} (h : σ.runSwitch build env c cmd = .ok a) :
    (cmd.id = .USER ∧ ∃ r, σ.processUserCmd c cmd.args = .ok r ∧
      a = { server := r.1, reply := r.2.1, ret := r.2.2 }) ∨
    (cmd.id = .PASS ∧ a = { server := (σ.processPasswordCmd c cmd.args).1
                            reply := (σ.processPasswordCmd c cmd.args).2 }) ∨
    (cmd.id = .REIN ∧ a = { server := (σ.processReinCmd c).1
                            reply := (σ.processReinCmd c).2 }) ∨
    (Commands.isLogin cmd.id = false ∧ ∃ o ports, SessionRun build env σ c cmd o ports ∧
      a = { σ with dataPorts := ports }.conclude env c o) := by
  unfold runSwitch at h
  split at h
  · rename_i hid
    rcases eq_ok_of_map h with ⟨r, hr, rfl⟩
    exact .inl ⟨hid, r, hr, rfl⟩
  · rename_i hid
    exact .inr (.inl ⟨hid, (Except.ok.inj h).symm⟩)
  · rename_i hid
    exact .inr (.inr (.inl ⟨hid, (Except.ok.inj h).symm⟩))
  · rename_i hid
    rcases eq_ok_of_map h with ⟨⟨o, ports⟩, hr, rfl⟩
    exact .inr (.inr (.inr ⟨by rw [hid]; rfl, o, ports, .pasv hid hr, rfl⟩))
  · rename_i huser hpass hrein hpasv
    -- the split has excluded the three commands that change the login state
    have hlogin : Commands.isLogin cmd.id = false := by
      cases hid : cmd.id <;> first | rfl | contradiction
    refine .inr (.inr (.inr ⟨hlogin, ?_⟩))
    split at h
    · rename_i result hresult
      rcases eq_ok_of_map h with ⟨o, rfl, rfl⟩
      exact ⟨o, _, .handler hresult, rfl⟩
    · rename_i hnone
      refine ⟨_, _, .plain hnone, ?_⟩
      rw [← Except.ok.inj h]
      simp [conclude]

/-! ## Steps of one client -/

/-- What a command processed for the client `c` leaves alone. -/
structure ClientFrame (c : ClientRef) (σ τ : FtpServer) : Prop where
  ftpUserList : τ.userManager.ftpUserList = σ.userManager.ftpUserList
  nextUser : τ.userManager.nextUser = σ.userManager.nextUser
  account : ∀ u, (τ.userManager.users u).account = (σ.userManager.users u).account
  count : ∀ u d, d ≠ c → (τ.clientsOf u).count d = (σ.clientsOf u).count d
  isAllowAnonymous : τ.isAllowAnonymous = σ.isAllowAnonymous
  nextClient : τ.nextClient = σ.nextClient
  nodes : ∀ d, d ≠ c → τ.nodes d = σ.nodes d
  ctrlSocket : (τ.nodes c).ctrlSocket = (σ.nodes c).ctrlSocket
  requestParser : (τ.nodes c).requestParser = (σ.nodes c).requestParser
  bound : ∀ u, (τ.nodes c).user = some u →
    (σ.nodes c).user = some u ∨ u ∈ σ.userManager.ftpUserList
  handles : τ.connections.map (·.handle) = σ.connections.map (·.handle)
  workers : ∃ jobs : List Job, τ.workers = σ.workers ++ jobs.map (Worker.mk c)

namespace ClientFrame

variable {c : ClientRef} {σ τ υ : FtpServer}

theorem refl (c : ClientRef) (σ : FtpServer) : ClientFrame c σ σ :=
  ⟨rfl, rfl, fun _ ↦ rfl, fun _ _ _ ↦ rfl, rfl, rfl, fun _ _ ↦ rfl, rfl, rfl, fun _ ↦ .inl, rfl,
    [], by simp⟩

theorem trans (h₁ : ClientFrame c σ τ) (h₂ : ClientFrame c τ υ) : ClientFrame c σ υ where
  ftpUserList := h₂.ftpUserList.trans h₁.ftpUserList
  nextUser := h₂.nextUser.trans h₁.nextUser
  account u := (h₂.account u).trans (h₁.account u)
  count u d hd := (h₂.count u d hd).trans (h₁.count u d hd)
  isAllowAnonymous := h₂.isAllowAnonymous.trans h₁.isAllowAnonymous
  nextClient := h₂.nextClient.trans h₁.nextClient
  nodes d hd := (h₂.nodes d hd).trans (h₁.nodes d hd)
  ctrlSocket := h₂.ctrlSocket.trans h₁.ctrlSocket
  requestParser := h₂.requestParser.trans h₁.requestParser
  bound u hu := by
    rcases h₂.bound u hu with hu | hu
    · exact h₁.bound u hu
    · exact .inr (h₁.ftpUserList ▸ hu)
  handles := h₂.handles.trans h₁.handles
  workers := by
    rcases h₁.workers with ⟨jobs₁, hjobs₁⟩
    rcases h₂.workers with ⟨jobs₂, hjobs₂⟩
    exact ⟨jobs₁ ++ jobs₂, by rw [hjobs₂, hjobs₁, List.map_append, List.append_assoc]⟩

theorem userName (h : ClientFrame c σ τ) (u : UserRef) :
    (τ.userManager.users u).userName = (σ.userManager.users u).userName :=
  (congrArg UserNode.userName (h.account u) :)

theorem isEnable (h : ClientFrame c σ τ) (u : UserRef) :
    (τ.userManager.users u).isEnable = (σ.userManager.users u).isEnable :=
  (congrArg UserNode.isEnable (h.account u) :)

theorem userPassword (h : ClientFrame c σ τ) (u : UserRef) :
    (τ.userManager.users u).userPassword = (σ.userManager.users u).userPassword :=
  (congrArg UserNode.userPassword (h.account u) :)

theorem userPrivilege (h : ClientFrame c σ τ) (u : UserRef) :
    (τ.userManager.users u).userPrivilege = (σ.userManager.users u).userPrivilege :=
  (congrArg UserNode.userPrivilege (h.account u) :)

theorem homeDirectory (h : ClientFrame c σ τ) (u : UserRef) :
    (τ.userManager.users u).homeDirectory = (σ.userManager.users u).homeDirectory :=
  (congrArg UserNode.homeDirectory (h.account u) :)

theorem maxClientNum (h : ClientFrame c σ τ) (u : UserRef) :
    (τ.userManager.users u).maxClientNum = (σ.userManager.users u).maxClientNum :=
  (congrArg UserNode.maxClientNum (h.account u) :)

theorem holds (h : ClientFrame c σ τ) (u : UserRef) (p : UserPrivilege) :
    (τ.userManager.users u).holds p = (σ.userManager.users u).holds p := by
  unfold UserNode.holds
  rw [h.userPrivilege]

theorem findUser (h : ClientFrame c σ τ) (name : WString) :
    τ.userManager.findUser name = σ.userManager.findUser name := by
  unfold UserManager.findUser
  simp only [h.ftpUserList, h.userName]

theorem asksAnonymous (h : ClientFrame c σ τ) (name : WString) :
    τ.asksAnonymous name = σ.asksAnonymous name := by
  unfold FtpServer.asksAnonymous
  rw [h.isAllowAnonymous]

theorem enabledUser (h : ClientFrame c σ τ) (name : WString) :
    τ.enabledUser name = σ.enabledUser name := by
  unfold FtpServer.enabledUser
  simp only [h.findUser, h.isEnable]

end ClientFrame

theorem setNode_frame (σ : FtpServer) (c : ClientRef) {n : ClientNode}
    (hsocket : n.ctrlSocket = (σ.nodes c).ctrlSocket)
    (hparser : n.requestParser = (σ.nodes c).requestParser)
    (hbound : ∀ u, n.user = some u → (σ.nodes c).user = some u ∨ u ∈ σ.userManager.ftpUserList) :
    ClientFrame c σ (σ.setNode c n) where
  ftpUserList := rfl
  nextUser := rfl
  account _ := rfl
  count _ _ _ := rfl
  isAllowAnonymous := rfl
  nextClient := rfl
  nodes _ hd := setNode_of_ne σ n hd
  ctrlSocket := by rw [setNode_self, hsocket]
  requestParser := by rw [setNode_self, hparser]
  bound u hu := hbound u (by rwa [setNode_self] at hu)
  handles := rfl
  workers := ⟨[], by simp⟩

theorem deleteClient_clientsOf (σ : FtpServer) (u : UserRef) (c : ClientRef) (v : UserRef) :
    (σ.deleteClient u c).clientsOf v
      = if v = u then (σ.clientsOf u).erase c else σ.clientsOf v := by
  by_cases hv : v = u
  · subst hv
    simp [clientsOf, deleteClient, UserManager.deleteClient]
  · simp [clientsOf, deleteClient, UserManager.deleteClient, UserManager.modify_users_of_ne, hv]

theorem modify_clientList_account (m : UserManager) (u : UserRef) (f : UserNode → List ClientRef)
    (v : UserRef) :
    ((m.modify u fun user ↦ { user with clientList := f user }).users v).account
      = (m.users v).account := by
  by_cases hv : v = u
  · rw [hv, UserManager.modify_users_self]
    rfl
  · rw [UserManager.modify_users_of_ne m _ hv]

theorem deleteClient_frame (σ : FtpServer) (u : UserRef) (c : ClientRef) :
    ClientFrame c σ (σ.deleteClient u c) where
  ftpUserList := rfl
  nextUser := rfl
  account := modify_clientList_account σ.userManager u fun user ↦ user.clientList.erase c
  count v d hd := by
    rw [deleteClient_clientsOf]
    split
    · rename_i hv
      -- erasing `c` does not change how often another client is counted
      rw [hv, List.count_erase_of_ne hd]
    · rfl
  isAllowAnonymous := rfl
  nextClient := rfl
  nodes _ _ := rfl
  ctrlSocket := rfl
  requestParser := rfl
  bound _ := .inl
  handles := rfl
  workers := ⟨[], by simp [deleteClient]⟩

/-- What `addClient` does when there is room. -/
theorem addClient_eq_some {σ τ : FtpServer} {u : UserRef} {c : ClientRef}
    (h : σ.addClient u c = some τ) :
    UserManager.hasRoom (σ.userManager.users u) = true ∧
    τ = { σ with userManager :=
      σ.userManager.modify u fun user ↦ { user with clientList := user.clientList ++ [c] } } := by
  rcases Option.map_eq_some_iff.mp h with ⟨m, hm, rfl⟩
  unfold UserManager.addClient at hm
  split at hm
  · rename_i hroom
    exact ⟨hroom, by rw [← Option.some.inj hm]⟩
  · cases hm

theorem addClient_eq_none {σ : FtpServer} {u : UserRef} {c : ClientRef} :
    σ.addClient u c = none ↔ UserManager.hasRoom (σ.userManager.users u) = false := by
  rw [addClient, Option.map_eq_none_iff, UserManager.addClient]
  cases UserManager.hasRoom (σ.userManager.users u) <;> simp

theorem addClient_clientsOf {σ τ : FtpServer} {u : UserRef} {c : ClientRef}
    (h : σ.addClient u c = some τ) (v : UserRef) :
    τ.clientsOf v = if v = u then σ.clientsOf u ++ [c] else σ.clientsOf v := by
  rw [(addClient_eq_some h).2]
  by_cases hv : v = u
  · subst hv
    simp [clientsOf]
  · simp [clientsOf, UserManager.modify_users_of_ne, hv]

theorem addClient_frame {σ τ : FtpServer} {u : UserRef} {c : ClientRef}
    (h : σ.addClient u c = some τ) : ClientFrame c σ τ where
  ftpUserList := by rw [(addClient_eq_some h).2]; rfl
  nextUser := by rw [(addClient_eq_some h).2]; rfl
  account v := by
    rw [(addClient_eq_some h).2]
    exact modify_clientList_account σ.userManager u (fun user ↦ user.clientList ++ [c]) v
  count v d hd := by
    rw [addClient_clientsOf h]
    split
    · rename_i hv
      -- `c` is appended and `d` is another client
      rw [hv, List.count_append, List.count_singleton, beq_false_of_ne (Ne.symm hd)]
      simp
    · rfl
  isAllowAnonymous := by rw [(addClient_eq_some h).2]
  nextClient := by rw [(addClient_eq_some h).2]
  nodes _ _ := by rw [(addClient_eq_some h).2]
  ctrlSocket := by rw [(addClient_eq_some h).2]
  requestParser := by rw [(addClient_eq_some h).2]
  bound v hv := .inl (by rwa [(addClient_eq_some h).2] at hv)
  handles := by rw [(addClient_eq_some h).2]
  workers := ⟨[], by rw [(addClient_eq_some h).2, List.map_nil, List.append_nil]⟩

@[simp] theorem deleteClient_nodes (σ : FtpServer) (u : UserRef) (c : ClientRef) :
    (σ.deleteClient u c).nodes = σ.nodes := rfl

theorem addClient_nodes {σ τ : FtpServer} {u : UserRef} {c : ClientRef}
    (h : σ.addClient u c = some τ) : τ.nodes = σ.nodes := by
  rw [(addClient_eq_some h).2]

/-! ## USER, PASS, REIN and the end of a connection -/

/-- What `logOut` does: nothing, or the client leaves the list of its user. -/
theorem logOut_cases {σ τ : FtpServer} {c : ClientRef} (h : σ.logOut c = .ok τ) :
    ((σ.nodes c).isLogged = false ∧ τ = σ) ∨
    ((σ.nodes c).isLogged = true ∧ ∃ u, (σ.nodes c).user = some u ∧
      τ = (σ.deleteClient u c).setNode c { σ.nodes c with isLogged := false, user := none }) := by
  unfold logOut at h
  cases hlogged : (σ.nodes c).isLogged with
  | false =>
    rw [hlogged, if_neg Bool.false_ne_true] at h
    exact .inl ⟨rfl, (Except.ok.inj h).symm⟩
  | true =>
    rw [hlogged, if_pos rfl] at h
    cases huser : (σ.nodes c).user with
    | none => rw [huser] at h; cases h
    | some u =>
      rw [huser] at h
      exact .inr ⟨rfl, u, rfl, (Except.ok.inj h).symm⟩

theorem findUser_mem {m : UserManager} {name : WString} {u : UserRef}
    (h : m.findUser name = some u) : u ∈ m.ftpUserList :=
  List.mem_of_find?_eq_some h

theorem findUser_name {m : UserManager} {name : WString} {u : UserRef}
    (h : m.findUser name = some u) : (m.users u).userName = name := by
  simpa using List.find?_some h

theorem enabledUser_eq_some {σ : FtpServer} {name : WString} {u : UserRef}
    (h : σ.enabledUser name = some u) :
    σ.userManager.findUser name = some u ∧ (σ.userManager.users u).isEnable = true :=
  Option.filter_eq_some_iff.mp h

theorem logOut_frame {σ τ : FtpServer} {c : ClientRef} (h : σ.logOut c = .ok τ) :
    ClientFrame c σ τ := by
  rcases logOut_cases h with ⟨-, rfl⟩ | ⟨-, u, -, rfl⟩
  · exact .refl ..
  · exact (deleteClient_frame σ u c).trans (setNode_frame _ c rfl rfl nofun)

/-- The five things that USER can do once the client is logged out. -/
inductive Bound (σ : FtpServer) (c : ClientRef) (cmdArg : WString) :
    FtpServer × Reply × Bool → Prop
  /-- Nothing is bound: no argument, no anonymous account, or no room in it. -/
  | unchanged {reply ret}
      (h : cmdArg = [] ∨ (σ.asksAnonymous cmdArg = true ∧
        ∀ u, σ.userManager.findUser "anonymous".toList = some u →
          UserManager.hasRoom (σ.userManager.users u) = false ∧ ret = false)) :
      Bound σ c cmdArg (σ, reply, ret)
  | anonymous {u τ reply} (hname : cmdArg ≠ []) (hask : σ.asksAnonymous cmdArg = true)
      (hfind : σ.userManager.findUser "anonymous".toList = some u)
      (hadd : σ.addClient u c = some τ) :
      Bound σ c cmdArg
        (τ.setNode c { σ.nodes c with isLogged := true, isAnonymous := true, user := some u },
          reply, true)
  | named {u τ reply} (hname : cmdArg ≠ []) (hask : σ.asksAnonymous cmdArg = false)
      (hfind : σ.enabledUser cmdArg = some u)
      (hadd : (σ.setNode c { σ.nodes c with user := some u }).addClient u c = some τ) :
      Bound σ c cmdArg (τ, reply, true)
  | full {u reply} (hname : cmdArg ≠ []) (hask : σ.asksAnonymous cmdArg = false)
      (hfind : σ.enabledUser cmdArg = some u)
      (hroom : UserManager.hasRoom (σ.userManager.users u) = false) :
      Bound σ c cmdArg (σ.setNode c { σ.nodes c with user := some u }, reply, false)
  | unknown {reply} (hname : cmdArg ≠ []) (hask : σ.asksAnonymous cmdArg = false)
      (hfind : σ.enabledUser cmdArg = none) :
      Bound σ c cmdArg (σ.setNode c { σ.nodes c with user := none }, reply, true)

theorem bindUser_bound (σ : FtpServer) (c : ClientRef) (cmdArg : WString) :
    Bound σ c cmdArg (σ.bindUser c cmdArg) := by
  unfold bindUser
  -- in the order of the branches of `process_user_cmd`
  by_cases hname : cmdArg = []
  · rw [if_pos hname]
    exact .unchanged (.inl hname)
  · rw [if_neg hname]
    cases hask : σ.asksAnonymous cmdArg with
    | true =>
      rw [if_pos rfl]
      cases hfind : σ.userManager.findUser "anonymous".toList with
      | none => exact .unchanged (.inr ⟨hask, fun u hu ↦ by rw [hfind] at hu; cases hu⟩)
      | some u =>
        dsimp only
        cases hadd : σ.addClient u c with
        | some τ => exact .anonymous hname hask hfind hadd
        | none =>
          refine .unchanged (.inr ⟨hask, fun v hv ↦ ?_⟩)
          rw [hfind] at hv
          rw [← Option.some.inj hv]
          exact ⟨addClient_eq_none.mp hadd, rfl⟩
    | false =>
      rw [if_neg Bool.false_ne_true]
      simp only [setNode_self]
      cases hfind : σ.enabledUser cmdArg with
      | none => exact .unknown hname hask hfind
      | some u =>
        dsimp only
        cases hadd : (σ.setNode c { σ.nodes c with user := some u }).addClient u c with
        | some τ => exact .named hname hask hfind hadd
        | none =>
          have hroom := addClient_eq_none.mp hadd
          exact .full hname hask hfind hroom

theorem Bound.frame {σ : FtpServer} {c : ClientRef} {cmdArg : WString}
    {r : FtpServer × Reply × Bool} (h : Bound σ c cmdArg r) : ClientFrame c σ r.1 := by
  cases h with
  | unchanged => exact .refl ..
  | @anonymous u τ _ _ _ hfind hadd =>
    have hframe := addClient_frame hadd
    -- what the node is bound to is a listed user
    refine hframe.trans (setNode_frame τ c ?_ ?_ fun v hv ↦ .inr ?_)
    · rw [addClient_nodes hadd]
    · rw [addClient_nodes hadd]
    · rw [hframe.ftpUserList, ← Option.some.inj hv]
      exact findUser_mem hfind
  | @named u _ _ _ _ hfind hadd =>
    have hframe := addClient_frame hadd
    refine (setNode_frame σ c ?_ ?_ fun v hv ↦ .inr ?_).trans hframe
    · rfl
    · rfl
    · rw [← Option.some.inj hv]
      exact findUser_mem (enabledUser_eq_some hfind).1
  | @full u _ _ _ hfind =>
    refine setNode_frame σ c rfl rfl fun v hv ↦ .inr ?_
    rw [← Option.some.inj hv]
    exact findUser_mem (enabledUser_eq_some hfind).1
  | unknown => exact setNode_frame σ c rfl rfl nofun

theorem logOut_session {σ τ : FtpServer} {c : ClientRef} (h : σ.logOut c = .ok τ) :
    (τ.nodes c).toSession = (σ.nodes c).toSession := by
  rcases logOut_cases h with ⟨-, rfl⟩ | ⟨-, u, -, rfl⟩
  · rfl
  · rw [setNode_self]

/-- USER stays away from the fields that belong to the session. -/
theorem Bound.session {σ : FtpServer} {c : ClientRef} {cmdArg : WString}
    {r : FtpServer × Reply × Bool} (h : Bound σ c cmdArg r) :
    (r.1.nodes c).toSession = (σ.nodes c).toSession := by
  cases h with
  | unchanged => rfl
  | anonymous => rw [setNode_self]
  | named _ _ _ hadd => rw [addClient_nodes hadd, setNode_self]
  | full => rw [setNode_self]
  | unknown => rw [setNode_self]

/-- The account that USER binds, if there is one and it has room. -/
def namedUser (σ : FtpServer) (name : WString) : Option UserRef :=
  if σ.asksAnonymous name then σ.userManager.findUser "anonymous".toList else σ.enabledUser name

theorem Bound.user {σ : FtpServer} {c : ClientRef} {cmdArg : WString}
    {r : FtpServer × Reply × Bool} (h : Bound σ c cmdArg r) {u : UserRef}
    (hu : (r.1.nodes c).user = some u) : (σ.nodes c).user = some u ∨ σ.namedUser cmdArg = some u := by
  cases h with
  | unchanged => exact .inl hu
  | anonymous _ hask hfind =>
    rw [setNode_self] at hu
    cases hu
    exact .inr (by rw [namedUser, if_pos hask]; exact hfind)
  | named _ hask hfind hadd =>
    rw [addClient_nodes hadd, setNode_self] at hu
    cases hu
    exact .inr (by rw [namedUser, if_neg (by rw [hask]; decide)]; exact hfind)
  | full _ hask hfind =>
    rw [setNode_self] at hu
    cases hu
    exact .inr (by rw [namedUser, if_neg (by rw [hask]; decide)]; exact hfind)
  | unknown =>
    rw [setNode_self] at hu
    cases hu

theorem processUserCmd_ok {σ : FtpServer} {c : ClientRef} {cmdArg : WString}
    {r : FtpServer × Reply × Bool} (h : σ.processUserCmd c cmdArg = .ok r) :
    ∃ τ, σ.logOut c = .ok τ ∧ Bound τ c cmdArg r := by
  rcases eq_ok_of_bind h with ⟨τ, hτ, hr⟩
  exact ⟨τ, hτ, Except.ok.inj hr ▸ bindUser_bound τ c cmdArg⟩

theorem processUserCmd_frame {σ : FtpServer} {c : ClientRef} {cmdArg : WString}
    {r : FtpServer × Reply × Bool} (h : σ.processUserCmd c cmdArg = .ok r) :
    ClientFrame c σ r.1 := by
  rcases processUserCmd_ok h with ⟨τ, hτ, hr⟩
  exact (logOut_frame hτ).trans hr.frame

theorem logOut_user {σ τ : FtpServer} {c : ClientRef} (h : σ.logOut c = .ok τ) {u : UserRef}
    (hu : (τ.nodes c).user = some u) : (σ.nodes c).user = some u := by
  rcases logOut_cases h with ⟨-, rfl⟩ | ⟨-, v, -, rfl⟩
  · exact hu
  · rw [setNode_self] at hu
    cases hu

theorem ClientFrame.namedUser {c : ClientRef} {σ τ : FtpServer} (h : ClientFrame c σ τ)
    (name : WString) : τ.namedUser name = σ.namedUser name := by
  unfold FtpServer.namedUser
  rw [h.asksAnonymous, h.enabledUser, h.findUser]

theorem processUserCmd_user {σ : FtpServer} {c : ClientRef} {cmdArg : WString}
    {r : FtpServer × Reply × Bool} (h : σ.processUserCmd c cmdArg = .ok r) {u : UserRef}
    (hu : (r.1.nodes c).user = some u) : (σ.nodes c).user = some u ∨ σ.namedUser cmdArg = some u := by
  rcases processUserCmd_ok h with ⟨τ, hτ, hr⟩
  rcases hr.user hu with hu | hu
  · exact .inl (logOut_user hτ hu)
  · exact .inr ((logOut_frame hτ).namedUser cmdArg ▸ hu)

theorem logOut_workers {σ τ : FtpServer} {c : ClientRef} (h : σ.logOut c = .ok τ) :
    τ.workers = σ.workers := by
  rcases logOut_cases h with ⟨-, rfl⟩ | ⟨-, u, -, rfl⟩ <;> rfl

theorem Bound.workers {σ : FtpServer} {c : ClientRef} {cmdArg : WString}
    {r : FtpServer × Reply × Bool} (h : Bound σ c cmdArg r) : r.1.workers = σ.workers := by
  cases h with
  | unchanged => rfl
  | anonymous _ _ _ hadd => rw [setNode_workers, (addClient_eq_some hadd).2]
  | named _ _ _ hadd => rw [(addClient_eq_some hadd).2, setNode_workers]
  | full => rfl
  | unknown => rfl

theorem processUserCmd_workers {σ : FtpServer} {c : ClientRef} {cmdArg : WString}
    {r : FtpServer × Reply × Bool} (h : σ.processUserCmd c cmdArg = .ok r) :
    r.1.workers = σ.workers := by
  rcases processUserCmd_ok h with ⟨τ, hτ, hr⟩
  exact hr.workers.trans (logOut_workers hτ)

theorem processUserCmd_session {σ : FtpServer} {c : ClientRef} {cmdArg : WString}
    {r : FtpServer × Reply × Bool} (h : σ.processUserCmd c cmdArg = .ok r) :
    (r.1.nodes c).toSession = (σ.nodes c).toSession := by
  rcases processUserCmd_ok h with ⟨τ, hτ, hr⟩
  exact hr.session.trans (logOut_session hτ)

theorem unbind_session (σ : FtpServer) (c : ClientRef) :
    ((σ.unbind c).nodes c).toSession = (σ.nodes c).toSession := by
  unfold unbind
  split
  · rw [setNode_self]
  · rfl

theorem unbind_user (σ : FtpServer) (c : ClientRef) : ((σ.unbind c).nodes c).user = none := by
  unfold unbind
  split
  · rw [setNode_self]
  · assumption

theorem unbind_frame (σ : FtpServer) (c : ClientRef) : ClientFrame c σ (σ.unbind c) := by
  unfold unbind
  split
  · exact (deleteClient_frame σ _ c).trans (setNode_frame _ c rfl rfl nofun)
  · exact .refl ..

/-- PASS is accepted: from an anonymous login, or with the password of the enabled account that
the client is bound to. -/
def PasswordAccepted (σ : FtpServer) (n : ClientNode) (cmdArg : WString) : Prop :=
  n.isAnonymous = true ∨ (cmdArg ≠ [] ∧ ∃ u ∈ n.user,
    (σ.userManager.users u).isEnable = true ∧ cmdArg = (σ.userManager.users u).userPassword)

instance (σ : FtpServer) (n : ClientNode) (cmdArg : WString) :
    Decidable (PasswordAccepted σ n cmdArg) :=
  inferInstanceAs (Decidable (_ ∨ _))

theorem passwordMatches_iff (σ : FtpServer) (c : ClientRef) (cmdArg : WString) :
    σ.passwordMatches c cmdArg = true ↔ ∃ u ∈ (σ.nodes c).user,
      (σ.userManager.users u).isEnable = true ∧ cmdArg = (σ.userManager.users u).userPassword := by
  unfold passwordMatches
  cases (σ.nodes c).user <;> simp

/-- PASS logs the client in or unbinds it. -/
theorem processPasswordCmd_eq (σ : FtpServer) (c : ClientRef) (cmdArg : WString) :
    (σ.processPasswordCmd c cmdArg).1
      = if PasswordAccepted σ (σ.nodes c) cmdArg then
          σ.setNode c { σ.nodes c with isLogged := true }
        else σ.unbind c := by
  have hiff : PasswordAccepted σ (σ.nodes c) cmdArg ↔ ((σ.nodes c).isAnonymous = true ∨
      (cmdArg ≠ [] ∧ σ.passwordMatches c cmdArg = true)) := by
    rw [passwordMatches_iff]
    exact Iff.rfl
  unfold processPasswordCmd
  by_cases haccepted : PasswordAccepted σ (σ.nodes c) cmdArg
  · rw [if_pos haccepted]
    rcases hiff.mp haccepted with hyes | ⟨hname, hmatches⟩
    · rw [if_pos hyes]
    · rw [if_pos hname, if_pos hmatches]
      split <;> rfl
  · rw [if_neg haccepted]
    rw [hiff, not_or, not_and] at haccepted
    rw [if_neg haccepted.1]
    split
    · rename_i hname
      rw [if_neg (haccepted.2 hname)]
    · rfl

theorem processPasswordCmd_frame (σ : FtpServer) (c : ClientRef) (cmdArg : WString) :
    ClientFrame c σ (σ.processPasswordCmd c cmdArg).1 := by
  rw [processPasswordCmd_eq]
  split
  · exact setNode_frame σ c rfl rfl fun _ ↦ .inl
  · exact unbind_frame σ c

theorem unbind_workers (σ : FtpServer) (c : ClientRef) : (σ.unbind c).workers = σ.workers := by
  unfold unbind
  split <;> rfl

theorem processPasswordCmd_workers (σ : FtpServer) (c : ClientRef) (cmdArg : WString) :
    (σ.processPasswordCmd c cmdArg).1.workers = σ.workers := by
  rw [processPasswordCmd_eq]
  split
  · rw [setNode_workers]
  · rw [unbind_workers]

theorem processReinCmd_workers (σ : FtpServer) (c : ClientRef) :
    (σ.processReinCmd c).1.workers = σ.workers := by
  rw [processReinCmd, setNode_workers, unbind_workers]

theorem processPasswordCmd_session (σ : FtpServer) (c : ClientRef) (cmdArg : WString) :
    ((σ.processPasswordCmd c cmdArg).1.nodes c).toSession = (σ.nodes c).toSession := by
  rw [processPasswordCmd_eq]
  split
  · rw [setNode_self]
  · rw [unbind_session]

theorem processPasswordCmd_user (σ : FtpServer) (c : ClientRef) (cmdArg : WString) {u : UserRef}
    (hu : ((σ.processPasswordCmd c cmdArg).1.nodes c).user = some u) :
    (σ.nodes c).user = some u := by
  rw [processPasswordCmd_eq] at hu
  split at hu
  · rw [setNode_self] at hu
    exact hu
  · rw [unbind_user] at hu
    cases hu

theorem processReinCmd_frame (σ : FtpServer) (c : ClientRef) :
    ClientFrame c σ (σ.processReinCmd c).1 :=
  (unbind_frame σ c).trans (setNode_frame _ c rfl rfl fun _ ↦ .inl)

/-- What `client_node::end` does: the client leaves the list of the user it is bound to. -/
theorem endClient_ok {σ τ : FtpServer} {c : ClientRef} (h : σ.endClient c = .ok τ) :
    ∃ u, (σ.nodes c).user = some u ∧
      τ = (σ.setNode c { σ.nodes c with isCtrlCanalOpen := false }).deleteClient u c := by
  unfold endClient at h
  simp only [setNode_self] at h
  split at h
  · rename_i u huser
    exact ⟨u, huser, (Except.ok.inj h).symm⟩
  · cases h

theorem endClient_frame {σ τ : FtpServer} {c : ClientRef} (h : σ.endClient c = .ok τ) :
    ClientFrame c σ τ := by
  rcases endClient_ok h with ⟨u, -, rfl⟩
  refine (setNode_frame σ c ?_ ?_ ?_).trans (deleteClient_frame _ u c)
  · rfl
  · rfl
  · exact fun _ ↦ .inl

theorem conclude_frame (env : Env) (σ : FtpServer) (c : ClientRef) (o : Outcome) :
    ClientFrame c σ (σ.conclude env c o).server where
  ftpUserList := by rw [(conclude_sameLogin env σ c o).userManager]
  nextUser := by rw [(conclude_sameLogin env σ c o).userManager]
  account _ := by rw [(conclude_sameLogin env σ c o).userManager]
  count _ _ _ := by simp only [clientsOf, (conclude_sameLogin env σ c o).userManager]
  isAllowAnonymous := (conclude_sameLogin env σ c o).isAllowAnonymous
  nextClient := (conclude_sameLogin env σ c o).nextClient
  nodes d hd := by rw [conclude_nodes, setSession_of_ne σ _ hd]
  ctrlSocket := (conclude_sameLogin env σ c o).ctrlSocket c
  requestParser := by rw [conclude_nodes]; simp [setSession]
  bound u hu := .inl (by rwa [(conclude_sameLogin env σ c o).user] at hu)
  handles := (conclude_sameLogin env σ c o).handles
  workers := ⟨_, conclude_workers env σ c o⟩

theorem runSwitch_frame {build : Build} {env : Env} {σ : FtpServer} {c : ClientRef}
    {cmd : Command} {a : Answer} (h : σ.runSwitch build env c cmd = .ok a) :
    ClientFrame c σ a.server := by
  rcases runSwitch_cases h with ⟨-, r, hr, rfl⟩ | ⟨-, rfl⟩ | ⟨-, rfl⟩ | ⟨-, o, ports, -, rfl⟩
  · exact processUserCmd_frame hr
  · exact processPasswordCmd_frame σ c cmd.args
  · exact processReinCmd_frame σ c
  · have hports : ClientFrame c σ { σ with dataPorts := ports } :=
      ⟨rfl, rfl, fun _ ↦ rfl, fun _ _ _ ↦ rfl, rfl, rfl, fun _ _ ↦ rfl, rfl, rfl, fun _ ↦ .inl, rfl,
        [], by simp⟩
    exact hports.trans (conclude_frame ..)

end FtpServer

end YFtp
