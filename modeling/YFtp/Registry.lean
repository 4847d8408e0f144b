import YFtp.Steps

/-!
# The registry

A client node is reachable as long as it stands in the client list of some listed user.  In every
state that the server reaches, no two reachable nodes share a native handle, so a connection is
served by one client node until that node drops out of the lists.
-/

namespace YFtp.FtpServer

/-- The client node stands in the client list of a listed user. -/
def Registered (σ : FtpServer) (c : ClientRef) : Prop :=
  ∃ u ∈ σ.userManager.ftpUserList, c ∈ σ.clientsOf u

instance (σ : FtpServer) (c : ClientRef) : Decidable (Registered σ c) :=
  inferInstanceAs (Decidable (∃ _ ∈ _, _))

theorem findClient_eq_some {σ : FtpServer} {s : Handle} {c : ClientRef}
    (h : σ.findClient s = some c) : Registered σ c ∧ (σ.nodes c).ctrlSocket = s := by
  rcases List.exists_of_findSome?_eq_some h with ⟨u, hu, hc⟩
  exact ⟨⟨u, hu, List.mem_of_find?_eq_some hc⟩, by simpa using List.find?_some hc⟩

theorem findClient_eq_none {σ : FtpServer} {s : Handle} :
    σ.findClient s = none ↔ ∀ c, Registered σ c → (σ.nodes c).ctrlSocket ≠ s := by
  simp only [findClient, List.findSome?_eq_none_iff, findClientOf, List.find?_eq_none,
    decide_eq_true_eq, Registered, clientsOf]
  constructor
  · rintro h c ⟨u, hu, hc⟩
    exact h u hu c hc
  · intro h u hu c hc
    exact h c ⟨u, hu, hc⟩

/-- Registration depends only on which clients the lists hold. -/
theorem Registered.of_count {σ τ : FtpServer} {d : ClientRef} (h : Registered τ d)
    (hlist : τ.userManager.ftpUserList = σ.userManager.ftpUserList)
    (hcount : ∀ u, (τ.clientsOf u).count d = (σ.clientsOf u).count d) : Registered σ d := by
  rcases h with ⟨u, hu, hd⟩
  have hmem : d ∈ σ.clientsOf u := by
    rw [← List.count_pos_iff, ← hcount]
    exact List.count_pos_iff.mpr hd
  exact ⟨u, hlist ▸ hu, hmem⟩

theorem ClientFrame.registered {c d : ClientRef} {σ τ : FtpServer} (h : ClientFrame c σ τ)
    (hd : d ≠ c) : Registered τ d ↔ Registered σ d :=
  ⟨fun hτ ↦ hτ.of_count h.ftpUserList fun u ↦ h.count u d hd,
    fun hσ ↦ hσ.of_count h.ftpUserList.symm fun u ↦ (h.count u d hd).symm⟩

theorem Registered.of_deleteClient {σ : FtpServer} {u : UserRef} {c d : ClientRef}
    (h : Registered (σ.deleteClient u c) d) : Registered σ d := by
  rcases h with ⟨v, hv, hmem⟩
  rw [deleteClient_clientsOf] at hmem
  split at hmem
  · rename_i hvu
    exact ⟨v, hv, hvu ▸ List.mem_of_mem_erase hmem⟩
  · exact ⟨v, hv, hmem⟩

/-- What the end of a connection leaves alone: a client node only learns that its connection is
closed, and none enters a list. -/
structure EndFrame (σ τ : FtpServer) : Prop where
  registered : ∀ d, Registered τ d → Registered σ d
  nodes : ∀ d, ∃ isOpen, τ.nodes d = { σ.nodes d with isCtrlCanalOpen := isOpen }
  nextClient : τ.nextClient = σ.nextClient

theorem EndFrame.refl (σ : FtpServer) : EndFrame σ σ :=
  ⟨fun _ ↦ id, fun d ↦ ⟨(σ.nodes d).isCtrlCanalOpen, rfl⟩, rfl⟩

/-- Only the client node of the connection is told that it is closed. -/
theorem endWork_endFrame {σ τ : FtpServer} {s : Handle} (h : σ.endWork s = .ok τ) :
    EndFrame σ τ := by
  rcases endWork_ok h with ⟨-, rfl⟩ | ⟨c, -, hend⟩
  · exact .refl _
  · rcases endClient_ok hend with ⟨u, -, rfl⟩
    constructor
    case registered => exact fun d hd ↦ hd.of_deleteClient
    case nodes =>
      intro d
      rw [deleteClient_nodes]
      by_cases hd : d = c
      · subst hd
        exact ⟨false, setNode_self σ _ _⟩
      · exact ⟨(σ.nodes d).isCtrlCanalOpen, setNode_of_ne σ _ hd⟩
    case nextClient => rfl

theorem Replied.endFrame {k : Connection} {a : Answer} {τ : FtpServer} {fs : List Effect}
    (h : Replied k a τ fs) : EndFrame a.server τ := by
  cases h with
  | goesOn => exact .refl _
  | ended _ hend =>
    have hframe := endWork_endFrame hend
    exact ⟨hframe.registered, hframe.nodes, hframe.nextClient⟩

/-- What holds of the registry in every state the server reaches. -/
structure Consistent (σ : FtpServer) : Prop where
  allocated : ∀ c, Registered σ c → c < σ.nextClient
  unique : ∀ c d, Registered σ c → Registered σ d →
    (σ.nodes c).ctrlSocket = (σ.nodes d).ctrlSocket → c = d
  bound : ∀ c u, c < σ.nextClient → (σ.nodes c).user = some u → u < σ.userManager.nextUser
  listed : ∀ u ∈ σ.userManager.ftpUserList, u < σ.userManager.nextUser
  nodup : σ.userManager.ftpUserList.Nodup
  anonymous : σ.isAllowAnonymous = true → σ.userManager.findUser "anonymous".toList ≠ none
  handles : (σ.connections.map (·.handle)).Nodup
  workers : ∀ w ∈ σ.workers, w.client < σ.nextClient

/-- The client node `c` is the one that serves the connection with the handle `s`. -/
structure Serves (σ : FtpServer) (s : Handle) (c : ClientRef) : Prop where
  allocated : c < σ.nextClient
  ctrlSocket : (σ.nodes c).ctrlSocket = s
  alone : ∀ d, Registered σ d → (σ.nodes d).ctrlSocket = s → d = c

theorem Initial.consistent {σ : FtpServer} (h : Initial σ) : Consistent σ where
  allocated c hc := by
    rcases hc with ⟨u, -, hu⟩
    rw [clientsOf, h.noClients u] at hu
    cases hu
  unique c d hc := by
    rcases hc with ⟨u, -, hu⟩
    rw [clientsOf, h.noClients u] at hu
    cases hu
  bound c u hc := by
    rw [h.noNodes] at hc
    exact absurd hc (Nat.not_lt_zero c)
  listed := h.listed
  nodup := h.nodup
  anonymous := h.anonymous
  handles := by rw [h.noConnections]; exact List.nodup_nil
  workers w hw := by rw [h.noWorkers] at hw; cases hw

/-! ## The client node of a connection -/

/-- `clientFor` finds the registered node or makes a fresh one. -/
theorem clientFor_cases (σ : FtpServer) (k : Connection) :
    (∃ c, σ.findClient k.handle = some c ∧ σ.clientFor k = (σ, c)) ∨
    (σ.findClient k.handle = none ∧ σ.clientFor k =
      ({ σ.setNode σ.nextClient (freshNode k) with nextClient := σ.nextClient + 1 },
        σ.nextClient)) := by
  unfold clientFor
  cases h : σ.findClient k.handle with
  | some c => exact .inl ⟨c, rfl, rfl⟩
  | none => exact .inr ⟨rfl, rfl⟩

/-- What making a fresh client node leaves alone: every user, every list and every allocated
node. -/
structure FreshFrame (σ τ : FtpServer) : Prop where
  userManager : τ.userManager = σ.userManager
  isAllowAnonymous : τ.isAllowAnonymous = σ.isAllowAnonymous
  connections : τ.connections = σ.connections
  workers : τ.workers = σ.workers
  nextClient : σ.nextClient ≤ τ.nextClient
  nodes : ∀ d < σ.nextClient, τ.nodes d = σ.nodes d
  registered : ∀ d, Registered τ d ↔ Registered σ d

theorem clientFor_frame (σ : FtpServer) (k : Connection) : FreshFrame σ (σ.clientFor k).1 := by
  rcases clientFor_cases σ k with ⟨c, -, h⟩ | ⟨-, h⟩
  · rw [h]
    exact ⟨rfl, rfl, rfl, rfl, Nat.le_refl _, fun _ _ ↦ rfl, fun _ ↦ Iff.rfl⟩
  · rw [h]
    -- the fresh node lies behind the allocated ones
    exact ⟨rfl, rfl, rfl, rfl, Nat.le_succ _, fun d hd ↦ setNode_of_ne σ _ (Nat.ne_of_lt hd),
      fun _ ↦ Iff.rfl⟩

/-- The client node that an input is given to is the only one registered for its connection. -/
theorem clientFor_serves {σ : FtpServer} (k : Connection) (hσ : Consistent σ) :
    Serves (σ.clientFor k).1 k.handle (σ.clientFor k).2 := by
  rcases clientFor_cases σ k with ⟨c, hfind, h⟩ | ⟨hfind, h⟩
  · rw [h]
    rcases findClient_eq_some hfind with ⟨hc, hsocket⟩
    exact ⟨hσ.allocated c hc, hsocket, fun d hd hd' ↦ hσ.unique d c hd hc (hd'.trans hsocket.symm)⟩
  · rw [h]
    constructor
    case allocated => exact Nat.lt_succ_self _
    case ctrlSocket => simp [setNode, freshNode]
    case alone =>
      -- had another registered node this handle, it would have been found
      intro d hd hd'
      have hd : Registered σ d := hd
      have hne : d ≠ σ.nextClient := Nat.ne_of_lt (hσ.allocated d hd)
      have hnode := setNode_of_ne σ (freshNode k) hne
      exact absurd (hnode ▸ hd') (findClient_eq_none.mp hfind d hd)

theorem clientFor_consistent {σ : FtpServer} (k : Connection) (hσ : Consistent σ) :
    Consistent (σ.clientFor k).1 := by
  rcases clientFor_cases σ k with ⟨c, -, h⟩ | ⟨hfind, h⟩
  · rw [h]
    exact hσ
  · have hkeeps := clientFor_frame σ k
    rw [h] at hkeeps ⊢
    have hnodes := hkeeps.nodes
    constructor
    case allocated => exact fun c hc ↦ Nat.lt_succ_of_lt (hσ.allocated c hc)
    case unique =>
      intro c d hc hd hsocket
      rw [hnodes c (hσ.allocated c hc), hnodes d (hσ.allocated d hd)] at hsocket
      exact hσ.unique c d hc hd hsocket
    case bound =>
      intro c u hc hu
      rcases Nat.lt_succ_iff_lt_or_eq.mp hc with hc | rfl
      · rw [hnodes c hc] at hu
        exact hσ.bound c u hc hu
      · simp [setNode, freshNode] at hu
    case workers => exact fun w hw ↦ Nat.lt_succ_of_lt (hσ.workers w hw)
    all_goals first | exact hσ.listed | exact hσ.nodup | exact hσ.anonymous | exact hσ.handles

/-! ## Steps keep the registry consistent -/

theorem ClientFrame.consistent {c : ClientRef} {σ τ : FtpServer} {s : Handle}
    (h : ClientFrame c σ τ) (hσ : Consistent σ) (hc : Serves σ s c) : Consistent τ := by
  have hnode : ∀ d, (τ.nodes d).ctrlSocket = (σ.nodes d).ctrlSocket := by
    intro d
    by_cases hd : d = c
    · rw [hd, h.ctrlSocket]
    · rw [h.nodes d hd]
  -- Only `c` itself may enter a list, and no other registered node has its handle.
  have hregistered : ∀ d, Registered τ d → d = c ∨ Registered σ d := by
    intro d hd
    by_cases hdc : d = c
    · exact .inl hdc
    · exact .inr ((h.registered hdc).mp hd)
  constructor
  case allocated =>
    intro d hd
    rw [h.nextClient]
    rcases hregistered d hd with rfl | hd
    · exact hc.allocated
    · exact hσ.allocated d hd
  case unique =>
    intro d e hd he hsocket
    rw [hnode, hnode] at hsocket
    rcases hregistered d hd with rfl | hd
    · rcases hregistered e he with rfl | he
      · rfl
      · exact (hc.alone e he (hsocket.symm.trans hc.ctrlSocket)).symm
    · rcases hregistered e he with rfl | he
      · exact hc.alone d hd (hsocket.trans hc.ctrlSocket)
      · exact hσ.unique d e hd he hsocket
  case bound =>
    intro d u hd hu
    rw [h.nextClient] at hd
    rw [h.nextUser]
    by_cases hdc : d = c
    · rw [hdc] at hu hd
      rcases h.bound u hu with hu | hu
      · exact hσ.bound c u hd hu
      · exact hσ.listed u hu
    · rw [h.nodes d hdc] at hu
      exact hσ.bound d u hd hu
  case listed => rw [h.ftpUserList, h.nextUser]; exact hσ.listed
  case nodup => rw [h.ftpUserList]; exact hσ.nodup
  case anonymous => rw [h.isAllowAnonymous, h.findUser]; exact hσ.anonymous
  case handles => rw [h.handles]; exact hσ.handles
  case workers =>
    rcases h.workers with ⟨jobs, hjobs⟩
    intro w hw
    rw [h.nextClient]
    rw [hjobs] at hw
    rcases List.mem_append.mp hw with hw | hw
    · exact hσ.workers w hw
    · rcases List.mem_map.mp hw with ⟨j, -, rfl⟩
      exact hc.allocated

/-- The client node that serves a connection goes on doing so after its own step. -/
theorem ClientFrame.serves {c : ClientRef} {σ τ : FtpServer} {s : Handle}
    (h : ClientFrame c σ τ) (hc : Serves σ s c) : Serves τ s c where
  allocated := by rw [h.nextClient]; exact hc.allocated
  ctrlSocket := by rw [h.ctrlSocket]; exact hc.ctrlSocket
  alone d hd hsocket := by
    by_cases hdc : d = c
    · exact hdc
    · rw [h.nodes d hdc] at hsocket
      exact hc.alone d ((h.registered hdc).mp hd) hsocket

theorem SameLogin.clientsOf {σ τ : FtpServer} (h : SameLogin σ τ) (u : UserRef) :
    τ.clientsOf u = σ.clientsOf u := by
  unfold FtpServer.clientsOf
  rw [h.userManager]

theorem SameLogin.registered {σ τ : FtpServer} (h : SameLogin σ τ) (d : ClientRef) :
    Registered τ d ↔ Registered σ d := by
  unfold Registered
  simp only [h.clientsOf, h.userManager]

theorem SameLogin.consistent {σ τ : FtpServer} (h : SameLogin σ τ) (hσ : Consistent σ)
    (hworkers : ∀ w ∈ τ.workers, w.client < σ.nextClient) : Consistent τ where
  allocated c hc := by
    rw [h.nextClient]
    exact hσ.allocated c ((h.registered c).mp hc)
  unique c d hc hd hsocket := by
    rw [h.ctrlSocket, h.ctrlSocket] at hsocket
    exact hσ.unique c d ((h.registered c).mp hc) ((h.registered d).mp hd) hsocket
  bound c u hc hu := by
    rw [h.nextClient] at hc
    rw [h.user] at hu
    rw [h.userManager]
    exact hσ.bound c u hc hu
  listed := by rw [h.userManager]; exact hσ.listed
  nodup := by rw [h.userManager]; exact hσ.nodup
  anonymous := by rw [h.isAllowAnonymous, h.userManager]; exact hσ.anonymous
  handles := by rw [h.handles]; exact hσ.handles
  workers w hw := by rw [h.nextClient]; exact hworkers w hw

theorem SameLogin.serves {σ τ : FtpServer} {s : Handle} {c : ClientRef} (h : SameLogin σ τ)
    (hc : Serves σ s c) : Serves τ s c where
  allocated := by rw [h.nextClient]; exact hc.allocated
  ctrlSocket := by rw [h.ctrlSocket]; exact hc.ctrlSocket
  alone d hd hsocket := by
    rw [h.ctrlSocket] at hsocket
    exact hc.alone d ((h.registered d).mp hd) hsocket

theorem setParser_consistent {σ : FtpServer} (hσ : Consistent σ) (c : ClientRef)
    (p : RequestParser) : Consistent (σ.setParser c p) :=
  (setParser_sameLogin σ c p).consistent hσ hσ.workers

/-- The server as the switch finds it: the client node of the connection has been found or made,
and its parser is stored. -/
abbrev stored (σ : FtpServer) (k : Connection) (p : RequestParser) : FtpServer :=
  (σ.clientFor k).1.setParser (σ.clientFor k).2 p

section Stored

variable (σ : FtpServer) (k : Connection) (p : RequestParser)

theorem stored_sameLogin : SameLogin (σ.clientFor k).1 (σ.stored k p) :=
  setParser_sameLogin _ _ p

theorem stored_userManager : (σ.stored k p).userManager = σ.userManager :=
  (stored_sameLogin σ k p).userManager.trans (clientFor_frame σ k).userManager

theorem stored_isAllowAnonymous : (σ.stored k p).isAllowAnonymous = σ.isAllowAnonymous :=
  (stored_sameLogin σ k p).isAllowAnonymous.trans (clientFor_frame σ k).isAllowAnonymous

theorem stored_registered (d : ClientRef) : Registered (σ.stored k p) d ↔ Registered σ d :=
  ((stored_sameLogin σ k p).registered d).trans ((clientFor_frame σ k).registered d)

theorem stored_workers : (σ.stored k p).workers = σ.workers :=
  (clientFor_frame σ k).workers

end Stored

theorem WorkerFrame.consistent {σ τ : FtpServer} (h : WorkerFrame σ τ) (hσ : Consistent σ) :
    Consistent τ := by
  apply h.toSameLogin.consistent hσ
  intro w hw
  rcases h.workers w hw with hw | ⟨cmd, -, hw⟩
  · exact hσ.workers w hw
  · have hclient := hσ.workers _ hw
    exact hclient

theorem AdminFrame.registered {op : AdminOp} {σ τ : FtpServer} (h : AdminFrame op σ τ)
    {d : ClientRef} (hd : Registered τ d) : Registered σ d := by
  rcases hd with ⟨u, hu, hd⟩
  rcases h.clients u hu with ⟨hu, hsame⟩ | ⟨-, -, hempty⟩
  · exact ⟨u, hu, hsame ▸ hd⟩
  · rw [hempty] at hd
    cases hd

theorem AdminFrame.consistent {op : AdminOp} {σ τ : FtpServer} (h : AdminFrame op σ τ)
    (hσ : Consistent σ) : Consistent τ where
  allocated c hc := by
    rw [h.nextClient]
    exact hσ.allocated c (h.registered hc)
  unique c d hc hd hsocket := by
    rw [h.nodes] at hsocket
    exact hσ.unique c d (h.registered hc) (h.registered hd) hsocket
  bound c u hc hu := by
    rw [h.nextClient] at hc
    rw [h.nodes] at hu
    exact Nat.lt_of_lt_of_le (hσ.bound c u hc hu) h.nextUser
  listed u hu := by
    rcases h.clients u hu with ⟨hu, -⟩ | ⟨-, hu, -⟩
    · exact Nat.lt_of_lt_of_le (hσ.listed u hu) h.nextUser
    · exact hu
  nodup := h.nodup
  anonymous := h.anonymous
  handles := by rw [h.connections]; exact hσ.handles
  workers := by rw [h.workers, h.nextClient]; exact hσ.workers

theorem closeConnection_consistent {σ : FtpServer} (hσ : Consistent σ) (s : Handle) :
    Consistent (σ.closeConnection s) :=
  { hσ with handles := hσ.handles.sublist (List.filter_sublist.map _) }

/-- The registered node of a handle serves it. -/
theorem Consistent.serves {σ : FtpServer} (hσ : Consistent σ) {s : Handle} {c : ClientRef}
    (h : σ.findClient s = some c) : Serves σ s c := by
  rcases findClient_eq_some h with ⟨hc, hsocket⟩
  exact ⟨hσ.allocated c hc, hsocket, fun d hd hd' ↦ hσ.unique d c hd hc (hd'.trans hsocket.symm)⟩

theorem endWork_consistent {σ τ : FtpServer} {s : Handle} (hσ : Consistent σ)
    (h : σ.endWork s = .ok τ) : Consistent τ := by
  rcases endWork_ok h with ⟨-, rfl⟩ | ⟨c, hc, hend⟩
  · exact hσ
  · exact (endClient_frame hend).consistent hσ (hσ.serves hc)

/-- The states on the way of a processed input: with the client node found, and answered. -/
theorem Handled.consistent {build : Build} {env : Env} {σ : FtpServer} {k : Connection}
    {p : RequestParser} {cmd : Option Command} {a : Answer} (hσ : Consistent σ)
    (h : Handled build env (σ.clientFor k).1 (σ.clientFor k).2 p cmd a) :
    Consistent a.server ∧ Serves a.server k.handle (σ.clientFor k).2 := by
  have hserves := clientFor_serves k hσ
  have hparser := setParser_consistent (clientFor_consistent k hσ) (σ.clientFor k).2 p
  have hserves' := (stored_sameLogin σ k p).serves hserves
  exact ⟨h.frame.consistent hparser hserves', h.frame.serves hserves'⟩

theorem Replied.consistent {k : Connection} {a : Answer} {τ : FtpServer} {fs : List Effect}
    (ha : Consistent a.server) (h : Replied k a τ fs) : Consistent τ := by
  cases h with
  | goesOn => exact ha
  | ended _ hend => exact closeConnection_consistent (endWork_consistent ha hend) k.handle

theorem exec_consistent {build : Build} {Input : Type}
    {onData : FtpServer → Connection → Input → Except Fault Answer}
    (hdata : Serving build onData) {σ τ : FtpServer} {e : Event Input} {fs : List Effect}
    (hσ : Consistent σ) (h : exec onData σ e = .ok (τ, fs)) : Consistent τ := by
  cases e with
  | connect k =>
    rw [exec] at h
    split at h
    · cases h
      exact hσ
    · rename_i hnew
      cases h
      -- the handle of the new connection is not in use
      have hfresh : k.handle ∉ σ.connections.map (·.handle) := by
        intro hmem
        rcases List.mem_map.mp hmem with ⟨k', hk', hsame⟩
        apply hnew
        exact List.any_eq_true.mpr ⟨k', hk', by simpa using hsame⟩
      exact { hσ with handles := List.nodup_cons.mpr ⟨hfresh, hσ.handles⟩ }
  | receive s input =>
    rcases exec_receive h with ⟨-, rfl, -⟩ | ⟨k, a, -, -, ha, hreplied⟩
    · exact hσ
    · rcases hdata ha with ⟨env, p, cmd, hhandled⟩
      exact hreplied.consistent (hhandled.consistent hσ).1
  | close s =>
    rcases exec_close h with ⟨rfl, -⟩ | ⟨-, υ, hυ, rfl⟩
    · exact hσ
    · exact closeConnection_consistent (endWork_consistent hσ hυ) s
  | worker i act env => exact (runWorker_frame h).consistent hσ
  | admin op env =>
    cases h
    cases hop : σ.administer env op with
    | error e => exact hσ
    | ok τ => exact (administer_frame hσ.listed hσ.nodup hσ.anonymous hop).consistent hσ

/-- A line that has been taken for the command `cmd` by the client node of the connection `k`. -/
structure Incoming (σ : FtpServer) (e : Event Line) (k : Connection) (env : Env) (cmd : Command) :
    Prop where
  env : e.env = some env
  request : request σ e
    = some ⟨(σ.clientFor k).2, (σ.clientFor k).1.nodes (σ.clientFor k).2, cmd⟩
  gate : ((σ.clientFor k).1.nodes (σ.clientFor k).2).isLogged = true ∨
    cmd.id ∈ RequestParser.beforeLogon
  named : cmd.id = .USER → cmd.args ≠ []

theorem Incoming.of_command {σ : FtpServer} {s : Handle} {line : Line} {k : Connection}
    {cmd : Command} {reply : Reply}
    (hrequest : YFtp.FtpServer.request σ (.receive s line)
      = some ⟨(σ.clientFor k).2, (σ.clientFor k).1.nodes (σ.clientFor k).2, cmd⟩)
    (hcommand : RequestParser.getCommand ((σ.clientFor k).1.nodes (σ.clientFor k).2).isLogged
      line.bytes = .ok (cmd, reply)) (hid : cmd.id ≠ .invalid) :
    Incoming σ (.receive s line) k line.env cmd where
  env := rfl
  request := hrequest
  gate := RequestParser.getCommand_gate hcommand hid
  named := RequestParser.getCommand_user hcommand

/-- The invariant rule for one event: what the switch keeps, given the command, and what the end of
a connection, the workers and the administration keep, every event keeps. -/
theorem exec_invariant {build : Build} {P : FtpServer → Prop} {σ τ : FtpServer} {e : Event Line}
    {fs : List Effect} (hcons : Consistent σ) (hσ : P σ)
    (hconnections : ∀ {σ} ks, P σ → P { σ with connections := ks })
    (hclient : ∀ k, P (σ.clientFor k).1)
    (hparser : ∀ {σ} c p, P σ → P (σ.setParser c p))
    (hrun : ∀ {k p env cmd a}, Incoming σ e k env cmd →
      P (σ.stored k p) →
      (σ.stored k p).runSwitch build env (σ.clientFor k).2 cmd
        = .ok a → P a.server)
    (hend : ∀ {σ τ s c}, Consistent σ → σ.findClient s = some c → P σ → σ.endClient c = .ok τ →
      P τ)
    (hworker : ∀ {τ}, WorkerFrame σ τ → P τ)
    (hadmin : ∀ {τ op env}, e = .admin op env → σ.administer env op = .ok τ → AdminFrame op σ τ →
      P τ)
    (h : exec (onLine build) σ e = .ok (τ, fs)) : P τ := by
  -- a connection may end by itself or after a command, and then leaves the list of connections
  have hendWork : ∀ {σ τ : FtpServer} {s : Handle}, Consistent σ → P σ → σ.endWork s = .ok τ →
      P (τ.closeConnection s) := by
    intro σ τ s hcons hσ h
    rcases endWork_ok h with ⟨-, rfl⟩ | ⟨c, hfind, hc⟩
    · exact hconnections _ hσ
    · exact hconnections _ (hend hcons hfind hσ hc)
  cases e with
  | connect k =>
    rw [exec] at h
    split at h <;> cases h
    · exact hσ
    · exact hconnections _ hσ
  | receive s line =>
    rcases exec_line h with
      ⟨-, rfl, -⟩ | ⟨k, cmd, reply, p, a, -, -, hcommand, hrequest, hhandled, hreplied⟩
    · exact hσ
    · have haserver := (hhandled.consistent hcons).1
      have ha : P a.server := by
        -- the parser is stored in any case, the switch runs only for a command
        have hstored := hparser (σ.clientFor k).2 p (hclient k)
        by_cases hid : cmd.id = .invalid
        · rw [if_pos hid] at hhandled
          cases hhandled with
          | ignored => exact hstored
        · rw [if_neg hid] at hhandled
          cases hhandled with
          | ran hswitch =>
            have ha := hrun (.of_command hrequest hcommand hid) hstored hswitch
            exact ha
      cases hreplied with
      | goesOn => exact ha
      | ended _ hend => exact hendWork haserver ha hend
  | close s =>
    rcases exec_close h with ⟨rfl, -⟩ | ⟨-, υ, hυ, rfl⟩
    · exact hσ
    · exact hendWork hcons hσ hυ
  | worker i act env => exact hworker (runWorker_frame h)
  | admin op env =>
    cases h
    cases hop : σ.administer env op with
    | error e => exact hσ
    | ok τ =>
      exact hadmin rfl hop (administer_frame hcons.listed hcons.nodup hcons.anonymous hop)

/-- The rule for the effects of one event: but for replies and the record of the command, they are
those of the switch, given the command, or those of a worker. -/
theorem exec_effects {build : Build} {P : Effect → Prop} {σ τ : FtpServer} {e : Event Line}
    {fs : List Effect} (hsend : ∀ text, P (.send text)) (hswitch : ∀ cmd, P (.switch cmd))
    (hrun : ∀ {k p env cmd a}, Incoming σ e k env cmd →
      (σ.stored k p).runSwitch build env (σ.clientFor k).2 cmd = .ok a → ∀ f ∈ a.effects, P f)
    (hworker : ∀ {i act env}, e = .worker i act env → ∀ f ∈ fs, P f)
    (h : exec (onLine build) σ e = .ok (τ, fs)) : ∀ f ∈ fs, P f := by
  cases e with
  | connect k =>
    rw [exec] at h
    split at h <;> cases h <;> exact List.forall_mem_nil _
  | receive s line =>
    rcases exec_line h with
      ⟨-, -, rfl⟩ | ⟨k, cmd, reply, p, a, -, -, hcommand, hrequest, hhandled, hreplied⟩
    · exact List.forall_mem_nil _
    · have ha : ∀ f ∈ a.effects, P f := by
        by_cases hid : cmd.id = .invalid
        · rw [if_pos hid] at hhandled
          cases hhandled with
          | ignored => exact List.forall_mem_nil _
        · rw [if_neg hid] at hhandled
          cases hhandled with
          | ran hran =>
            intro f hf
            rcases List.mem_cons.mp hf with rfl | hf
            · exact hswitch cmd
            · exact hrun (.of_command hrequest hcommand hid) hran f hf
      have hall : ∀ f ∈ a.effects ++ replyEffects a, P f := by
        intro f hf
        rcases List.mem_append.mp hf with hf | hf
        · exact ha f hf
        · unfold replyEffects at hf
          split at hf
          · cases hf
          · cases List.mem_singleton.mp hf
            exact hsend _
      cases hreplied with
      | goesOn => exact hall
      | ended => exact hall
  | close s =>
    rcases exec_close h with ⟨-, rfl⟩ | ⟨rfl, -⟩
    · exact List.forall_mem_nil _
    · exact List.forall_mem_nil _
  | worker i act env => exact hworker rfl
  | admin op env =>
    cases h
    exact List.forall_mem_nil _

/-- What an event does not change at the client node of another connection, nor at one whose
connection is closed: while it is registered, it is the same node, with the same input waiting and
the same protection of its data. -/
theorem exec_elsewhere {build : Build} {Input : Type}
    {onData : FtpServer → Connection → Input → Except Fault Answer}
    (hdata : Serving build onData) {σ τ : FtpServer} {e : Event Input} {fs : List Effect}
    {s : Handle} (hσ : Consistent σ) (h : exec onData σ e = .ok (τ, fs))
    (hother : ∀ input, e ≠ .receive s input) {d : ClientRef} (hd : Registered τ d)
    (hsocket : (τ.nodes d).ctrlSocket = s) :
    Registered σ d ∧ (σ.nodes d).ctrlSocket = s ∧
      (τ.nodes d).requestParser = (σ.nodes d).requestParser ∧
      (τ.nodes d).dataUseSsl = (σ.nodes d).dataUseSsl := by
  -- the end of a connection changes of a node only whether its connection is open
  have hend : ∀ {σ τ : FtpServer}, EndFrame σ τ → Registered τ d →
      Registered σ d ∧ (τ.nodes d).ctrlSocket = (σ.nodes d).ctrlSocket ∧
      (τ.nodes d).requestParser = (σ.nodes d).requestParser ∧
      (τ.nodes d).dataUseSsl = (σ.nodes d).dataUseSsl := by
    intro σ τ h hd
    rcases h.nodes d with ⟨isOpen, hnode⟩
    rw [hnode]
    exact ⟨h.registered d hd, rfl, rfl, rfl⟩
  cases e with
  | connect k =>
    rw [exec] at h
    split at h <;> cases h <;> exact ⟨hd, hsocket, rfl, rfl⟩
  | receive s' input =>
    rcases exec_receive h with ⟨-, rfl, -⟩ | ⟨k, a, -, hk, ha, hreplied⟩
    · exact ⟨hd, hsocket, rfl, rfl⟩
    · have hne : k.handle ≠ s := fun heq ↦ hother input (by rw [← heq, hk])
      rcases hdata ha with ⟨env, p, cmd, hhandled⟩
      have hserves := (hhandled.consistent hσ).2
      rcases hend hreplied.endFrame hd with ⟨hreg, hsame, hqueue, hssl⟩
      -- a node with another handle is not the one that was served
      have hdc : d ≠ (σ.clientFor k).2 := by
        rintro rfl
        exact hne (hserves.ctrlSocket.symm.trans (hsame.symm.trans hsocket))
      have hkeeps := clientFor_frame σ k
      have hparser := stored_sameLogin σ k p
      have hreg := (hkeeps.registered d).mp
        ((hparser.registered d).mp ((hhandled.frame.registered hdc).mp hreg))
      have hnode : a.server.nodes d = σ.nodes d := by
        rw [hhandled.frame.nodes d hdc, setParser_of_ne _ p hdc,
          hkeeps.nodes d (hσ.allocated d hreg)]
      rw [hnode] at hsame hqueue hssl
      exact ⟨hreg, hsame.symm.trans hsocket, hqueue, hssl⟩
  | close s' =>
    rcases exec_close h with ⟨rfl, -⟩ | ⟨-, υ, hυ, rfl⟩
    · exact ⟨hd, hsocket, rfl, rfl⟩
    · rcases hend (endWork_endFrame hυ) hd with ⟨hreg, hsame, hqueue, hssl⟩
      exact ⟨hreg, hsame.symm.trans hsocket, hqueue, hssl⟩
  | worker i act env =>
    have hframe := runWorker_frame h
    exact ⟨(hframe.toSameLogin.registered d).mp hd, (hframe.ctrlSocket d).symm.trans hsocket,
      hframe.requestParser d, hframe.dataUseSsl d⟩
  | admin op env =>
    cases h
    cases hop : σ.administer env op with
    | error e =>
      rw [hop] at hd hsocket
      exact ⟨hd, hsocket, rfl, rfl⟩
    | ok τ =>
      have hframe := administer_frame hσ.listed hσ.nodup hσ.anonymous hop
      rw [hop] at hd hsocket
      have hsocket : (τ.nodes d).ctrlSocket = s := hsocket
      show Registered σ d ∧ _ ∧ (τ.nodes d).requestParser = _ ∧ (τ.nodes d).dataUseSsl = _
      rw [hframe.nodes] at hsocket ⊢
      exact ⟨hframe.registered hd, hsocket, rfl, rfl⟩

theorem lineRun_consistent {build : Build} {σ τ : FtpServer}
    {trace : List (FtpServer × Event Line)} (hσ : Initial σ) (run : LineRun build σ trace τ) :
    Consistent τ :=
  run.invariant hσ.consistent fun h ⟨_, hstep⟩ ↦ exec_consistent (onLine_serving build) h hstep

theorem chunkRun_consistent {build : Build} {σ τ : FtpServer}
    {trace : List (FtpServer × Event Chunk)} (hσ : Initial σ) (run : ChunkRun build σ trace τ) :
    Consistent τ :=
  run.invariant hσ.consistent fun h ⟨_, hstep⟩ ↦ exec_consistent (onChunk_serving build) h hstep

end YFtp.FtpServer
