import YFtp.Frames

/-!
# Steps of the server

What one event can do, for each kind of event: a received input is processed for the client node
of its connection and answered, the end of a connection unregisters one client node, a worker stays
within the session of its client node, and the administration touches no client node.
-/

namespace YFtp.FtpServer

/-! ## Received input -/

/-- What `process_command` does once it has its client node `c`: the parser is kept, and a command
that came out of it is run. -/
inductive Handled (build : Build) (env : Env) (σ : FtpServer) (c : ClientRef) (p : RequestParser) :
    Option Command → Answer → Prop
  | ignored {reply} : Handled build env σ c p none { server := σ.setParser c p, reply := reply }
  | ran {cmd a} (h : (σ.setParser c p).runSwitch build env c cmd = .ok a) :
      Handled build env σ c p (some cmd) { a with effects := .switch cmd :: a.effects }

theorem dispatch_handled {build : Build} {env : Env} {σ : FtpServer} {c : ClientRef}
    {p : RequestParser} {cmd : Command} {a : Answer}
    (h : (σ.setParser c p).dispatch build env c cmd = .ok a) :
    Handled build env σ c p (some cmd) a := by
  rcases eq_ok_of_map h with ⟨b, hb, rfl⟩
  exact .ran hb

theorem processLine_handled {build : Build} {env : Env} {σ : FtpServer} {k : Connection}
    {line : List UInt8} {parser : RequestParser} {a : Answer}
    (h : σ.processLine build env k line parser = .ok a) :
    ∃ cmd reply,
      RequestParser.getCommand ((σ.clientFor k).1.nodes (σ.clientFor k).2).isLogged line
        = .ok (cmd, reply) ∧
      Handled build env (σ.clientFor k).1 (σ.clientFor k).2
        (parser.setStatus ((σ.clientFor k).1.nodes (σ.clientFor k).2).isLogged)
        (if cmd.id = .invalid then none else some cmd) a := by
  unfold processLine at h
  dsimp only at h
  split at h
  · cases h
  · rename_i cmd reply hcommand
    refine ⟨cmd, reply, hcommand, ?_⟩
    by_cases hid : cmd.id = .invalid
    · rw [if_pos hid] at h ⊢
      rw [← Except.ok.inj h]
      exact .ignored
    · rw [if_neg hid] at h ⊢
      exact dispatch_handled h

theorem processCommand_handled {build : Build} {env : Env} {garbage : Command} {σ : FtpServer}
    {k : Connection} {data : List UInt8} {a : Answer}
    (h : σ.processCommand build env garbage k data = .ok a) :
    ∃ p result cmd reply,
      RequestParser.parse build.charSigned
        (((σ.clientFor k).1.nodes (σ.clientFor k).2).requestParser.setStatus
          ((σ.clientFor k).1.nodes (σ.clientFor k).2).isLogged) garbage data
        = .ok (p, result, cmd, reply) ∧
      Handled build env (σ.clientFor k).1 (σ.clientFor k).2 p
        (if (result.ne .yes).taken then none else some cmd) a := by
  unfold processCommand at h
  dsimp only at h
  split at h
  · cases h
  · rename_i p result cmd reply hparse
    refine ⟨p, result, cmd, reply, hparse, ?_⟩
    by_cases hresult : (result.ne .yes).taken = true
    · rw [if_pos hresult] at h ⊢
      rw [← Except.ok.inj h]
      exact .ignored
    · rw [if_neg hresult] at h ⊢
      exact dispatch_handled h

theorem Handled.frame {build : Build} {env : Env} {σ : FtpServer} {c : ClientRef}
    {p : RequestParser} {cmd : Option Command} {a : Answer} (h : Handled build env σ c p cmd a) :
    ClientFrame c (σ.setParser c p) a.server := by
  cases h with
  | ignored => exact .refl ..
  | ran h =>
    have hframe := runSwitch_frame h
    exact hframe

/-- How every kind of input is processed: for the client node of its connection. -/
def Serving (build : Build) {Input : Type}
    (onData : FtpServer → Connection → Input → Except Fault Answer) : Prop :=
  ∀ ⦃σ k input a⦄, onData σ k input = .ok a →
    ∃ env p cmd, Handled build env (σ.clientFor k).1 (σ.clientFor k).2 p cmd a

theorem onLine_serving (build : Build) : Serving build (onLine build) := by
  intro σ k line a h
  rcases processLine_handled h with ⟨cmd, _, -, h⟩
  exact ⟨_, _, _, h⟩

theorem onChunk_serving (build : Build) : Serving build (onChunk build) := by
  intro σ k chunk a h
  rcases processCommand_handled h with ⟨p, _, cmd, _, -, h⟩
  exact ⟨_, _, _, h⟩

/-- The reply as it is sent. -/
def replyEffects (a : Answer) : List Effect :=
  if a.reply.empty then [] else [.send a.reply.content]

def closeConnection (σ : FtpServer) (s : Handle) : FtpServer :=
  { σ with connections := σ.connections.filter (·.handle ≠ s) }

/-- How the caller of `process_command` goes on. -/
inductive Replied (k : Connection) (a : Answer) : FtpServer → List Effect → Prop
  | goesOn (h : a.ret = true) : Replied k a a.server (a.effects ++ replyEffects a)
  | ended {τ} (h : a.ret = false) (hend : a.server.endWork k.handle = .ok τ) :
      Replied k a (τ.closeConnection k.handle) (a.effects ++ replyEffects a)

theorem afterCommand_eq (k : Connection) (a : Answer) :
    afterCommand k a
      = if a.ret then .ok { a with effects := a.effects ++ replyEffects a }
        else (a.server.endWork k.handle).map fun σ ↦
          { a with
            server := σ.closeConnection k.handle
            effects := a.effects ++ replyEffects a } := by
  rcases a with ⟨server, reply, ret, fs⟩
  unfold afterCommand replyEffects
  cases reply.empty <;> cases ret <;> simp [closeConnection]

theorem afterCommand_replied {k : Connection} {a b : Answer} (h : afterCommand k a = .ok b) :
    Replied k a b.server b.effects := by
  rw [afterCommand_eq] at h
  split at h
  · rename_i hret
    cases h
    exact .goesOn hret
  · rename_i hret
    rcases eq_ok_of_map h with ⟨τ, hτ, rfl⟩
    exact .ended (Bool.not_eq_true _ ▸ hret) hτ

section Exec

variable {Input : Type} {onData : FtpServer → Connection → Input → Except Fault Answer}

theorem exec_receive {σ τ : FtpServer} {s : Handle} {input : Input} {fs : List Effect}
    (h : exec onData σ (.receive s input) = .ok (τ, fs)) :
    (σ.connections.find? (·.handle = s) = none ∧ τ = σ ∧ fs = []) ∨
    ∃ k a, σ.connections.find? (·.handle = s) = some k ∧ k.handle = s ∧
      onData σ k input = .ok a ∧ Replied k a τ fs := by
  rw [exec] at h
  split at h
  · rename_i hnone
    cases h
    exact .inl ⟨hnone, rfl, rfl⟩
  · rename_i k hk
    rcases eq_ok_of_map h with ⟨b, hb, heq⟩
    rcases eq_ok_of_bind hb with ⟨a, ha, hb⟩
    cases heq
    exact .inr ⟨k, a, hk, by simpa using List.find?_some hk, ha, afterCommand_replied hb⟩

theorem request_of_line {σ : FtpServer} {s : Handle} {line : Line} {k : Connection} {cmd : Command}
    {reply : Reply} (hk : σ.connections.find? (·.handle = s) = some k)
    (hcommand : RequestParser.getCommand ((σ.clientFor k).1.nodes (σ.clientFor k).2).isLogged
      line.bytes = .ok (cmd, reply)) :
    request σ (.receive s line)
      = some ⟨(σ.clientFor k).2, (σ.clientFor k).1.nodes (σ.clientFor k).2, cmd⟩ := by
  simp only [request, hk, Option.map_some, commandOf, hcommand]

/-- A line received on an open connection: the client node that processes it, the command that it
is, and how the step goes on. -/
theorem exec_line {build : Build} {σ τ : FtpServer} {s : Handle} {line : Line} {fs : List Effect}
    (h : exec (onLine build) σ (.receive s line) = .ok (τ, fs)) :
    (σ.connections.find? (·.handle = s) = none ∧ τ = σ ∧ fs = []) ∨
    ∃ k cmd reply p a, σ.connections.find? (·.handle = s) = some k ∧ k.handle = s ∧
      RequestParser.getCommand ((σ.clientFor k).1.nodes (σ.clientFor k).2).isLogged line.bytes
        = .ok (cmd, reply) ∧
      request σ (.receive s line)
        = some ⟨(σ.clientFor k).2, (σ.clientFor k).1.nodes (σ.clientFor k).2, cmd⟩ ∧
      Handled build line.env (σ.clientFor k).1 (σ.clientFor k).2 p
        (if cmd.id = .invalid then none else some cmd) a ∧ Replied k a τ fs := by
  rcases exec_receive h with h | ⟨k, a, hk, hsocket, ha, hreplied⟩
  · exact .inl h
  · rcases processLine_handled ha with ⟨cmd, reply, hcommand, hhandled⟩
    have hrequest := request_of_line hk hcommand
    exact .inr ⟨k, cmd, reply, _, a, hk, hsocket, hcommand, hrequest, hhandled, hreplied⟩

theorem exec_close {σ τ : FtpServer} {s : Handle} {fs : List Effect}
    (h : exec onData σ (.close s) = .ok (τ, fs)) :
    (τ = σ ∧ fs = []) ∨
    (fs = [] ∧ ∃ υ, σ.endWork s = .ok υ ∧ τ = υ.closeConnection s) := by
  rw [exec] at h
  split at h
  · rcases eq_ok_of_map h with ⟨υ, hυ, heq⟩
    cases heq
    exact .inr ⟨rfl, υ, hυ, rfl⟩
  · cases h
    exact .inl ⟨rfl, rfl⟩

end Exec

/-- `end_work` does nothing to an unregistered connection and ends its client node otherwise. -/
theorem endWork_ok {σ τ : FtpServer} {s : Handle} (h : σ.endWork s = .ok τ) :
    (σ.findClient s = none ∧ τ = σ) ∨
    ∃ c, σ.findClient s = some c ∧ σ.endClient c = .ok τ := by
  unfold endWork at h
  split at h
  · rename_i c hc
    exact .inr ⟨c, hc, h⟩
  · rename_i hnone
    exact .inl ⟨hnone, (Except.ok.inj h).symm⟩

/-! ## Workers -/

theorem finishSession_ok {isOpen : Bool} {job : Job} {s t : Session}
    (h : finishSession isOpen job s = .ok t) :
    t.currentDirectory = s.currentDirectory ∧ t.renameFromPath = s.renameFromPath ∧
    t.dataUseSsl = s.dataUseSsl := by
  rcases eq_ok_of_bind h with ⟨s₁, h₁, h⟩
  rcases eq_ok_of_bind h with ⟨s₂, h₂, h⟩
  -- shutting the data connection down changes nothing the model keeps, closing it clears the socket
  have hs₁ : s₁ = s := by
    unfold Session.shutDownDataSocket at h₁
    split at h₁ <;> split at h₁ <;> first | cases h₁; rfl | cases h₁
  have hs₂ : ∃ d, s₂ = { s₁ with dataSocket := d } := by
    unfold Session.closeDataSocket at h₂
    split at h₂ <;> split at h₂ <;> first | exact ⟨_, (Except.ok.inj h₂).symm⟩ | cases h₂
  rcases hs₂ with ⟨d, rfl⟩
  rw [hs₁] at h
  dsimp only at h
  split at h
  · split at h <;> cases h <;> exact ⟨rfl, rfl, rfl⟩
  · cases h
    exact ⟨rfl, rfl, rfl⟩

/-- What a step of a worker leaves alone. -/
structure WorkerFrame (σ τ : FtpServer) : Prop extends SameLogin σ τ where
  connections : τ.connections = σ.connections
  requestParser : ∀ d, (τ.nodes d).requestParser = (σ.nodes d).requestParser
  currentDirectory : ∀ d, (τ.nodes d).currentDirectory = (σ.nodes d).currentDirectory
  renameFromPath : ∀ d, (τ.nodes d).renameFromPath = (σ.nodes d).renameFromPath
  dataUseSsl : ∀ d, (τ.nodes d).dataUseSsl = (σ.nodes d).dataUseSsl
  /-- A list worker may pass its first lines; no worker is added. -/
  workers : ∀ w ∈ τ.workers, w ∈ σ.workers ∨
    ∃ cmd, w.job = .list cmd true ∧ ⟨w.client, .list cmd false⟩ ∈ σ.workers

theorem WorkerFrame.refl (σ : FtpServer) : WorkerFrame σ σ :=
  { SameLogin.refl σ with
    connections := rfl
    requestParser := fun _ ↦ rfl
    currentDirectory := fun _ ↦ rfl
    renameFromPath := fun _ ↦ rfl
    dataUseSsl := fun _ ↦ rfl
    workers := fun _ ↦ .inl }

/-- A worker that changes the session of its client node and the list of workers. -/
theorem WorkerFrame.of_setSession {σ : FtpServer} {c : ClientRef} {s : Session}
    {workers : List Worker}
    (hdirectory : s.currentDirectory = (σ.nodes c).currentDirectory)
    (hrename : s.renameFromPath = (σ.nodes c).renameFromPath)
    (hssl : s.dataUseSsl = (σ.nodes c).dataUseSsl)
    (hworkers : ∀ w ∈ workers, w ∈ σ.workers ∨
      ∃ cmd, w.job = .list cmd true ∧ ⟨w.client, .list cmd false⟩ ∈ σ.workers) :
    WorkerFrame σ { σ.setSession c s with workers := workers } := by
  -- a field that the session keeps is the same in every client node
  have field : ∀ {α : Type} (f : ClientNode → α),
      f { σ.nodes c with toSession := s } = f (σ.nodes c) →
      ∀ d, f ((σ.setSession c s).nodes d) = f (σ.nodes d) := by
    intro α f hf d
    by_cases hd : d = c
    · rw [hd, setSession, setNode_self, hf]
    · rw [setSession_of_ne σ s hd]
  have hsame := setSession_sameLogin σ c s
  exact {
    userManager := hsame.userManager
    isAllowAnonymous := hsame.isAllowAnonymous
    nextClient := hsame.nextClient
    ctrlSocket := hsame.ctrlSocket
    user := hsame.user
    isLogged := hsame.isLogged
    isAnonymous := hsame.isAnonymous
    handles := hsame.handles
    connections := rfl
    requestParser := field (fun n ↦ n.requestParser) rfl
    currentDirectory := field (fun n ↦ n.currentDirectory) hdirectory
    renameFromPath := field (fun n ↦ n.renameFromPath) hrename
    dataUseSsl := field (fun n ↦ n.dataUseSsl) hssl
    workers := hworkers }

theorem mem_of_mem_dropWorker {σ : FtpServer} {i : Nat} {w : Worker}
    (h : w ∈ (σ.dropWorker i).workers) : w ∈ σ.workers :=
  (List.eraseIdx_sublist _ _).mem h

theorem finishWorker_frame {σ τ : FtpServer} {i : Nat} {c : ClientRef} {job : Job}
    {complete : Bool} {fs : List Effect} (h : σ.finishWorker i c job complete = .ok (τ, fs)) :
    WorkerFrame σ τ := by
  rcases eq_ok_of_bind h with ⟨s, hs, h⟩
  cases h
  rcases finishSession_ok hs with ⟨hdirectory, hrename, hssl⟩
  exact .of_setSession hdirectory hrename hssl fun w hw ↦ .inl (mem_of_mem_dropWorker hw)

theorem runWorker_frame {env : Env} {σ τ : FtpServer} {i : Nat} {act : WorkerStep}
    {fs : List Effect} (h : σ.runWorker env i act = .ok (τ, fs)) : WorkerFrame σ τ := by
  unfold runWorker at h
  split at h
  · cases h
    exact .refl σ
  · rename_i w hw
    have hmem : w ∈ σ.workers := List.mem_of_getElem? hw
    dsimp only at h
    split at h
    · rename_i cmd hjob
      -- `begin`: the worker is marked and, but for STAT, the status of the session is set
      have hworkers : ∀ v ∈ σ.workers.set i { w with job := .list cmd true }, v ∈ σ.workers ∨
          ∃ cmd, v.job = .list cmd true ∧ ⟨v.client, .list cmd false⟩ ∈ σ.workers := by
        intro v hv
        rcases List.mem_or_eq_of_mem_set hv with hv | rfl
        · exact .inl hv
        · exact .inr ⟨cmd, rfl, hjob ▸ hmem⟩
      split at h
      · cases h
        have hframe := WorkerFrame.of_setSession (s := (σ.nodes w.client).toSession) rfl rfl rfl
          hworkers
        rwa [setSession_same] at hframe
      · cases h
        exact .of_setSession rfl rfl rfl hworkers
    · -- `buildPath`: the worker reads its session and asks for the status of the path
      rcases eq_ok_of_bind h with ⟨user, -, h⟩
      cases h
      exact .refl σ
    · split at h
      · -- the end of a STAT, which has no data connection to close
        cases h
        have hframe := WorkerFrame.of_setSession (s := (σ.nodes w.client).toSession) rfl rfl rfl
          fun v hv ↦ .inl (mem_of_mem_dropWorker (i := i) hv)
        rwa [setSession_same] at hframe
      · exact finishWorker_frame h
    · exact finishWorker_frame h
    · exact finishWorker_frame h
    · cases h
      exact .refl σ

/-! ## Administration -/

/-- What the administration leaves alone.  A user node keeps its name, and its clients as long as
it stays listed; a user that is added has none. -/
structure AdminFrame (op : AdminOp) (σ τ : FtpServer) : Prop where
  nodes : τ.nodes = σ.nodes
  nextClient : τ.nextClient = σ.nextClient
  connections : τ.connections = σ.connections
  workers : τ.workers = σ.workers
  nextUser : σ.userManager.nextUser ≤ τ.userManager.nextUser
  userName : ∀ u < σ.userManager.nextUser,
    (τ.userManager.users u).userName = (σ.userManager.users u).userName
  userPrivilege : ∀ u < σ.userManager.nextUser,
    (τ.userManager.users u).userPrivilege = (σ.userManager.users u).userPrivilege ∨
    ∃ name, op = .setUserPrivilege name (τ.userManager.users u).userPrivilege ∧
      σ.userManager.Addressed name u
  clients : ∀ u ∈ τ.userManager.ftpUserList,
    (u ∈ σ.userManager.ftpUserList ∧ τ.clientsOf u = σ.clientsOf u) ∨
    (u = σ.userManager.nextUser ∧ u < τ.userManager.nextUser ∧ τ.clientsOf u = [])
  nodup : τ.userManager.ftpUserList.Nodup
  anonymous : τ.isAllowAnonymous = true → τ.userManager.findUser "anonymous".toList ≠ none

theorem findUser_ne_none {m : UserManager} {name : WString} :
    m.findUser name ≠ none ↔ ∃ u ∈ m.ftpUserList, (m.users u).userName = name := by
  simp [UserManager.findUser]

/-- Whatever the function keeps of a user node that the loop reaches, the loop keeps. -/
theorem modifyNamed_users {m m' : UserManager} {name : WString} {f : UserNode → UserNode}
    (h : m.modifyNamed name f = .ok m') {P : UserNode → Prop} (u : UserRef)
    (hf : m.Addressed name u → ∀ n, P n → P (f n)) (hu : P (m.users u)) : P (m'.users u) := by
  have hmodify : ∀ (m : UserManager) (v : UserRef), (v = u → ∀ n, P n → P (f n)) →
      P (m.users u) → P ((m.modify v f).users u) := by
    intro m v hf hm
    by_cases huv : u = v
    · rw [huv, UserManager.modify_users_self]
      exact hf huv.symm _ (huv ▸ hm)
    · rwa [UserManager.modify_users_of_ne m f huv]
  -- by induction on the users that are still to come, for every state of the table
  have hloop : ∀ (us : List UserRef) (m : UserManager), (u ∈ us → ∀ n, P n → P (f n)) →
      P (m.users u) → P ((us.foldl (fun m u ↦ m.modify u f) m).users u) := by
    intro us
    induction us with
    | nil => exact fun _ _ hm ↦ hm
    | cons v us ih =>
      intro m hf hm
      exact ih _ (fun hus ↦ hf (List.mem_cons_of_mem _ hus))
        (hmodify m v (fun hv ↦ hf (hv ▸ List.mem_cons_self)) hm)
  unfold UserManager.Addressed at hf
  unfold UserManager.modifyNamed at h
  split at h
  · rename_i hname
    rw [if_pos hname] at hf
    split at h
    · cases h
    · cases h
      -- an empty name: the loop goes through the whole list
      exact hloop _ m hf hu
  · rename_i hname
    rw [if_neg hname] at hf
    split at h
    · rename_i v hv
      cases h
      exact hmodify m v (fun hvu ↦ hf (hvu ▸ hv)) hu
    · cases h

theorem modifyNamed_lists {m m' : UserManager} {name : WString} {f : UserNode → UserNode}
    (h : m.modifyNamed name f = .ok m') :
    m'.ftpUserList = m.ftpUserList ∧ m'.nextUser = m.nextUser := by
  have hloop : ∀ (us : List UserRef) (m : UserManager),
      (us.foldl (fun m u ↦ m.modify u f) m).ftpUserList = m.ftpUserList ∧
      (us.foldl (fun m u ↦ m.modify u f) m).nextUser = m.nextUser := by
    intro us
    induction us with
    | nil => exact fun _ ↦ ⟨rfl, rfl⟩
    | cons v us ih => exact fun m ↦ ih _
  unfold UserManager.modifyNamed at h
  split at h
  · split at h
    · cases h
    · cases h
      exact hloop _ m
  · split at h
    · cases h
      exact ⟨rfl, rfl⟩
    · cases h

section AdminFrame

variable {env : Env} {op : AdminOp} {σ τ : FtpServer}

/-- A change of user nodes that keeps their names and their clients. -/
theorem AdminFrame.of_users {m : UserManager} (hnodup : σ.userManager.ftpUserList.Nodup)
    (hanonymous : σ.isAllowAnonymous = true →
      σ.userManager.findUser "anonymous".toList ≠ none)
    (hlist : m.ftpUserList = σ.userManager.ftpUserList)
    (hnext : m.nextUser = σ.userManager.nextUser)
    (hname : ∀ u, (m.users u).userName = (σ.userManager.users u).userName)
    (hclients : ∀ u, (m.users u).clientList = (σ.userManager.users u).clientList)
    (hprivilege : ∀ u, (m.users u).userPrivilege = (σ.userManager.users u).userPrivilege ∨
      ∃ name, op = .setUserPrivilege name (m.users u).userPrivilege ∧
        σ.userManager.Addressed name u) :
    AdminFrame op σ { σ with userManager := m } where
  nodes := rfl
  nextClient := rfl
  connections := rfl
  workers := rfl
  nextUser := by rw [hnext]
  userName u _ := hname u
  userPrivilege u _ := hprivilege u
  clients u hu := .inl ⟨hlist ▸ hu, hclients u⟩
  nodup := by rw [hlist]; exact hnodup
  anonymous hallowed := by
    simp only [findUser_ne_none, hlist, hname] at hanonymous ⊢
    exact hanonymous hallowed

theorem AdminFrame.of_modifyNamed {m : UserManager} {name : WString} {f : UserNode → UserNode}
    (hnodup : σ.userManager.ftpUserList.Nodup)
    (hanonymous : σ.isAllowAnonymous = true →
      σ.userManager.findUser "anonymous".toList ≠ none)
    (h : σ.userManager.modifyNamed name f = .ok m)
    (hname : ∀ n, (f n).userName = n.userName) (hclients : ∀ n, (f n).clientList = n.clientList)
    (hprivilege : ∀ n, (f n).userPrivilege = n.userPrivilege ∨
      op = .setUserPrivilege name (f n).userPrivilege) :
    AdminFrame op σ { σ with userManager := m } := by
  have hlists := modifyNamed_lists h
  apply AdminFrame.of_users hnodup hanonymous hlists.1 hlists.2
  · intro u
    exact modifyNamed_users h (P := fun n ↦ n.userName = (σ.userManager.users u).userName) u
      (fun _ n hn ↦ (hname n).trans hn) rfl
  · intro u
    exact modifyNamed_users h (P := fun n ↦ n.clientList = (σ.userManager.users u).clientList) u
      (fun _ n hn ↦ (hclients n).trans hn) rfl
  · intro u
    -- a user may be changed more than once, each time to the privileges of the call
    apply modifyNamed_users h (P := fun n ↦
      n.userPrivilege = (σ.userManager.users u).userPrivilege ∨
        ∃ name, op = .setUserPrivilege name n.userPrivilege ∧
          σ.userManager.Addressed name u) u ?_ (.inl rfl)
    intro haddressed n hn
    rcases hprivilege n with hsame | hset
    · rwa [hsame]
    · exact .inr ⟨name, hset, haddressed⟩

/-- What a change keeps of the node that it is made to, it keeps of every node. -/
theorem modify_keeps {α : Type} (m : UserManager) (u : UserRef) {f : UserNode → UserNode}
    (field : UserNode → α) (hf : ∀ n, field (f n) = field n) (v : UserRef) :
    field ((m.modify u f).users v) = field (m.users v) := by
  by_cases hv : v = u
  · rw [hv, UserManager.modify_users_self, hf]
  · rw [UserManager.modify_users_of_ne m f hv]

/-- A user node that is found by name and changed. -/
theorem AdminFrame.of_modify (hnodup : σ.userManager.ftpUserList.Nodup)
    (hanonymous : σ.isAllowAnonymous = true →
      σ.userManager.findUser "anonymous".toList ≠ none)
    (u : UserRef) {f : UserNode → UserNode}
    (hname : ∀ n, (f n).userName = n.userName) (hclients : ∀ n, (f n).clientList = n.clientList)
    (hprivilege : ∀ n, (f n).userPrivilege = n.userPrivilege) :
    AdminFrame op σ { σ with userManager := σ.userManager.modify u f } := by
  apply AdminFrame.of_users (m := σ.userManager.modify u f) hnodup hanonymous rfl rfl
  · exact modify_keeps _ u (fun n ↦ n.userName) hname
  · exact modify_keeps _ u (fun n ↦ n.clientList) hclients
  · intro v
    exact .inl (modify_keeps _ u (fun n ↦ n.userPrivilege) hprivilege v)

/-- A user node that is taken out of the list and loses its clients. -/
theorem AdminFrame.of_deleteUser {m : UserManager} {name : WString}
    (hnodup : σ.userManager.ftpUserList.Nodup) (h : σ.userManager.deleteUser name = .ok m) :
    AdminFrame op σ { σ with userManager := m, isAllowAnonymous := false } := by
  unfold UserManager.deleteUser at h
  split at h
  · rename_i u _
    cases h
    have hkeeps : ∀ {α : Type} (field : UserNode → α), (∀ n cs, field { n with clientList := cs }
        = field n) → ∀ v, field ((σ.userManager.deleteAllClient u).users v)
          = field (σ.userManager.users v) :=
      fun field hfield ↦ modify_keeps σ.userManager u field (fun n ↦ hfield n [])
    constructor
    case clients =>
      intro v hv
      -- the list holds every user once, so that the one deleted is no longer in it
      have hne : v ≠ u := by
        rintro rfl
        exact hnodup.not_mem_erase hv
      refine .inl ⟨List.mem_of_mem_erase hv, ?_⟩
      simp [clientsOf, UserManager.deleteAllClient, UserManager.modify_users_of_ne, hne]
    case userName =>
      intro v _
      exact hkeeps (fun n ↦ n.userName) (fun _ _ ↦ rfl) v
    case userPrivilege =>
      intro v _
      exact .inl (hkeeps (fun n ↦ n.userPrivilege) (fun _ _ ↦ rfl) v)
    case nodup => exact hnodup.erase u
    case anonymous => exact fun h ↦ absurd h Bool.false_ne_true
    case nextUser => exact Nat.le_refl _
    all_goals rfl
  · cases h

theorem userManager_addUser_ok {m m' : UserManager} {name password homeDir : WString} {priv : UInt8}
    (h : m.addUser env name password homeDir priv = .ok m') :
    ∃ user : UserNode, user.userName = name ∧ user.clientList = [] ∧
      m' = { users := Function.update m.users m.nextUser user
             ftpUserList := m.ftpUserList ++ [m.nextUser]
             nextUser := m.nextUser + 1 } := by
  unfold UserManager.addUser at h
  split at h
  · cases h
  · cases hhome : UserManager.processHomeDirectory env homeDir with
    | error e => rw [hhome] at h; cases h
    | ok home =>
      rw [hhome] at h
      change (if m.findUser name ≠ none then _ else _) = Except.ok m' at h
      split at h
      · cases h
      · exact ⟨_, rfl, rfl, (Except.ok.inj h).symm⟩

/-- A new user node, listed last. -/
theorem AdminFrame.of_addUser {isAllow : Bool} {user : UserNode}
    (hlisted : ∀ u ∈ σ.userManager.ftpUserList, u < σ.userManager.nextUser)
    (hnodup : σ.userManager.ftpUserList.Nodup)
    (hanonymous : isAllow = true → σ.userManager.findUser "anonymous".toList ≠ none ∨
      user.userName = "anonymous".toList)
    (hclients : user.clientList = []) :
    AdminFrame op σ { σ with
      isAllowAnonymous := isAllow
      userManager :=
        { users := Function.update σ.userManager.users σ.userManager.nextUser user
          ftpUserList := σ.userManager.ftpUserList ++ [σ.userManager.nextUser]
          nextUser := σ.userManager.nextUser + 1 } } := by
  have hold : ∀ u < σ.userManager.nextUser,
      Function.update σ.userManager.users σ.userManager.nextUser user u
        = σ.userManager.users u :=
    fun u hu ↦ Function.update_of_ne (Nat.ne_of_lt hu) _ _
  constructor
  case clients =>
    intro u hu
    rcases List.mem_append.mp hu with hu | hu
    · exact .inl ⟨hu, by simp only [clientsOf]; rw [hold u (hlisted u hu)]⟩
    · rw [List.mem_singleton] at hu
      subst hu
      exact .inr ⟨rfl, Nat.lt_succ_self _, by simpa [clientsOf] using hclients⟩
  case userName =>
    intro u hu
    dsimp only
    rw [hold u hu]
  case userPrivilege =>
    intro u hu
    dsimp only
    rw [hold u hu]
    exact .inl rfl
  case nodup =>
    have hnew : σ.userManager.nextUser ∉ σ.userManager.ftpUserList :=
      fun h ↦ Nat.lt_irrefl _ (hlisted _ h)
    simpa using hnodup.append (List.nodup_singleton _) (by simpa using hnew)
  case anonymous =>
    intro hallowed
    rw [findUser_ne_none]
    rcases hanonymous hallowed with h | h
    · rcases findUser_ne_none.mp h with ⟨u, hu, hname⟩
      refine ⟨u, List.mem_append_left _ hu, ?_⟩
      dsimp only
      rw [hold u (hlisted u hu), hname]
    · exact ⟨σ.userManager.nextUser, by simp, by simpa using h⟩
  case nextUser => exact Nat.le_succ _
  all_goals rfl

theorem administer_frame
    (hlisted : ∀ u ∈ σ.userManager.ftpUserList, u < σ.userManager.nextUser)
    (hnodup : σ.userManager.ftpUserList.Nodup)
    (hanonymous : σ.isAllowAnonymous = true →
      σ.userManager.findUser "anonymous".toList ≠ none)
    (h : σ.administer env op = .ok τ) : AdminFrame op σ τ := by
  have hsame : AdminFrame op σ σ :=
    .of_users hnodup hanonymous rfl rfl (fun _ ↦ rfl) (fun _ ↦ rfl) fun _ ↦ .inl rfl
  cases op with
  | addUser name password homeDir priv =>
    rw [administer, FtpServer.addUser] at h
    split at h
    · cases h
    · rcases eq_ok_of_map h with ⟨m, hm, rfl⟩
      rcases userManager_addUser_ok hm with ⟨user, -, hclients, rfl⟩
      exact .of_addUser hlisted hnodup (fun h ↦ .inl (hanonymous h)) hclients
  | allowAnonymous doAllow homeDir priv =>
    rw [administer, FtpServer.allowAnonymous] at h
    split at h
    · split at h
      · -- anonymous logins are allowed from now on: the account is added
        rcases eq_ok_of_map h with ⟨m, hm, rfl⟩
        rcases userManager_addUser_ok hm with ⟨user, hname, hclients, rfl⟩
        exact .of_addUser hlisted hnodup (fun _ ↦ .inr hname) hclients
      · cases h
        exact hsame
    · split at h
      · split at h
        · rename_i m hm
          cases h
          exact .of_deleteUser hnodup hm
        · cases h
          -- the account is gone already: only the switch is turned off
          exact { hsame with anonymous := fun h ↦ absurd h Bool.false_ne_true }
        · cases h
      · cases h
        exact hsame
  | setUserPassword name password =>
    rcases eq_ok_of_map h with ⟨m, hm, rfl⟩
    exact .of_modifyNamed hnodup hanonymous hm (fun _ ↦ rfl) (fun _ ↦ rfl) fun _ ↦ .inl rfl
  | setUserPrivilege name priv =>
    rcases eq_ok_of_map h with ⟨m, hm, rfl⟩
    exact .of_modifyNamed hnodup hanonymous hm (fun _ ↦ rfl) (fun _ ↦ rfl) fun _ ↦ .inr rfl
  | setUserHomeDirectory name homeDir =>
    rcases eq_ok_of_map h with ⟨m, hm, rfl⟩
    unfold UserManager.setUserHomeDirectory at hm
    cases hhome : UserManager.processHomeDirectory env homeDir with
    | error e => rw [hhome] at hm; cases hm
    | ok home =>
      rw [hhome] at hm
      dsimp only [bind, Except.bind] at hm
      split at hm
      · cases hm
        exact .of_modify hnodup hanonymous _ (fun _ ↦ rfl) (fun _ ↦ rfl) fun _ ↦ rfl
      · cases hm
  | setUserMaxClient name maxClient =>
    rcases eq_ok_of_map h with ⟨m, hm, rfl⟩
    unfold UserManager.setUserMaxClient at hm
    split at hm
    · cases hm
      exact .of_modify hnodup hanonymous _ (fun _ ↦ rfl) (fun _ ↦ rfl) fun _ ↦ rfl
    · cases hm
  | setIsEnable user enable =>
    cases h
    exact .of_modify hnodup hanonymous _ (fun _ ↦ rfl) (fun _ ↦ rfl) fun _ ↦ rfl

end AdminFrame

end YFtp.FtpServer
