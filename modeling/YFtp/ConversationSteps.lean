import YFtp.ThreadSteps
import YFtp.TransferSpecs

/-!
# Steps of a conversation

What one command and one step of a thread can do to the fields that they share.
-/

namespace YFtp

open FtpServer (jobOf)

/-! ## Commands -/

/-- What a command that changes the login state leaves of the fields shared with threads: REIN only
gives up the data mode. -/
structure Session.SameButMode (s t : Session) : Prop where
  dataSocket : t.dataSocket = s.dataSocket
  dataAcceptor : t.dataAcceptor = s.dataAcceptor
  sslSocket : t.sslSocket = s.sslSocket
  dataUseSsl : t.dataUseSsl = s.dataUseSsl
  restartAt : t.restartAt = s.restartAt
  curStatus : t.curStatus = s.curStatus

/-- What a command does to the session it comes in. -/
inductive Commanded (env : Env) (c : ClientRef) (w : Talk) (cmd : Command) (a : Answer) : Prop
  | login (hlogin : FtpServer.Commands.isLogin cmd.id = true) (effects : a.effects = [])
      (session : Session.SameButMode (w.node c).toSession (a.server.nodes c).toSession)
  | session {o : Outcome}
      (acted : Session.Acted env w.server.sslContext (w.account c) (w.node c).toSession cmd o)
      (node : (a.server.nodes c).toSession = o.session) (effects : a.effects = o.effects)
      (reply : a.reply = o.reply)

namespace FtpServer

variable {build : Build} {env : Env} {σ : FtpServer} {c : ClientRef} {cmd : Command} {a : Answer}

theorem sameButMode_of_eq {s t : Session} (h : t = s) : Session.SameButMode s t := by
  rw [h]
  exact ⟨rfl, rfl, rfl, rfl, rfl, rfl⟩

theorem runSwitch_commanded {w : Talk} (h : w.server.runSwitch build env c cmd = .ok a) :
    Commanded env c w cmd a := by
  rcases runSwitch_cases h with
    ⟨hid, r, hr, rfl⟩ | ⟨hid, rfl⟩ | ⟨hid, rfl⟩ | ⟨-, o, ports, hsession, rfl⟩
  · exact .login (by rw [hid]; rfl) rfl (sameButMode_of_eq (processUserCmd_session hr))
  · exact .login (by rw [hid]; rfl) rfl
      (sameButMode_of_eq (processPasswordCmd_session w.server c cmd.args))
  · refine .login (by rw [hid]; rfl) rfl ?_
    have hsame : ∀ {α : Type} (field : Session → α),
        field ((w.server.unbind c).nodes c).toSession = field (w.node c).toSession :=
      fun field ↦ congrArg field (unbind_session w.server c)
    dsimp only
    rw [processReinCmd, setNode_self]
    exact ⟨hsame Session.dataSocket, hsame Session.dataAcceptor, hsame Session.sslSocket,
      hsame Session.dataUseSsl, hsame Session.restartAt, hsame Session.curStatus⟩
  · refine .session hsession.acted ?_ rfl rfl
    rw [conclude_nodes, setSession_toSession]

/-- A field of the client node that is neither of its session nor of its login state. -/
theorem runSwitch_field {α : Type} (field : ClientNode → α)
    (hlogin : ∀ n isLogged isAnonymous user,
      field { n with isLogged, isAnonymous, user } = field n)
    (hsession : ∀ n s, field { n with toSession := s } = field n)
    (h : σ.runSwitch build env c cmd = .ok a) :
    field (a.server.nodes c) = field (σ.nodes c) := by
  have hlogOut : ∀ {τ : FtpServer}, σ.logOut c = .ok τ →
      field (τ.nodes c) = field (σ.nodes c) := by
    intro τ hτ
    rcases logOut_cases hτ with ⟨-, rfl⟩ | ⟨-, u, -, rfl⟩
    · rfl
    · rw [setNode_self]
      exact hlogin _ _ _ _
  have hunbind : field ((σ.unbind c).nodes c) = field (σ.nodes c) := by
    unfold unbind
    split
    · rw [setNode_self]
      exact hlogin _ _ _ _
    · rfl
  rcases runSwitch_cases h with
    ⟨hid, r, hr, rfl⟩ | ⟨hid, rfl⟩ | ⟨hid, rfl⟩ | ⟨-, o, ports, -, rfl⟩
  · rcases processUserCmd_ok hr with ⟨τ, hτ, hbound⟩
    refine Eq.trans ?_ (hlogOut hτ)
    dsimp only
    cases hbound with
    | unchanged => rfl
    | anonymous =>
      rw [setNode_self]
      exact hlogin _ _ _ _
    | named _ _ _ hadd =>
      rw [addClient_nodes hadd, setNode_self]
      exact hlogin _ _ _ _
    | full =>
      rw [setNode_self]
      exact hlogin _ _ _ _
    | unknown =>
      rw [setNode_self]
      exact hlogin _ _ _ _
  · dsimp only
    rw [processPasswordCmd_eq]
    split
    · rw [setNode_self]
      exact hlogin _ _ _ _
    · exact hunbind
  · dsimp only
    rw [processReinCmd, setNode_self]
    exact ((hlogin _ _ _ _).trans (hsession _ _)).trans hunbind
  · rw [conclude_nodes, setSession, setNode_self]
    exact hsession _ _

-- the control connection of a session stays open while its commands are handled
theorem runSwitch_isCtrlCanalOpen (h : σ.runSwitch build env c cmd = .ok a) :
    (a.server.nodes c).isCtrlCanalOpen = (σ.nodes c).isCtrlCanalOpen :=
  runSwitch_field ClientNode.isCtrlCanalOpen (fun _ _ _ _ ↦ rfl) (fun _ _ ↦ rfl) h

end FtpServer

/-! ## Threads -/

/-- The job works on a file. -/
def Job.movesFile : Job → Bool
  | .list _ _ => false
  | .store | .retrieve => true

/-- The thread was made for a file transfer. -/
def Stage.movesFile : Stage → Bool
  | .store _ | .retrieve _ => true
  | .shutDown job _ | .closeSocket job _ | .finish job _ => job.movesFile
  | _ => false

/-- What a step of a thread does to the session: most leave it alone. -/
inductive Stepped (n : ClientNode) (s : Session) : Stage → Stage → Prop
  | goesOn {stage next : Stage} (session : s = n.toSession) (begun : next.atBegin = false)
      (started : stage.atBegin = true → stage.transferring = false)
      (transferring : next.transferring = true → stage.transferring = true)
      (movesFile : next.transferring = true → next.movesFile = stage.movesFile)
      (unfinished : stage.transferring = true → next.transferring = true) : Stepped n s stage next
  | begins {cmd : Command} (hid : cmd.id ≠ .STAT)
      (session : s = { n.toSession with curStatus := .listing }) :
      Stepped n s (.list cmd .begin) (.list cmd .announce)
  | closes {job : Job} {complete : Bool} (close : n.closeDataSocket = .ok s) :
      Stepped n s (.closeSocket job complete) (.finish job complete)
  | finishes {job : Job} {complete : Bool}
      (session : s = if n.isCtrlCanalOpen then n.settle job else n.toSession) :
      Stepped n s (.finish job complete) .ended

section Stepped

variable {a : Answers} {n : ClientNode} {user : Option UserNode} {stage next : Stage} {s : Session}
  {fx : List ThreadEvent}

theorem transferring_list (cmd : Command) {stage : ListStage} (h : stage ≠ .endOfStatus) :
    (Stage.list cmd stage).transferring = decide (cmd.id ≠ .STAT) := by
  cases stage <;> first | rfl | exact absurd rfl h

theorem eq_begin_of_atBegin {cmd : Command} {stage : ListStage}
    (h : (Stage.list cmd stage).atBegin = true) : stage = .begin := by
  cases stage <;> first | rfl | cases h

-- `list_thread` goes on within its listing
theorem listing_goesOn (n : ClientNode) (cmd : Command) {stage next : ListStage}
    (hstage : stage ≠ .endOfStatus) (hnext : next ≠ .endOfStatus) (hbegin : next ≠ .begin)
    (hstarted : stage = .begin → cmd.id = .STAT) :
    Stepped n n.toSession (.list cmd stage) (.list cmd next) := by
  have hsame := (transferring_list cmd hnext).trans (transferring_list cmd hstage).symm
  refine .goesOn rfl ?_ ?_ hsame.symm.trans (fun _ ↦ rfl) hsame.trans
  · cases next <;> first | rfl | exact absurd rfl hbegin
  · intro hstart
    rw [transferring_list cmd hstage, hstarted (eq_begin_of_atBegin hstart)]
    rfl

theorem afterListing_goesOn (n : ClientNode) (cmd : Command) {stage : ListStage}
    (hstage : stage ≠ .endOfStatus) (hstarted : stage ≠ .begin) :
    Stepped n n.toSession (.list cmd stage) (afterListing cmd) := by
  have hsame := transferring_list cmd hstage
  have hnever : (Stage.list cmd stage).atBegin = true → (Stage.list cmd stage).transferring = false :=
    fun hstart ↦ absurd (eq_begin_of_atBegin hstart) hstarted
  unfold afterListing
  by_cases hstat : cmd.id = .STAT
  · rw [if_pos hstat]
    rw [hstat] at hsame
    refine .goesOn rfl rfl hnever (fun h ↦ ?_) (fun _ ↦ rfl) (fun h ↦ ?_)
    · cases h
    · rw [hsame] at h
      cases h
  · rw [if_neg hstat]
    exact .goesOn rfl rfl hnever (fun _ ↦ hsame.trans (decide_eq_true hstat)) (fun _ ↦ rfl)
      (fun _ ↦ rfl)

theorem listStage_stepped {cmd : Command} {stage : ListStage}
    (h : stage.step a n.toSession user cmd = .ok (s, next, fx)) :
    Stepped n s (.list cmd stage) next := by
  rcases list_listed h with ⟨hsession, hlisted⟩
  have hsession : s = stage.sets cmd n.toSession := hsession
  rw [hsession]
  cases hlisted with
  | announces hid => exact .begins hid (if_pos hid)
  | begins hid =>
    unfold ListStage.sets
    rw [if_neg (not_not.mpr hid)]
    exact listing_goesOn n cmd (by simp) (by simp) (by simp) fun _ ↦ hid
  | announced | shows | enters | single | skips | entry =>
    exact listing_goesOn n cmd (by simp) (by simp) (by simp) (by simp)
  | misses | exhausted => exact afterListing_goesOn n cmd (by simp) (by simp)
  | line hnext =>
    rcases hnext with rfl | ⟨path, -, rfl⟩
    · exact afterListing_goesOn n cmd (by simp) (by simp)
    · exact listing_goesOn n cmd (by simp) (by simp) (by simp) (by simp)
  | ends =>
    exact .goesOn rfl rfl (fun h ↦ by cases h) (fun h ↦ by cases h) (fun h ↦ by cases h)
      (fun h ↦ by cases h)

-- a thread that moves a file goes on in it or to the end of its connection
theorem moved_stepped {α : Type} {thread : α → Stage} {job : Job} {stage : α}
    (hthread : ∀ stage, (thread stage).atBegin = false ∧ (thread stage).transferring = true ∧
      (thread stage).movesFile = job.movesFile)
    (h : Moved thread job n.toSession (s, next, fx)) : Stepped n s (thread stage) next := by
  have hsession : s = n.toSession := h.session
  rw [hsession]
  rcases hthread stage with ⟨hbegin, htransferring, hmoves⟩
  have hstarted (hstart : (thread stage).atBegin = true) : (thread stage).transferring = false := by
    rw [hbegin] at hstart
    cases hstart
  rcases h.next with ⟨next', hnext⟩ | ⟨complete, hnext⟩
  · have hnext : next = thread next' := hnext
    rcases hthread next' with ⟨hbegin', htransferring', hmoves'⟩
    rw [hnext]
    exact .goesOn rfl hbegin' hstarted (fun _ ↦ htransferring) (fun _ ↦ hmoves'.trans hmoves.symm)
      fun _ ↦ htransferring'
  · have hnext : next = .shutDown job complete := hnext
    rw [hnext]
    exact .goesOn rfl rfl hstarted (fun _ ↦ htransferring) (fun _ ↦ hmoves.symm) fun _ ↦ rfl

/-- What a step of a thread can do. -/
theorem stage_stepped (h : stage.step a n user = .ok (s, next, fx)) : Stepped n s stage next := by
  cases stage with
  | list cmd stage => exact listStage_stepped h
  | store stage => exact moved_stepped (fun _ ↦ ⟨rfl, rfl, rfl⟩) (store_moved h)
  | retrieve stage => exact moved_stepped (fun _ ↦ ⟨rfl, rfl, rfl⟩) (retrieve_moved h)
  | shutDown job complete =>
    rcases eq_ok_of_liftFault_bind h with ⟨t, ht, h⟩
    cases h
    have hsame : s = n.toSession := by
      unfold Session.shutDownDataSocket at ht
      split at ht
      · split at ht
        · cases ht
        · exact (Except.ok.inj ht).symm
      · split at ht
        · cases ht
        · exact (Except.ok.inj ht).symm
    exact .goesOn hsame rfl (fun h ↦ by cases h) (fun _ ↦ rfl) (fun _ ↦ rfl) fun _ ↦ rfl
  | closeSocket job complete =>
    rcases eq_ok_of_liftFault_bind h with ⟨t, ht, h⟩
    cases h
    exact .closes ht
  | finish job complete =>
    rw [Stage.step] at h
    split at h
    · rename_i hopen
      cases h
      exact .finishes (by rw [if_pos hopen])
    · rename_i hclosed
      cases h
      exact .finishes (by rw [if_neg hclosed])
  | ended =>
    cases h
    exact .goesOn rfl rfl (fun h ↦ by cases h) (fun h ↦ by cases h) (fun h ↦ by cases h)
      (fun h ↦ by cases h)

-- only the final block ends a transfer
theorem Stepped.unfinished_or (h : Stepped n s stage next) (hrunning : stage.transferring = true) :
    next.transferring = true ∨ ∃ job complete, stage = .finish job complete := by
  cases h with
  | goesOn _ _ _ _ _ unfinished => exact .inl (unfinished hrunning)
  | begins hid => exact .inl (decide_eq_true hid)
  | closes => exact .inl rfl
  | finishes => exact .inr ⟨_, _, rfl⟩

end Stepped

/-! ## Conversations -/

namespace Talk

variable {build : Build} {c : ClientRef} {w w' : Talk} {cmd : Command} {env : Env} {i : Nat}
  {answers : Answers} {act : Act}

theorem speaks_command (h : Speaks build c w (.command cmd env) w') :
    ∃ a, w.server.runSwitch build env c cmd = .ok a ∧ a.ret = true ∧
      w' = w.afterCommand c env cmd a := by
  change ((liftFault (w.server.runSwitch build env c cmd)).map fun a ↦
    if a.ret then some (w.afterCommand c env cmd a) else none) = .ok (some w') at h
  cases hrun : w.server.runSwitch build env c cmd with
  | error fault =>
    rw [hrun] at h
    cases h
  | ok a =>
    rw [hrun] at h
    cases hret : a.ret with
    | false =>
      simp [liftFault, Except.mapError, Except.map, hret] at h
    | true =>
      simp only [liftFault, Except.mapError, Except.map, hret, if_true, Except.ok.injEq,
        Option.some.injEq] at h
      exact ⟨a, rfl, hret, h.symm⟩

/-- A step of thread `i` of the conversation. -/
def StepsThread (c : ClientRef) (w : Talk) (i : Nat) (answers : Answers) (w' : Talk) : Prop :=
  ∃ t s next fx, w.threads[i]? = some t ∧
    t.stage.step answers (w.node c) (w.account c) = .ok (s, next, fx) ∧
    w' = { w with
      server := w.server.setSession c s, threads := w.threads.set i { t with stage := next } }

theorem speaks_thread (h : Speaks build c w (.thread i answers) w') :
    w' = w ∨ w.StepsThread c i answers w' := by
  rw [Speaks, exec] at h
  cases ht : w.threads[i]? with
  | none =>
    rw [ht] at h
    cases h
    exact .inl rfl
  | some t =>
    rw [ht] at h
    dsimp only at h
    cases hstep : t.stage.step answers (w.node c) (w.account c) with
    | error fault =>
      rw [hstep] at h
      cases h
    | ok r =>
      rcases r with ⟨s, next, fx⟩
      rw [hstep] at h
      cases h
      exact .inr ⟨t, s, next, fx, ht, hstep, rfl⟩

theorem speaks_of_step {t : Thread} {s : Session} {next : Stage} {fx : List ThreadEvent}
    (ht : w.threads[i]? = some t)
    (h : t.stage.step answers (w.node c) (w.account c) = .ok (s, next, fx)) :
    Speaks build c w (.thread i answers) { w with
      server := w.server.setSession c s, threads := w.threads.set i { t with stage := next } } := by
  rw [Speaks, exec, ht]
  dsimp only
  rw [h]
  rfl

theorem speaks_elsewhere {σ : FtpServer} (h : Speaks build c w (.elsewhere σ) w') :
    w' = { w with server := σ.setNode c (w.node c) } := by
  cases h
  rfl

@[simp] theorem elsewhere_node (w : Talk) (σ : FtpServer) (c : ClientRef) :
    ({ w with server := σ.setNode c (w.node c) } : Talk).node c = w.node c :=
  FtpServer.setNode_self ..

@[simp] theorem setSession_node (w : Talk) (s : Session) (threads : List Thread) (c : ClientRef) :
    ({ w with server := w.server.setSession c s, threads := threads } : Talk).node c
      = { w.node c with toSession := s } :=
  FtpServer.setNode_self ..

theorem speaks_open (h : Speaks build c w act w') :
    (w'.node c).isCtrlCanalOpen = (w.node c).isCtrlCanalOpen := by
  cases act with
  | command cmd env =>
    rcases speaks_command h with ⟨a, ha, -, rfl⟩
    exact FtpServer.runSwitch_isCtrlCanalOpen ha
  | thread i answers =>
    rcases speaks_thread h with rfl | ⟨t, s, next, fx, -, -, rfl⟩
    · rfl
    · rw [setSession_node]
  | elsewhere σ =>
    rw [speaks_elsewhere h, elsewhere_node]

/-- The control connection is open for as long as the conversation goes on. -/
theorem run_open {start : Talk} {trace : List (Talk × Act)} (hstart : start.Begins c)
    (run : TalkRun build c start trace w) : (w.node c).isCtrlCanalOpen = true := by
  apply run.invariant (P := fun w ↦ (w.node c).isCtrlCanalOpen = true)
  · rcases hstart.node with ⟨k, hnode⟩
    rw [hnode]
    rfl
  · intro w act w' hopen h
    rw [speaks_open h]
    exact hopen

-- the threads there are stay where they are
theorem getElem?_afterCommand {a : Answer} {t : Thread} (ht : w.threads[i]? = some t) :
    (w.afterCommand c env cmd a).threads[i]? = some t := by
  have hlt := (List.getElem?_eq_some_iff.mp ht).1
  exact (List.getElem?_append_left hlt).trans ht

theorem idle_iff : w.idle = true ↔ ∀ t ∈ w.threads, t.stage.transferring = false := by
  unfold idle
  simp only [List.all_eq_true, Bool.not_eq_true']

theorem exists_running (h : w.idle = false) : ∃ t ∈ w.threads, t.stage.transferring = true := by
  unfold idle at h
  simpa using h

/-- The threads that the command creates. -/
def created (c : ClientRef) (w : Talk) (env : Env) (cmd : Command) (a : Answer) : List Thread :=
  (a.effects.filterMap jobOf).map fun job ↦
    { stage := job.stage, connection := w.connectionAfter c env cmd, due := w.dueOf c env cmd }

theorem afterCommand_threads (w : Talk) (a : Answer) :
    (w.afterCommand c env cmd a).threads = w.threads ++ w.created c env cmd a := rfl

theorem afterCommand_node (w : Talk) (a : Answer) :
    (w.afterCommand c env cmd a).node c = a.server.nodes c := rfl

theorem created_eq_nil {a : Answer} (h : a.effects.filterMap jobOf = []) :
    w.created c env cmd a = [] := by
  unfold created
  rw [h]
  rfl

theorem forall_mem_created_of_nil {a : Answer} {P : Thread → Prop}
    (h : a.effects.filterMap jobOf = []) : ∀ t ∈ w.created c env cmd a, P t := by
  rw [created_eq_nil h]
  exact List.forall_mem_nil _

theorem created_eq {a : Answer} {job : Job} (h : a.effects.filterMap jobOf = [job]) :
    w.created c env cmd a
      = [⟨job.stage, w.connectionAfter c env cmd, w.dueOf c env cmd⟩] := by
  unfold created
  rw [h]
  rfl

-- a listing over the control connection is no transfer
theorem created_of_stat {a : Answer} (hid : cmd.id = .STAT)
    (h : a.effects.filterMap jobOf = [.list cmd false]) :
    ∀ t ∈ w.created c env cmd a, t.stage.transferring = false := by
  rw [created_eq h]
  intro t ht
  cases List.mem_singleton.mp ht
  rw [Job.stage, transferring_list cmd (by simp), hid]
  rfl

theorem mem_created (c : ClientRef) (w : Talk) (env : Env) (cmd : Command) {a : Answer} {job : Job}
    (h : job ∈ a.effects.filterMap jobOf) : ∃ t ∈ w.created c env cmd a, t.stage = job.stage :=
  ⟨_, List.mem_map_of_mem h, rfl⟩

end Talk

end YFtp
