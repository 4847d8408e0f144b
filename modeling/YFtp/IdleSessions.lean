import YFtp.RestartOffset

/-!
# Idle sessions

While no transfer is under way a session shows none: its status says that it waits, and the path of
the transfer is empty.
-/

namespace YFtp

open Theory
open FtpServer (jobOf)

namespace Session

variable {env : Env} {s t : Session} {user : Option UserNode} {arg : WString} {o : Outcome}
  {sslContext : Bool} {cmd : Command}

/-! ## The path of the transfer -/

theorem resetDataMode_transferPath (h : s.resetDataMode = .ok t) :
    t.transferPath = s.transferPath := by
  unfold resetDataMode at h
  split at h
  · dsimp only at h
    split at h
    · rcases eq_ok_of_bind h with ⟨r, hclose, h⟩
      cases h
      cases (closeDataSocket_ok hclose).1
      rfl
    · cases h
      rfl
  · cases h
    rfl

theorem secureData_transferPath (s : Session) :
    (s.secureData env sslContext).1.transferPath = s.transferPath := by
  unfold secureData
  split
  · split
    · rfl
    · dsimp only
      split
      · rfl
      · rfl
  · rfl

theorem openDataConnection_transferPath {r : Session × Bool × List Effect}
    (h : s.openDataConnection env sslContext = .ok r) : r.1.transferPath = s.transferPath := by
  unfold openDataConnection at h
  split at h
  · cases h
    rfl
  · split at h
    · cases h
    · dsimp only at h
      split at h
      · cases h
        exact secureData_transferPath _
      · cases h
        rfl
  · split at h
    · cases h
      rfl
    · split at h
      · cases h
        rfl
      · cases h
        exact secureData_transferPath _

theorem processPortCmd_transferPath (h : s.processPortCmd arg = .ok o) :
    o.session.transferPath = s.transferPath := by
  unfold processPortCmd at h
  split at h
  · cases h
    rfl
  · split at h
    · rcases eq_ok_of_bind h with ⟨t, hreset, h⟩
      have hpath := resetDataMode_transferPath hreset
      cases h
      exact hpath
    · cases h
      rfl

theorem processPasvCmd_transferPath {serverIp : Nat} {ports ports' : DataPorts}
    (h : s.processPasvCmd env serverIp ports = .ok (o, ports')) :
    o.session.transferPath = s.transferPath := by
  unfold processPasvCmd at h
  split at h
  · cases h
    rfl
  · rcases eq_ok_of_bind h with ⟨t, hreset, h⟩
    have hpath := resetDataMode_transferPath hreset
    dsimp only at h
    split at h
    · cases h
      exact hpath
    · split at h
      · split at h
        · cases h
          exact hpath
        · cases h
          exact hpath
      · split at h
        · cases h
          exact hpath
        · cases h
          exact hpath

theorem processListCmd_transferPath (h : s.processListCmd env sslContext user cmd = .ok o) :
    o.session.transferPath = s.transferPath := by
  rcases eq_ok_of_bind h with ⟨u, -, h⟩
  split at h
  · cases h
    rfl
  · split at h
    · cases h
      rfl
    · rcases eq_ok_of_ite_bind h with ⟨⟨t, opened, fx⟩, hopen, h⟩
      have hpath : t.transferPath = s.transferPath := by
        split at hopen
        · exact openDataConnection_transferPath hopen
        · cases hopen
          rfl
      dsimp only at h
      split at h
      · cases h
        exact hpath
      · split at h
        · cases h
          exact hpath
        · cases h
          exact hpath

/-- The path of the transfer is left or cleared, or a thread is created for the transfer of a
file. -/
def LeavesPath (s : Session) (o : Outcome) : Prop :=
  o.session.transferPath = s.transferPath ∨ o.session.transferPath = [] ∨
    ∃ job ∈ o.effects.filterMap jobOf, job.movesFile = true

-- the last thing a handler does is to create its thread
theorem mem_filterMap_jobOf {fx : List Effect} {effect : Effect} {job : Job}
    (h : jobOf effect = some job) : job ∈ (fx ++ [effect]).filterMap jobOf :=
  List.mem_filterMap.mpr ⟨effect, List.mem_append_right _ (List.mem_singleton_self _), h⟩

theorem processRetrCmd_leavesPath (h : s.processRetrCmd env sslContext user arg = .ok o) :
    s.LeavesPath o := by
  rcases eq_ok_of_bind h with ⟨u, -, h⟩
  split at h
  · cases h
    exact .inl rfl
  · split at h
    · split at h
      · cases h
        exact .inl rfl
      · rcases eq_ok_of_bind h with ⟨⟨t, opened, fx⟩, hopen, h⟩
        have hpath := openDataConnection_transferPath hopen
        dsimp only at h
        split at h
        · cases h
          exact .inl hpath
        · split at h
          · split at h
            · cases h
              exact .inr (.inl rfl)
            · cases h
              exact .inr (.inr ⟨.retrieve, mem_filterMap_jobOf rfl, rfl⟩)
          · cases h
            exact .inl hpath
    · cases h
      exact .inl rfl

theorem processStorCmd_leavesPath (h : s.processStorCmd env sslContext user cmd = .ok o) :
    s.LeavesPath o := by
  rcases eq_ok_of_bind h with ⟨u, -, h⟩
  split at h
  · cases h
    exact .inl rfl
  · split at h
    · split at h
      · cases h
        exact .inl rfl
      · rcases eq_ok_of_bind h with ⟨⟨t, opened, fx⟩, hopen, h⟩
        have hpath := openDataConnection_transferPath hopen
        dsimp only at h
        split at h
        · cases h
          exact .inl hpath
        · rcases eq_ok_of_ite_bind h with ⟨⟨unique, searched⟩, -, h⟩
          dsimp only at h
          generalize (if unique ≠ [] then unique else buildPath env.canonical u.homeDirectory
            t.currentDirectory cmd.args false) = path at h
          split at h
          · split at h
            · cases h
              exact .inr (.inl rfl)
            · cases h
              exact .inr (.inr ⟨.store, mem_filterMap_jobOf rfl, rfl⟩)
          · cases h
            exact .inl hpath
    · cases h
      exact .inl rfl

end Session

open Session in
/-- What a command of the session does to the path of the transfer. -/
theorem FtpServer.SessionRun.leavesPath {build : Build} {env : Env} {σ : FtpServer} {c : ClientRef}
    {cmd : Command} {o : Outcome} {ports : DataPorts}
    (h : FtpServer.SessionRun build env σ c cmd o ports) :
    (σ.nodes c).toSession.LeavesPath o := by
  cases h.acted with
  | keeps hkeeps => exact .inl hkeeps.same.transferPath
  | stat _ hsession => exact .inl (by rw [hsession])
  | prot _ _ hsession => exact .inl (by rw [hsession])
  | abor _ _ hclose hsession =>
    rw [LeavesPath, hsession, (closeDataSocket_ok hclose).1]
    exact .inl rfl
  | rest _ _ _ hsession => exact .inl (by rw [hsession])
  | address hid =>
    cases h with
    | pasv _ h => exact .inl (processPasvCmd_transferPath h)
    | plain => exact .inl rfl
    | handler h =>
      unfold sessionHandler at h
      rcases hid with hid | hid <;> simp only [hid] at h
      · exact .inl (processPortCmd_transferPath (Option.some.inj h))
      · cases h
  | opens hopens =>
    have htransfers := transfers_of_opensData hopens
    cases h with
    | pasv hid =>
      rw [hid] at htransfers
      cases htransfers
    | plain => exact .inl rfl
    | handler h =>
      unfold sessionHandler at h
      cases hid : cmd.id <;> rw [hid] at htransfers h <;> dsimp only at h
      case LIST => exact .inl (processListCmd_transferPath (Option.some.inj h))
      case NLST => exact .inl (processListCmd_transferPath (Option.some.inj h))
      case MLSD => exact .inl (processListCmd_transferPath (Option.some.inj h))
      case RETR => exact processRetrCmd_leavesPath (Option.some.inj h)
      case STOR => exact processStorCmd_leavesPath (Option.some.inj h)
      case APPE => exact processStorCmd_leavesPath (Option.some.inj h)
      case STOU => exact processStorCmd_leavesPath (Option.some.inj h)
      all_goals cases htransfers

theorem FtpServer.runSwitch_leavesPath {build : Build} {env : Env} {σ : FtpServer} {c : ClientRef}
    {cmd : Command} {a : Answer} (h : σ.runSwitch build env c cmd = .ok a) :
    (σ.nodes c).toSession.LeavesPath ⟨(a.server.nodes c).toSession, a.reply, a.effects⟩ := by
  have hsame : ∀ {t : Session}, t = (σ.nodes c).toSession →
      t.transferPath = (σ.nodes c).transferPath := fun ht ↦ congrArg Session.transferPath ht
  rcases runSwitch_cases h with
    ⟨-, r, hr, rfl⟩ | ⟨-, rfl⟩ | ⟨-, rfl⟩ | ⟨-, o, ports, hsession, rfl⟩
  · exact .inl (hsame (processUserCmd_session hr))
  · exact .inl (hsame (processPasswordCmd_session σ c cmd.args))
  · have hunbound := hsame (unbind_session σ c)
    unfold processReinCmd
    rw [Session.LeavesPath, setNode_self]
    exact .inl hunbound
  · have hleaves := hsession.leavesPath
    rw [conclude_nodes, setSession_toSession]
    exact hleaves

/-! ## Conversations -/

namespace Talk

variable {build : Build} {c : ClientRef} {start w w' : Talk} {env : Env} {cmd : Command} {a : Answer}
  {i : Nat} {answers : Answers} {act : Act}

/-- What the session says about a transfer is taken back by the time that it is over. -/
structure TakenBack (c : ClientRef) (w : Talk) : Prop where
  waiting : w.idle = true → (w.node c).curStatus = .waiting
  noPath : w.moving = false → (w.node c).transferPath = []
  isOpen : (w.node c).isCtrlCanalOpen = true

-- the threads there were stay, and so do those created
theorem idle_of_append (h : (w.afterCommand c env cmd a).idle = true) :
    w.idle = true ∧ ∀ t ∈ w.created c env cmd a, t.stage.transferring = false := by
  rw [idle_iff, afterCommand_threads] at h
  rw [idle_iff]
  exact ⟨fun t ht ↦ h t (List.mem_append_left _ ht), fun t ht ↦ h t (List.mem_append_right _ ht)⟩

theorem moving_of_append (h : (w.afterCommand c env cmd a).moving = false) :
    w.moving = false ∧ ∀ t ∈ w.created c env cmd a, t.stage.moving = false := by
  rw [moving_eq_false, afterCommand_threads] at h
  rw [moving_eq_false]
  exact ⟨fun t ht ↦ h t (List.mem_append_left _ ht), fun t ht ↦ h t (List.mem_append_right _ ht)⟩

-- a thread for a file is created when the status says so
theorem curStatus_command (ha : w.server.runSwitch build env c cmd = .ok a)
    (hcreated : ∀ t ∈ w.created c env cmd a, t.stage.transferring = false)
    (hwaiting : (w.node c).curStatus = .waiting) : (a.server.nodes c).curStatus = .waiting := by
  cases FtpServer.runSwitch_commanded ha with
  | login _ _ hsession => rw [hsession.curStatus, hwaiting]
  | session hacted hnode heffects =>
    rw [hnode]
    cases hacted with
    | keeps hkeeps => rw [hkeeps.same.curStatus, hwaiting]
    | stat _ hsession => rw [hsession, hwaiting]
    | prot _ _ hsession => rw [hsession, hwaiting]
    | abor _ _ _ hsession => rw [hsession]
    | rest _ _ _ hsession => rw [hsession, hwaiting]
    | address _ _ hreset _ _ _ _ hstatus =>
      rw [hstatus, (Session.resetDataMode_ok hreset).status, hwaiting]
    | opens _ _ _ _ _ hstarted =>
      have hnone : ∀ {job : Job}, a.effects.filterMap jobOf = [job] →
          job.stage.transferring = true → False := by
        intro job hjobs hrunning
        have hmem : job ∈ a.effects.filterMap jobOf := by
          rw [hjobs]
          exact List.mem_singleton_self job
        rcases mem_created c w env cmd hmem with ⟨t, ht, hstage⟩
        have hnot := hcreated t ht
        rw [hstage, hrunning] at hnot
        cases hnot
      cases hstarted with
      | refused _ hstatus => exact hstatus
      | list _ _ _ hstatus => exact hstatus
      | retrieve _ _ hjobs => exact (hnone (by rw [heffects, hjobs]) rfl).elim
      | store _ _ hjobs => exact (hnone (by rw [heffects, hjobs]) rfl).elim

theorem TakenBack.command (h : TakenBack c w) (ha : w.server.runSwitch build env c cmd = .ok a) :
    TakenBack c (w.afterCommand c env cmd a) := by
  constructor
  case waiting =>
    intro hidle
    rcases idle_of_append hidle with ⟨hold, hcreated⟩
    exact curStatus_command ha hcreated (h.waiting hold)
  case noPath =>
    intro hmoving
    rcases moving_of_append hmoving with ⟨hold, hcreated⟩
    rw [afterCommand_node]
    rcases FtpServer.runSwitch_leavesPath ha with hsame | hnone | ⟨job, hjob, hfile⟩
    · exact hsame.trans (h.noPath hold)
    · exact hnone
    · -- the thread for the file is still there
      rcases mem_created c w env cmd hjob with ⟨t, ht, hstage⟩
      have hnot := hcreated t ht
      rw [hstage] at hnot
      cases job <;> cases hfile <;> cases hnot
  case isOpen =>
    rw [afterCommand_node, FtpServer.runSwitch_isCtrlCanalOpen ha]
    exact h.isOpen

theorem TakenBack.thread (h : TakenBack c w) (hstep : w.StepsThread c i answers w') :
    TakenBack c w' := by
  rcases hstep with ⟨t, s, next, fx, ht, hstep, rfl⟩
  have hset : (next.transferring = false → s.curStatus = .waiting ∨
        t.stage.transferring = false ∧ s.curStatus = (w.node c).curStatus) →
      (s.transferPath = [] ∨
        next.moving = t.stage.moving ∧ s.transferPath = (w.node c).transferPath) →
      TakenBack c { w with
        server := w.server.setSession c s, threads := w.threads.set i { t with stage := next } } := by
    intro hwaits hpath
    constructor
    case waiting =>
      rw [idle_iff, setSession_node]
      intro hnone
      have hnext := hnone _ (List.mem_set (List.getElem?_eq_some_iff.mp ht).1 _)
      rcases hwaits hnext with hwaiting | ⟨hended, hsame⟩
      · exact hwaiting
      · exact hsame.trans (h.waiting (idle_iff.mpr (forall_mem_of_set ht hnone fun _ ↦ hended)))
    case noPath =>
      rw [moving_eq_false, setSession_node]
      intro hnone
      rcases hpath with hempty | ⟨hmoving, hsame⟩
      · exact hempty
      · apply hsame.trans
        apply h.noPath
        rw [moving_eq_false]
        exact forall_mem_of_set ht hnone hmoving.symm.trans
    case isOpen =>
      rw [setSession_node]
      exact h.isOpen
  generalize t.stage = stage at hstep hset
  cases stage_stepped hstep with
  | goesOn hsession hbegun hstarted hkeeps hmoves hunfinished =>
    subst hsession
    refine hset (fun hnext ↦ .inr ⟨?_, rfl⟩)
      (.inr ⟨moving_goesOn hkeeps hmoves hunfinished, rfl⟩)
    rw [← Bool.not_eq_true]
    intro hrunning
    rw [hunfinished hrunning] at hnext
    cases hnext
  | begins hid hsession =>
    subst hsession
    refine hset (fun hnext ↦ absurd hid (of_decide_eq_false hnext)) (.inr ⟨?_, rfl⟩)
    unfold Stage.moving Stage.movesFile
    rw [Bool.and_false, Bool.and_false]
  | closes hclose =>
    cases (Session.closeDataSocket_ok hclose).1
    exact hset (fun hnext ↦ by cases hnext) (.inr ⟨rfl, rfl⟩)
  | @finishes job complete hsession =>
    -- the final block of a listing leaves the path
    rw [if_pos h.isOpen] at hsession
    subst hsession
    cases job with
    | list cmd begun => exact hset (fun _ ↦ .inl rfl) (.inr ⟨rfl, rfl⟩)
    | retrieve => exact hset (fun _ ↦ .inl rfl) (.inl rfl)
    | store => exact hset (fun _ ↦ .inl rfl) (.inl rfl)

theorem TakenBack.step (h : TakenBack c w) (hstep : Speaks build c w act w') : TakenBack c w' := by
  cases act with
  | command cmd env =>
    rcases speaks_command hstep with ⟨a, ha, -, rfl⟩
    exact h.command ha
  | thread i answers =>
    rcases speaks_thread hstep with rfl | hstep
    · exact h
    · exact h.thread hstep
  | elsewhere σ =>
    rw [speaks_elsewhere hstep]
    constructor
    · rw [elsewhere_node]
      exact h.waiting
    · rw [elsewhere_node]
      exact h.noPath
    · rw [elsewhere_node]
      exact h.isOpen

end Talk

end YFtp
