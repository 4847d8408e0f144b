import YFtp.ConversationSteps

/-!
# Aborted transfers

ABOR closes the data socket, answers 426 for the transfer it ends and forgets about it.  The thread
of the transfer is not told: it runs to its final block, which resets the session and sends the
reply of the transfer, whatever commands have come in between.
-/

namespace YFtp

namespace Talk

/-- ABOR is answered 226 while thread `i` has a transfer under way. -/
structure Aborts (build : Build) (c : ClientRef) (w : Talk) (i : Nat) (w' : Talk) : Prop where
  running : ∃ t, w.threads[i]? = some t ∧ t.stage.transferring = true
  answered : ∃ cmd env a, cmd.id = .ABOR ∧ w.server.runSwitch build env c cmd = .ok a ∧
    a.reply.code = 226 ∧ w' = w.afterCommand c env cmd a

/-- The step of thread `i` returns, leaves the transfer of the session as it is and sends no reply.
-/
def StepsUnseen (c : ClientRef) (w : Talk) (i : Nat) (answers : Answers) : Prop :=
  ∀ t, w.threads[i]? = some t → ∃ s next fx,
    t.stage.step answers (w.node c) (w.account c) = .ok (s, next, fx) ∧
      s.curStatus = (w.node c).curStatus ∧ s.curDataMode = (w.node c).curDataMode ∧
      s.restartAt = (w.node c).restartAt ∧ s.transferPath = (w.node c).transferPath ∧
      s.dataSocket = (w.node c).dataSocket ∧ ∀ r, .reply r ∉ fx

/-- However the conversation goes on, thread `i` is never seen again. -/
def StaysAborted (build : Build) (c : ClientRef) (w : Talk) (i : Nat) : Prop :=
  ∀ trace w' answers, TalkRun build c w trace w' → w'.StepsUnseen c i answers

end Talk

/-! ## The way to the final block -/

/-- How many steps at most a thread takes to its end when nothing works any more. -/
def ListStage.rank : ListStage → Nat
  | .begin => 9
  | .announce => 8
  | .build => 7
  | .single _ _ => 6
  | .line _ _ => 5
  | .next _ => 4
  | .endOfStatus => 0

def StoreStage.rank : StoreStage → Nat
  | .mode => 8
  | .openFile _ => 7
  | .seek _ _ => 6
  | .write _ _ => 6
  | .receive _ => 5
  | .close _ _ => 4

def RetrieveStage.rank : RetrieveStage → Nat
  | .openFile => 8
  | .seek _ => 7
  | .read _ => 6
  | .send _ _ => 5
  | .close _ _ => 4

def Stage.rank : Stage → Nat
  | .list _ stage => stage.rank
  | .store stage => stage.rank
  | .retrieve stage => stage.rank
  | .shutDown _ _ => 3
  | .closeSocket _ _ => 2
  | .finish _ _ => 1
  | .ended => 0

/-- The system as it is when nothing works any more. -/
def Env.failing (env : Env) : Answers where
  env := { env with getFileStatus := fun _ ↦ none }
  sent := false
  opened := none
  reading := .failing 0

section Rank

variable {env : Env} {n : ClientNode} {user : Option UserNode} {stage next : Stage} {s : Session}
  {fx : List ThreadEvent}

theorem rank_afterListing (cmd : Command) : (afterListing cmd).rank ≤ 3 := by
  unfold afterListing
  split
  · exact Nat.zero_le 3
  · exact Nat.le_refl 3

theorem listStage_rank {cmd : Command} {stage : ListStage} (hstage : stage ≠ .endOfStatus)
    (h : stage.step env.failing n.toSession user cmd = .ok (s, next, fx)) :
    next.rank < stage.rank := by
  have hafter := rank_afterListing cmd
  cases stage with
  | begin =>
    cases (list_listed h).2 with
    | announces => exact (by decide : 8 < 9)
    | begins => exact (by decide : 7 < 9)
  | announce =>
    cases h
    exact (by decide : 7 < 8)
  | build =>
    rw [ListStage.step] at h
    rcases eq_ok_of_liftFault_bind h with ⟨u, -, h⟩
    have hnothing : ∀ path, statusOf env.failing.env path = none := by
      intro path
      unfold statusOf
      split
      · rfl
      · rfl
    dsimp only at h
    rw [hnothing] at h
    cases h
    show _ < 7
    omega
  | single path st =>
    cases (list_listed h).2
    exact (by decide : 5 < 6)
  | next path =>
    cases h
    show _ < 4
    omega
  | line text more =>
    cases (list_listed h).2 with
    | line hnext =>
      rcases hnext with rfl | ⟨path, -, rfl⟩
      · show _ < 5
        omega
      · exact (by decide : 4 < 5)
  | endOfStatus => exact absurd rfl hstage

theorem storeStage_rank {stage : StoreStage}
    (h : stage.step env.failing n.toSession = .ok (s, next, fx)) : next.rank < stage.rank := by
  cases stage with
  | mode =>
    cases h
    exact (by decide : 7 < 8)
  | openFile app =>
    cases h
    exact (by decide : 3 < 7)
  | seek app ofs =>
    have hloop : ∀ ofs : Theory.OutStream UInt8,
        (if ofs.good then StoreStage.receive ofs else .close ofs (-1)).rank < 6 := by
      intro ofs
      split
      · exact (by decide : 5 < 6)
      · exact (by decide : 4 < 6)
    rw [StoreStage.step] at h
    split at h
    · cases h
      exact hloop _
    · cases h
      exact (by decide : 5 < 6)
  | receive ofs =>
    rcases eq_ok_of_liftFault_bind h with ⟨u, -, h⟩
    cases h
    exact (by decide : 4 < 5)
  | write ofs block =>
    cases h
    split
    · exact (by decide : 5 < 6)
    · exact (by decide : 4 < 6)
  | close ofs len =>
    cases h
    exact (by decide : 3 < 4)

theorem retrieveStage_rank {stage : RetrieveStage}
    (h : stage.step env.failing n.toSession = .ok (s, next, fx)) : next.rank < stage.rank := by
  cases stage with
  | openFile =>
    cases h
    exact (by decide : 3 < 8)
  | seek ins =>
    rw [RetrieveStage.step] at h
    dsimp only at h
    split at h
    · cases h
      split
      · exact (by decide : 6 < 7)
      · exact (by decide : 4 < 7)
    · cases h
      exact (by decide : 6 < 7)
  | read ins =>
    cases h
    split
    · exact (by decide : 4 < 6)
    · exact (by decide : 5 < 6)
  | send ins block =>
    rcases eq_ok_of_liftFault_bind h with ⟨u, -, h⟩
    cases h
    exact (by decide : 4 < 5)
  | close ins len =>
    cases h
    exact (by decide : 3 < 4)

-- each step takes a transfer nearer to its end
theorem stage_rank (hrunning : stage.transferring = true)
    (h : stage.step env.failing n user = .ok (s, next, fx)) : next.rank < stage.rank := by
  cases stage with
  | list cmd stage =>
    refine listStage_rank ?_ h
    rintro rfl
    cases hrunning
  | store stage => exact storeStage_rank h
  | retrieve stage => exact retrieveStage_rank h
  | shutDown job complete =>
    rcases eq_ok_of_liftFault_bind h with ⟨t, -, h⟩
    cases h
    exact (by decide : 2 < 3)
  | closeSocket job complete =>
    rcases eq_ok_of_liftFault_bind h with ⟨t, -, h⟩
    cases h
    exact (by decide : 1 < 2)
  | finish job complete =>
    rw [Stage.step] at h
    split at h
    · cases h
      exact Nat.one_pos
    · cases h
      exact Nat.one_pos
  | ended => cases hrunning

end Rank

/-! ## Threads after ABOR -/

namespace Talk

variable {build : Build} {c : ClientRef} {start w w' : Talk} {i : Nat}

theorem StaysAborted.later {trace : List (Talk × Act)} (h : StaysAborted build c w i)
    (run : TalkRun build c w trace w') : StaysAborted build c w' i := by
  intro trace' later answers run'
  exact h _ later answers (run.trans run')

theorem StaysAborted.unseen (h : StaysAborted build c w i) (answers : Answers) :
    w.StepsUnseen c i answers := h [] w answers .refl

-- ABOR has one answer
theorem abor_code {env : Env} {cmd : Command} {σ : FtpServer} {a : Answer} (hid : cmd.id = .ABOR)
    (h : σ.runSwitch build env c cmd = .ok a) : a.reply.code = 226 := by
  unfold FtpServer.runSwitch FtpServer.sessionHandler at h
  simp only [hid] at h
  rcases eq_ok_of_map h with ⟨o, ho, rfl⟩
  unfold Session.processAborCmd at ho
  split at ho
  · rcases eq_ok_of_bind ho with ⟨t, -, ho⟩
    cases ho
    rfl
  · cases ho
    rfl

theorem aborts_of_speaks {env : Env} {cmd : Command} (hid : cmd.id = .ABOR)
    (hrunning : (w.threads[i]?).any (·.stage.transferring) = true)
    (h : w.Speaks build c (.command cmd env) w') : Aborts build c w i w' := by
  rw [Option.any_eq_true] at hrunning
  rcases speaks_command h with ⟨a, ha, -, rfl⟩
  exact ⟨hrunning, cmd, env, a, hid, ha, abor_code hid ha, rfl⟩

-- by induction on the number of steps to the final block, which sends a reply
theorem not_staysAborted (env : Env) {t : Thread} (hopen : (w.node c).isCtrlCanalOpen = true)
    (ht : w.threads[i]? = some t) (hrunning : t.stage.transferring = true) :
    ¬StaysAborted build c w i := by
  induction hrank : t.stage.rank using Nat.strong_induction_on generalizing w t with
  | _ rank ih =>
    intro hstays
    rcases hstays.unseen env.failing t ht with ⟨s, next, fx, hstep, -, -, -, -, -, hsilent⟩
    have hless := stage_rank hrunning hstep
    have hspeaks : w.Speaks build c (.thread i env.failing) _ := speaks_of_step ht hstep
    have hlater := hstays.later (.snoc .refl hspeaks)
    rcases (stage_stepped hstep).unfinished_or hrunning with hnext | ⟨job, complete, hfinish⟩
    · refine ih next.rank (hrank ▸ hless) (t := { t with stage := next }) ?_ ?_ hnext rfl hlater
      · rw [speaks_open hspeaks, hopen]
      · exact List.getElem?_set_self (List.getElem?_eq_some_iff.mp ht).1
    · -- the control connection is open, so the final block sends its reply
      rw [hfinish, Stage.step, if_pos hopen] at hstep
      cases hstep
      exact hsilent (finalReply job complete) (by simp)

/-- After ABOR the thread of the transfer is heard of again, whatever it was doing. -/
theorem staysAborted_never {trace : List (Talk × Act)} (hstart : start.Begins c)
    (run : TalkRun build c start trace w) (h : Aborts build c w i w') :
    ¬StaysAborted build c w' i := by
  rcases h.running with ⟨t, ht, hrunning⟩
  rcases h.answered with ⟨cmd, env, a, -, ha, -, rfl⟩
  apply not_staysAborted env _ (getElem?_afterCommand ht) hrunning
  show (a.server.nodes c).isCtrlCanalOpen = true
  rw [FtpServer.runSwitch_isCtrlCanalOpen ha]
  exact run_open hstart run

end Talk

/-! ## A download -/

namespace Sample

/-- The thread of a download has been created. -/
def downloading : Talk :=
  (talk.after {} 0 (login ++ [say .PASV "", say .RETR "notes"])).get (by decide +kernel)

/-- ABOR has been answered. -/
def aborted : Talk := (downloading.after {} 0 [say .ABOR ""]).get (by decide +kernel)

/-- PASV has been answered 227, and the thread has come to its final block. -/
def resumed : Talk := (aborted.after {} 0 [say .PASV "", .thread 0 (Env.failing env),
  .thread 0 (Env.failing env), .thread 0 (Env.failing env)]).get (by decide +kernel)

theorem downloading_run : ∃ trace, TalkRun {} 0 talk trace downloading := Talk.exists_run _

theorem downloading_aborts : Talk.Aborts {} 0 downloading 0 aborted := by
  have hspeaks : downloading.Speaks {} 0 (say .ABOR "") aborted :=
    Talk.speaks_of_after (Option.some_get _).symm
  exact Talk.aborts_of_speaks rfl (by decide +kernel) hspeaks

theorem resumed_run : ∃ trace, TalkRun {} 0 aborted trace resumed := Talk.exists_run _

end Sample

theorem Talk.staysAborted_download : ¬Talk.StaysAborted {} 0 Sample.aborted 0 := by
  rcases Sample.downloading_run with ⟨trace, run⟩
  exact staysAborted_never Sample.talk_begins run Sample.downloading_aborts

/-- The thread of a download that ABOR has ended gives up the data mode that PASV has chosen since,
and answers for the download. -/
theorem Talk.staysAborted_fails : ∃ trace w w', TalkRun {} 0 Sample.talk trace w ∧
    Aborts {} 0 w 0 w' ∧ ¬StaysAborted {} 0 w' 0 := by
  rcases Sample.downloading_run with ⟨trace, run⟩
  refine ⟨trace, _, _, run, Sample.downloading_aborts, ?_⟩
  intro hstays
  rcases Sample.resumed_run with ⟨later, resumed⟩
  have hthread : Sample.resumed.threads[0]?.map (·.stage) = some (.finish .retrieve false) := by
    rfl
  have hmode : (Sample.resumed.node 0).curDataMode = .pasv := by decide +kernel
  have hopen : (Sample.resumed.node 0).isCtrlCanalOpen = true := by decide +kernel
  rw [Option.map_eq_some_iff] at hthread
  rcases hthread with ⟨t, ht, hfinish⟩
  rcases hstays later _ (Env.failing Sample.env) resumed t ht with
    ⟨s, next, fx, hstep, -, hsame, -⟩
  rw [hfinish, Stage.step, if_pos hopen] at hstep
  cases hstep
  cases hmode.symm.trans hsame.symm

end YFtp
