import YFtp.Theory.Pools
import YFtp.ConversationSteps

/-!
# The restart offset

REST keeps its offset in the client node, where the threads of `store_thread` and `retrieve_thread`
read it, and only their final blocks reset it: a transfer that is refused before its thread has been
created leaves the offset to the next one.
-/

namespace YFtp

open Theory
open FtpServer (jobOf)

/-- The thread transfers a file and has not come to the end of its final block. -/
def Stage.moving (stage : Stage) : Bool := stage.transferring && stage.movesFile

/-- The next statement of the thread reads `restart_at_`. -/
def Stage.readsOffset : Stage → Bool
  | .store .mode | .store (.seek _ _) | .retrieve (.seek _) => true
  | _ => false

theorem moving_of_readsOffset {stage : Stage} (h : stage.readsOffset = true) :
    stage.moving = true := by
  unfold Stage.readsOffset at h
  split at h
  · rfl
  · rfl
  · rfl
  · cases h

-- within its function a thread goes on with the file it moves
theorem moving_goesOn {stage next : Stage}
    (hkeeps : next.transferring = true → stage.transferring = true)
    (hmoves : next.transferring = true → next.movesFile = stage.movesFile)
    (hunfinished : stage.transferring = true → next.transferring = true) :
    next.moving = stage.moving := by
  unfold Stage.moving
  cases hnext : next.transferring with
  | true => rw [hkeeps hnext, hmoves hnext]
  | false =>
    rw [Bool.false_and, eq_comm, Bool.and_eq_false_imp]
    intro hrunning
    rw [hunfinished hrunning] at hnext
    cases hnext

namespace Talk

/-- A file is being transferred. -/
def moving (w : Talk) : Bool := w.threads.any (·.stage.moving)

/-- A REST that is accepted, or a command that gets to open a data connection for a file, comes while
no file is being transferred; and no command for the transfer of a file leaves an offset behind
without creating a thread. -/
def OffsetUsed (c : ClientRef) (w : Talk) : Act → Prop
  | .command cmd env =>
    ((cmd.id = .REST ∧ cmd.args ≠ [] ∧ (w.node c).curStatus = .waiting ∨
        Commands.transfersFile cmd.id = true ∧ (w.node c).opensData (w.account c) cmd = true) →
      w.moving = false) ∧
    (Commands.transfersFile cmd.id = true → w.moving = false → (w.node c).restartAt ≠ 0 →
      (w.node c).startsFile env w.server.sslContext (w.account c) cmd = true)
  | _ => True

/-- Every thread that is about to read the restart offset finds the one it was to run with: that of
a REST right before its command, the size of the file for APPE, and 0 otherwise. -/
def OffsetsDue (c : ClientRef) (w : Talk) : Prop :=
  ∀ t ∈ w.threads, t.stage.readsOffset = true → (w.node c).restartAt = t.due

/-- At most one file is being transferred, with the offset that it is to be transferred with; and
while none is, the offset is that of a REST that no transfer has followed. -/
structure OffsetKept (c : ClientRef) (w : Talk) : Prop where
  sole : AtMostOne (fun t ↦ t.stage.moving) w.threads
  due : ∀ t ∈ w.threads, t.stage.moving = true → (w.node c).restartAt = t.due ∧ w.rest = none
  rest : w.moving = false → (w.node c).restartAt = w.rest.getD 0
  isOpen : (w.node c).isCtrlCanalOpen = true

variable {build : Build} {c : ClientRef} {start w w' : Talk} {env : Env} {cmd : Command} {a : Answer}
  {i : Nat} {answers : Answers}

theorem moving_eq_false : w.moving = false ↔ ∀ t ∈ w.threads, t.stage.moving = false := by
  unfold moving
  simp only [List.any_eq_false, Bool.not_eq_true]

/-! ## Commands -/

-- a command that creates no thread for a file
theorem OffsetKept.keep (h : OffsetKept c w)
    (ha : w.server.runSwitch build env c cmd = .ok a)
    (hcreated : ∀ t ∈ w.created c env cmd a, t.stage.moving = false)
    (hmoving : w.moving = true → (a.server.nodes c).restartAt = (w.node c).restartAt ∧
      (w.rest = none → w.restAfter cmd a = none))
    (hidle : w.moving = false →
      (a.server.nodes c).restartAt = (w.restAfter cmd a).getD 0) :
    OffsetKept c (w.afterCommand c env cmd a) := by
  refine ⟨h.sole.append hcreated, ?_, ?_, ?_⟩
  · apply forall_mem_append
    · intro t ht hrunning
      have hbusy : w.moving = true := List.any_eq_true.mpr ⟨t, ht, hrunning⟩
      rcases hmoving hbusy with ⟨hsame, hrest⟩
      rcases h.due t ht hrunning with ⟨hdue, hnone⟩
      exact ⟨hsame.trans hdue, hrest hnone⟩
    · intro t ht hrunning
      rw [hcreated t ht] at hrunning
      cases hrunning
  · intro hnow
    apply hidle
    rw [moving_eq_false] at hnow ⊢
    intro t ht
    exact hnow t (List.mem_append_left _ ht)
  · rw [afterCommand_node, FtpServer.runSwitch_isCtrlCanalOpen ha]
    exact h.isOpen

-- a command that creates a thread for a file
theorem OffsetKept.fresh (h : OffsetKept c w) (ha : w.server.runSwitch build env c cmd = .ok a)
    (hidle : w.moving = false) {job : Job} (hjobs : a.effects.filterMap jobOf = [job])
    (hmoves : job.stage.moving = true) (hrest : w.restAfter cmd a = none)
    (hdue : (a.server.nodes c).restartAt = w.dueOf c env cmd) :
    OffsetKept c (w.afterCommand c env cmd a) := by
  have hnone := moving_eq_false.mp hidle
  refine ⟨AtMostOne.append_new hnone ?_, ?_, ?_, ?_⟩
  · rw [List.length_map, hjobs]
    exact Nat.le_refl 1
  · rw [afterCommand_threads, created_eq hjobs]
    apply forall_mem_append
    · intro t ht hrunning
      rw [hnone t ht] at hrunning
      cases hrunning
    · intro t ht _
      cases List.mem_singleton.mp ht
      exact ⟨hdue, hrest⟩
  · intro hnow
    rw [moving_eq_false, afterCommand_threads, created_eq hjobs] at hnow
    have hnew := hnow _ (List.mem_append_right _ (List.mem_singleton_self _))
    rw [hmoves] at hnew
    cases hnew
  · rw [afterCommand_node, FtpServer.runSwitch_isCtrlCanalOpen ha]
    exact h.isOpen

/-- REST sets the offset and answers 350, or leaves it and answers 501. -/
theorem runSwitch_rest {σ : FtpServer} (hid : cmd.id = .REST)
    (h : σ.runSwitch build env c cmd = .ok a) : a.effects = [] ∧
      if cmd.args ≠ [] ∧ (σ.nodes c).curStatus = .waiting then
        a.reply.code = 350 ∧ (a.server.nodes c).restartAt = wcstoll cmd.args
      else a.reply.code = 501 ∧ (a.server.nodes c).restartAt = (σ.nodes c).restartAt := by
  unfold FtpServer.runSwitch FtpServer.sessionHandler at h
  simp only [hid] at h
  cases h
  rw [FtpServer.conclude_nodes, FtpServer.setSession_toSession]
  unfold FtpServer.conclude Session.processRestCmd
  split
  · exact ⟨rfl, rfl, rfl⟩
  · exact ⟨rfl, rfl, rfl⟩

theorem OffsetKept.afterRest (h : OffsetKept c w) (hused : OffsetUsed c w (.command cmd env))
    (hid : cmd.id = .REST) (ha : w.server.runSwitch build env c cmd = .ok a) :
    OffsetKept c (w.afterCommand c env cmd a) := by
  rcases runSwitch_rest hid ha with ⟨heffects, hanswer⟩
  have hcreated : ∀ t ∈ w.created c env cmd a, t.stage.moving = false :=
    forall_mem_created_of_nil (by rw [heffects]; rfl)
  split at hanswer
  · rename_i haccept
    have hidle := hused.1 (.inl ⟨hid, haccept⟩)
    have hrest : w.restAfter cmd a = some (wcstoll cmd.args) := if_pos ⟨hid, hanswer.1⟩
    apply h.keep ha hcreated
    · rw [hidle]
      intro hbusy
      cases hbusy
    · intro _
      rw [hrest, hanswer.2]
      rfl
  · have hrest : w.restAfter cmd a = w.rest := by
      unfold restAfter
      rw [hanswer.1, hid]
      rfl
    apply h.keep ha hcreated
    · intro _
      exact ⟨hanswer.2, fun hnone ↦ hrest.trans hnone⟩
    · intro hidle
      rw [hrest, hanswer.2]
      exact h.rest hidle

-- a command for no file that leaves the offset
theorem OffsetKept.other (h : OffsetKept c w) (ha : w.server.runSwitch build env c cmd = .ok a)
    (hid : cmd.id ≠ .REST) (hfile : Commands.transfersFile cmd.id = false)
    (hcreated : ∀ t ∈ w.created c env cmd a, t.stage.moving = false)
    (hsame : (a.server.nodes c).restartAt = (w.node c).restartAt) :
    OffsetKept c (w.afterCommand c env cmd a) := by
  have hrest : w.restAfter cmd a = w.rest := by
    unfold restAfter
    rw [if_neg fun h ↦ hid h.1, hfile]
    rfl
  apply h.keep ha hcreated
  · intro _
    exact ⟨hsame, fun hnone ↦ hrest.trans hnone⟩
  · intro hidle
    rw [hrest, hsame]
    exact h.rest hidle

theorem restAfter_file (hfile : Commands.transfersFile cmd.id = true) :
    w.restAfter cmd a = none := by
  unfold restAfter
  rw [if_neg, hfile]
  · rfl
  · rintro ⟨hid, -⟩
    rw [hid] at hfile
    cases hfile

-- a command for a file that creates no thread
theorem OffsetKept.refused (h : OffsetKept c w) (hused : OffsetUsed c w (.command cmd env))
    (ha : w.server.runSwitch build env c cmd = .ok a)
    (hfile : Commands.transfersFile cmd.id = true) (hjobs : a.effects.filterMap jobOf = [])
    (hstarts : (w.node c).startsFile env w.server.sslContext (w.account c) cmd = false)
    (hsame : (a.server.nodes c).restartAt = (w.node c).restartAt ∨
      (w.node c).opensData (w.account c) cmd = true ∧ (a.server.nodes c).restartAt = 0) :
    OffsetKept c (w.afterCommand c env cmd a) := by
  have hrest := restAfter_file (w := w) (a := a) hfile
  apply h.keep ha
  · exact forall_mem_created_of_nil hjobs
  · intro hbusy
    refine ⟨?_, fun _ ↦ hrest⟩
    rcases hsame with hsame | ⟨hopens, -⟩
    · exact hsame
    · rw [hused.1 (.inr ⟨hfile, hopens⟩)] at hbusy
      cases hbusy
  · intro hidle
    rw [hrest]
    rcases hsame with hsame | ⟨-, hzero⟩
    · rw [hsame]
      -- an offset would have been used
      by_contra hoffset
      rw [hused.2 hfile hidle hoffset] at hstarts
      cases hstarts
    · exact hzero

theorem OffsetKept.command (h : OffsetKept c w) (hused : OffsetUsed c w (.command cmd env))
    (ha : w.server.runSwitch build env c cmd = .ok a) :
    OffsetKept c (w.afterCommand c env cmd a) := by
  by_cases hid : cmd.id = .REST
  · exact h.afterRest hused hid ha
  cases FtpServer.runSwitch_commanded ha with
  | login hlogin heffects hsession =>
    apply h.other ha hid _ _ hsession.restartAt
    · cases hcmd : cmd.id <;> first | rfl | (rw [hcmd] at hlogin; cases hlogin)
    · exact forall_mem_created_of_nil (by rw [heffects]; rfl)
  | @session o hacted hnode heffects =>
    have hrestart : (a.server.nodes c).restartAt = o.session.restartAt := by rw [hnode]
    have hnothing : o.effects.filterMap jobOf = [] →
        ∀ t ∈ w.created c env cmd a, t.stage.moving = false := by
      intro hjobs
      exact forall_mem_created_of_nil (by rw [heffects, hjobs])
    have hlisting : o.effects.filterMap jobOf = [.list cmd false] →
        ∀ t ∈ w.created c env cmd a, t.stage.moving = false := by
      intro hjobs t ht
      rw [created_eq (by rw [heffects, hjobs])] at ht
      cases List.mem_singleton.mp ht
      exact Bool.and_false _
    cases hacted with
    | keeps hkeeps hother =>
      have hsame := hrestart.trans hkeeps.same.restartAt
      cases hfile : Commands.transfersFile cmd.id with
      | false => exact h.other ha hid hfile (hnothing hkeeps.jobs) hsame
      | true =>
        apply h.refused hused ha hfile (by rw [heffects, hkeeps.jobs]) _ (.inl hsame)
        simp [Session.startsFile, hother]
    | stat hstat hsession hjobs =>
      apply h.other ha hid (by rw [hstat]; rfl) _ (hrestart.trans (by rw [hsession]))
      exact hlisting hjobs
    | prot hprot hlevel hsession hjobs =>
      exact h.other ha hid (by rw [hprot]; rfl) (hnothing hjobs) (hrestart.trans (by rw [hsession]))
    | rest hrest => exact absurd hrest hid
    | abor habor hbusy hclose hsession hjobs =>
      apply h.other ha hid (by rw [habor]; rfl) (hnothing hjobs)
      rw [hrestart, hsession, (Session.closeDataSocket_ok hclose).1]
    | address haddress hwaiting hreset hsocket hssl huse hsame hstatus hjobs =>
      apply h.other ha hid _ (hnothing hjobs)
      · rw [hrestart, hsame, (Session.resetDataMode_ok hreset).restartAt]
      · rcases haddress with hport | hpasv
        · rw [hport]
          rfl
        · rw [hpasv]
          rfl
    | opens hopens hopen hsocket hssl huse started =>
      cases started with
      | refused hjobs hstatus hoffset hstarts =>
        cases hfile : Commands.transfersFile cmd.id with
        | false =>
          apply h.other ha hid hfile (hnothing hjobs)
          rcases hoffset with hsame | ⟨htransfers, -⟩
          · exact hrestart.trans hsame
          · rw [hfile] at htransfers
            cases htransfers
        | true =>
          apply h.refused hused ha hfile (by rw [heffects, hjobs]) hstarts
          rcases hoffset with hsame | ⟨-, hzero⟩
          · exact .inl (hrestart.trans hsame)
          · exact .inr ⟨hopens, hrestart.trans hzero⟩
      | list hopened hfile hjobs hstatus hsame =>
        exact h.other ha hid hfile (hlisting hjobs) (hrestart.trans hsame)
      | retrieve hopened hretr hjobs hstatus hsame =>
        have hfile : Commands.transfersFile cmd.id = true := by rw [hretr]; rfl
        have hidle := hused.1 (.inr ⟨hfile, hopens⟩)
        apply h.fresh ha hidle (by rw [heffects, hjobs]) rfl (restAfter_file hfile)
        rw [hrestart, hsame, dueOf, if_neg (by rw [hretr]; decide)]
        exact h.rest hidle
      | store hopened hstore hjobs hstatus hoffset =>
        have hfile : Commands.transfersFile cmd.id = true := by
          rcases hstore with hstor | happe | hstou
          · rw [hstor]
            rfl
          · rw [happe]
            rfl
          · rw [hstou]
            rfl
        have hidle := hused.1 (.inr ⟨hfile, hopens⟩)
        apply h.fresh ha hidle (by rw [heffects, hjobs]) rfl (restAfter_file hfile)
        rw [hrestart, hoffset, dueOf]
        split
        · rfl
        · exact h.rest hidle

/-! ## Threads -/

theorem OffsetKept.thread (h : OffsetKept c w) (hstep : w.StepsThread c i answers w') :
    OffsetKept c w' := by
  rcases hstep with ⟨t, s, next, fx, ht, hstep, rfl⟩
  have hmem := List.mem_of_getElem? ht
  -- a step that leaves the offset
  have hkeep : next.moving = t.stage.moving → s.restartAt = (w.node c).restartAt →
      OffsetKept c { w with
        server := w.server.setSession c s, threads := w.threads.set i { t with stage := next } } := by
    intro hmoving hsame
    refine ⟨h.sole.set ht hmoving.symm.trans, ?_, ?_, ?_⟩
    · rw [setSession_node]
      apply forall_mem_set
      · intro j u hij hu hrunning
        rcases h.due u (List.mem_of_getElem? hu) hrunning with ⟨hdue, hrest⟩
        exact ⟨hsame.trans hdue, hrest⟩
      · intro hrunning
        rcases h.due t hmem (hmoving ▸ hrunning) with ⟨hdue, hrest⟩
        exact ⟨hsame.trans hdue, hrest⟩
    · intro hnow
      rw [setSession_node, hsame]
      apply h.rest
      rw [moving_eq_false] at hnow ⊢
      exact forall_mem_of_set ht hnow hmoving.symm.trans
    · rw [setSession_node]
      exact h.isOpen
  have hdue := h.due t hmem
  have hothers : t.stage.moving = true → ∀ (j : Nat) u, j ≠ i → w.threads[j]? = some u →
      u.stage.moving = false := fun hrunning j u hij hu ↦ h.sole.others ht hrunning hij hu
  have hsole : (next.moving = true → t.stage.moving = true) →
      AtMostOne (fun t ↦ t.stage.moving) (w.threads.set i { t with stage := next }) :=
    fun hkeeps ↦ h.sole.set ht hkeeps
  generalize t.stage = stage at hstep hkeep hdue hothers hsole
  cases stage_stepped hstep with
  | goesOn hsession hbegun hstarted hkeeps hmoves hunfinished =>
    apply hkeep (moving_goesOn hkeeps hmoves hunfinished)
    rw [hsession]
  | begins hid hsession =>
    apply hkeep
    · unfold Stage.moving Stage.movesFile
      rw [Bool.and_false, Bool.and_false]
    · rw [hsession]
  | closes hclose =>
    apply hkeep rfl
    rw [(Session.closeDataSocket_ok hclose).1]
  | @finishes job complete hsession =>
    rw [if_pos h.isOpen] at hsession
    cases hjob : job.movesFile with
    | false =>
      apply hkeep
      · exact hjob.symm
      · rw [hsession]
        cases job with
        | list => rfl
        | retrieve => cases hjob
        | store => cases hjob
    | true =>
      -- the final block resets the offset
      have hzero : s.restartAt = 0 := by
        rw [hsession]
        cases job with
        | list => cases hjob
        | retrieve => rfl
        | store => rfl
      have hrunning : (Stage.finish job complete).moving = true := hjob
      refine ⟨hsole fun hended ↦ absurd hended Bool.false_ne_true, ?_, ?_, ?_⟩
      · apply forall_mem_set
        · intro j u hij hu hmoving
          rw [hothers hrunning j u hij hu] at hmoving
          cases hmoving
        · intro hended
          cases hended
      · intro _
        rw [setSession_node, hzero, (hdue hrunning).2]
        rfl
      · rw [setSession_node]
        exact h.isOpen

/-! ## Conversations -/

theorem OffsetKept.step {act : Act} (h : OffsetKept c w) (hused : OffsetUsed c w act)
    (hstep : Speaks build c w act w') : OffsetKept c w' := by
  cases act with
  | command cmd env =>
    rcases speaks_command hstep with ⟨a, ha, -, rfl⟩
    exact h.command hused ha
  | thread i answers =>
    rcases speaks_thread hstep with rfl | hstep
    · exact h
    · exact h.thread hstep
  | elsewhere σ =>
    rw [speaks_elsewhere hstep]
    refine ⟨h.sole, ?_, ?_, ?_⟩
    · rw [elsewhere_node]
      exact h.due
    · rw [elsewhere_node]
      exact h.rest
    · rw [elsewhere_node]
      exact h.isOpen

theorem OffsetKept.initial (hstart : start.Begins c) : OffsetKept c start := by
  rcases hstart.node with ⟨k, hnode⟩
  refine ⟨?_, ?_, ?_, ?_⟩
  · rw [hstart.threads]
    exact atMostOne_nil
  · rw [hstart.threads]
    exact List.forall_mem_nil _
  · rw [hnode, hstart.rest]
    exact fun _ ↦ rfl
  · rw [hnode]
    rfl

/-- When every offset is used, no transfer runs with the offset of an earlier command. -/
theorem offsetsDue {trace : List (Talk × Act)} (hstart : start.Begins c)
    (run : TalkRun build c start trace w) (hsteps : ∀ p ∈ trace, OffsetUsed c p.1 p.2) :
    OffsetsDue c w := by
  have hkept : OffsetKept c w :=
    run.invariant_of_steps (OffsetKept.initial hstart) (fun h hu hs ↦ h.step hu hs) hsteps
  intro t ht hreads
  exact (hkept.due t ht (moving_of_readsOffset hreads)).1

/-! ## An offset left over -/

instance (c : ClientRef) (w : Talk) : (act : Act) → Decidable (OffsetUsed c w act)
  | .command _ _ => inferInstanceAs (Decidable (_ ∧ _))
  | .thread _ _ => inferInstanceAs (Decidable True)
  | .elsewhere _ => inferInstanceAs (Decidable True)

theorem offsetsDue_download : ∃ w, (w.threads.any fun t ↦ t.stage.readsOffset && t.due = 5) = true ∧
    OffsetsDue 0 w := by
  rcases exists_run_while (fun w act ↦ decide (OffsetUsed 0 w act)) {} 0 Sample.talk
    (Sample.login ++ [Sample.say .PASV "", Sample.say .REST "5", Sample.say .RETR "notes",
      .thread 0 { env := Sample.env }])
    (fun w ↦ w.threads.any fun t ↦ t.stage.readsOffset && t.due = 5)
    (by decide +kernel) with ⟨trace, w, run, hsteps, hw⟩
  exact ⟨w, hw, offsetsDue Sample.talk_begins run fun p hp ↦ of_decide_eq_true (hsteps p hp)⟩

/-- RETR of nothing is answered 501, and the next STOR writes behind the offset of the REST. -/
theorem offsetsDue_fails : ∃ trace w, TalkRun {} 0 Sample.talk trace w ∧ ¬OffsetsDue 0 w := by
  rcases exists_run_while (fun _ _ ↦ true) {} 0 Sample.talk
    (Sample.login ++
      [Sample.say .PASV "", Sample.say .REST "5", Sample.say .RETR "", Sample.say .STOR "notes"])
    (fun w ↦ (w.node 0).restartAt = 5 && w.threads.any fun t ↦ t.stage.readsOffset && t.due = 0)
    (by decide +kernel) with ⟨trace, w, run, -, hw⟩
  rw [Bool.and_eq_true, decide_eq_true_iff, List.any_eq_true] at hw
  rcases hw with ⟨hoffset, t, ht, hdue⟩
  rw [Bool.and_eq_true, decide_eq_true_iff] at hdue
  refine ⟨trace, w, run, ?_⟩
  intro hall
  have hsame := hall t ht hdue.1
  rw [hoffset, hdue.2] at hsame
  cases hsame

end Talk

end YFtp
