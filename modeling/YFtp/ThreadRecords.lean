import YFtp.FinalReplies
import YFtp.RestartOffset

/-!
# Thread records

A thread within a conversation.  Commands, the other threads and the rest of the server come in
between, and still its steps make up a run of the thread by itself, with the restart offset that it
was created for; what it does is its record.
-/

namespace YFtp

open Theory

/-! ## The record of a thread -/

/-- The thread has come to its end. -/
def Stage.isEnded : Stage → Bool
  | .ended => true
  | _ => false

theorem eq_ended {stage : Stage} (h : stage.isEnded = true) : stage = .ended := by
  cases stage <;> first | rfl | cases h

namespace Talk

/-- What thread `i` does at a step of the conversation. -/
def eventsOf (c : ClientRef) (i : Nat) (w : Talk) : Act → List ThreadEvent
  | .thread j answers =>
    if j = i then
      match w.threads[i]? with
      | none => []
      | some t =>
        match t.stage.step answers (w.node c) (w.account c) with
        | .error _ => []
        | .ok (_, _, fx) => fx
    else []
  | _ => []

/-- The record of thread `i`, oldest first. -/
def recordOf (c : ClientRef) (i : Nat) : List (Talk × Act) → List ThreadEvent
  | [] => []
  | (w, act) :: older => recordOf c i older ++ w.eventsOf c i act

variable {build : Build} {c : ClientRef} {start w w' : Talk} {trace : List (Talk × Act)} {i j : Nat}
  {answers : Answers} {t : Thread}

theorem eventsOf_none (act : Act) (h : w.threads.length ≤ i) : w.eventsOf c i act = [] := by
  cases act with
  | command cmd env => rfl
  | elsewhere σ => rfl
  | thread j answers =>
    unfold eventsOf
    rw [List.getElem?_eq_none h]
    exact ite_self []

theorem eventsOf_step {s : Session} {next : Stage} {fx : List ThreadEvent}
    (ht : w.threads[i]? = some t)
    (h : t.stage.step answers (w.node c) (w.account c) = .ok (s, next, fx)) :
    w.eventsOf c i (.thread i answers) = fx := by
  unfold eventsOf
  dsimp only
  rw [if_pos rfl, ht]
  dsimp only
  rw [h]

theorem eventsOf_other (h : j ≠ i) : w.eventsOf c i (.thread j answers) = [] := if_neg h

/-- The thread has been a run of its own, and it has read the offset that it was to run with. -/
def RanAlone (c : ClientRef) (i : Nat) (trace : List (Talk × Act)) (t : Thread) : Prop :=
  ∃ job steps, ThreadRun ⟨Job.stage job, []⟩ steps ⟨t.stage, recordOf c i trace⟩ ∧
    ∀ p ∈ steps, p.1.stage.readsOffset = true → p.2.node.restartAt = t.due

/-- Every thread has been a run of its own; the record of one that is still to come is empty. -/
structure Separate (c : ClientRef) (i : Nat) (trace : List (Talk × Act)) (w : Talk) : Prop where
  unborn : w.threads.length ≤ i → recordOf c i trace = []
  alone : ∀ t, w.threads[i]? = some t → RanAlone c i trace t

theorem RanAlone.keep {act : Act} (h : RanAlone c i trace t) (hquiet : w.eventsOf c i act = []) :
    RanAlone c i ((w, act) :: trace) t := by
  unfold RanAlone recordOf
  rw [hquiet, List.append_nil]
  exact h

theorem Separate.stay {act : Act} (h : Separate c i trace w) (hquiet : w.eventsOf c i act = [])
    (hsame : w'.threads = w.threads) : Separate c i ((w, act) :: trace) w' := by
  constructor
  · intro hlength
    unfold recordOf
    rw [hquiet, List.append_nil]
    rw [hsame] at hlength
    exact h.unborn hlength
  · intro t ht
    rw [hsame] at ht
    exact (h.alone t ht).keep hquiet

theorem Separate.command {env : Env} {cmd : Command} {a : Answer} (h : Separate c i trace w) :
    Separate c i ((w, .command cmd env) :: trace) (w.afterCommand c env cmd a) := by
  rcases h with ⟨hunborn, halone⟩
  have hrecord : recordOf c i ((w, .command cmd env) :: trace) = recordOf c i trace :=
    List.append_nil _
  have hthreads : (w.afterCommand c env cmd a).threads = _ := afterCommand_threads w a
  constructor
  · intro hlength
    rw [hthreads, List.length_append] at hlength
    rw [hrecord]
    exact hunborn (by omega)
  · intro t ht
    rw [hthreads] at ht
    by_cases hlt : i < w.threads.length
    · rw [List.getElem?_append_left hlt] at ht
      exact (halone t ht).keep rfl
    · -- the thread is new, and at its first statement
      rw [List.getElem?_append_right (by omega)] at ht
      rcases List.mem_map.mp (List.mem_of_getElem? ht) with ⟨job, -, rfl⟩
      refine ⟨job, [], ?_, List.forall_mem_nil _⟩
      rw [hrecord, hunborn (by omega)]
      exact .refl

theorem Separate.thread (h : Separate c i trace w) (hdue : OffsetsDue c w)
    (hstep : w.StepsThread c j answers w') : Separate c i ((w, .thread j answers) :: trace) w' := by
  rcases h with ⟨hunborn, halone⟩
  rcases hstep with ⟨t, s, next, fx, ht, hstep, rfl⟩
  constructor
  · intro hlength
    rw [List.length_set] at hlength
    show recordOf c i trace ++ _ = _
    rw [eventsOf_none _ hlength, hunborn hlength]
    rfl
  · intro t' ht'
    by_cases hji : j = i
    · subst hji
      have hlt := (List.getElem?_eq_some_iff.mp ht).1
      rw [List.getElem?_set_self hlt] at ht'
      cases ht'
      rcases halone t ht with ⟨job, steps, run, hoffset⟩
      have run' : ThreadRun ⟨job.stage, []⟩
          ((⟨t.stage, recordOf c j trace⟩, ⟨w.node c, w.account c, answers⟩) :: steps)
          ⟨next, recordOf c j ((w, .thread j answers) :: trace)⟩ := by
        apply run.snoc ⟨s, fx, hstep, _⟩
        show recordOf c j trace ++ _ = _
        rw [eventsOf_step ht hstep]
      refine ⟨job, _, run', ?_⟩
      intro p hp hreads
      rcases List.mem_cons.mp hp with rfl | hp
      · exact hdue t (List.mem_of_getElem? ht) hreads
      · exact hoffset p hp hreads
    · rw [List.getElem?_set_ne hji] at ht'
      exact (halone t' ht').keep (eventsOf_other hji)

theorem stepsThread_of_speaks (ht : w.threads[j]? = some t)
    (h : Speaks build c w (.thread j answers) w') : w.StepsThread c j answers w' := by
  rw [Speaks, exec, ht] at h
  dsimp only at h
  cases hstep : t.stage.step answers (w.node c) (w.account c) with
  | error fault =>
    rw [hstep] at h
    cases h
  | ok r =>
    rcases r with ⟨s, next, fx⟩
    rw [hstep] at h
    cases h
    exact ⟨t, s, next, fx, ht, hstep, rfl⟩

/-- Every step of the conversation is a step of the thread by itself, or none of its steps. -/
theorem separate_of_run (run : TalkRun build c start trace w) (hstart : start.threads = [])
    (hdue : ∀ p ∈ trace, OffsetsDue c p.1) (i : Nat) : Separate c i trace w := by
  apply run.invariant_of_trace (P := Separate c i) (C := fun w _ ↦ OffsetsDue c w)
  · constructor
    · exact fun _ ↦ rfl
    · intro t ht
      rw [hstart] at ht
      cases ht
  · intro trace w act w' h hdue hstep
    cases act with
    | command cmd env =>
      rcases speaks_command hstep with ⟨a, -, -, rfl⟩
      exact h.command
    | thread j answers =>
      cases ht : w.threads[j]? with
      | some t => exact h.thread hdue (stepsThread_of_speaks ht hstep)
      | none =>
        rcases speaks_thread hstep with rfl | ⟨t, s, next, fx, hsome, -⟩
        · apply h.stay _ rfl
          by_cases hji : j = i
          · subst hji
            exact eventsOf_none _ (List.getElem?_eq_none_iff.mp ht)
          · exact eventsOf_other hji
        · cases ht.symm.trans hsome
    | elsewhere σ =>
      rw [speaks_elsewhere hstep]
      exact h.stay rfl rfl
  · exact hdue

-- every thread of a conversation whose offsets are used
theorem ranAlone (hstart : start.Begins c) (run : TalkRun build c start trace w)
    (hsteps : ∀ p ∈ trace, OffsetUsed c p.1 p.2) (ht : w.threads[i]? = some t) :
    RanAlone c i trace t := by
  have hdue : ∀ p ∈ trace, OffsetsDue c p.1 := by
    intro p hp
    rcases run.reaches_recorded hp with ⟨older, before, hbefore⟩
    have hkept : OffsetKept c p.1 := before.invariant_of_steps (OffsetKept.initial hstart)
      (fun h hu hs ↦ h.step hu hs) fun q hq ↦ hsteps q (hbefore q hq)
    intro t ht hreads
    exact (hkept.due t ht (moving_of_readsOffset hreads)).1
  exact (separate_of_run run hstart.threads hdue i).alone t ht

/-- Executes a list of acts and records the steps, newest first. -/
def traceOf (build : Build) (c : ClientRef) (w : Talk) :
    List (Talk × Act) → List Act → Option (List (Talk × Act) × Talk)
  | trace, [] => some (trace, w)
  | trace, act :: acts =>
    match w.exec c build act with
    | .ok (some w') => w'.traceOf build c ((w, act) :: trace) acts
    | _ => none

theorem run_of_traceOf {newer : List (Talk × Act)} {acts : List Act}
    (before : TalkRun build c start trace w)
    (h : w.traceOf build c trace acts = some (newer, w')) : TalkRun build c start newer w' := by
  induction acts generalizing trace w with
  | nil =>
    cases h
    exact before
  | cons act acts ih =>
    rw [traceOf] at h
    split at h
    · rename_i next hexec
      exact ih (before.snoc hexec) h
    · cases h

/-- A run by execution, with a decidable property of what it records. -/
theorem exists_run_recorded (acts : List Act) (p : List (Talk × Act) → Talk → Bool)
    (h : (w.traceOf build c [] acts).any (fun x ↦ p x.1 x.2) = true) :
    ∃ trace w', TalkRun build c w trace w' ∧ p trace w' = true := by
  rw [Option.any_eq_true] at h
  rcases h with ⟨⟨trace, w'⟩, htrace, hp⟩
  exact ⟨trace, w', run_of_traceOf .refl htrace, hp⟩

end Talk

namespace Sample

/-- Every offset was used, and the first thread has left this record. -/
def recorded (log : List ThreadEvent) (trace : List (Talk × Act)) : Bool :=
  trace.all (fun p ↦ decide (Talk.OffsetUsed 0 p.1 p.2)) && decide (Talk.recordOf 0 0 trace = log)

theorem of_recorded {log : List ThreadEvent} {trace : List (Talk × Act)}
    (h : recorded log trace = true) :
    (∀ p ∈ trace, Talk.OffsetUsed 0 p.1 p.2) ∧ Talk.recordOf 0 0 trace = log := by
  rw [recorded, Bool.and_eq_true, decide_eq_true_iff, List.all_eq_true] at h
  exact ⟨fun p hp ↦ of_decide_eq_true (h.1 p hp), h.2⟩

end Sample

/-! ## Whose record it is -/

/-- The thread function that does this, where only one of them does. -/
def ThreadEvent.job : ThreadEvent → Option Job
  | .openRead _ _ => some .retrieve
  | .closed _ _ => some .store
  | _ => none

/-- A thread of this job may stand there. -/
def Job.Passes (job : Job) : Stage → Prop
  | .list _ _ => job.movesFile = false
  | .store _ => job = .store
  | .retrieve _ => job = .retrieve
  | _ => True

/-- A thread of this job may leave this record. -/
def Job.Records (job : Job) (log : List ThreadEvent) : Prop := ∀ e ∈ log, ∀ j ∈ e.job, j = job

section Jobs

variable {a : Answers} {n : ClientNode} {user : Option UserNode} {s s' : Session} {next : Stage}
  {fx : List ThreadEvent} {job : Job}

theorem Job.Records.of_none (h : ∀ e ∈ fx, e.job = none) : job.Records fx := by
  intro e he j hj
  rw [h e he] at hj
  cases hj

theorem passes_afterListing (cmd : Command) : job.Passes (afterListing cmd) ↔
    cmd.id = .STAT → job.movesFile = false := by
  unfold afterListing
  split
  · rename_i hid
    exact ⟨fun h _ ↦ h, fun h ↦ h hid⟩
  · rename_i hid
    exact ⟨fun _ h ↦ absurd h hid, fun _ ↦ trivial⟩

theorem passes_list {cmd : Command} {stage : ListStage} (hjob : job.movesFile = false)
    (h : Listed a cmd stage next fx) : job.Passes next ∧ job.Records fx := by
  have hafter : job.Passes (afterListing cmd) := (passes_afterListing cmd).mpr fun _ ↦ hjob
  cases h with
  | announces | begins | announced | shows | enters | single | skips | entry =>
    exact ⟨hjob, .of_none (by simp [ThreadEvent.job])⟩
  | misses =>
    refine ⟨hafter, .of_none ?_⟩
    split <;> simp [ThreadEvent.job]
  | exhausted => exact ⟨hafter, .of_none (by simp)⟩
  | line hnext =>
    refine ⟨?_, .of_none ?_⟩
    · rcases hnext with rfl | ⟨path, -, rfl⟩
      · exact hafter
      · exact hjob
    · split <;> simp [ThreadEvent.job]
  | ends => exact ⟨trivial, .of_none (by simp [ThreadEvent.job])⟩

theorem passes_store {stage : StoreStage} (h : stage.step a s = .ok (s', next, fx)) :
    Job.Passes .store next ∧ Job.Records .store fx := by
  constructor
  · rcases (store_moved h).next with ⟨stage', hnext⟩ | ⟨complete, hnext⟩
    · have hnext : next = .store stage' := hnext
      rw [hnext]
      rfl
    · have hnext : next = .shutDown .store complete := hnext
      rw [hnext]
      trivial
  · cases stage with
    | mode | write ofs block | close ofs len =>
      cases h
      simp [Job.Records, ThreadEvent.job]
    | openFile app | seek app ofs =>
      rw [StoreStage.step] at h
      split at h <;> cases h <;> simp [Job.Records, ThreadEvent.job]
    | receive ofs =>
      rcases eq_ok_of_liftFault_bind h with ⟨-, -, h⟩
      split at h <;> cases h <;> simp [Job.Records, ThreadEvent.job]

theorem passes_retrieve {stage : RetrieveStage} (h : stage.step a s = .ok (s', next, fx)) :
    Job.Passes .retrieve next ∧ Job.Records .retrieve fx := by
  constructor
  · rcases (retrieve_moved h).next with ⟨stage', hnext⟩ | ⟨complete, hnext⟩
    · have hnext : next = .retrieve stage' := hnext
      rw [hnext]
      rfl
    · have hnext : next = .shutDown .retrieve complete := hnext
      rw [hnext]
      trivial
  · cases stage with
    | openFile | seek ins =>
      rw [RetrieveStage.step] at h
      split at h <;> cases h <;> simp [Job.Records, ThreadEvent.job]
    | read ins =>
      cases h
      split <;> simp [Job.Records, ThreadEvent.job]
    | send ins block =>
      rcases eq_ok_of_liftFault_bind h with ⟨-, -, h⟩
      cases h
      simp [Job.Records, ThreadEvent.job]
    | close ins len =>
      cases h
      simp [Job.Records]

theorem passes_step {stage : Stage} (hjob : job.Passes stage)
    (h : stage.step a n user = .ok (s, next, fx)) : job.Passes next ∧ job.Records fx := by
  cases stage with
  | list cmd stage => exact passes_list hjob (list_listed h).2
  | store stage =>
    have hjob : job = .store := hjob
    rw [hjob]
    exact passes_store h
  | retrieve stage =>
    have hjob : job = .retrieve := hjob
    rw [hjob]
    exact passes_retrieve h
  | shutDown job' complete | closeSocket job' complete =>
    rcases eq_ok_of_liftFault_bind h with ⟨t, -, h⟩
    cases h
    exact ⟨trivial, .of_none (List.forall_mem_nil _)⟩
  | finish job' complete =>
    rw [Stage.step] at h
    split at h <;> cases h <;> exact ⟨trivial, .of_none (by simp [ThreadEvent.job])⟩
  | ended =>
    cases h
    exact ⟨trivial, .of_none (List.forall_mem_nil _)⟩

/-- A file is opened for reading at one place. -/
theorem openRead_of_step {stage : Stage} {path : WString} {content : Option (List UInt8)}
    (h : stage.step a n user = .ok (s, next, fx)) (hread : .openRead path content ∈ fx) :
    stage = .retrieve .openFile ∧ content = a.opened := by
  have hjob (job : Job) (hpasses : job.Passes stage) : .retrieve = job :=
    (passes_step hpasses h).2 _ hread .retrieve rfl
  cases stage with
  | list cmd stage => cases hjob (.list cmd true) rfl
  | store stage => cases hjob .store rfl
  | shutDown job complete | closeSocket job complete | finish job complete | ended =>
    cases hjob .store trivial
  | retrieve stage =>
    cases stage with
    | openFile =>
      change RetrieveStage.openFile.step a n.toSession = _ at h
      rw [RetrieveStage.step] at h
      split at h <;> rename_i hopened <;> cases h <;> cases List.mem_singleton.mp hread
      · exact ⟨rfl, hopened.symm⟩
      · exact ⟨rfl, hopened.symm⟩
    | seek ins =>
      change (RetrieveStage.seek ins).step a n.toSession = _ at h
      rw [RetrieveStage.step] at h
      split at h <;> cases h <;> simp at hread
    | read ins =>
      cases h
      split at hread <;> simp at hread
    | send ins block =>
      rcases eq_ok_of_liftFault_bind h with ⟨-, -, h⟩
      cases h
      simp at hread
    | close ins len =>
      cases h
      simp at hread

theorem records_of_run {steps : List (Progress × View)} {p : Progress}
    (run : ThreadRun ⟨job.stage, []⟩ steps p) : job.Records p.log := by
  have hkept : job.Passes p.stage ∧ job.Records p.log := by
    apply run.invariant (P := fun p ↦ job.Passes p.stage ∧ job.Records p.log)
    · refine ⟨?_, List.forall_mem_nil _⟩
      cases job <;> rfl
    · rintro p v q ⟨hpasses, hleaves⟩ ⟨s, fx, h, hlog⟩
      rcases passes_step hpasses h with ⟨hnext, hfx⟩
      rw [hlog]
      exact ⟨hnext, forall_mem_append hleaves hfx⟩
  exact hkept.2

end Jobs

end YFtp
