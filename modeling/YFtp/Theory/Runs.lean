import Mathlib.Tactic.Common

/-!
# Runs — finite executions of a labelled transition system

A run records its steps newest first, each with the state it was taken in, so that a statement can
speak about "the last step such that" and about every state on the way.  The rules below are the
ones an invariant proof needs: an invariant of one step is an invariant of a run, also when only
the steps meeting a condition preserve it, and when the condition is exact, the invariant holds all
along a run exactly when every step meets it.
-/

namespace YFtp.Theory

section Runs

variable {State Label : Type} {step : State → Label → State → Prop}

/-- `Run step s trace t`: the steps of `trace` lead from `s` to `t`. -/
inductive Run (step : State → Label → State → Prop) (start : State) :
    List (State × Label) → State → Prop
  | refl : Run step start [] start
  | snoc {trace s l t} (before : Run step start trace s) (last : step s l t) :
      Run step start ((s, l) :: trace) t

namespace Run

variable {start middle finish : State} {trace later : List (State × Label)}

theorem trans (first : Run step start trace middle) (second : Run step middle later finish) :
    Run step start (later ++ trace) finish := by
  induction second with
  | refl => exact first
  | snoc _ last ih => exact .snoc ih last

theorem split (run : Run step start (later ++ trace) finish) :
    ∃ middle, Run step start trace middle ∧ Run step middle later finish := by
  induction later generalizing finish with
  | nil => exact ⟨finish, run, .refl⟩
  | cons head later ih =>
    cases run with
    | snoc before last =>
      obtain ⟨middle, first, second⟩ := ih before
      exact ⟨middle, first, second.snoc last⟩

/-- An invariant kept by the steps that meet `C` holds at the end of a run of such steps. -/
theorem invariant_of_steps {P : State → Prop} {C : State → Label → Prop}
    (run : Run step start trace finish) (initial : P start)
    (keeps : ∀ {s l t}, P s → C s l → step s l t → P t)
    (steps : ∀ p ∈ trace, C p.1 p.2) : P finish := by
  induction run with
  | refl => exact initial
  | snoc before last ih =>
    have hbefore := ih (fun p hp ↦ steps p (List.mem_cons_of_mem _ hp))
    exact keeps hbefore (steps _ List.mem_cons_self) last

theorem invariant {P : State → Prop} (run : Run step start trace finish) (initial : P start)
    (keeps : ∀ {s l t}, P s → step s l t → P t) : P finish :=
  run.invariant_of_steps (C := fun _ _ ↦ True) initial (fun hs _ h ↦ keeps hs h) (fun _ _ ↦ trivial)

/-- An invariant may depend on the steps taken so far. -/
theorem invariant_of_trace {P : List (State × Label) → State → Prop} {C : State → Label → Prop}
    (run : Run step start trace finish) (initial : P [] start)
    (keeps : ∀ {trace s l t}, P trace s → C s l → step s l t → P ((s, l) :: trace) t)
    (steps : ∀ p ∈ trace, C p.1 p.2) : P trace finish := by
  induction run with
  | refl => exact initial
  | snoc before last ih =>
    have hbefore := ih (fun p hp ↦ steps p (List.mem_cons_of_mem _ hp))
    exact keeps hbefore (steps _ List.mem_cons_self) last

/-- A state recorded in a run is itself reached by a run, whose steps are the older ones. -/
theorem reaches_recorded {p : State × Label} (run : Run step start trace finish)
    (hp : p ∈ trace) : ∃ older, Run step start older p.1 ∧ ∀ q ∈ older, q ∈ trace := by
  obtain ⟨newer, older, rfl⟩ := List.append_of_mem hp
  obtain ⟨middle, first, -⟩ := run.split
  cases first with
  | snoc before last =>
    exact ⟨older, before, fun q hq ↦ List.mem_append_right _ (List.mem_cons_of_mem _ hq)⟩

/-- The rule where exactness needs an invariant `I`: `P` holds in every state and `Q` of every step
exactly if every step meets `C`. -/
theorem holds_along_iff_of_invariant {I P : State → Prop} {Q C : State → Label → Prop}
    (run : Run step start trace finish) (initial : I start) (implies : ∀ {s}, I s → P s)
    (exactly : ∀ {s l t}, I s → step s l t → (P t ∧ Q s l ↔ C s l))
    (keeps : ∀ {s l t}, I s → C s l → step s l t → I t) :
    (P finish ∧ ∀ p ∈ trace, P p.1 ∧ Q p.1 p.2) ↔ ∀ p ∈ trace, C p.1 p.2 := by
  constructor
  · -- the newest step meets `C` because the invariant holds before it
    induction run with
    | refl => exact fun _ p hp ↦ absurd hp List.not_mem_nil
    | @snoc trace s l t before last ih =>
      rintro ⟨ht, hall⟩
      have hs := hall (s, l) List.mem_cons_self
      have hold := ih ⟨hs.1, fun p hp ↦ hall p (List.mem_cons_of_mem _ hp)⟩
      have hinv := before.invariant_of_steps initial keeps hold
      intro p hp
      rcases List.mem_cons.mp hp with rfl | hp
      · exact (exactly hinv last).mp ⟨ht, hs.2⟩
      · exact hold p hp
  · induction run with
    | refl => exact fun _ ↦ ⟨implies initial, fun p hp ↦ absurd hp List.not_mem_nil⟩
    | @snoc trace s l t before last ih =>
      intro hall
      have hold : ∀ p ∈ trace, C p.1 p.2 := fun p hp ↦ hall p (List.mem_cons_of_mem _ hp)
      have hinv := before.invariant_of_steps initial keeps hold
      have hnew := (exactly hinv last).mpr (hall (s, l) List.mem_cons_self)
      refine ⟨hnew.1, fun p hp ↦ ?_⟩
      rcases List.mem_cons.mp hp with rfl | hp
      · exact ⟨implies hinv, hnew.2⟩
      · exact (ih hold).2 p hp

/-- The first state is the last one or a recorded one. -/
theorem start_recorded (run : Run step start trace finish) :
    start = finish ∨ ∃ l, (start, l) ∈ trace := by
  induction run with
  | refl => exact .inl rfl
  | snoc before last ih =>
    right
    rcases ih with rfl | ⟨l, hl⟩
    · exact ⟨_, List.mem_cons_self⟩
    · exact ⟨l, List.mem_cons_of_mem _ hl⟩

end Run

/-! ## Runs by execution -/

/-- Executes the labels in turn, as long as each step is possible and meets `C`. -/
def execWhile (next : State → Label → Option State) (C : State → Label → Bool) :
    State → List Label → Option State
  | s, [] => some s
  | s, l :: ls => if C s l then (next s l).bind (execWhile next C · ls) else none

variable {next : State → Label → Option State} {C : State → Label → Bool}

theorem Run.of_execWhile {start s t : State} {trace : List (State × Label)} {ls : List Label}
    (sound : ∀ {s l t}, next s l = some t → step s l t) (before : Run step start trace s)
    (meets : ∀ p ∈ trace, C p.1 p.2 = true) (h : execWhile next C s ls = some t) :
    ∃ newer, Run step start newer t ∧ ∀ p ∈ newer, C p.1 p.2 = true := by
  induction ls generalizing trace s with
  | nil =>
    cases h
    exact ⟨trace, before, meets⟩
  | cons l ls ih =>
    rw [execWhile] at h
    split at h
    · rename_i hmeets
      obtain ⟨u, hu, h⟩ := Option.bind_eq_some_iff.mp h
      apply ih (before.snoc (sound hu)) _ h
      intro p hp
      rcases List.mem_cons.mp hp with rfl | hp
      · exact hmeets
      · exact meets p hp
    · cases h

/-- A run of steps that meet `C`, to a state with a decidable property. -/
theorem exists_run_of_execWhile (sound : ∀ {s l t}, next s l = some t → step s l t) (start : State)
    (ls : List Label) (p : State → Bool) (h : (execWhile next C start ls).any p = true) :
    ∃ trace t, Run step start trace t ∧ (∀ q ∈ trace, C q.1 q.2 = true) ∧ p t = true := by
  rw [Option.any_eq_true] at h
  obtain ⟨t, ht, hp⟩ := h
  obtain ⟨trace, run, hsteps⟩ := Run.of_execWhile sound .refl (List.forall_mem_nil _) ht
  exact ⟨trace, t, run, hsteps, hp⟩

end Runs

end YFtp.Theory
