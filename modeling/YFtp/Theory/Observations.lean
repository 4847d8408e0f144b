import Mathlib.Tactic.Common

/-!
# Observations — what a deterministic system shows

A step shows something and leads to a next state, or is the last one.  Two states from which equal
steps always show the same, and lead to such states again, cannot be told apart by any sequence of
steps.
-/

namespace YFtp.Theory

section Observations

variable {State Label Out : Type} {next : State → Label → Out × Option State}

/-- What the steps with these labels show, up to the last one that is possible. -/
def observe (next : State → Label → Out × Option State) : State → List Label → List Out
  | _, [] => []
  | s, l :: ls => (next s l).1 :: ((next s l).2.map (observe next · ls)).getD []

/-- One step from each of two states: it shows the same and leads to related states. -/
structure SameStep (next : State → Label → Out × Option State) (R : State → State → Prop)
    (s t : State) (l : Label) : Prop where
  shows : (next s l).1 = (next t l).1
  goesOn : Option.Rel R (next s l).2 (next t l).2

theorem SameStep.of_eq {R : State → State → Prop} {s t : State} {l : Label} {o : Out}
    {s' t' : Option State} (hs : next s l = (o, s')) (ht : next t l = (o, t'))
    (h : Option.Rel R s' t') : SameStep next R s t l := by
  refine ⟨?_, ?_⟩
  · rw [hs, ht]
  · rw [hs, ht]
    exact h

/-- States that agree on a step and cannot be told apart after it. -/
theorem SameStep.observe_eq_of {R : State → State → Prop} {s t : State} {l : Label}
    {ls : List Label} (h : SameStep next R s t l)
    (later : ∀ {s' t'}, (next s l).2 = some s' → R s' t' → observe next s' ls = observe next t' ls) :
    observe next s (l :: ls) = observe next t (l :: ls) := by
  rw [observe, observe, h.shows]
  congr 1
  cases hs : (next s l).2 with
  | none =>
    have hgoesOn := h.goesOn
    rw [hs] at hgoesOn
    cases ht : (next t l).2 with
    | none => rfl
    | some t' =>
      rw [ht] at hgoesOn
      cases hgoesOn
  | some s' =>
    have hgoesOn := h.goesOn
    rw [hs] at hgoesOn
    cases ht : (next t l).2 with
    | none =>
      rw [ht] at hgoesOn
      cases hgoesOn
    | some t' =>
      rw [ht] at hgoesOn
      cases hgoesOn with
      | some hrelated => exact later hs hrelated

/-- Every step meets the condition in the state that it is taken from. -/
def Along (next : State → Label → Out × Option State) (C : State → Label → Prop) :
    State → List Label → Prop
  | _, [] => True
  | s, l :: ls => C s l ∧ ∀ s', (next s l).2 = some s' → Along next C s' ls

instance Along.decidable {C : State → Label → Prop} [∀ s l, Decidable (C s l)] :
    ∀ (s : State) (ls : List Label), Decidable (Along next C s ls)
  | _, [] => .isTrue trivial
  | s, l :: ls =>
    have later (s' : State) : Decidable (Along next C s' ls) := Along.decidable s' ls
    inferInstanceAs (Decidable (C s l ∧ ∀ s' ∈ (next s l).2, Along next C s' ls))

/-- A relation that is a bisimulation as long as the steps meet a condition. -/
theorem observe_eq_of_related_along {R : State → State → Prop} {C : State → Label → Prop}
    (same : ∀ {s t} (l : Label), R s t → C s l → SameStep next R s t l) {s t : State} (h : R s t)
    {ls : List Label} (hall : Along next C s ls) : observe next s ls = observe next t ls := by
  induction ls generalizing s t with
  | nil => rfl
  | cons l ls ih =>
    exact (same l h hall.1).observe_eq_of fun hnext hrelated ↦ ih hrelated (hall.2 _ hnext)

end Observations

end YFtp.Theory
