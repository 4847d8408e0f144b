import Mathlib.Tactic.Common

/-!
# Computations that return

When a computation in `Except` returns a value.  The rules are equivalences, so that the exact
condition of a computation is found by rewriting with them.
-/

namespace YFtp.Theory

variable {ε α β : Type}

/-- The computation ends with a value. -/
def Returns (x : Except ε α) : Prop := ∃ a, x = .ok a

@[simp] theorem returns_ok (a : α) : Returns (ε := ε) (.ok a) := ⟨a, rfl⟩

@[simp] theorem not_returns_error (e : ε) : ¬Returns (α := α) (.error e) := by
  rintro ⟨a, h⟩
  cases h

theorem returns_bind_iff {x : Except ε α} {f : α → Except ε β} :
    Returns (x >>= f) ↔ ∃ a, x = .ok a ∧ Returns (f a) := by
  cases x with
  | error e =>
    constructor
    · exact fun h ↦ absurd h (not_returns_error e)
    · rintro ⟨a, h, -⟩
      cases h
  | ok a =>
    constructor
    · exact fun h ↦ ⟨a, rfl, h⟩
    · rintro ⟨b, h, hb⟩
      cases h
      exact hb

/-- When what follows always returns, only the first part matters. -/
theorem returns_bind_of_total {x : Except ε α} {f : α → Except ε β} (h : ∀ a, Returns (f a)) :
    Returns (x >>= f) ↔ Returns x := by
  rw [returns_bind_iff]
  constructor
  · exact fun ⟨a, ha, _⟩ ↦ ⟨a, ha⟩
  · exact fun ⟨a, ha⟩ ↦ ⟨a, ha, h a⟩

@[simp] theorem returns_map_iff {x : Except ε α} {f : α → β} : Returns (x.map f) ↔ Returns x := by
  cases x with
  | error e => exact iff_of_false (not_returns_error e) (not_returns_error e)
  | ok a => exact iff_of_true (returns_ok _) (returns_ok a)

theorem returns_ite_iff {c : Prop} [Decidable c] {x y : Except ε α} :
    Returns (if c then x else y) ↔ (c → Returns x) ∧ (¬c → Returns y) := by
  split
  · rename_i hc
    exact ⟨fun h ↦ ⟨fun _ ↦ h, fun hn ↦ absurd hc hn⟩, fun h ↦ h.1 hc⟩
  · rename_i hc
    exact ⟨fun h ↦ ⟨fun hn ↦ absurd hn hc, fun _ ↦ h⟩, fun h ↦ h.2 hc⟩

theorem returns_ite_bind_of_total {c : Prop} [Decidable c] {x y : Except ε α} {f : α → Except ε β}
    (h : ∀ a, Returns (f a)) :
    Returns (if c then x >>= f else y >>= f) ↔ (c → Returns x) ∧ (¬c → Returns y) := by
  rw [returns_ite_iff, returns_bind_of_total h, returns_bind_of_total h]

end YFtp.Theory
