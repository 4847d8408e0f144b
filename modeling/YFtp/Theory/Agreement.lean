import Mathlib.Tactic.Common

/-!
# Agreement — two computations side by side

Two computations agree when both fail alike or both return, with related results.  The rules follow
the constructs that the computations are made of.
-/

namespace YFtp.Theory

section Agreement

variable {ε ε' α β γ δ : Type} {R : α → β → Prop} {S : γ → δ → Prop}

inductive Agree (R : α → β → Prop) : Except ε α → Except ε β → Prop
  | error (e : ε) : Agree R (.error e) (.error e)
  | ok {a : α} {b : β} (h : R a b) : Agree R (.ok a) (.ok b)

namespace Agree

variable {x x' : Except ε α} {y y' : Except ε β}

theorem results (hxy : Agree R x y) :
    (∃ e, x = .error e ∧ y = .error e) ∨ ∃ a b, x = .ok a ∧ y = .ok b ∧ R a b := by
  cases hxy with
  | error e => exact .inl ⟨e, rfl, rfl⟩
  | ok hab => exact .inr ⟨_, _, rfl, rfl, hab⟩

theorem refl (x : Except ε α) : Agree Eq x x := by
  cases x with
  | error e => exact .error e
  | ok a => exact .ok rfl

theorem bind {f : α → Except ε γ} {g : β → Except ε δ} (hxy : Agree R x y)
    (h : ∀ {a b}, R a b → Agree S (f a) (g b)) : Agree S (x >>= f) (y >>= g) := by
  cases hxy with
  | error e => exact .error e
  | ok hab => exact h hab

-- the same computation first
theorem bind_same {x : Except ε α} {f : α → Except ε γ} {g : α → Except ε δ}
    (h : ∀ a, Agree S (f a) (g a)) : Agree S (x >>= f) (x >>= g) := by
  cases x with
  | error e => exact .error e
  | ok a => exact h a

theorem ite_congr {c d : Prop} [Decidable c] [Decidable d] (hcd : c ↔ d)
    (hxy : c → Agree R x y) (hxy' : ¬c → Agree R x' y') :
    Agree R (if c then x else x') (if d then y else y') := by
  by_cases hc : c
  · rw [if_pos hc, if_pos (hcd.mp hc)]
    exact hxy hc
  · rw [if_neg hc, if_neg (mt hcd.mpr hc)]
    exact hxy' hc

theorem ite {c : Prop} [Decidable c] (hxy : c → Agree R x y) (hxy' : ¬c → Agree R x' y') :
    Agree R (if c then x else x') (if c then y else y') :=
  ite_congr Iff.rfl hxy hxy'

theorem map {f : α → γ} {g : β → δ} (hxy : Agree R x y) (h : ∀ {a b}, R a b → S (f a) (g b)) :
    Agree S (x.map f) (y.map g) := by
  cases hxy with
  | error e => exact .error e
  | ok hab => exact .ok (h hab)

theorem mapError (hxy : Agree R x y) (f : ε → ε') : Agree R (x.mapError f) (y.mapError f) := by
  cases hxy with
  | error e => exact .error (f e)
  | ok hab => exact .ok hab

theorem mono {T : α → β → Prop} (hxy : Agree R x y) (h : ∀ {a b}, R a b → T a b) :
    Agree T x y := by
  cases hxy with
  | error e => exact .error e
  | ok hab => exact .ok (h hab)

end Agree

end Agreement

end YFtp.Theory
