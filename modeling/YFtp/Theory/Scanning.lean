import Mathlib.Data.List.Basic
import Mathlib.Tactic.Common

/-!
# Scanning loops

Loops that move a cursor: a loop whose rank falls in every round ends, and a greedy scan of groups,
each a head, a run of one class and a run of another, takes as many groups as there are.
-/

namespace YFtp.Theory

/-! ## Rounds of a loop -/

section Rounds

variable {State ε : Type} {step : State → Except ε State} {s t : State} {m n : Nat}

def rounds (step : State → Except ε State) : Nat → State → Except ε State
  | 0, s => .ok s
  | n + 1, s => step s >>= rounds step n

theorem rounds_succ (hstep : step s = .ok t) : rounds step (n + 1) s = rounds step n t := by
  rw [rounds, hstep]
  rfl

theorem rounds_fixed (hstep : step s = .ok s) : rounds step n s = .ok s := by
  induction n with
  | zero => rfl
  | succ n ih => rw [rounds_succ hstep, ih]

/-- A loop that neither fails nor leaves its invariant, and whose rank falls, is done after as many
rounds as its rank. -/
theorem rounds_done {Inv : State → Prop} (Done : State → Prop) (rank : State → Nat)
    (hdone : ∀ {s}, Done s → step s = .ok s)
    (hstep : ∀ {s}, Inv s → ¬ Done s → ∃ t, step s = .ok t ∧ Inv t ∧ rank t < rank s)
    (hs : Inv s) (hn : rank s ≤ n) : ∃ t, rounds step n s = .ok t ∧ Inv t ∧ Done t := by
  induction n generalizing s with
  | zero =>
    by_cases hd : Done s
    · exact ⟨s, rfl, hs, hd⟩
    · rcases hstep hs hd with ⟨t, -, -, hrank⟩
      omega
  | succ n ih =>
    by_cases hd : Done s
    · exact ⟨s, rounds_fixed (hdone hd), hs, hd⟩
    · rcases hstep hs hd with ⟨t, ht, hinv, hrank⟩
      rw [rounds_succ ht]
      exact ih hinv (by omega)

end Rounds

/-! ## Groups -/

section Groups

variable {α : Type} {head : α} {A S : α → Prop}

/-- Heads, each followed by a run of `A` and a run of `S`. -/
inductive Groups (head : α) (A S : α → Prop) : List α → Prop
  | nil : Groups head A S []
  | cons {as ss more} (has : ∀ x ∈ as, A x) (hss : ∀ x ∈ ss, S x) (hmore : Groups head A S more) :
    Groups head A S (head :: (as ++ (ss ++ more)))

/-- The scan that takes every run as long as it is: what it skips and what it leaves. -/
inductive Scanned (head : α) (A S : α → Prop) : List α → List α → Prop
  | stop {rest} (hrest : rest.head? ≠ some head) : Scanned head A S [] rest
  | group {as ss skipped rest} (has : ∀ x ∈ as, A x) (hss : ∀ x ∈ ss, S x)
    (hendA : ∀ x ∈ (ss ++ (skipped ++ rest)).head?, ¬ A x)
    (hendS : ∀ x ∈ (skipped ++ rest).head?, ¬ S x) (hmore : Scanned head A S skipped rest) :
    Scanned head A S (head :: (as ++ (ss ++ skipped))) rest

variable {p l r skipped rest : List α}

theorem Scanned.groups (h : Scanned head A S skipped rest) : Groups head A S skipped := by
  induction h with
  | stop hrest => exact .nil
  | group has hss _ _ _ ih => exact .cons has hss ih

theorem Scanned.head?_rest (h : Scanned head A S skipped rest) : rest.head? ≠ some head := by
  induction h with
  | stop hrest => exact hrest
  | group _ _ _ _ _ ih => exact ih

theorem prefix_of_run (hp : ∀ x ∈ p, A x) (hend : ∀ x ∈ r.head?, ¬ A x) (h : p <+: l ++ r) :
    p <+: l := by
  induction p generalizing l with
  | nil => exact List.nil_prefix
  | cons x p ih =>
    rw [List.forall_mem_cons] at hp
    cases l with
    | nil =>
      rcases h with ⟨more, hmore⟩
      rw [List.nil_append] at hmore
      exact absurd hp.1 (hend x (by rw [← hmore]; rfl))
    | cons y l =>
      rw [List.cons_append, List.cons_prefix_cons] at h
      rw [List.cons_prefix_cons]
      exact ⟨h.1, ih hp.2 h.2⟩

-- the second run may begin inside the first one of the scan
theorem prefix_of_runs {as ss as' ss' : List α} (has' : ∀ x ∈ as', A x) (hss' : ∀ x ∈ ss', S x)
    (hendA : ∀ x ∈ (ss ++ r).head?, ¬ A x) (hendS : ∀ x ∈ r.head?, ¬ S x)
    (h : as' ++ ss' <+: as ++ (ss ++ r)) : as' ++ ss' <+: as ++ ss := by
  have hfirst : as' <+: as := prefix_of_run has' hendA ((List.prefix_append _ _).trans h)
  rcases hfirst with ⟨more, rfl⟩
  rw [List.append_assoc, List.prefix_append_right_inj] at h
  rw [List.append_assoc, List.prefix_append_right_inj]
  rw [← List.append_assoc] at h
  exact prefix_of_run hss' hendS h

/-- No prefix made of groups is longer than what the scan skips. -/
theorem Scanned.longest (h : Scanned head A S skipped rest) (hA : ¬ A head) (hS : ¬ S head)
    (hp : Groups head A S p) (hbegins : p <+: skipped ++ rest) : p <+: skipped := by
  induction h generalizing p with
  | stop hrest =>
    cases hp with
    | nil => exact List.nil_prefix
    | cons has hss hmore =>
      rcases hbegins with ⟨more, hmore⟩
      rw [List.nil_append] at hmore
      exact absurd (by rw [← hmore]; rfl) hrest
  | @group as ss skipped rest has hss hendA hendS _ ih =>
    cases hp with
    | nil => exact List.nil_prefix
    | @cons as' ss' more has' hss' hmore =>
      rw [List.cons_append, List.append_assoc, List.append_assoc, List.cons_prefix_cons] at hbegins
      rw [List.cons_prefix_cons]
      refine ⟨rfl, ?_⟩
      have hone : as' ++ ss' <+: as ++ ss := by
        apply prefix_of_runs has' hss' hendA hendS
        refine List.IsPrefix.trans ?_ hbegins.2
        rw [← List.append_assoc]
        exact List.prefix_append _ _
      rcases hone with ⟨left, hleft⟩
      rw [← List.append_assoc, ← List.append_assoc] at hbegins ⊢
      rw [← hleft, List.append_assoc (as' ++ ss'), List.prefix_append_right_inj] at hbegins ⊢
      cases hmore with
      | nil => exact List.nil_prefix
      | cons has'' hss'' hmore =>
        -- the head of another group is in neither run
        cases left with
        | nil => exact ih (.cons has'' hss'' hmore) hbegins.2
        | cons x left =>
          rw [List.cons_append, List.cons_prefix_cons] at hbegins
          have hmem : x ∈ as ++ ss := by
            rw [← hleft]
            exact List.mem_append_right _ List.mem_cons_self
          rw [← hbegins.2.1, List.mem_append] at hmem
          rcases hmem with hmem | hmem
          · exact absurd (has _ hmem) hA
          · exact absurd (hss _ hmem) hS

end Groups

end YFtp.Theory
