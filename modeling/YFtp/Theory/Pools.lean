import Mathlib.Data.List.Basic
import Mathlib.Tactic.Common

/-!
# Pools — lists of threads that keep their places

In a pool a step of a thread replaces the element at its place, and new threads come at the end.
The rules below say what such a change leaves of a property of all threads, and of a property that
at most one thread has at a time.
-/

namespace YFtp.Theory

section Pools

variable {α : Type} {P : α → Prop} {p : α → Bool} {l new : List α} {i j : Nat} {a b : α}

-- a property of every thread but the one that is replaced
theorem forall_mem_set (hothers : ∀ (j : Nat) (c : α), j ≠ i → l[j]? = some c → P c) (hnew : P b) :
    ∀ c ∈ l.set i b, P c := by
  intro c hc
  rcases List.mem_iff_getElem?.mp hc with ⟨j, hj⟩
  by_cases hij : i = j
  · rw [hij] at hj
    have hlt := (List.getElem?_eq_some_iff.mp hj).1
    rw [List.length_set] at hlt
    rw [List.getElem?_set_self hlt] at hj
    cases hj
    exact hnew
  · rw [List.getElem?_set_ne hij] at hj
    exact hothers j c (Ne.symm hij) hj

theorem forall_mem_of_set (ha : l[i]? = some a) (hset : ∀ c ∈ l.set i b, P c) (hback : P b → P a) :
    ∀ c ∈ l, P c := by
  have hlt := (List.getElem?_eq_some_iff.mp ha).1
  intro c hc
  rcases List.mem_iff_getElem?.mp hc with ⟨j, hj⟩
  by_cases hij : i = j
  · rw [← hij, ha] at hj
    cases hj
    exact hback (hset b (List.mem_set hlt b))
  · exact hset c (List.mem_of_getElem? ((List.getElem?_set_ne hij).trans hj))

theorem forall_mem_append (hold : ∀ a ∈ l, P a) (hnew : ∀ a ∈ new, P a) : ∀ a ∈ l ++ new, P a := by
  intro a ha
  rcases List.mem_append.mp ha with ha | ha
  · exact hold a ha
  · exact hnew a ha

/-- At most one thread of the pool has the property. -/
def AtMostOne (p : α → Bool) (l : List α) : Prop :=
  ∀ (i j : Nat) (a b : α), l[i]? = some a → l[j]? = some b → p a = true → p b = true → i = j

theorem atMostOne_nil : AtMostOne p [] := by
  intro i j a b ha
  rw [List.getElem?_nil] at ha
  cases ha

namespace AtMostOne

theorem others (h : AtMostOne p l) (ha : l[i]? = some a) (hp : p a = true) (hij : j ≠ i)
    (hb : l[j]? = some b) : p b = false := by
  rw [← Bool.not_eq_true]
  intro hpb
  exact hij (h j i b a hb ha hpb hp)

theorem set (h : AtMostOne p l) (ha : l[i]? = some a) (hkeeps : p b = true → p a = true) :
    AtMostOne p (l.set i b) := by
  -- whoever has the property now had it before
  have hbefore : ∀ (j : Nat) (c : α), (l.set i b)[j]? = some c → p c = true →
      ∃ d, l[j]? = some d ∧ p d = true := by
    intro j c hc hpc
    by_cases hij : i = j
    · rw [← hij] at hc ⊢
      rw [List.getElem?_set_self (List.getElem?_eq_some_iff.mp ha).1] at hc
      cases hc
      exact ⟨a, ha, hkeeps hpc⟩
    · rw [List.getElem?_set_ne hij] at hc
      exact ⟨c, hc, hpc⟩
  intro j k c d hc hd hpc hpd
  rcases hbefore j c hc hpc with ⟨c', hc', hpc'⟩
  rcases hbefore k d hd hpd with ⟨d', hd', hpd'⟩
  exact h j k c' d' hc' hd' hpc' hpd'

-- the property comes to a thread when no other one has it
theorem set_new (hothers : ∀ (j : Nat) (c : α), j ≠ i → l[j]? = some c → p c = false) :
    AtMostOne p (l.set i b) := by
  have honly : ∀ (j : Nat) (c : α), (l.set i b)[j]? = some c → p c = true → j = i := by
    intro j c hc hpc
    by_contra hij
    rw [List.getElem?_set_ne (Ne.symm hij)] at hc
    rw [hothers j c hij hc] at hpc
    cases hpc
  intro j k c d hc hd hpc hpd
  rw [honly j c hc hpc, honly k d hd hpd]

theorem append (h : AtMostOne p l) (hnew : ∀ b ∈ new, p b = false) : AtMostOne p (l ++ new) := by
  have hold : ∀ (j : Nat) (c : α), (l ++ new)[j]? = some c → p c = true → l[j]? = some c := by
    intro j c hc hpc
    by_cases hlt : j < l.length
    · rwa [List.getElem?_append_left hlt] at hc
    · rw [List.getElem?_append_right (Nat.le_of_not_lt hlt)] at hc
      rw [hnew c (List.mem_of_getElem? hc)] at hpc
      cases hpc
  intro j k c d hc hd hpc hpd
  exact h j k c d (hold j c hc hpc) (hold k d hd hpd) hpc hpd

theorem append_new (hnone : ∀ a ∈ l, p a = false) (hnew : new.length ≤ 1) :
    AtMostOne p (l ++ new) := by
  have hlast : ∀ (j : Nat) (c : α), (l ++ new)[j]? = some c → p c = true → j = l.length := by
    intro j c hc hpc
    have hlt := (List.getElem?_eq_some_iff.mp hc).1
    rw [List.length_append] at hlt
    by_cases hj : j < l.length
    · rw [List.getElem?_append_left hj] at hc
      rw [hnone c (List.mem_of_getElem? hc)] at hpc
      cases hpc
    · omega
  intro j k c d hc hd hpc hpd
  rw [hlast j c hc hpc, hlast k d hd hpd]

end AtMostOne

end Pools

end YFtp.Theory
