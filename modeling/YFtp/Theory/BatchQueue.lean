import Mathlib.Data.List.Basic
import Mathlib.Tactic.Common

/-!
# Batch queues — a queue that is served once after each batch

Entries arrive in batches of any length, and after each batch the first entry is served, if there is
one.  Nothing is lost or reordered, but entries stay behind whenever more of them have come than
there were turns, and a turn serves nothing whenever fewer have come.
-/

namespace YFtp.Theory

variable {α : Type}

/-- What is served in each turn, and what is left in the queue at the end. -/
def serve : List α → List (List α) → List (Option α) × List α
  | q, [] => ([], q)
  | q, b :: bs => ((q ++ b).head? :: (serve (q ++ b).tail bs).1, (serve (q ++ b).tail bs).2)

theorem serve_cons (q b : List α) (bs : List (List α)) :
    serve q (b :: bs)
      = ((q ++ b).head? :: (serve (q ++ b).tail bs).1, (serve (q ++ b).tail bs).2) := rfl

theorem serve_append (q : List α) (bs cs : List (List α)) :
    serve q (bs ++ cs)
      = ((serve q bs).1 ++ (serve (serve q bs).2 cs).1, (serve (serve q bs).2 cs).2) := by
  induction bs generalizing q with
  | nil => rfl
  | cons b bs ih => rw [List.cons_append, serve_cons, serve_cons, ih]; rfl

@[simp] theorem length_served (q : List α) (bs : List (List α)) :
    (serve q bs).1.length = bs.length := by
  induction bs generalizing q with
  | nil => rfl
  | cons b bs ih => rw [serve_cons, List.length_cons, List.length_cons, ih]

/-- What is served, in order, and then what is left: all that was there or has come. -/
theorem served_append_left (q : List α) (bs : List (List α)) :
    (serve q bs).1.filterMap id ++ (serve q bs).2 = q ++ bs.flatten := by
  induction bs generalizing q with
  | nil => simp [serve]
  | cons b bs ih =>
    rw [serve_cons, List.flatten_cons, ← List.append_assoc]
    cases hq : q ++ b with
    | nil => exact ih []
    | cons x rest =>
      change x :: ((serve rest bs).1.filterMap id ++ (serve rest bs).2) = _
      rw [ih, List.cons_append]

/-- Nothing is left exactly if everything has been served. -/
theorem left_eq_nil_iff_served (q : List α) (bs : List (List α)) :
    (serve q bs).2 = [] ↔ (serve q bs).1.filterMap id = q ++ bs.flatten := by
  rw [← served_append_left q bs]
  exact List.self_eq_append_right.symm

theorem filterMap_map_some (l : List α) : (l.map some).filterMap id = l := by
  rw [List.filterMap_map]
  exact List.filterMap_some

theorem map_some_filterMap {l : List (Option α)} (h : none ∉ l) :
    (l.filterMap id).map some = l := by
  induction l with
  | nil => rfl
  | cons x l ih =>
    rw [List.mem_cons, not_or] at h
    cases x with
    | none => exact absurd rfl h.1
    | some a =>
      change some a :: (l.filterMap id).map some = _
      rw [ih h.2]

/-- Nothing is left exactly if there were enough turns for all entries, and enough turns at the end
for the entries that came then. -/
theorem left_eq_nil_iff (q : List α) (bs : List (List α)) :
    (serve q bs).2 = [] ↔ (q ++ bs.flatten).length ≤ bs.length ∧
      ∀ i ≤ bs.length, (bs.drop i).flatten.length ≤ bs.length - i := by
  induction bs generalizing q with
  | nil => simp [serve]
  | cons b bs ih =>
    rw [serve_cons, ih]
    simp only [List.length_append, List.flatten_cons, List.length_cons, List.length_tail]
    constructor
    · rintro ⟨htotal, hends⟩
      have hall := hends 0 (Nat.zero_le _)
      rw [List.drop_zero] at hall
      refine ⟨by omega, fun i hi ↦ ?_⟩
      cases i with
      | zero =>
        rw [List.drop_zero, List.flatten_cons, List.length_append]
        omega
      | succ i =>
        have hend := hends i (by omega)
        rw [List.drop_succ_cons]
        omega
    · rintro ⟨htotal, hends⟩
      have hrest := hends 1 (by omega)
      rw [List.drop_succ_cons, List.drop_zero] at hrest
      refine ⟨by omega, fun i hi ↦ ?_⟩
      have hend := hends (i + 1) (by omega)
      rw [List.drop_succ_cons] at hend
      omega

/-- Every turn serves an entry and none is left exactly if in the end as many entries were there as
turns, and never fewer on the way. -/
theorem served_eq_all_iff (q : List α) (bs : List (List α)) :
    (serve q bs).1 = (q ++ bs.flatten).map some ↔
      (q ++ bs.flatten).length = bs.length ∧
      ∀ i ≤ bs.length, i ≤ (q ++ (bs.take i).flatten).length := by
  constructor
  · intro h
    refine ⟨by rw [← List.length_map (f := some), ← h, length_served], fun i hi ↦ ?_⟩
    -- the first turns have served as many entries as there were turns
    have hserved : (serve q (bs.take i)).1 = ((q ++ bs.flatten).take i).map some := by
      have hsplit := serve_append q (bs.take i) (bs.drop i)
      rw [List.take_append_drop] at hsplit
      have htake := congrArg (List.take i) h
      rw [hsplit, List.take_append_of_le_length (by simp [hi]), ← List.map_take] at htake
      rwa [List.take_of_length_le (by rw [length_served, List.length_take]; exact Nat.min_le_left ..)] at htake
    have hconserved := congrArg List.length (served_append_left q (bs.take i))
    have hlength := congrArg List.length hserved
    rw [length_served, List.length_take, Nat.min_eq_left hi, List.length_map] at hlength
    rw [hserved, filterMap_map_some, List.length_append, ← hlength] at hconserved
    omega
  · rintro ⟨htotal, hway⟩
    induction bs generalizing q with
    | nil =>
      rw [List.flatten_nil, List.append_nil, List.length_nil] at htotal
      rw [List.eq_nil_of_length_eq_zero htotal]
      rfl
    | cons b bs ih =>
      have hfirst := hway 1 (by simp)
      rw [List.take_succ_cons, List.take_zero, List.flatten_singleton] at hfirst
      rw [serve_cons, List.flatten_cons, ← List.append_assoc]
      rw [List.flatten_cons, ← List.append_assoc, List.length_append, List.length_cons] at htotal
      cases hq : q ++ b with
      | nil =>
        rw [hq] at hfirst
        cases hfirst
      | cons x rest =>
        rw [hq, List.length_cons] at htotal
        rw [List.cons_append, List.map_cons]
        refine congrArg (some x :: ·) (ih rest ?_ fun i hi ↦ ?_)
        · rw [List.length_append]
          omega
        · have hnext := hway (i + 1) (by rw [List.length_cons]; omega)
          rw [List.take_succ_cons, List.flatten_cons, ← List.append_assoc, hq, List.length_append,
            List.length_cons] at hnext
          rw [List.length_append]
          omega

end YFtp.Theory
