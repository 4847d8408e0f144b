import Mathlib.Data.List.Basic
import Mathlib.Tactic.Common

/-!
# Framing — a stream cut into lines, one element at a time

The lines of a stream are its maximal runs without a terminator, those that are not empty and that a
terminator follows; what follows the last terminator is not a line yet.  A framer keeps of each run
no more than its buffer holds.  However the stream comes, it has pushed the lines of what came so
far, cut to the size of the buffer, and keeps the beginning of the rest.
-/

namespace YFtp.Theory

variable {α : Type} (isEnd : α → Bool) (limit : Nat)

/-- The lines of a stream, each cut to the limit. -/
def framed (xs : List α) : List (List α) :=
  ((xs.splitOnP isEnd).dropLast.filter (· ≠ [])).map (List.take limit)

/-- What follows the last terminator, cut to the limit. -/
def unframed (xs : List α) : List α := ((xs.splitOnP isEnd).getLastD []).take limit

/-- The lines that have been pushed, and the buffer. -/
structure Framer (α : Type) where
  lines : List (List α) := []
  buffer : List α := []

/-- One more element. -/
def Framer.push (s : Framer α) (a : α) : Framer α :=
  if isEnd a then
    if s.buffer = [] then s else { lines := s.lines ++ [s.buffer], buffer := [] }
  else if s.buffer.length < limit then { s with buffer := s.buffer ++ [a] }
  else s

/-- The runs of a stream that begins within a run. -/
def runsFrom (begun xs : List α) : List (List α) :=
  (xs.splitOnP isEnd).modifyHead (begun ++ ·)

variable {isEnd limit}

theorem runsFrom_nil (xs : List α) : runsFrom isEnd [] xs = xs.splitOnP isEnd := by
  unfold runsFrom
  cases xs.splitOnP isEnd <;> rfl

theorem runsFrom_ne_nil (begun xs : List α) : runsFrom isEnd begun xs ≠ [] := by
  unfold runsFrom
  rw [Ne, List.modifyHead_eq_nil_iff]
  exact List.splitOnP_ne_nil isEnd xs

-- the first run goes on with what there is of it
theorem exists_mem_runsFrom (begun xs : List α) :
    ∃ more, begun ++ more ∈ runsFrom isEnd begun xs := by
  unfold runsFrom
  cases hruns : xs.splitOnP isEnd with
  | nil => exact absurd hruns (List.splitOnP_ne_nil isEnd xs)
  | cons run runs => exact ⟨run, List.mem_cons_self⟩

theorem runsFrom_end {a : α} (ha : isEnd a = true) (begun xs : List α) :
    runsFrom isEnd begun (a :: xs) = begun :: runsFrom isEnd [] xs := by
  rw [runsFrom_nil, runsFrom, List.splitOnP_cons_eq_if_modifyHead, if_pos ha,
    List.modifyHead_cons, List.append_nil]

theorem runsFrom_cons {a : α} (ha : isEnd a = false) (begun xs : List α) :
    runsFrom isEnd begun (a :: xs) = runsFrom isEnd (begun ++ [a]) xs := by
  unfold runsFrom
  rw [List.splitOnP_cons_eq_if_modifyHead, ha, if_neg (by simp), List.modifyHead_modifyHead]
  congr 1
  funext ys
  simp

theorem push_buffer_end {s : Framer α} {a : α} (ha : isEnd a = true) :
    (s.push isEnd limit a).buffer = [] := by
  unfold Framer.push
  rw [if_pos ha]
  split
  · assumption
  · rfl

theorem push_buffer_cons {s : Framer α} {a : α} {begun : List α} (ha : isEnd a = false)
    (hs : s.buffer = begun.take limit) :
    s.push isEnd limit a = { s with buffer := (begun ++ [a]).take limit } := by
  rcases s with ⟨lines, buffer⟩
  cases hs
  rw [Framer.push, if_neg (by rw [ha]; decide), List.length_take]
  split
  · rw [List.take_of_length_le (by omega : begun.length ≤ limit),
      List.take_of_length_le (by rw [List.length_append, List.length_singleton]; omega)]
  · rw [List.take_append_of_le_length (by omega)]

/-- A framer that holds the beginning of a run pushes the runs that are still to end. -/
theorem foldl_push (xs begun : List α) (lines : List (List α)) (hlimit : 0 < limit) :
    xs.foldl (Framer.push isEnd limit) ⟨lines, begun.take limit⟩ =
      ⟨lines ++ ((runsFrom isEnd begun xs).dropLast.filter (· ≠ [])).map (List.take limit),
        ((runsFrom isEnd begun xs).getLastD []).take limit⟩ := by
  induction xs generalizing begun lines with
  | nil => simp [runsFrom]
  | cons a xs ih =>
    have htake : begun.take limit = [] ↔ begun = [] := by
      rw [List.take_eq_nil_iff, or_iff_right (by omega : ¬limit = 0)]
    rw [List.foldl_cons]
    cases ha : isEnd a with
    | true =>
      have hlast : (begun :: runsFrom isEnd [] xs).getLastD [] =
          (runsFrom isEnd [] xs).getLastD [] := by
        cases hruns : runsFrom isEnd [] xs with
        | nil => exact absurd hruns (runsFrom_ne_nil [] xs)
        | cons run runs => rfl
      rw [runsFrom_end ha, hlast, List.dropLast_cons_of_ne_nil (runsFrom_ne_nil [] xs)]
      have hnext := ih []
      rw [List.take_nil] at hnext
      by_cases hbegun : begun = []
      · rw [hbegun, Framer.push, if_pos ha, List.take_nil, if_pos rfl, hnext,
          List.filter_cons_of_neg (by simp)]
      · rw [Framer.push, if_pos ha, if_neg (fun h ↦ hbegun (htake.mp h)), hnext,
          List.filter_cons_of_pos (by simpa using hbegun), List.map_cons, List.append_assoc]
        rfl
    | false =>
      rw [push_buffer_cons ha rfl, ih, runsFrom_cons ha]

/-- From an empty buffer: the lines of the stream, and its rest. -/
theorem foldl_push_nil (xs : List α) (hlimit : 0 < limit) :
    xs.foldl (Framer.push isEnd limit) {} =
      ⟨framed isEnd limit xs, unframed isEnd limit xs⟩ := by
  have h : xs.foldl (Framer.push isEnd limit) ⟨[], [].take limit⟩ = _ := foldl_push xs [] [] hlimit
  rw [List.take_nil, runsFrom_nil, List.nil_append] at h
  exact h

/-! ## The line a stream begins with -/

end YFtp.Theory
