import Mathlib.Data.List.Basic
import Mathlib.Tactic.Common

/-!
# File streams — `ifstream` and `ofstream` as far as their error flags tell

An input stream reads blocks of a file that may fail at any byte, and an output stream keeps what it
is given in a buffer that reaches the file in part with each write and with the rest at `close`.
The lemmas say what has become of every element: what was read and what is still to be read make up
the file, and what is in the file and what is in the buffer make up what was written.
-/

namespace YFtp.Theory

variable {α : Type}

/-! ## Input -/

/-- An input stream on a file with this content.  `good` is cleared by the end of the file and by
every error, `bad` is set by an error of the device. -/
structure InStream (α : Type) where
  content : List α
  pos : Nat := 0
  good : Bool := true
  bad : Bool := false

/-- How the device answers a read: all the elements there are, or an error after some of them. -/
inductive Reading
  | complete
  | failing (after : Nat)
deriving DecidableEq, Repr

namespace InStream

/-- What is left to be read. -/
def rest (s : InStream α) : List α := s.content.drop s.pos

/-- `seekg`. -/
def seek (pos : Nat) (ok : Bool) (s : InStream α) : InStream α :=
  if ok then { s with pos := pos } else { s with good := false }

/-- `read` and `gcount`. -/
def read (size : Nat) (reading : Reading) (s : InStream α) : List α × InStream α :=
  let wanted := s.rest.take size
  match reading with
  | .complete =>
    (wanted, { s with pos := s.pos + wanted.length, good := wanted.length = size })
  | .failing after =>
    let block := wanted.take after
    (block, { s with pos := s.pos + block.length, good := block.length = size
                     bad := s.bad || after < size })

variable {s : InStream α} {size : Nat} {reading : Reading}

@[simp] theorem seek_content (pos : Nat) (ok : Bool) : (s.seek pos ok).content = s.content := by
  unfold seek
  split <;> rfl

@[simp] theorem read_content : (s.read size reading).2.content = s.content := by
  cases reading <;> rfl

-- a block is an initial part of what is left
theorem read_eq_take (size : Nat) (reading : Reading) (s : InStream α) : ∃ n, (s.read size reading).1 = s.rest.take n ∧
    (s.read size reading).2.pos = s.pos + (s.rest.take n).length := by
  cases reading with
  | complete => exact ⟨size, rfl, rfl⟩
  | failing after =>
    refine ⟨min after size, List.take_take, ?_⟩
    show s.pos + ((s.rest.take size).take after).length = _
    rw [List.take_take]

theorem take_append_drop_length (n : Nat) (l : List α) :
    l.take n ++ l.drop (l.take n).length = l := by
  by_cases hn : n ≤ l.length
  · rw [List.length_take, Nat.min_eq_left hn, List.take_append_drop]
  · rw [List.take_of_length_le (by omega), List.drop_length, List.append_nil]

/-- No element is lost or read twice. -/
theorem read_append_rest (size : Nat) (reading : Reading) (s : InStream α) :
    (s.read size reading).1 ++ (s.read size reading).2.rest = s.rest := by
  rcases read_eq_take size reading s with ⟨n, hblock, hpos⟩
  unfold rest
  rw [read_content, hpos, hblock, ← List.drop_drop]
  exact take_append_drop_length n s.rest

/-- A read that comes back short without an error has come to the end of the file. -/
theorem rest_eq_nil_of_short (hbad : (s.read size reading).2.bad = false)
    (hshort : (s.read size reading).1.length < size) : (s.read size reading).2.rest = [] := by
  have hall := congrArg List.length (read_append_rest size reading s)
  rw [List.length_append] at hall
  rw [← List.length_eq_zero_iff]
  have hblock : (s.read size reading).1 = s.rest.take size := by
    cases reading with
    | complete => rfl
    | failing after =>
      have hafter : ¬after < size := by
        intro hafter
        have hset : (s.bad || decide (after < size)) = false := hbad
        rw [decide_eq_true hafter, Bool.or_true] at hset
        cases hset
      show (s.rest.take size).take after = _
      rw [List.take_take, Nat.min_eq_right (by omega)]
  rw [hblock, List.length_take] at hshort hall
  omega

theorem length_read_le : (s.read size reading).1.length ≤ size := by
  cases reading with
  | complete => exact List.length_take_le _ _
  | failing after =>
    show ((s.rest.take size).take after).length ≤ size
    rw [List.length_take, List.length_take]
    omega

theorem read_good : (s.read size reading).2.good = decide ((s.read size reading).1.length = size) := by
  cases reading <;> rfl

theorem read_short (h : (s.read size reading).2.good = false) :
    (s.read size reading).1.length < size := by
  rw [read_good, decide_eq_false_iff_not] at h
  have hle : (s.read size reading).1.length ≤ size := length_read_le
  omega

-- an error of the device leaves the block short
theorem read_sound (h : s.bad = false) (hgood : (s.read size reading).2.good = true) :
    (s.read size reading).2.bad = false := by
  rw [read_good, decide_eq_true_iff] at hgood
  cases reading with
  | complete => exact h
  | failing after =>
    have hlength : ((s.rest.take size).take after).length = size := hgood
    rw [List.length_take, List.length_take] at hlength
    have hafter : ¬after < size := by omega
    show (s.bad || decide (after < size)) = false
    rw [h, decide_eq_false hafter]
    rfl

end InStream

/-! ## Output -/

/-- An output stream: what the file holds, how far behind its end the next element goes, and what
has been written but is not in the file yet. -/
structure OutStream (α : Type) where
  content : List α
  gap : Nat := 0
  buffer : List α := []
  good : Bool := true
  bad : Bool := false

variable [Inhabited α]

/-- The file after data have been written behind its end; the gap is filled up. -/
def extend (content : List α) (gap : Nat) (data : List α) : List α :=
  if data = [] then content else content ++ List.replicate gap default ++ data

theorem extend_nil (content : List α) (gap : Nat) : extend content gap [] = content :=
  if_pos rfl

theorem extend_extend (content : List α) (gap : Nat) (a b : List α) :
    extend (extend content gap a) (if a = [] then gap else 0) b = extend content gap (a ++ b) := by
  by_cases ha : a = []
  · rw [ha, extend_nil, if_pos rfl, List.nil_append]
  · by_cases hb : b = []
    · rw [hb, extend_nil, List.append_nil]
    · unfold extend
      rw [if_neg hb, if_neg ha, if_neg ha, if_neg (by simp [ha]), List.replicate_zero,
        List.append_nil, List.append_assoc]

-- more data make a longer file
theorem length_extend_lt (content : List α) (gap : Nat) {a b : List α} (hb : b ≠ []) :
    (extend content gap a).length < (extend content gap (a ++ b)).length := by
  have hpos := List.length_pos_iff.mpr hb
  have hab : a ++ b ≠ [] := List.append_ne_nil_of_right_ne_nil a hb
  by_cases ha : a = []
  · rw [ha, extend_nil, List.nil_append, extend, if_neg hb]
    simp only [List.length_append]
    omega
  · rw [extend, extend, if_neg ha, if_neg hab]
    simp only [List.length_append]
    omega

namespace OutStream

/-- The first elements of the buffer reach the file. -/
def flush (count : Nat) (s : OutStream α) : OutStream α :=
  { s with
    content := extend s.content s.gap (s.buffer.take count)
    gap := if s.buffer.take count = [] then s.gap else 0
    buffer := s.buffer.drop count }

/-- `seekp` on a file that has just been emptied. -/
def seek (gap : Nat) (ok : Bool) (s : OutStream α) : OutStream α :=
  if ok then { s with gap := gap } else { s with good := false }

/-- `write`: some of what is waiting reaches the file, and an error sets `bad`. -/
def write (data : List α) (flushed : Nat) (ok : Bool) (s : OutStream α) : OutStream α :=
  let s := { s with buffer := s.buffer ++ data }.flush flushed
  if ok then s else { s with good := false, bad := true }

/-- `close`: the content of the file afterwards, and whether the whole buffer got there. -/
def close (flushed : Nat) (s : OutStream α) : List α × Bool :=
  ((s.flush flushed).content, (s.flush flushed).buffer.isEmpty)

/-- All that has been written, in the file or not yet, are these data, behind this content. -/
def Holds (content : List α) (gap : Nat) (data : List α) (s : OutStream α) : Prop :=
  ∀ more, extend s.content s.gap (s.buffer ++ more) = extend content gap (data ++ more)

variable {s : OutStream α} {content data : List α} {gap flushed : Nat}

theorem flush_holds (flushed : Nat) (h : s.Holds content gap data) :
    (s.flush flushed).Holds content gap data := by
  intro more
  show extend (extend s.content s.gap (s.buffer.take flushed))
    (if s.buffer.take flushed = [] then s.gap else 0) (s.buffer.drop flushed ++ more) = _
  rw [extend_extend, ← List.append_assoc, List.take_append_drop]
  exact h more

theorem write_holds (h : s.Holds content gap data) (block : List α) (flushed : Nat) (ok : Bool) :
    (s.write block flushed ok).Holds content gap (data ++ block) := by
  have hbuffer : { s with buffer := s.buffer ++ block }.Holds content gap (data ++ block) := by
    intro more
    show extend s.content s.gap (s.buffer ++ block ++ more) = _
    rw [List.append_assoc, List.append_assoc]
    exact h (block ++ more)
  have hflush := flush_holds flushed hbuffer
  unfold write
  split
  · exact hflush
  · exact hflush

theorem close_complete (h : s.Holds content gap data) (hclose : (s.close flushed).2 = true) :
    (s.close flushed).1 = extend content gap data := by
  have hall := flush_holds flushed h []
  rw [List.isEmpty_iff.mp hclose, List.append_nil, List.append_nil, extend_nil] at hall
  exact hall

/-- What is left in the buffer at `close` is missing in the file. -/
theorem close_incomplete (h : s.Holds content gap data) (hclose : (s.close flushed).2 = false) :
    (s.close flushed).1 ≠ extend content gap data := by
  have hall := h []
  rw [List.append_nil, List.append_nil, ← List.take_append_drop flushed s.buffer] at hall
  have hleft : s.buffer.drop flushed ≠ [] := by
    intro hnil
    have hempty : (s.buffer.drop flushed).isEmpty = false := hclose
    rw [hnil] at hempty
    cases hempty
  have hlength := length_extend_lt s.content s.gap (a := s.buffer.take flushed) hleft
  intro heq
  have heq : extend s.content s.gap (s.buffer.take flushed) = extend content gap data := heq
  rw [hall, heq] at hlength
  exact Nat.lt_irrefl _ hlength

/-- A stream without a gap: it goes on right behind `base`, and the data are in the file or on their
way there. -/
structure Appends (base data : List α) (s : OutStream α) : Prop where
  gap : s.gap = 0
  behind : base <+: s.content
  bytes : s.content ++ s.buffer = base ++ data

section Appends

variable {base : List α}

theorem extend_zero (content data : List α) : extend content 0 data = content ++ data := by
  unfold extend
  split
  · rename_i hdata
    rw [hdata, List.append_nil]
  · rw [List.replicate_zero, List.append_nil]

omit [Inhabited α] in
theorem Appends.seek (h : s.Appends base data) (ok : Bool) : (s.seek 0 ok).Appends base data := by
  unfold OutStream.seek
  split
  · exact ⟨rfl, h.behind, h.bytes⟩
  · exact ⟨h.gap, h.behind, h.bytes⟩

theorem Appends.flush (h : s.Appends base data) (flushed : Nat) :
    (s.flush flushed).Appends base data := by
  have hcontent : (s.flush flushed).content = s.content ++ s.buffer.take flushed := by
    show extend s.content s.gap _ = _
    rw [h.gap, extend_zero]
  constructor
  · show (if _ then s.gap else 0) = 0
    rw [h.gap, ite_self]
  · rw [hcontent]
    exact h.behind.trans (List.prefix_append _ _)
  · rw [hcontent]
    show s.content ++ s.buffer.take flushed ++ s.buffer.drop flushed = _
    rw [List.append_assoc, List.take_append_drop]
    exact h.bytes

theorem Appends.write (h : s.Appends base data) (block : List α) (flushed : Nat) (ok : Bool) :
    (s.write block flushed ok).Appends base (data ++ block) := by
  have hbuffer : { s with buffer := s.buffer ++ block }.Appends base (data ++ block) := by
    refine ⟨h.gap, h.behind, ?_⟩
    show s.content ++ (s.buffer ++ block) = _
    rw [← List.append_assoc, h.bytes, List.append_assoc]
  have hflush := hbuffer.flush flushed
  unfold OutStream.write
  split
  · exact hflush
  · exact ⟨hflush.gap, hflush.behind, hflush.bytes⟩

/-- The file keeps its base and an initial part of the data, whether or not `close` goes well. -/
theorem Appends.close (h : s.Appends base data) (flushed : Nat) : ∃ kept, kept <+: data ∧
    (s.close flushed).1 = base ++ kept ∧ ((s.close flushed).2 = true → kept = data) := by
  have hflush := h.flush flushed
  obtain ⟨kept, hkept⟩ := hflush.behind
  have hbytes := hflush.bytes
  rw [← hkept, List.append_assoc, List.append_cancel_left_eq] at hbytes
  refine ⟨kept, ⟨_, hbytes⟩, hkept.symm, ?_⟩
  intro hcomplete
  rw [List.isEmpty_iff.mp hcomplete, List.append_nil] at hbytes
  exact hbytes

end Appends

end OutStream

end YFtp.Theory
