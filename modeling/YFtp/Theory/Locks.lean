import Mathlib.Data.List.MinMax
import YFtp.Theory.Pools
import YFtp.Theory.Runs

/-!
# Locks — threads that take and give back mutexes

What a thread does to mutexes is a list of operations.  Where every guard takes its mutex inside
guards of lower ranks only, no two threads hold a mutex at a time, as long as a thread has
something left to do some thread can go on, and so all of them come to their ends.
-/

namespace YFtp.Theory

inductive LockOp (L : Type)
  | acquire (l : L)
  | release (l : L)
deriving DecidableEq, Repr

/-- A guard: the mutex is held for as long as the body runs. -/
def guarded {L : Type} (l : L) (body : List (LockOp L)) : List (LockOp L) :=
  .acquire l :: (body ++ [.release l])

/-- What a thread has left to do, and the mutexes it holds, the last one first. -/
structure LockThread (L : Type) where
  left : List (LockOp L)
  held : List L := []
deriving DecidableEq, Repr

section Locks

variable {L : Type}

/-! ## The order of ranks -/

/-- Every guard takes a mutex whose rank is at least this, and its body ones of higher ranks. -/
inductive Ranked (rank : L → Nat) : Nat → List (LockOp L) → Prop
  | nil {n} : Ranked rank n []
  | guard {n l body rest} (least : n ≤ rank l) (inner : Ranked rank (rank l + 1) body)
      (outer : Ranked rank n rest) : Ranked rank n (guarded l body ++ rest)

/-- Mutexes are taken in the order of their ranks, and given back in the opposite order. -/
def InOrder (rank : L → Nat) : List L → List (LockOp L) → Prop
  | held, [] => held = []
  | held, .acquire l :: ops => (∀ m ∈ held, rank m < rank l) ∧ InOrder rank (l :: held) ops
  | held, .release l :: ops => held.head? = some l ∧ InOrder rank held.tail ops

variable {rank : L → Nat} {n m : Nat} {held : List L} {ops ops' : List (LockOp L)} {l : L}

namespace Ranked

theorem single (hleast : n ≤ rank l) (h : Ranked rank (rank l + 1) ops) :
    Ranked rank n (guarded l ops) := by
  rw [← List.append_nil (guarded l ops)]
  exact .guard hleast h .nil

theorem append (h : Ranked rank n ops) (h' : Ranked rank n ops') :
    Ranked rank n (ops ++ ops') := by
  induction h with
  | nil => exact h'
  | guard hleast inner _ _ ih =>
    rw [List.append_assoc]
    exact .guard hleast inner (ih h')

theorem flatMap {α : Type} {f : α → List (LockOp L)} (h : ∀ a, Ranked rank n (f a)) (as : List α) :
    Ranked rank n (as.flatMap f) := by
  induction as with
  | nil => exact .nil
  | cons a as ih =>
    rw [List.flatMap_cons]
    exact (h a).append ih

theorem mono (h : Ranked rank n ops) (hle : m ≤ n) : Ranked rank m ops := by
  induction h with
  | nil => exact .nil
  | guard hleast inner _ _ ih => exact .guard (hle.trans hleast) inner (ih hle)

/-- Ranked operations keep the order, and leave the mutexes that were held before. -/
theorem inOrder (h : Ranked rank n ops) (hheld : ∀ m ∈ held, rank m < n)
    (hrest : InOrder rank held ops') : InOrder rank held (ops ++ ops') := by
  induction h generalizing held ops' with
  | nil => exact hrest
  | @guard n l body rest hleast _ _ ihbody ihrest =>
    have hbelow : ∀ m ∈ held, rank m < rank l := fun m hm ↦ (hheld m hm).trans_le hleast
    have hinner : ∀ m ∈ l :: held, rank m < rank l + 1 := by
      intro m hm
      rcases List.mem_cons.mp hm with rfl | hm
      · exact Nat.lt_succ_self _
      · exact (hbelow m hm).trans (Nat.lt_succ_self _)
    rw [guarded, List.append_assoc, List.cons_append, List.append_assoc]
    refine ⟨hbelow, ?_⟩
    exact ihbody hinner ⟨rfl, ihrest hheld hrest⟩

end Ranked

/-! ## Steps -/

variable [DecidableEq L]

/-- The next operation of a thread; a mutex can be taken while no thread holds it. -/
def moveThread (ts : List (LockThread L)) (i : Nat) : Option (List (LockThread L)) :=
  match ts[i]? with
  | some ⟨.acquire l :: ops, held⟩ =>
    if ∀ t ∈ ts, l ∉ t.held then some (ts.set i ⟨ops, l :: held⟩) else none
  | some ⟨.release l :: ops, held⟩ => some (ts.set i ⟨ops, held.erase l⟩)
  | _ => none

variable {ts ts' : List (LockThread L)} {t : LockThread L} {i : Nat}

theorem moveThread_cases (h : moveThread ts i = some ts') :
    ∃ op ops held held', ts[i]? = some ⟨op :: ops, held⟩ ∧ ts' = ts.set i ⟨ops, held'⟩ ∧
      ((∃ l, op = .acquire l ∧ (∀ t ∈ ts, l ∉ t.held) ∧ held' = l :: held) ∨
        ∃ l, op = .release l ∧ held' = held.erase l) := by
  unfold moveThread at h
  split at h
  · rename_i l ops held ht
    split at h
    · rename_i hfree
      cases h
      exact ⟨_, ops, held, _, ht, rfl, .inl ⟨l, rfl, hfree, rfl⟩⟩
    · cases h
  · rename_i l ops held ht
    cases h
    exact ⟨_, ops, held, _, ht, rfl, .inr ⟨l, rfl, rfl⟩⟩
  · cases h

/-- The threads keep the order, and no mutex is held by two of them. -/
structure OrderedPool (rank : L → Nat) (ts : List (LockThread L)) : Prop where
  inOrder : ∀ t ∈ ts, InOrder rank t.held t.left
  exclusive : ∀ l, AtMostOne (fun t ↦ decide (l ∈ t.held)) ts

/-- A pool of threads that have not begun. -/
theorem orderedPool_start (h : ∀ t ∈ ts, t.held = [] ∧ Ranked rank 0 t.left) :
    OrderedPool rank ts := by
  constructor
  · intro t ht
    rw [(h t ht).1, ← List.append_nil t.left]
    exact (h t ht).2.inOrder (List.forall_mem_nil _) rfl
  · intro l i j a b ha _ hl
    have hheld := of_decide_eq_true hl
    rw [(h a (List.mem_of_getElem? ha)).1] at hheld
    cases hheld

theorem OrderedPool.move (h : OrderedPool rank ts) (hmove : moveThread ts i = some ts') :
    OrderedPool rank ts' := by
  obtain ⟨op, ops, held, held', ht, rfl, hop⟩ := moveThread_cases hmove
  have hmem := List.mem_of_getElem? ht
  have horder := h.inOrder _ hmem
  have hothers : ∀ (j : Nat) (c : LockThread L), j ≠ i → ts[j]? = some c →
      InOrder rank c.held c.left := fun j c _ hc ↦ h.inOrder c (List.mem_of_getElem? hc)
  rcases hop with ⟨l, rfl, hfree, rfl⟩ | ⟨l, rfl, rfl⟩
  · refine ⟨forall_mem_set hothers horder.2, ?_⟩
    intro m
    by_cases hm : m = l
    · rw [hm]
      exact .set_new fun j c _ hc ↦ decide_eq_false (hfree c (List.mem_of_getElem? hc))
    · apply (h.exclusive m).set ht
      intro hin
      exact decide_eq_true ((List.mem_cons.mp (of_decide_eq_true hin)).resolve_left hm)
  · -- the mutex that is given back is the last one that was taken
    obtain ⟨hhead, hrest⟩ := horder
    have htail : held.erase l = held.tail := by
      cases held with
      | nil => cases hhead
      | cons k held =>
        cases hhead
        exact List.erase_cons_head ..
    refine ⟨forall_mem_set hothers (htail ▸ hrest), ?_⟩
    intro m
    apply (h.exclusive m).set ht
    intro hin
    exact decide_eq_true (List.mem_of_mem_erase (of_decide_eq_true hin))

/-! ## Progress -/

/-- The mutex that a thread is about to take. -/
def LockThread.wants (t : LockThread L) : Option L :=
  match t.left with
  | .acquire l :: _ => some l
  | _ => none

omit [DecidableEq L] in
theorem wants_eq_some : t.wants = some l ↔ ∃ ops, t.left = .acquire l :: ops := by
  unfold LockThread.wants
  constructor
  · intro h
    split at h
    · rename_i hleft
      cases h
      exact ⟨_, hleft⟩
    · cases h
  · rintro ⟨ops, hleft⟩
    rw [hleft]

/-- Whoever waits for a mutex waits for somebody who is after one of a higher rank, so whoever is
after one of the highest rank can go on. -/
theorem OrderedPool.exists_move (h : OrderedPool rank ts) (ht : t ∈ ts) (hleft : t.left ≠ []) :
    ∃ i ts', moveThread ts i = some ts' := by
  by_contra hstuck
  push Not at hstuck
  have hwaits : ∀ t ∈ ts, t.left ≠ [] → ∃ l, t.wants = some l ∧ ∃ u ∈ ts, l ∈ u.held := by
    rintro ⟨left, held⟩ ht hleft
    obtain ⟨i, hi⟩ := List.mem_iff_getElem?.mp ht
    match left, hleft with
    | .acquire l :: ops, _ =>
      refine ⟨l, rfl, ?_⟩
      by_contra hfree
      push Not at hfree
      apply hstuck i (ts.set i ⟨ops, l :: held⟩)
      simp only [moveThread, hi, if_pos hfree]
    | .release l :: ops, _ =>
      exact absurd (by simp only [moveThread, hi]) (hstuck i (ts.set i ⟨ops, held.erase l⟩))
  have hmem : ∀ {u l}, u ∈ ts → u.wants = some l → l ∈ ts.filterMap LockThread.wants :=
    fun hu hl ↦ List.mem_filterMap.mpr ⟨_, hu, hl⟩
  obtain ⟨l, hmax⟩ : ∃ l, (ts.filterMap LockThread.wants).argmax rank = some l := by
    obtain ⟨l, hl, -⟩ := hwaits t ht hleft
    rw [← Option.ne_none_iff_exists', ne_eq, List.argmax_eq_none]
    exact List.ne_nil_of_mem (hmem ht hl)
  obtain ⟨s, hs, hwants⟩ := List.mem_filterMap.mp (List.argmax_mem hmax)
  obtain ⟨ops, hsleft⟩ := wants_eq_some.mp hwants
  obtain ⟨l', hl', u, hu, hheld⟩ := hwaits s hs (by rw [hsleft]; exact List.cons_ne_nil _ _)
  cases hwants.symm.trans hl'
  -- the thread that holds it is not done, so it waits as well
  have horder := h.inOrder u hu
  have huleft : u.left ≠ [] := by
    intro hnil
    rw [hnil] at horder
    rw [show u.held = [] from horder] at hheld
    cases hheld
  obtain ⟨m, hm, -⟩ := hwaits u hu huleft
  obtain ⟨ops', hmleft⟩ := wants_eq_some.mp hm
  rw [hmleft] at horder
  have hhigher : rank l < rank m := horder.1 l hheld
  have hle : rank m ≤ rank l := List.le_of_mem_argmax (hmem hu hm) hmax
  omega

/-! ## Runs -/

abbrev LockRun : List (LockThread L) → List (List (LockThread L) × Nat) → List (LockThread L) →
    Prop :=
  Run fun ts i ts' ↦ moveThread ts i = some ts'

/-- The number of operations that are left. -/
def opsLeft (ts : List (LockThread L)) : Nat := (ts.flatMap (·.left)).length

theorem opsLeft_move (h : moveThread ts i = some ts') : opsLeft ts' + 1 = opsLeft ts := by
  obtain ⟨op, ops, held, held', ht, rfl, -⟩ := moveThread_cases h
  obtain ⟨hlt, hget⟩ := List.getElem?_eq_some_iff.mp ht
  have hsplit : ts = ts.take i ++ ⟨op :: ops, held⟩ :: ts.drop (i + 1) := by
    rw [← hget, List.getElem_cons_drop, List.take_append_drop]
  unfold opsLeft
  rw [List.set_eq_take_append_cons_drop, if_pos hlt]
  conv_rhs => rw [hsplit]
  simp only [List.flatMap_append, List.flatMap_cons, List.length_append, List.length_cons]
  omega

variable {trace : List (List (LockThread L) × Nat)}

theorem OrderedPool.run (h : OrderedPool rank ts) (run : LockRun ts trace ts') :
    OrderedPool rank ts' :=
  run.invariant h fun hs hmove ↦ hs.move hmove

theorem opsLeft_run (run : LockRun ts trace ts') : opsLeft ts' + trace.length = opsLeft ts := by
  induction run with
  | refl => rfl
  | snoc _ last ih =>
    have hlast := opsLeft_move last
    rw [List.length_cons]
    omega

/-- Nobody waits forever: either a thread can go on, or all threads are done and hold nothing. -/
theorem OrderedPool.progress (h : OrderedPool rank ts) :
    (∃ i ts', moveThread ts i = some ts') ∨ ∀ t ∈ ts, t.left = [] ∧ t.held = [] := by
  by_cases hdone : ∀ t ∈ ts, t.left = []
  · right
    intro t ht
    have horder := h.inOrder t ht
    rw [hdone t ht] at horder
    exact ⟨hdone t ht, horder⟩
  · left
    push Not at hdone
    obtain ⟨t, ht, hleft⟩ := hdone
    exact h.exists_move ht hleft

end Locks

end YFtp.Theory
