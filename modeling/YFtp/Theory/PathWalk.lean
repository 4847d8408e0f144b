import Mathlib.Data.List.Infix
import Mathlib.Tactic.Common

/-!
# Path walks — pathname resolution in a directory tree with links

A location is the list of the names that lead to it from the root.  A walk looks up one component
after the other: the place where it stands has to be a directory, links are followed at once, and
`..` leads to the directory above.  A walk that never steps out of a directory ends in it.
-/

namespace YFtp.Theory

/-- One component of a pathname: `.`, `..` or a name. -/
inductive Component (Name : Type)
  | here
  | up
  | entry (name : Name)
deriving DecidableEq, Repr

/-- A directory tree.  The name at the location `l` leads to `follow l`, which is `l` itself unless
there is a link.  What is present where a name leads lies in directories, with no link on the way. -/
structure FileTree (Name : Type) where
  isDir : List Name → Bool
  present : List Name → Bool
  follow : List Name → List Name
  present_of_isDir : ∀ {l}, isDir l = true → present l = true
  followed : ∀ {l m n}, present (follow l) = true → m ++ [n] <+: follow l →
    isDir m = true ∧ follow (m ++ [n]) = m ++ [n]

namespace FileTree

variable {Name : Type} (t : FileTree Name)

/-- Directories only, and no link, lie on the way to the location. -/
def Real (l : List Name) : Prop :=
  ∀ m n, m ++ [n] <+: l → t.isDir m = true ∧ t.follow (m ++ [n]) = m ++ [n]

def step (l : List Name) (c : Component Name) : Option (List Name) :=
  if t.isDir l then
    match c with
    | .here => some l
    | .up => some l.dropLast
    | .entry name => some (t.follow (l ++ [name]))
  else none

/-- Where the components lead from `l`.  What the last one names need not be present. -/
def walk : List Name → List (Component Name) → Option (List Name)
  | l, [] => some l
  | l, c :: cs => (t.step l c).bind fun m ↦ walk m cs

/-- No step of the walk from `l` leads out of `home`. -/
def StaysIn (home : List Name) : List Name → List (Component Name) → Prop
  | _, [] => True
  | l, c :: cs => ∀ m ∈ t.step l c, home <+: m ∧ StaysIn home m cs

instance decidableStaysIn [DecidableEq Name] (home : List Name) :
    ∀ l cs, Decidable (t.StaysIn home l cs)
  | _, [] => isTrue trivial
  | l, c :: cs =>
    have : ∀ m, Decidable (t.StaysIn home m cs) := fun m ↦ decidableStaysIn home m cs
    inferInstanceAs (Decidable (∀ m ∈ t.step l c, home <+: m ∧ t.StaysIn home m cs))

variable {t} {home l m : List Name} {c : Component Name} {cs ds : List (Component Name)}

@[simp] theorem walk_nil : t.walk l [] = some l := rfl

theorem walk_cons : t.walk l (c :: cs) = (t.step l c).bind fun m ↦ t.walk m cs := rfl

theorem walk_append : t.walk l (cs ++ ds) = (t.walk l cs).bind fun m ↦ t.walk m ds := by
  induction cs generalizing l with
  | nil => rfl
  | cons c cs ih =>
    rw [List.cons_append, walk_cons, walk_cons, Option.bind_assoc]
    simp only [ih]

/-- The rule for confinement: the induction follows the components of the walk. -/
theorem StaysIn.walk (h : t.StaysIn home l cs) (hl : home <+: l) (hwalk : t.walk l cs = some m) :
    home <+: m := by
  induction cs generalizing l with
  | nil =>
    cases hwalk
    exact hl
  | cons c cs ih =>
    rw [walk_cons, Option.bind_eq_some_iff] at hwalk
    rcases hwalk with ⟨k, hk, hwalk⟩
    have hstep := h k hk
    exact ih hstep.2 hstep.1 hwalk

theorem real_nil : t.Real [] := by
  intro m n h
  have hlength := h.length_le
  simp at hlength

theorem Real.of_prefix (h : t.Real l) (hm : m <+: l) : t.Real m :=
  fun k n hk ↦ h k n (hk.trans hm)

/-- What a step leads to is real as soon as it is present. -/
theorem step_real (hl : t.present l = true → t.Real l) (h : t.step l c = some m)
    (hm : t.present m = true) : t.Real m := by
  unfold step at h
  split at h
  · rename_i hdir
    have hreal := hl (t.present_of_isDir hdir)
    cases c with
    | here =>
      cases h
      exact hreal
    | up =>
      cases h
      exact hreal.of_prefix (List.dropLast_prefix l)
    | entry name =>
      cases h
      exact fun k n hk ↦ t.followed hm hk
  · cases h

theorem walk_real (hl : t.present l = true → t.Real l) (h : t.walk l cs = some m)
    (hm : t.present m = true) : t.Real m := by
  induction cs generalizing l with
  | nil =>
    cases h
    exact hl hm
  | cons c cs ih =>
    rw [walk_cons, Option.bind_eq_some_iff] at h
    rcases h with ⟨k, hk, h⟩
    exact ih (step_real hl hk) h

/-- The names of a real location lead to it. -/
theorem walk_entries {ns : List Name} (h : t.Real (l ++ ns)) :
    t.walk l (ns.map .entry) = some (l ++ ns) := by
  induction ns generalizing l with
  | nil => simp
  | cons n ns ih =>
    have happend : l ++ n :: ns = l ++ [n] ++ ns := by simp
    have hstep := h l n (by rw [happend]; exact List.prefix_append _ _)
    rw [List.map_cons, walk_cons, step, if_pos hstep.1]
    change t.walk (t.follow (l ++ [n])) (ns.map .entry) = _
    rw [hstep.2, happend]
    exact ih (happend ▸ h)

end FileTree

end YFtp.Theory
