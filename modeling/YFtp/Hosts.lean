import YFtp.Theory.PathWalk
import YFtp.Paths

/-!
# Hosts

The file system of the host as a directory tree, pathname resolution in it, and what `build_path`
leads to there: a path put together from the home directory, the current directory and the asked
path leads where a walk over their components leads, also when `canonical` rewrites it.
-/

namespace YFtp

open Theory (Component FileTree)

structure FileName where
  text : WString
  valid : text ≠ [] ∧ '/' ∉ text ∧ text ≠ ['.'] ∧ text ≠ ['.', '.']
deriving DecidableEq, Repr

/-- What stands between two slashes; nothing between two slashes in a row. -/
def componentOf (s : WString) : Option (Component FileName) :=
  if s = ['.'] then some .here
  else if s = ['.', '.'] then some .up
  else if h : s ≠ [] ∧ '/' ∉ s ∧ s ≠ ['.'] ∧ s ≠ ['.', '.'] then some (.entry ⟨s, h⟩)
  else none

def components (path : WString) : List (Component FileName) :=
  (path.splitOn '/').filterMap componentOf

/-- The string of an absolute path without links. -/
def render (l : List FileName) : WString :=
  if l = [] then ['/'] else l.flatMap fun n ↦ '/' :: n.text

/-- The file system, and the working directory of the server process. -/
structure Host extends FileTree FileName where
  cwd : List FileName
  cwd_real : toFileTree.Real cwd

/-- Where a path leads, whether or not something is present there. -/
def Host.locate (t : Host) (path : WString) : Option (List FileName) :=
  if path = [] then none
  else t.walk (if path.head? = some '/' then [] else t.cwd) (components path)

/-- The operating system answers as for this file system: `canonical` returns the absolute path,
without links, of what is present. -/
def Host.Answers (t : Host) (env : Env) : Prop :=
  ∀ path resolved, env.canonical path = some resolved →
    ∃ l, t.locate path = some l ∧ t.present l = true ∧ resolved = render l

/-! ## Strings and components -/

@[simp] theorem components_nil : components [] = [] := by
  decide

theorem components_slash (left right : WString) :
    components (left ++ '/' :: right) = components left ++ components right := by
  unfold components
  rw [List.splitOn_eq_splitOnP, List.splitOnP_append_cons left right (by simp),
    List.filterMap_append]
  simp only [List.splitOn_eq_splitOnP]

theorem components_text (n : FileName) : components n.text = [.entry n] := by
  rcases n with ⟨s, hs⟩
  have hsplit : s.splitOn '/' = [s] := by
    rw [List.splitOn_eq_splitOnP]
    refine List.splitOnP_eq_singleton fun x hx ↦ ?_
    rw [beq_eq_false_iff_ne]
    rintro rfl
    exact hs.2.1 hx
  unfold components
  simp only [hsplit, List.filterMap_cons, List.filterMap_nil, componentOf]
  rw [if_neg hs.2.2.1, if_neg hs.2.2.2, dif_pos hs]

theorem components_render (l : List FileName) : components (render l) = l.map .entry := by
  have hflat : ∀ l : List FileName,
      components (l.flatMap fun n ↦ '/' :: n.text) = l.map .entry := by
    intro l
    induction l using List.reverseRecOn with
    | nil => rfl
    | append_singleton l n ih =>
      rw [List.flatMap_append, List.flatMap_singleton, components_slash, ih, components_text,
        List.map_append]
      rfl
  unfold render
  split
  · rename_i hnil
    rw [hnil]
    decide
  · exact hflat l

theorem render_head (l : List FileName) : (render l).head? = some '/' := by
  cases l <;> rfl

theorem render_ne_nil (l : List FileName) : render l ≠ [] := by
  intro hnil
  have hhead := render_head l
  rw [hnil] at hhead
  cases hhead

theorem components_pathAppend (left right : WString) :
    components (pathAppend left right) = components left ++ components right := by
  unfold pathAppend
  split
  · rename_i hnil
    rw [hnil, components_nil, List.append_nil]
  · split
    · rename_i hslash
      rcases List.head?_eq_some_iff.mp hslash with ⟨rest, rfl⟩
      rw [components_slash]
      exact congrArg (components left ++ ·) (components_slash [] rest).symm
    · split
      · exact components_slash left right
      · rename_i hlast
        by_cases hnil : left = []
        · rw [hnil]
          rfl
        · have hslash : left.getLast? = some '/' := by
            by_contra hne
            exact hlast ⟨hnil, hne⟩
          rcases List.getLast?_eq_some_iff.mp hslash with ⟨front, rfl⟩
          rw [List.append_assoc, List.singleton_append, components_slash, components_slash,
            components_nil, List.append_nil]

theorem pathAppend_head {left : WString} (h : left ≠ []) (right : WString) :
    (pathAppend left right).head? = left.head? := by
  cases left with
  | nil => exact absurd rfl h
  | cons x xs =>
    unfold pathAppend
    split
    · rfl
    · split
      · rfl
      · split <;> rfl

/-! ## Where `build_path` leads -/

/-- The components that `build_path` puts behind the home directory. -/
def relative (current asked : WString) : List (Component FileName) :=
  (if asked.head? = some '/' ∨ asked.head? = some '\\' then [] else components current)
    ++ components asked

section Locate

variable {t : Host} {env : Env} {start current asked : WString} {l : List FileName}

theorem locate_congr {path path' : WString} (hne : path ≠ []) (hhead : path'.head? = path.head?)
    (hcomponents : components path' = components path) : t.locate path' = t.locate path := by
  have hne' : path' ≠ [] := by
    rintro rfl
    exact hne (List.head?_eq_none_iff.mp hhead.symm)
  unfold Host.locate
  rw [if_neg hne, if_neg hne', hhead, hcomponents]

theorem locate_render (h : t.Real l) : t.locate (render l) = some l := by
  have hne : render l ≠ [] := by
    intro hnil
    have hhead := render_head l
    rw [hnil] at hhead
    cases hhead
  unfold Host.locate
  rw [if_neg hne, if_pos (render_head l), components_render]
  exact FileTree.walk_entries (l := []) h

theorem locate_real {path : WString} (h : t.locate path = some l) (hl : t.present l = true) :
    t.Real l := by
  unfold Host.locate at h
  split at h
  · cases h
  · refine FileTree.walk_real (fun _ ↦ ?_) h hl
    split
    · exact FileTree.real_nil
    · exact t.cwd_real

/-- `canonical` does not change where a path leads. -/
theorem locate_canonical (h : t.Answers env) (path : WString) :
    t.locate ((env.canonical path).getD path) = t.locate path := by
  cases hcanonical : env.canonical path with
  | none => rfl
  | some resolved =>
    rcases h path resolved hcanonical with ⟨l, hl, hpresent, rfl⟩
    rw [Option.getD_some, locate_render (locate_real hl hpresent), hl]

theorem locate_buildPath (h : t.Answers env) (hstart : start ≠ []) (hcurrent : current ≠ [])
    (bcanonical : Bool) :
    t.locate (buildPath env.canonical start current asked bcanonical)
      = (t.locate start).bind fun home ↦ t.walk home (relative current asked) := by
  unfold buildPath
  rw [if_pos ⟨hstart, hcurrent⟩]
  generalize hraw : (if asked ≠ [] then
      if asked.head? = some '/' ∨ asked.head? = some '\\' then pathAppend start asked
      else pathAppend (pathAppend start current) asked
    else pathAppend start current) = raw
  -- the path as it was put together: the same beginning, and the components of all parts
  have hparts : raw.head? = start.head? ∧
      components raw = components start ++ relative current asked := by
    have hhead := pathAppend_head hstart current
    have hne : pathAppend start current ≠ [] := by
      intro hnil
      rw [hnil] at hhead
      exact hstart (List.head?_eq_none_iff.mp hhead.symm)
    rw [← hraw]
    unfold relative
    split
    · split
      · exact ⟨pathAppend_head hstart asked, components_pathAppend start asked⟩
      · refine ⟨(pathAppend_head hne asked).trans hhead, ?_⟩
        rw [components_pathAppend, components_pathAppend, List.append_assoc]
    · rename_i hnil
      rw [not_not] at hnil
      subst hnil
      refine ⟨hhead, ?_⟩
      rw [components_pathAppend, components_nil, List.append_nil, if_neg (by decide)]
  have hne : raw ≠ [] := by
    rintro rfl
    exact hstart (List.head?_eq_none_iff.mp hparts.1.symm)
  have hwalk : t.locate raw
      = (t.locate start).bind fun home ↦ t.walk home (relative current asked) := by
    unfold Host.locate
    rw [if_neg hne, if_neg hstart, hparts.1, hparts.2]
    exact FileTree.walk_append
  dsimp only
  split
  · rw [locate_canonical h]
    split
    · rename_i hslashes
      rw [← hwalk, hslashes]
      exact locate_congr (by decide) rfl (by decide)
    · exact hwalk
  · exact hwalk

end Locate

/-! ## Home directories -/

/-- The path leads nowhere, or to the home directory or below it. -/
def Inside (t : Host) (home path : WString) : Prop :=
  ∀ l ∈ t.locate path, ∃ top ∈ t.locate home, top <+: l

/-- No step from the home directory along the current directory and the asked path leads out of the
home directory. -/
def StaysHome (t : Host) (home current asked : WString) : Prop :=
  ∀ top ∈ t.locate home, t.StaysIn top top (relative current asked)

instance (t : Host) (home current asked : WString) : Decidable (StaysHome t home current asked) :=
  inferInstanceAs (Decidable (∀ _ ∈ _, _))

instance (t : Host) (home path : WString) : Decidable (Inside t home path) :=
  inferInstanceAs (Decidable (∀ _ ∈ _, ∃ _ ∈ _, _))

theorem StaysHome.inside {t : Host} {env : Env} {home current asked : WString}
    (h : StaysHome t home current asked) (henv : t.Answers env) (bcanonical : Bool) :
    Inside t home (buildPath env.canonical home current asked bcanonical) := by
  intro l hl
  by_cases hempty : home ≠ [] ∧ current ≠ []
  · rw [Option.mem_def, locate_buildPath henv hempty.1 hempty.2, Option.bind_eq_some_iff] at hl
    rcases hl with ⟨top, htop, hwalk⟩
    exact ⟨top, htop, (h top htop).walk (List.prefix_refl top) hwalk⟩
  · rw [buildPath, if_neg hempty] at hl
    cases hl

end YFtp
