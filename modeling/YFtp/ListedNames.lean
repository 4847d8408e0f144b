import YFtp.ListPaths

/-!
# Listed names

What the names in a listing of the current directory lead to when they are sent back.  NLST shows
the path below the home directory and LIST the name of the entry, but `build_path` goes from the
current directory, unless the argument begins with a slash or a backslash.
-/

namespace YFtp

open Theory (FileTree)

/-- The directory `top ++ rest` has the entry `n`, which leads to `target`: to itself, unless it is
a link. -/
structure Host.HasEntry (t : Host) (top rest : List FileName) (n : FileName)
    (target : List FileName) : Prop where
  real : t.Real (top ++ rest)
  isDir : t.isDir (top ++ rest) = true
  follows : t.follow (top ++ rest ++ [n]) = target
  present : target = top ++ rest ++ [n] → t.present target = true

/-- The name in the line of an entry. -/
def shownName (home : WString) (cmd : Command) (path : WString) (e : DirectoryEntry)
    (st : FileStatus) : WString :=
  if cmd.id = .NLST then (pathAppend path e.name).drop home.length
  else e.name ++ if (listArguments cmd.args).1.F && isDirectory st then ['/'] else []

/-- In this file system a listing has a line for the entry that ends with this name. -/
def ShowsName (t : Host) (home current : WString) (cmd : Command) (n : FileName) (name : WString) :
    Prop :=
  ∃ entries trace log path v e st q columns,
    ThreadRun ⟨.list cmd .begin, []⟩ trace ⟨.list cmd (.next path), log⟩ ∧
    (∀ x ∈ trace, x.2.Lists t home current entries) ∧ v.Lists t home current entries ∧
    v.answers.nextEntry = some e ∧ e.name = n.text ∧
    Advances ⟨.list cmd (.next path), log⟩ v q ∧
    q.stage = .list cmd (.line (columns ++ name ++ ['\r', '\n']) (some path)) ∧
    name = shownName home cmd path e st

/-- Wherever this entry is in the current directory, the names that a listing shows for it are
resolved to it when they are sent back. -/
def NameLeads (top rest : List FileName) (n : FileName) (target : List FileName) (cmd : Command) :
    Prop :=
  ∀ (t : Host) (env : Env) (name : WString), t.Determines env → t.HasEntry top rest n target →
    ShowsName t (UserManager.withSeparator (render top)) (render rest) cmd n name →
    t.locate (buildPath env.canonical (UserManager.withSeparator (render top)) (render rest) name)
      = some (top ++ rest ++ [n])

/-- `build_path` takes the name that is shown from the home directory on: it begins with a slash or
with a backslash. -/
def FromHome (top rest : List FileName) (n : FileName) (cmd : Command) : Prop :=
  if cmd.id = .NLST then
    -- no separator has been put behind such a home directory, so none is cut off with it
    (render top).getLast? = some '\\' ∨ ∃ m ∈ (rest ++ [n]).head?, m.text.head? = some '\\'
  else n.text.head? = some '\\'

instance (top rest : List FileName) (n : FileName) (cmd : Command) :
    Decidable (FromHome top rest n cmd) :=
  inferInstanceAs (Decidable (ite ..))

/-! ## Strings -/

section Strings

variable {top rest l : List FileName} {n m : FileName} {cmd : Command}

theorem render_cons (m : FileName) (l : List FileName) :
    render (m :: l) = '/' :: (m.text ++ slashed l) :=
  render_slashed (List.cons_ne_nil m l)

-- what is left of a path below the home directory
theorem render_cut (hl : l ≠ []) :
    (render (top ++ l)).drop (UserManager.withSeparator (render top)).length
      = if (render top).getLast? = some '\\' then render l else (render l).drop 1 := by
  have happend : render (top ++ l) = slashed top ++ slashed l := by
    rw [render_slashed (by simp [hl])]
    exact List.flatMap_append
  unfold UserManager.withSeparator
  rw [happend, render_slashed hl]
  by_cases htop : top = []
  · rw [htop]
    rfl
  · rw [render_slashed htop]
    have hslash := slashed_last htop
    by_cases hback : (slashed top).getLast? = some '\\'
    · rw [if_pos hback, if_neg (fun h ↦ h.1 hback), List.drop_left]
    · rw [if_neg hback, if_pos ⟨hback, hslash⟩, List.length_append, ← List.drop_drop,
        List.drop_left]
      rfl

theorem text_head_ne (m : FileName) : m.text.head? ≠ some '/' := by
  intro hhead
  rcases List.head?_eq_some_iff.mp hhead with ⟨rest, hrest⟩
  exact m.valid.2.1 (hrest ▸ List.mem_cons_self)

theorem components_cut (m : FileName) (l : List FileName) :
    components ((render (m :: l)).drop 1) = (m :: l).map .entry := by
  rw [← components_render, render_cons]
  exact (components_slash [] _).symm

theorem head_cut (m : FileName) (l : List FileName) :
    ((render (m :: l)).drop 1).head? = m.text.head? := by
  rw [render_cons, List.drop_succ_cons, List.drop_zero, List.head?_append_of_ne_nil _ m.valid.1]

/-- The names between the home directory and the place that the name shown leads to. -/
def walked (top rest : List FileName) (n : FileName) (cmd : Command) : List FileName :=
  (if FromHome top rest n cmd then [] else rest) ++ if cmd.id = .NLST then rest ++ [n] else [n]

-- the first character of what NLST shows
theorem head_shown_nlst {name : WString} (hid : cmd.id = .NLST)
    (hname : name = if (render top).getLast? = some '\\' then render (rest ++ [n])
      else (render (rest ++ [n])).drop 1) :
    (name.head? = some '/' ∨ name.head? = some '\\') ↔ FromHome top rest n cmd := by
  unfold FromHome
  rw [if_pos hid]
  split at hname
  · rename_i hback
    rw [hname, render_head]
    exact iff_of_true (.inl rfl) (.inl hback)
  · rename_i hback
    rw [or_iff_right hback]
    rcases List.exists_cons_of_ne_nil (show rest ++ [n] ≠ [] by simp) with ⟨m, l, hl⟩
    rw [hname, hl, head_cut, or_iff_right (text_head_ne m), List.head?_cons]
    simp

theorem relative_shown {e : DirectoryEntry} (hname : e.name = n.text) (st : FileStatus) :
    relative (render rest) (shownName (UserManager.withSeparator (render top)) cmd
      (render (top ++ rest)) e st) = (walked top rest n cmd).map .entry := by
  unfold relative walked shownName
  by_cases hid : cmd.id = .NLST
  · rw [if_pos hid, if_pos hid, hname, pathAppend_render, List.append_assoc,
      render_cut (by simp), List.map_append]
    generalize hshown : (if (render top).getLast? = some '\\' then render (rest ++ [n])
      else (render (rest ++ [n])).drop 1) = name
    have hcomponents : components name = (rest ++ [n]).map .entry := by
      rw [← hshown]
      split
      · exact components_render _
      · rcases List.exists_cons_of_ne_nil (show rest ++ [n] ≠ [] by simp) with ⟨m, l, hl⟩
        rw [hl]
        exact components_cut m l
    rw [hcomponents]
    by_cases hhome : FromHome top rest n cmd
    · rw [if_pos ((head_shown_nlst hid hshown.symm).mpr hhome), if_pos hhome]
      rfl
    · rw [if_neg (fun h ↦ hhome ((head_shown_nlst hid hshown.symm).mp h)), if_neg hhome,
        components_render]
  · rw [if_neg hid, if_neg hid, hname, List.map_append]
    have hcomponents : ∀ b : Bool,
        components (n.text ++ if b then ['/'] else []) = [n].map .entry := by
      intro b
      cases b with
      | false => rw [if_neg (by decide), List.append_nil, components_text]; rfl
      | true => rw [if_pos rfl, components_slash, components_text, components_nil]; rfl
    have hhead : ∀ mark : WString, (n.text ++ mark).head? = n.text.head? :=
      fun mark ↦ List.head?_append_of_ne_nil _ n.valid.1
    have hfrom : (n.text.head? = some '/' ∨ n.text.head? = some '\\')
        ↔ FromHome top rest n cmd := by
      unfold FromHome
      rw [if_neg hid, or_iff_right (text_head_ne n)]
    rw [hcomponents, hhead]
    by_cases hhome : FromHome top rest n cmd
    · rw [if_pos (hfrom.mpr hhome), if_pos hhome]
      rfl
    · rw [if_neg (fun h ↦ hhome (hfrom.mp h)), if_neg hhome, components_render]

end Strings

/-! ## Names that lead to their entry -/

section Leads

variable {t : Host} {env : Env} {top rest target : List FileName} {n : FileName} {cmd : Command}
  {current : WString}

theorem components_withSeparator (top : List FileName) :
    components (UserManager.withSeparator (render top)) = top.map .entry := by
  unfold UserManager.withSeparator
  split
  · rw [components_slash, components_render, components_nil, List.append_nil]
  · exact components_render top

theorem locate_withSeparator (h : t.Real top) :
    t.locate (UserManager.withSeparator (render top)) = some top := by
  have hhead : (UserManager.withSeparator (render top)).head? = (render top).head? := by
    unfold UserManager.withSeparator
    split
    · exact List.head?_append_of_ne_nil _ (render_ne_nil top)
    · rfl
  have hcomponents := (components_withSeparator top).trans (components_render top).symm
  rw [locate_congr (render_ne_nil top) hhead hcomponents, locate_render h]

theorem Host.HasEntry.real_top (h : t.HasEntry top rest n target) : t.Real top :=
  h.real.of_prefix (List.prefix_append top rest)

/-- Where the names of the components of the argument lead. -/
theorem locate_asked (henv : t.Determines env) (htop : t.Real top) (asked : WString) :
    t.locate (buildPath env.canonical (UserManager.withSeparator (render top)) (render rest) asked)
      = t.walk top (relative (render rest) asked) := by
  rw [locate_buildPath henv.answers (withSeparator_render_ne_nil top) (render_ne_nil rest),
    locate_withSeparator htop]
  rfl

-- without an argument the current directory is listed
theorem listedAt_current (h : t.HasEntry top rest n target)
    (hargs : (listArguments cmd.args).2 = []) :
    listedAt t (UserManager.withSeparator (render top)) (render rest) cmd = some (top ++ rest) := by
  have hrelative : relative (render rest) [] = rest.map .entry := by
    unfold relative
    rw [if_neg (by decide), components_nil, List.append_nil, components_render]
  unfold listedAt
  rw [if_neg (render_ne_nil rest), hargs, locate_withSeparator h.real_top, Option.bind_some,
    hrelative, FileTree.walk_entries h.real]
  exact Option.filter_some_pos (t.present_of_isDir h.isDir)

theorem ShowsName.eq_shownName {name : WString} (h : t.HasEntry top rest n target)
    (hargs : (listArguments cmd.args).2 = [])
    (hshows : ShowsName t (UserManager.withSeparator (render top)) (render rest) cmd n name) :
    ∃ e st, e.name = n.text ∧ name = shownName (UserManager.withSeparator (render top)) cmd
      (render (top ++ rest)) e st := by
  rcases hshows with ⟨entries, trace, log, path, v, e, st, q, columns, run, htrace, -, -, hname, -,
    -, hshown⟩
  have hstage : ListsAt t (UserManager.withSeparator (render top)) (render rest) cmd
      (.list cmd (.next path)) := by
    apply run.invariant_of_steps (P := fun p ↦ ListsAt t (UserManager.withSeparator (render top))
      (render rest) cmd p.stage) (C := fun _ (v : View) ↦
        v.Lists t (UserManager.withSeparator (render top)) (render rest) entries)
    · exact rfl
    · exact fun hp hv hadvances ↦
        advances_listsAt hp (withSeparator_render_ne_nil top) hv hadvances
    · exact htrace
  rcases hstage with ⟨-, l, hl, rfl, -⟩
  rw [listedAt_current h hargs, Option.mem_some_iff] at hl
  subst hl
  exact ⟨e, st, hname, hshown⟩

theorem walked_eq_iff : walked top rest n cmd = rest ++ [n] ↔
    rest = [] ∨ (FromHome top rest n cmd ↔ cmd.id = .NLST) := by
  unfold walked
  by_cases hid : cmd.id = .NLST
  · rw [if_pos hid, iff_true_right hid]
    split
    · rename_i hhome
      exact iff_of_true rfl (.inr hhome)
    · rename_i hhome
      rw [or_iff_left hhome, List.append_left_eq_self]
  · rw [if_neg hid, iff_false_right hid]
    split
    · rename_i hhome
      rw [or_iff_left (not_not.mpr hhome), List.nil_append, List.self_eq_append_left]
    · rename_i hhome
      exact iff_of_true rfl (.inr hhome)

theorem nameLeads_of_walked (hargs : (listArguments cmd.args).2 = [])
    (htarget : target = top ++ rest ++ [n]) (hwalked : walked top rest n cmd = rest ++ [n]) :
    NameLeads top rest n target cmd := by
  intro t env name henv h hshows
  rcases hshows.eq_shownName h hargs with ⟨e, st, hname, rfl⟩
  rw [locate_asked henv h.real_top, relative_shown hname, hwalked, List.append_assoc]
  apply FileTree.walk_entries
  -- the entry lies in a directory without links on the way, and is none itself
  intro m k hprefix
  rw [← List.append_assoc, List.prefix_concat_iff] at hprefix
  rcases hprefix with heq | hprefix
  · rcases List.append_inj' heq rfl with ⟨rfl, -⟩
    rw [heq]
    exact ⟨h.isDir, h.follows.trans htarget⟩
  · exact h.real m k hprefix

/-! ## Names that do not -/

/-- Nothing but the directory, the way to it and its entry. -/
def loneHost (dir : List FileName) (n : FileName) (target : List FileName) : Host where
  isDir l := l <+: dir
  present l := l <+: dir ∨ (l = dir ++ [n] ∧ target = dir ++ [n])
  follow l := if l = dir ++ [n] then target else l
  present_of_isDir h := by
    rw [decide_eq_true_iff] at h ⊢
    exact .inl h
  followed := by
    intro l m k hpresent hprefix
    rw [decide_eq_true_iff] at hpresent
    have hshort : ∀ m' : List FileName, m' <+: dir → m' ≠ dir ++ [n] := by
      rintro m' h rfl
      exact absurd h.length_le (by simp)
    rcases hpresent with hdir | ⟨heq, htarget⟩
    · have hk := hprefix.trans hdir
      exact ⟨decide_eq_true ((List.prefix_append m [k]).trans hk), if_neg (hshort _ hk)⟩
    · rw [heq, List.prefix_concat_iff] at hprefix
      rcases hprefix with hlast | hk
      · rcases List.append_inj' hlast rfl with ⟨rfl, -⟩
        exact ⟨decide_eq_true (List.prefix_refl m), by rw [hlast, if_pos rfl, htarget]⟩
      · exact ⟨decide_eq_true ((List.prefix_append m [k]).trans hk), if_neg (hshort _ hk)⟩
  cwd := []
  cwd_real := FileTree.real_nil

theorem loneHost_hasEntry : (loneHost (top ++ rest) n target).HasEntry top rest n target where
  real := by
    intro m k hprefix
    refine ⟨decide_eq_true ((List.prefix_append m [k]).trans hprefix), if_neg ?_⟩
    intro heq
    rw [heq] at hprefix
    exact absurd hprefix.length_le (by simp)
  isDir := decide_eq_true (List.prefix_refl _)
  follows := if_pos rfl
  present := fun h ↦ decide_eq_true (.inr ⟨h, h⟩)

-- a walk along names, where there are no links
theorem walk_names {tree : FileTree FileName} (hfollow : ∀ l, tree.follow l = l)
    {l m ns : List FileName} (h : tree.walk l (ns.map .entry) = some m) : m = l ++ ns := by
  induction ns generalizing l with
  | nil =>
    cases h
    exact (List.append_nil _).symm
  | cons k ns ih =>
    rw [List.map_cons, FileTree.walk_cons, Option.bind_eq_some_iff] at h
    rcases h with ⟨l', hstep, h⟩
    unfold FileTree.step at hstep
    split at hstep
    · cases hstep
      rw [ih h, hfollow, List.append_assoc]
      rfl
    · cases hstep

-- if the entry is a link, no walk ends at the entry itself
theorem loneHost_walk {dir l ns : List FileName} (hns : ns ≠ [])
    (h : (loneHost dir n target).walk l (ns.map .entry) = some (dir ++ [n])) :
    target = dir ++ [n] ∧ dir ++ [n] = l ++ ns := by
  have htarget : target = dir ++ [n] := by
    rcases List.eq_nil_or_concat' ns with hnil | ⟨front, k, rfl⟩
    · exact absurd hnil hns
    · rw [List.map_append, FileTree.walk_append, Option.bind_eq_some_iff] at h
      rcases h with ⟨l', -, h⟩
      rw [List.map_cons, FileTree.walk_cons, Option.bind_eq_some_iff] at h
      rcases h with ⟨m, hstep, h⟩
      cases h
      unfold FileTree.step at hstep
      split at hstep
      · rw [Option.some_inj] at hstep
        unfold loneHost at hstep
        dsimp only at hstep
        split at hstep
        · exact hstep
        · rename_i hne
          exact absurd hstep hne
      · cases hstep
  refine ⟨htarget, walk_names (fun l ↦ ?_) h⟩
  show (if l = dir ++ [n] then target else l) = l
  split
  · rename_i hl
    rw [htarget, hl]
  · rfl

/-- What a listing finds in this file system, with a file of this name at hand. -/
def fileView (t : Host) (home current : WString) (n : FileName) : View where
  node := { ctrlSocket := 0, currentDirectory := current }
  user := some { homeDirectory := home }
  answers :=
    { env := t.env Sample.env
      nextEntry := some ⟨n.text, some ⟨.regularFile, 0⟩, none, none⟩ }

theorem fileView_lists (t : Host) (home current : WString) (n : FileName) :
    (fileView t home current n).Lists t home current [n] := by
  refine ⟨⟨_, rfl, rfl⟩, rfl, t.env_determines _, ?_⟩
  intro e he
  cases he
  exact ⟨n, List.mem_singleton_self n, rfl⟩

theorem entryLine_ends (a : Answers) (opts : ListOptions) (e : DirectoryEntry) (st : FileStatus) :
    ∃ columns, entryLine a opts e st
      = columns ++ (e.name ++ if opts.F && isDirectory st then ['/'] else []) ++ ['\r', '\n'] := by
  unfold entryLine listLine
  generalize (e.name ++ if opts.F && isDirectory st then ['/'] else []) = name
  refine ⟨typeLetter st :: ownerLetters st.permissions ++ otherLetters st.permissions
    ++ " 1 user group ".toList
    ++ spacedDecimal 14 ((if isRegularFile st then e.fileSize.getD 0 else 0 : Nat))
    ++ ' ' :: monthString.getD (gmtime (e.lastWriteTime.getD 0)).mon []
    ++ ' ' :: spacedDecimal 2 (gmtime (e.lastWriteTime.getD 0)).mday
    ++ ' ' :: yearOrHour a.now (e.lastWriteTime.getD 0) ++ [' '], ?_⟩
  simp only [List.append_assoc, List.cons_append, List.nil_append]

theorem home_length_le {l : List FileName} (hl : l ≠ []) :
    (UserManager.withSeparator (render top)).length ≤ (render (top ++ l)).length := by
  rcases List.exists_cons_of_ne_nil hl with ⟨m, l', rfl⟩
  have happend : render (top ++ m :: l') = slashed top ++ ('/' :: m.text ++ slashed l') := by
    rw [render_slashed (by simp)]
    exact List.flatMap_append
  rw [happend]
  unfold UserManager.withSeparator
  by_cases htop : top = []
  · rw [htop]
    exact Nat.succ_le_succ (Nat.zero_le _)
  · rw [render_slashed htop]
    simp only [List.length_append, List.length_cons]
    split
    · rw [List.length_append, List.length_singleton]
      omega
    · omega

-- the statement that makes the line of the entry
theorem step_next_file {path : WString}
    (hpath : pathAppend path n.text = render (top ++ rest ++ [n])) {v : View}
    (hv : v = fileView t (UserManager.withSeparator (render top)) current n) :
    ∃ columns, (ListStage.next path).step v.answers v.node.toSession v.user cmd =
      .ok (v.node.toSession, .list cmd (.line (columns ++ shownName
        (UserManager.withSeparator (render top)) cmd path
        ⟨n.text, some ⟨.regularFile, 0⟩, none, none⟩ ⟨.regularFile, 0⟩ ++ ['\r', '\n'])
        (some path)), []) := by
  subst hv
  rw [ListStage.step]
  unfold fileView shownName
  dsimp only
  by_cases hnlst : cmd.id = .NLST
  · refine ⟨[], ?_⟩
    rw [if_pos hnlst, if_pos hnlst, List.nil_append]
    have hlength : ¬(pathAppend path n.text).length
        < (UserManager.withSeparator (render top)).length := by
      rw [hpath, List.append_assoc, Nat.not_lt]
      exact home_length_le (by simp)
    dsimp only [deref, liftFault, Except.mapError, bind, Except.bind]
    rw [substr, if_neg hlength]
  · have hhead : (pathAppend path n.text).head? ≠ some '.' := by
      rw [hpath, render_head]
      decide
    rcases entryLine_ends (fileView t (UserManager.withSeparator (render top)) current n).answers
      (listArguments cmd.args).1 ⟨n.text, some ⟨.regularFile, 0⟩, none, none⟩
      ⟨.regularFile, 0⟩ with ⟨columns, hcolumns⟩
    refine ⟨columns, ?_⟩
    rw [if_neg hnlst, if_neg hnlst, if_pos (.inl hhead), ← hcolumns]
    rfl

theorem showsName_file (hargs : (listArguments cmd.args).2 = [])
    (hoption : (listArguments cmd.args).1.d = false) (h : t.HasEntry top rest n target) :
    ∃ e st, e.name = n.text ∧ ShowsName t (UserManager.withSeparator (render top)) (render rest)
      cmd n (shownName (UserManager.withSeparator (render top)) cmd (render (top ++ rest))
        e st) := by
  have hv := fileView_lists t (UserManager.withSeparator (render top)) (render rest) n
  have hdirectory : ¬ShowsItself t cmd (top ++ rest) := by
    unfold ShowsItself
    rw [hoption, h.isDir]
    decide
  rcases run_build (withSeparator_render_ne_nil top) hv (listedAt_current h hargs) with
    ⟨trace, log, st, htrace, run⟩
  rw [if_neg hdirectory] at run
  have hpath := pathAppend_render (top ++ rest) n
  rcases step_next_file hpath rfl with ⟨columns, hstep⟩
  refine ⟨⟨n.text, some ⟨.regularFile, 0⟩, none, none⟩, ⟨.regularFile, 0⟩, rfl, [n], trace, log, _,
    _, _, _, _, columns, run, fun x hx ↦ htrace x hx ▸ hv, hv, rfl, rfl, advances_list hstep, rfl,
    rfl⟩

end Leads

/-- The names that NLST and the other listings show for an entry of the current directory lead to it
if and only if it is no link and, unless the current directory is the home directory, `build_path`
takes what NLST shows from the home directory on, and what LIST shows from the current one on. -/
theorem nameLeads_iff {top rest target : List FileName} {n : FileName} {cmd : Command}
    (hargs : (listArguments cmd.args).2 = [])
    (hoption : (listArguments cmd.args).1.d = false) :
    NameLeads top rest n target cmd ↔ target = top ++ rest ++ [n] ∧
      (rest = [] ∨ (FromHome top rest n cmd ↔ cmd.id = .NLST)) := by
  constructor
  · intro hleads
    have hentry : (loneHost (top ++ rest) n target).HasEntry top rest n target := loneHost_hasEntry
    have henv := (loneHost (top ++ rest) n target).env_determines Sample.env
    rcases showsName_file hargs hoption hentry with ⟨e, st, hname, hshows⟩
    have hlocate := hleads _ _ _ henv hentry hshows
    rw [locate_asked henv hentry.real_top, relative_shown hname] at hlocate
    have hne : walked top rest n cmd ≠ [] := by
      unfold walked
      split <;> split <;> simp
    rcases loneHost_walk hne hlocate with ⟨htarget, hwalked⟩
    rw [List.append_assoc, List.append_cancel_left_eq] at hwalked
    exact ⟨htarget, walked_eq_iff.mp hwalked.symm⟩
  · rintro ⟨htarget, hwalked⟩
    exact nameLeads_of_walked hargs htarget (walked_eq_iff.mpr hwalked)

-- LIST in a directory below the home directory
theorem nameLeads_list : NameLeads [Sample.srv, Sample.home] [Sample.music] Sample.notes
    [Sample.srv, Sample.home, Sample.music, Sample.notes] { Command.none with id := .LIST } :=
  (nameLeads_iff rfl rfl).mpr (by decide)

/-- NLST in a directory below the home directory: its own name comes twice. -/
theorem nameLeads_fails : ∃ (t : Host) (env : Env) (name : WString), t.Determines env ∧
    t.HasEntry [Sample.srv, Sample.home] [Sample.music] Sample.notes
      [Sample.srv, Sample.home, Sample.music, Sample.notes] ∧
    ShowsName t "/srv/bob/" "/music" Sample.nlst Sample.notes name ∧ name = "music/notes".toList ∧
    buildPath env.canonical "/srv/bob/" "/music" name = "/srv/bob//music/music/notes".toList ∧
    t.locate (buildPath env.canonical "/srv/bob/" "/music" name)
      ≠ some [Sample.srv, Sample.home, Sample.music, Sample.notes] := by
  have hentry : (loneHost ([Sample.srv, Sample.home] ++ [Sample.music]) Sample.notes
      [Sample.srv, Sample.home, Sample.music, Sample.notes]).HasEntry [Sample.srv, Sample.home]
      [Sample.music] Sample.notes [Sample.srv, Sample.home, Sample.music, Sample.notes] :=
    loneHost_hasEntry
  have hargs : (listArguments Sample.nlst.args).2 = [] := rfl
  rcases showsName_file hargs rfl hentry with ⟨e, st, hname, hshows⟩
  have hmusic : shownName "/srv/bob/" Sample.nlst "/srv/bob/music" e st = "music/notes".toList := by
    unfold shownName
    rw [hname]
    rfl
  refine ⟨_, Host.env _ Sample.env, _, Host.env_determines _ _, hentry, hshows, hmusic, ?_, ?_⟩
  · show buildPath _ _ _ (shownName "/srv/bob/" Sample.nlst "/srv/bob/music" e st) = _
    rw [hmusic]
    decide +kernel
  · show Host.locate _ (buildPath _ _ _ (shownName "/srv/bob/" Sample.nlst "/srv/bob/music" e st))
      ≠ _
    rw [hmusic]
    decide +kernel

end YFtp
