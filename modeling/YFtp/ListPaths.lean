import YFtp.Confinement
import YFtp.FinalReplies
import YFtp.UserTable

/-!
# Paths of a listing

Where `list_thread` cuts the home directory off a path with `substr`: the path that STAT shows when
it does not go into a directory, and every entry that NLST shows.  The stored home directory ends
with a separator, the path that `canonical` returns does not.
-/

namespace YFtp

open Theory (FileTree)

/-! ## Strings of locations -/

-- up to the first separator the strings are the same
theorem text_startsWith {α : Type} {x : α} {a b r s : List α} (ha : x ∉ a) (hb : x ∉ b)
    (hs : s = [] ∨ s.head? = some x) (h : a ++ x :: r <+: b ++ s) : a = b ∧ x :: r <+: s := by
  induction a generalizing b with
  | nil =>
    cases b with
    | nil => exact ⟨rfl, h⟩
    | cons c b =>
      rw [List.nil_append, List.cons_append, List.cons_prefix_cons] at h
      rw [h.1] at hb
      exact absurd List.mem_cons_self hb
  | cons c a ih =>
    cases b with
    | nil =>
      rw [List.nil_append, List.cons_append] at h
      rcases hs with rfl | hs
      · exact absurd (List.prefix_nil.mp h) (List.cons_ne_nil _ _)
      · rcases List.head?_eq_some_iff.mp hs with ⟨s', rfl⟩
        rw [(List.cons_prefix_cons.mp h).1] at ha
        exact absurd List.mem_cons_self ha
    | cons d b =>
      rw [List.cons_append, List.cons_append, List.cons_prefix_cons] at h
      rw [List.mem_cons, not_or] at ha hb
      rcases ih ha.2 hb.2 h.2 with ⟨rfl, hrest⟩
      exact ⟨by rw [h.1], hrest⟩

/-- The names, each behind a slash. -/
def slashed (l : List FileName) : WString := l.flatMap fun n ↦ '/' :: n.text

theorem slashed_cons (n : FileName) (l : List FileName) :
    slashed (n :: l) = '/' :: n.text ++ slashed l := rfl

theorem slashed_head (l : List FileName) : slashed l = [] ∨ (slashed l).head? = some '/' := by
  cases l with
  | nil => exact .inl rfl
  | cons n l => exact .inr rfl

theorem render_slashed {l : List FileName} (h : l ≠ []) : render l = slashed l := if_neg h

/-- A path begins with the path of a directory and a slash exactly if it is below the directory. -/
theorem slashed_startsWith (top l : List FileName) :
    slashed top ++ ['/'] <+: slashed l ↔ top <+: l ∧ l ≠ top := by
  induction top generalizing l with
  | nil =>
    cases l with
    | nil => simp [slashed]
    | cons n l => simp [slashed]
  | cons n top ih =>
    cases l with
    | nil => simp [slashed]
    | cons m l =>
      simp only [slashed_cons, List.cons_append, List.append_assoc, List.cons_prefix_cons]
      have hslash : ∃ r, slashed top ++ ['/'] = '/' :: r := by
        cases top with
        | nil => exact ⟨[], rfl⟩
        | cons k top => exact ⟨_, rfl⟩
      constructor
      · rintro ⟨-, h⟩
        rcases hslash with ⟨r, hr⟩
        rw [hr] at h ih
        rcases text_startsWith n.valid.2.1 m.valid.2.1 (slashed_head l) h with ⟨htext, hrest⟩
        have hname : n = m := by
          cases n
          cases m
          cases htext
          rfl
        rcases (ih l).mp hrest with ⟨htop, hne⟩
        exact ⟨⟨hname, htop⟩, by simp [hname, hne]⟩
      · rintro ⟨⟨rfl, htop⟩, hne⟩
        have hne : l ≠ top := fun heq ↦ hne (by rw [heq])
        exact ⟨trivial, (List.prefix_append_right_inj n.text).mpr ((ih l).mpr ⟨htop, hne⟩)⟩

theorem slashed_last {top : List FileName} (h : top ≠ []) : (slashed top).getLast? ≠ some '/' := by
  rcases List.eq_nil_or_concat top with rfl | ⟨front, n, rfl⟩
  · exact absurd rfl h
  · unfold slashed
    rw [List.concat_eq_append, List.flatMap_append, List.flatMap_singleton]
    intro hlast
    rw [List.getLast?_append_of_ne_nil _ (List.cons_ne_nil _ _), List.getLast?_cons,
      List.getLast?_eq_some_getLast n.valid.1, Option.getD_some, Option.some_inj] at hlast
    exact n.valid.2.1 (hlast ▸ List.getLast_mem n.valid.1)

/-- What the directory that is stored for the location is a prefix of: everything below it. Where
the last name ends with a backslash, no separator has been put behind it. -/
def Below (top l : List FileName) : Prop :=
  if (render top).getLast? = some '\\' then render top <+: render l
  else top = [] ∨ top <+: l ∧ l ≠ top

instance (top l : List FileName) : Decidable (Below top l) :=
  inferInstanceAs (Decidable (ite ..))

theorem withSeparator_startsWith (top l : List FileName) :
    UserManager.withSeparator (render top) <+: render l ↔ Below top l := by
  unfold Below UserManager.withSeparator
  by_cases hback : (render top).getLast? = some '\\'
  · rw [if_pos hback, if_neg (by rw [hback]; decide)]
  · rw [if_neg hback]
    by_cases htop : top = []
    · rw [htop, if_neg (by decide)]
      apply iff_of_true
      · rcases List.head?_eq_some_iff.mp (render_head l) with ⟨rest, hrest⟩
        rw [hrest]
        exact ⟨rest, rfl⟩
      · exact .inl rfl
    · have hslash : (render top).getLast? ≠ some '/' := by
        rw [render_slashed htop]
        exact slashed_last htop
      rw [if_pos ⟨hback, hslash⟩, or_iff_right htop, render_slashed htop]
      by_cases hl : l = []
      · rw [hl]
        apply iff_of_false
        · intro h
          have hlength := h.length_le
          rcases List.exists_cons_of_ne_nil htop with ⟨n, top', rfl⟩
          have hroot : render [] = ['/'] := rfl
          rw [hroot, slashed_cons] at hlength
          simp at hlength
        · rintro ⟨h, -⟩
          exact htop (List.prefix_nil.mp h)
      · rw [render_slashed hl]
        exact slashed_startsWith top l

theorem withSeparator_render_ne_nil (top : List FileName) :
    UserManager.withSeparator (render top) ≠ [] :=
  (UserManager.withSeparator_ends (render_ne_nil top)).1

/-- A name appended to a location. -/
theorem pathAppend_render (l : List FileName) (n : FileName) :
    pathAppend (render l) n.text = render (l ++ [n]) := by
  have hhead : n.text.head? ≠ some '/' := by
    intro hhead
    rcases List.head?_eq_some_iff.mp hhead with ⟨rest, hrest⟩
    exact n.valid.2.1 (hrest ▸ List.mem_cons_self)
  have hall : render (l ++ [n]) = slashed l ++ '/' :: n.text := by
    rw [render_slashed (by simp)]
    unfold slashed
    rw [List.flatMap_append, List.flatMap_singleton]
  unfold pathAppend
  rw [if_neg n.valid.1, if_neg hhead, hall]
  by_cases hl : l = []
  · rw [hl]
    rfl
  · rw [render_slashed hl, if_pos]
    refine ⟨?_, slashed_last hl⟩
    rcases List.exists_cons_of_ne_nil hl with ⟨m, l', rfl⟩
    exact List.cons_ne_nil _ _

/-! ## What the system answers -/

/-- The operating system answers as for this file system, also where nothing is present. -/
structure Host.Determines (t : Host) (env : Env) : Prop where
  canonical : ∀ path, env.canonical path = ((t.locate path).filter t.present).map render
  status : ∀ path, (env.getFileStatus path).map isDirectory =
    ((t.locate path).filter t.present).map t.isDir

theorem Host.Determines.answers {t : Host} {env : Env} (h : t.Determines env) : t.Answers env := by
  intro path resolved hcanonical
  rw [h.canonical] at hcanonical
  rcases Option.map_eq_some_iff.mp hcanonical with ⟨l, hl, rfl⟩
  rcases Option.filter_eq_some_iff.mp hl with ⟨hlocate, hpresent⟩
  exact ⟨l, hlocate, hpresent, rfl⟩

/-- A home directory is stored as the path of its location, with a separator. -/
theorem processHomeDirectory_render {t : Host} {env : Env} {homeDir home : WString}
    (henv : t.Determines env) (h : UserManager.processHomeDirectory env homeDir = .ok home) :
    ∃ top, t.isDir top = true ∧ home = render top := by
  unfold UserManager.processHomeDirectory simplifyPath at h
  dsimp only at h
  generalize (if homeDir = [] ∨ homeDir = ['.'] then env.initialPath else homeDir) = asked at h
  generalize htemp : (if asked = [] then asked else (env.canonical asked).getD asked) = temp at h
  split at h
  · cases h
  · rename_i hne
    split at h
    · rename_i hdir
      cases h
      have hasked : asked ≠ [] := fun hnil ↦ hne (by rw [← htemp, if_pos hnil, hnil])
      rw [if_neg hasked] at htemp
      have hstatus := henv.status home
      rw [← htemp, locate_canonical henv.answers, htemp] at hstatus
      rw [Option.any_eq_true] at hdir
      rcases hdir with ⟨st, hst, hisDir⟩
      rw [hst, Option.map_some, hisDir] at hstatus
      rcases Option.map_eq_some_iff.mp hstatus.symm with ⟨top, htop, htopDir⟩
      refine ⟨top, htopDir, ?_⟩
      rw [← htemp, henv.canonical, htop]
      rfl
    · cases h

-- so an account that is added has such a home directory
theorem addUser_home {t : Host} {env : Env} {m m' : UserManager}
    {name password homeDir : WString} {priv : UInt8} (henv : t.Determines env)
    (h : m.addUser env name password homeDir priv = .ok m') :
    ∃ top, t.isDir top = true ∧
      (m'.users m.nextUser).homeDirectory = UserManager.withSeparator (render top) := by
  unfold UserManager.addUser at h
  split at h
  · cases h
  · cases hhome : UserManager.processHomeDirectory env homeDir with
    | error e =>
      rw [hhome] at h
      cases h
    | ok home =>
      rw [hhome] at h
      dsimp only [bind, Except.bind] at h
      split at h
      · cases h
      · cases h
        rcases processHomeDirectory_render henv hhome with ⟨top, htop, rfl⟩
        refine ⟨top, htop, ?_⟩
        dsimp only
        rw [Function.update_self]

/-! ## The paths that are cut -/

/-- The path of which a step of `list_thread` takes `substr(home.length())`. -/
def cutPath (a : Answers) : Stage → Option WString
  | .list cmd (.single path _) => if cmd.id = .STAT then some path else none
  | .list cmd (.next path) =>
    if cmd.id = .NLST then a.nextEntry.map fun e ↦ pathAppend path e.name else none
  | _ => none

/-- What `list_thread` finds at a step: the home directory of its account, the current directory of
its session, the file system, and in the directory that it lists these entries. -/
structure View.Lists (t : Host) (home current : WString) (entries : List FileName) (v : View) :
    Prop where
  user : ∃ u, v.user = some u ∧ u.homeDirectory = home
  current : v.node.currentDirectory = current
  system : t.Determines v.answers.env
  entry : ∀ e, v.answers.nextEntry = some e → ∃ n ∈ entries, e.name = n.text

/-- What is present where the argument of the command leads. -/
def listedAt (t : Host) (home current : WString) (cmd : Command) : Option (List FileName) :=
  if current = [] then none
  else ((t.locate home).bind fun top ↦
    t.walk top (relative current (listArguments cmd.args).2)).filter t.present

/-- The path itself is shown: it is no directory, or the option `d` is given. -/
def ShowsItself (t : Host) (cmd : Command) (l : List FileName) : Prop :=
  (listArguments cmd.args).1.d = true ∨ t.isDir l = false

instance (t : Host) (cmd : Command) (l : List FileName) : Decidable (ShowsItself t cmd l) :=
  inferInstanceAs (Decidable (_ ∨ _))

/-- STAT shows nothing itself but what is below the home directory, and the entries that NLST shows
are below it. -/
def ShowsBelow (t : Host) (top : List FileName) (current : WString) (entries : List FileName)
    (cmd : Command) : Prop :=
  ∀ l ∈ listedAt t (UserManager.withSeparator (render top)) current cmd,
    (cmd.id = .STAT → ShowsItself t cmd l → Below top l) ∧
    (cmd.id = .NLST → ¬ShowsItself t cmd l → ∀ n ∈ entries, Below top (l ++ [n]))

instance (t : Host) (top : List FileName) (current : WString) (entries : List FileName)
    (cmd : Command) : Decidable (ShowsBelow t top current entries cmd) :=
  inferInstanceAs (Decidable (∀ _ ∈ _, _ ∧ _))

section Listing

variable {t : Host} {home current : WString} {top l : List FileName} {entries : List FileName}
  {v : View} {cmd : Command} {u : UserNode}

theorem substr_eq_outOfRange {s : WString} {pos : Nat} :
    substr s pos = .error .outOfRange ↔ s.length < pos := by
  unfold substr
  split
  · rename_i h
    exact iff_of_true rfl h
  · rename_i h
    exact iff_of_false (by simp) h

-- a fault that is shared with the handlers is not `std::out_of_range`
theorem liftFault_bind_eq_outOfRange {α β : Type} {x : Except Fault α}
    {f : α → Except ThreadFault β} :
    (liftFault x).bind f = .error .outOfRange ↔ ∃ a, x = .ok a ∧ f a = .error .outOfRange := by
  cases x with
  | error fault =>
    apply iff_of_false
    · intro h
      cases h
    · rintro ⟨a, h, -⟩
      cases h
  | ok a => simp [liftFault, Except.mapError, Except.bind]

theorem substr_bind_eq_outOfRange {s : WString} {pos : Nat} {f : WString → Except ThreadFault StepResult}
    (hf : ∀ a, ∃ r, f a = .ok r) :
    (substr s pos).bind f = .error .outOfRange ↔ s.length < pos := by
  rw [← substr_eq_outOfRange]
  cases hs : substr s pos with
  | error fault => simp [Except.bind]
  | ok a =>
    rcases hf a with ⟨r, hr⟩
    apply iff_of_false
    · intro h
      cases h.symm.trans hr
    · simp

/-- `list_thread` throws `std::out_of_range` exactly where a path that it cuts is shorter than the
home directory. -/
theorem step_outOfRange_iff {a : Answers} {s : Session} {stage : ListStage} :
    stage.step a s (some u) cmd = .error .outOfRange ↔
      ∃ path ∈ cutPath a (.list cmd stage), path.length < u.homeDirectory.length := by
  cases stage with
  | single path st =>
    rw [ListStage.step, cutPath]
    split
    · show (substr path u.homeDirectory.length).bind _ = _ ↔ _
      rw [substr_bind_eq_outOfRange fun _ ↦ ⟨_, rfl⟩]
      simp
    · simp [bind, Except.bind]
  | next path =>
    rw [ListStage.step, cutPath]
    cases hentry : a.nextEntry with
    | none => simp
    | some e =>
      dsimp only
      by_cases hid : cmd.id = .NLST
      · rw [if_pos hid, if_pos hid]
        show (substr (pathAppend path e.name) u.homeDirectory.length).bind _ = _ ↔ _
        rw [substr_bind_eq_outOfRange fun _ ↦ ⟨_, rfl⟩]
        simp
      · rw [if_neg hid, if_neg hid]
        apply iff_of_false _ (by simp)
        split
        · split
          · exact fun h ↦ by cases h
          · exact fun h ↦ by cases h
        · exact fun h ↦ by cases h
  | begin =>
    rw [ListStage.step]
    apply iff_of_false _ (by simp [cutPath])
    split
    · exact fun h ↦ by cases h
    · exact fun h ↦ by cases h
  | announce | endOfStatus =>
    apply iff_of_false _ (by simp [cutPath])
    exact fun h ↦ by cases h
  | build =>
    rw [ListStage.step]
    apply iff_of_false _ (by simp [cutPath])
    dsimp only [deref, liftFault, Except.mapError, bind, Except.bind]
    split
    · split
      · exact fun h ↦ by cases h
      · exact fun h ↦ by cases h
    · exact fun h ↦ by cases h
  | line text more =>
    rw [step_line]
    apply iff_of_false _ (by simp [cutPath])
    have hrest : ∀ event, afterLine a s cmd more event ≠ .error .outOfRange := by
      intro event h
      rcases afterLine_eq a s cmd more event with ⟨next, hnext, -⟩
      cases hnext.symm.trans h
    split
    · exact hrest _
    · intro h
      rcases liftFault_bind_eq_outOfRange.mp h with ⟨-, -, h⟩
      exact hrest _ h

theorem listPath_eq (henv : t.Determines v.answers.env) (hhome : home ≠ [])
    (hu : u.homeDirectory = home) :
    (t.locate (listPath v.answers.env u current cmd)).filter t.present =
      listedAt t home current cmd := by
  unfold listPath listedAt
  by_cases hcurrent : current = []
  · rw [if_pos hcurrent, hcurrent, buildPath, if_neg (fun h ↦ h.2 rfl)]
    rfl
  · rw [if_neg hcurrent, hu, locate_buildPath henv.answers hhome hcurrent]

-- `canonical` turns what is present into the path of its location
theorem listPath_render (henv : t.Determines v.answers.env) (hhome : home ≠ [])
    (hu : u.homeDirectory = home) (hl : listedAt t home current cmd = some l) :
    listPath v.answers.env u current cmd = render l := by
  have hcurrent : current ≠ [] := by
    rintro rfl
    cases hl
  have hraw : ∃ raw, listPath v.answers.env u current cmd =
      (v.answers.env.canonical raw).getD raw := by
    unfold listPath buildPath
    rw [if_pos ⟨hu ▸ hhome, hcurrent⟩]
    exact ⟨_, rfl⟩
  rcases hraw with ⟨raw, hraw⟩
  have hlocate : (t.locate (listPath v.answers.env u current cmd)).filter t.present = _ :=
    listPath_eq henv hhome hu
  rw [hraw, locate_canonical henv.answers, hl] at hlocate
  rw [hraw, henv.canonical, hlocate]
  rfl

/-- What holds of the stages that `list_thread` gets to. -/
def ListsAt (t : Host) (home current : WString) (cmd : Command) : Stage → Prop
  | .list c (.single path _) =>
    c = cmd ∧ ∃ l ∈ listedAt t home current cmd, path = render l ∧ ShowsItself t cmd l
  | .list c (.next path) | .list c (.line _ (some path)) =>
    c = cmd ∧ ∃ l ∈ listedAt t home current cmd, path = render l ∧ ¬ShowsItself t cmd l
  | .list c _ => c = cmd
  | .store _ | .retrieve _ => False
  | _ => True

theorem listsAt_afterListing : ListsAt t home current cmd (afterListing cmd) := by
  unfold afterListing
  split
  · exact rfl
  · exact trivial

theorem step_listsAt {stage : ListStage} {r : StepResult}
    (hstage : ListsAt t home current cmd (.list cmd stage)) (hhome : home ≠ [])
    (hv : v.Lists t home current entries)
    (h : stage.step v.answers v.node.toSession v.user cmd = .ok r) :
    ListsAt t home current cmd r.2.1 := by
  rcases hv.user with ⟨u, huser, hu⟩
  cases stage with
  | begin =>
    rw [ListStage.step] at h
    split at h
    · cases h
      exact rfl
    · cases h
      exact rfl
  | announce =>
    cases h
    exact rfl
  | build =>
    have hcurrent : v.node.toSession.currentDirectory = current := hv.current
    rw [ListStage.step, huser, hcurrent] at h
    dsimp only [deref, liftFault, Except.mapError, bind, Except.bind] at h
    have hstatus := hv.system.status (listPath v.answers.env u current cmd)
    rw [listPath_eq hv.system hhome hu] at hstatus
    split at h
    · rename_i st hst
      unfold statusOf at hst
      split at hst
      · cases hst
      · rw [hst, Option.map_some, eq_comm, Option.map_eq_some_iff] at hstatus
        rcases hstatus with ⟨l, hl, hdir⟩
        have hpath := listPath_render hv.system hhome hu hl
        split at h
        · rename_i hself
          rw [← hdir, Bool.or_eq_true, decide_eq_true_iff] at hself
          cases h
          exact ⟨rfl, l, hl, hpath, hself⟩
        · rename_i hself
          rw [← hdir, Bool.or_eq_true, decide_eq_true_iff] at hself
          cases h
          exact ⟨rfl, l, hl, hpath, hself⟩
    · cases h
      exact listsAt_afterListing
  | single path st =>
    rw [ListStage.step] at h
    split at h
    · rw [huser] at h
      dsimp only [deref, liftFault, Except.mapError, bind, Except.bind] at h
      split at h
      · cases h
      · cases h
        exact rfl
    · cases h
      exact rfl
  | next path =>
    rw [ListStage.step] at h
    split at h
    · cases h
      exact listsAt_afterListing
    · rename_i e hentry
      dsimp only at h
      split at h
      · rw [huser] at h
        dsimp only [deref, liftFault, Except.mapError, bind, Except.bind] at h
        split at h
        · cases h
        · cases h
          exact hstage
      · split at h
        · split at h
          · cases h
            exact hstage
          · cases h
            exact hstage
        · cases h
          exact hstage
  | line text more =>
    rw [ListStage.step] at h
    cases more with
    | none =>
      have hends : r.2.1 = afterListing cmd := by
        split at h
        · cases h
          rfl
        · rcases eq_ok_of_liftFault_bind h with ⟨-, -, h⟩
          cases h
          rfl
      rw [hends]
      exact listsAt_afterListing
    | some path =>
      have hgoesOn : r.2.1 = afterListing cmd ∨ r.2.1 = .list cmd (.next path) := by
        split at h
        · dsimp only [bind, Except.bind] at h
          split at h
          · cases h
            exact .inl rfl
          · cases h
            exact .inr rfl
        · rcases eq_ok_of_liftFault_bind h with ⟨-, -, h⟩
          dsimp only [bind, Except.bind] at h
          split at h
          · cases h
            exact .inl rfl
          · cases h
            exact .inr rfl
      rcases hgoesOn with hends | hnext
      · rw [hends]
        exact listsAt_afterListing
      · rw [hnext]
        exact hstage
  | endOfStatus =>
    cases h
    exact trivial

theorem advances_listsAt {p q : Progress} (hp : ListsAt t home current cmd p.stage)
    (hhome : home ≠ []) (hv : v.Lists t home current entries) (h : Advances p v q) :
    ListsAt t home current cmd q.stage := by
  rcases h with ⟨s, fx, h, -⟩
  rcases p with ⟨stage, log⟩
  generalize q.stage = next at h
  cases stage with
  | list c stage =>
    have hc : c = cmd := by
      cases stage with
      | single | next => exact hp.1
      | line text more => cases more with
        | none => exact hp
        | some path => exact hp.1
      | begin | announce | build | endOfStatus => exact hp
    rw [hc] at hp h
    exact step_listsAt hp hhome hv h
  | store stage => cases hp
  | retrieve stage => cases hp
  | shutDown job complete | closeSocket job complete =>
    rcases eq_ok_of_liftFault_bind h with ⟨t, -, h⟩
    cases h
    exact trivial
  | finish job complete =>
    rw [Stage.step] at h
    split at h
    · cases h
      exact trivial
    · cases h
      exact trivial
  | ended =>
    cases h
    exact trivial

/-! ### A listing of any kind takes place -/

-- the step that asks for the status of what is to be listed
theorem step_build (hhome : home ≠ []) (hv : v.Lists t home current entries)
    (hl : listedAt t home current cmd = some l) :
    ∃ st, ListStage.build.step v.answers v.node.toSession v.user cmd =
      .ok (v.node.toSession, .list cmd
        (if ShowsItself t cmd l then .single (render l) st else .next (render l)),
        [.status (render l)]) := by
  rcases hv.user with ⟨u, huser, hu⟩
  have hcurrent : v.node.toSession.currentDirectory = current := hv.current
  have hpath := listPath_render hv.system hhome hu hl
  have hstatus := hv.system.status (listPath v.answers.env u current cmd)
  rw [listPath_eq hv.system hhome hu, hl, Option.map_some, Option.map_eq_some_iff] at hstatus
  rcases hstatus with ⟨st, hst, hdir⟩
  have hfound : statusOf v.answers.env (render l) = some st := by
    rw [statusOf, if_neg (render_ne_nil l), ← hpath]
    exact hst
  rw [ListStage.step, huser, hcurrent]
  dsimp only [deref, liftFault, Except.mapError, bind, Except.bind]
  rw [hpath, hfound]
  dsimp only
  by_cases hself : ShowsItself t cmd l
  · rw [if_pos (by rw [hdir, Bool.or_eq_true, decide_eq_true_iff]; exact hself)]
    exact ⟨st, by rw [if_pos hself]⟩
  · rw [if_neg (by rw [hdir, Bool.or_eq_true, decide_eq_true_iff]; exact hself)]
    exact ⟨st, by rw [if_neg hself]⟩

theorem advances_list {stage : ListStage} {next : Stage} {s : Session} {fx log : List ThreadEvent}
    (h : stage.step v.answers v.node.toSession v.user cmd = .ok (s, next, fx)) :
    Advances ⟨.list cmd stage, log⟩ v ⟨next, log ++ fx⟩ := ⟨s, fx, h, rfl⟩

theorem run_build (hhome : home ≠ []) (hv : v.Lists t home current entries)
    (hl : listedAt t home current cmd = some l) :
    ∃ trace log st, (∀ x ∈ trace, x.2 = v) ∧ ThreadRun ⟨.list cmd .begin, []⟩ trace
      ⟨.list cmd (if ShowsItself t cmd l then .single (render l) st else .next (render l)), log⟩ := by
  rcases step_build hhome hv hl with ⟨st, hbuild⟩
  by_cases hid : cmd.id = .STAT
  · have hbegin : ListStage.begin.step v.answers v.node.toSession v.user cmd =
        .ok (v.node.toSession, .list cmd .build,
          [.reply { content := "213-Status follows:".toList }]) := by
      rw [ListStage.step, if_neg (fun h ↦ h hid)]
    have run : ThreadRun ⟨.list cmd .begin, []⟩ _ _ :=
      .snoc (.snoc .refl (advances_list hbegin)) (advances_list hbuild)
    refine ⟨_, _, st, ?_, run⟩
    simp
  · have hbegin : ListStage.begin.step v.answers v.node.toSession v.user cmd =
        .ok ({ v.node.toSession with curStatus := .listing }, .list cmd .announce, []) := by
      rw [ListStage.step, if_pos hid]
    have hannounce : ListStage.announce.step v.answers v.node.toSession v.user cmd =
        .ok (v.node.toSession, .list cmd .build,
          [.reply (.create 150 "Opening data connection for directory list.")]) := rfl
    have run : ThreadRun ⟨.list cmd .begin, []⟩ _ _ :=
      .snoc (.snoc (.snoc .refl (advances_list hbegin)) (advances_list hannounce))
        (advances_list hbuild)
    refine ⟨_, _, st, ?_, run⟩
    simp

/-- Whatever paths a listing cuts, they begin with the home directory. -/
def CutsBelow (t : Host) (home current : WString) (entries : List FileName) (cmd : Command) : Prop :=
  ∀ (trace : List (Progress × View)) (p : Progress) (v : View),
    ThreadRun ⟨.list cmd .begin, []⟩ trace p →
    (∀ x ∈ trace, x.2.Lists t home current entries) → v.Lists t home current entries →
    ∀ path ∈ cutPath v.answers p.stage, home <+: path

theorem cutsBelow_of_showsBelow (hhome : home = UserManager.withSeparator (render top))
    (h : ShowsBelow t top current entries cmd) : CutsBelow t home current entries cmd := by
  have hne : home ≠ [] := hhome ▸ withSeparator_render_ne_nil top
  intro trace p v run htrace hv path hpath
  have hstage : ListsAt t home current cmd p.stage := by
    apply run.invariant_of_steps (P := fun p ↦ ListsAt t home current cmd p.stage)
      (C := fun _ (v : View) ↦ v.Lists t home current entries)
    · exact rfl
    · exact fun hp hv hadvances ↦ advances_listsAt hp hne hv hadvances
    · exact htrace
  rcases p with ⟨stage, log⟩
  unfold ShowsBelow at h
  rw [← hhome] at h
  cases stage with
  | list c stage =>
    cases stage with
    | single path' st =>
      rcases hstage with ⟨rfl, l, hl, rfl, hself⟩
      dsimp only at hpath
      rw [cutPath] at hpath
      split at hpath
      · rename_i hid
        cases hpath
        rw [hhome]
        exact (withSeparator_startsWith top l).mpr ((h l hl).1 hid hself)
      · cases hpath
    | next path' =>
      rcases hstage with ⟨rfl, l, hl, rfl, hself⟩
      dsimp only at hpath
      rw [cutPath] at hpath
      split at hpath
      · rename_i hid
        rcases Option.map_eq_some_iff.mp hpath with ⟨e, hentry, rfl⟩
        rcases hv.entry e hentry with ⟨n, hn, hname⟩
        rw [hname, pathAppend_render, hhome]
        exact (withSeparator_startsWith top _).mpr ((h l hl).2 hid hself n hn)
      · cases hpath
    | _ => cases hpath
  | _ => cases hpath

end Listing

/-- A system with this file system. -/
def Host.env (t : Host) (base : Env) : Env :=
  { base with
    canonical := fun path ↦ ((t.locate path).filter t.present).map render
    canonical_absolute := fun h ↦ by
      rcases Option.map_eq_some_iff.mp h with ⟨l, -, rfl⟩
      exact render_head l
    getFileStatus := fun path ↦ ((t.locate path).filter t.present).map fun l ↦
      ⟨if t.isDir l then .directoryFile else .regularFile, 0⟩ }

theorem Host.env_determines (t : Host) (base : Env) : t.Determines (t.env base) := by
  refine ⟨fun _ ↦ rfl, ?_⟩
  intro path
  show (((t.locate path).filter t.present).map _).map isDirectory = _
  rw [Option.map_map]
  congr 1
  funext l
  show isDirectory ⟨if t.isDir l then .directoryFile else .regularFile, 0⟩ = t.isDir l
  cases t.isDir l <;> rfl

namespace Sample

/-- What a listing finds in this file system, with an entry of the directory at hand or none. -/
def listing (t : Host) (home current : WString) (entry : Option FileName) : View where
  node := { transferring with currentDirectory := current }
  user := some { bob with homeDirectory := home }
  answers :=
    { env := t.env env, nextEntry := entry.map fun n ↦ ⟨n.text, none, none, none⟩ }

theorem listing_lists (t : Host) (home current : WString) {entry : Option FileName}
    {entries : List FileName} (h : ∀ n, entry = some n → n ∈ entries) :
    (listing t home current entry).Lists t home current entries := by
  refine ⟨⟨_, rfl, rfl⟩, rfl, t.env_determines env, ?_⟩
  intro e he
  rcases Option.map_eq_some_iff.mp he with ⟨n, hn, rfl⟩
  exact ⟨n, h n hn, rfl⟩

end Sample

/-- In every listing the paths that are cut begin with the home directory, so that none is cut out
of range, if and only if STAT shows nothing itself but what is below the home directory, and the
entries that NLST shows are below it. -/
theorem cutsBelow_iff {t : Host} {home current : WString} {top entries : List FileName}
    {cmd : Command} (hhome : home = UserManager.withSeparator (render top)) :
    CutsBelow t home current entries cmd ↔ ShowsBelow t top current entries cmd := by
  refine ⟨?_, cutsBelow_of_showsBelow hhome⟩
  intro h l hl
  rw [← hhome] at hl
  have hne : home ≠ [] := hhome ▸ withSeparator_render_ne_nil top
  constructor
  · intro hid hself
    have hv : (Sample.listing t home current none).Lists t home current entries :=
      Sample.listing_lists t home current fun n hn ↦ by cases hn
    rcases run_build hne hv hl with ⟨trace, log, st, htrace, run⟩
    rw [if_pos hself] at run
    have hcut := h _ _ _ run (fun x hx ↦ by rw [htrace x hx]; exact hv) hv (render l)
      (by rw [cutPath, if_pos hid]; rfl)
    rw [hhome] at hcut
    exact (withSeparator_startsWith top l).mp hcut
  · intro hid hself n hn
    have hv : (Sample.listing t home current (some n)).Lists t home current entries :=
      Sample.listing_lists t home current fun m hm ↦ by cases hm; exact hn
    rcases run_build hne hv hl with ⟨trace, log, st, htrace, run⟩
    rw [if_neg hself] at run
    have hcut := h _ _ _ run (fun x hx ↦ by rw [htrace x hx]; exact hv) hv (render (l ++ [n]))
      (by rw [cutPath, if_pos hid, ← pathAppend_render]; rfl)
    rw [hhome] at hcut
    exact (withSeparator_startsWith top (l ++ [n])).mp hcut

namespace Sample

def nlst : Command := { Command.none with id := .NLST }

/-- The status of the directory itself. -/
def statDirectory : Command := { Command.none with id := .STAT, args := "-d" }

end Sample

-- NLST of the home directory
theorem cutsBelow_nlst :
    CutsBelow Sample.host "/srv/bob/" ['/'] [Sample.music, Sample.shared] Sample.nlst := by
  have hhome : "/srv/bob/".toList =
      UserManager.withSeparator (render [Sample.srv, Sample.home]) := by decide
  exact (cutsBelow_iff hhome).mpr (by decide +kernel)

/-- STAT of the home directory with the option `d` throws `std::out_of_range`. -/
theorem cutsBelow_fails : ∃ (trace : List (Progress × View)) (p : Progress) (v : View),
    ThreadRun ⟨.list Sample.statDirectory .begin, []⟩ trace p ∧
    (∀ x ∈ trace, x.2.Lists Sample.host "/srv/bob/" ['/'] []) ∧
    v.Lists Sample.host "/srv/bob/" ['/'] [] ∧
    p.stage.step v.answers v.node v.user = .error .outOfRange ∧
    "/srv/bob".toList ∈ cutPath v.answers p.stage ∧
    ¬CutsBelow Sample.host "/srv/bob/" ['/'] [] Sample.statDirectory := by
  have hv : (Sample.listing Sample.host "/srv/bob/" ['/'] none).Lists Sample.host "/srv/bob/"
      ['/'] [] := Sample.listing_lists _ _ _ fun n hn ↦ by cases hn
  have hadvance : Progress.advance ⟨.list Sample.statDirectory .begin, []⟩
      (List.replicate 2 (Sample.listing Sample.host "/srv/bob/" ['/'] none)) =
      .ok ⟨.list Sample.statDirectory (.single "/srv/bob" ⟨.directoryFile, 0⟩),
        [.reply { content := "213-Status follows:".toList }, .status "/srv/bob"]⟩ := rfl
  rcases exists_threadRun _ hadvance with ⟨trace, run, hviews⟩
  have htrace : ∀ x ∈ trace, x.2.Lists Sample.host "/srv/bob/" ['/'] [] := by
    intro x hx
    rw [List.eq_of_mem_replicate (hviews x hx)]
    exact hv
  refine ⟨trace, _, _, run, htrace, hv, rfl, rfl, ?_⟩
  intro h
  exact absurd (h trace _ _ run htrace hv "/srv/bob" rfl) (by decide)

end YFtp
