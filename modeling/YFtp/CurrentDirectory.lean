import YFtp.Theory.Runs
import YFtp.Confinement

/-!
# The current directory

Where a session stands after CWD and CDUP.  CWD keeps of a resolved path what comes after as many
characters as the home directory has, so the string that it stores names the directory resolved as
long as that directory is the home directory or below it.
-/

namespace YFtp

/-- `canonical` and `status` answer on this file system as POSIX has it. -/
structure Host.Posix (t : Host) (env : Env) : Prop where
  canonical : ∀ path, env.canonical path = ((t.locate path).filter t.present).map render
  status : ∀ path, (env.getFileStatus path).any isDirectory = true ↔
    ∃ l, t.locate path = some l ∧ t.isDir l = true

/-- The home directory at the place `top`, as `set_home_directory` stores it. -/
def homePath (top : List FileName) : WString :=
  if top = [] then ['/'] else render top ++ ['/']

theorem Host.Posix.answers {t : Host} {env : Env} (h : t.Posix env) : t.Answers env := by
  intro path resolved hresolved
  rw [h.canonical] at hresolved
  rcases Option.map_eq_some_iff.mp hresolved with ⟨l, hl, rfl⟩
  rcases Option.filter_eq_some_iff.mp hl with ⟨hlocate, hpresent⟩
  exact ⟨l, hlocate, hpresent, rfl⟩

/-! ## Strings -/

theorem render_of_ne_nil {l : List FileName} (h : l ≠ []) :
    render l = l.flatMap fun n ↦ '/' :: n.text :=
  if_neg h

theorem render_append {l m : List FileName} (hl : l ≠ []) (hm : m ≠ []) :
    render (l ++ m) = render l ++ render m := by
  rw [render_of_ne_nil (by simp [hl]), render_of_ne_nil hl, render_of_ne_nil hm,
    List.flatMap_append]

theorem render_length {l : List FileName} (h : l ≠ []) : 1 < (render l).length := by
  rw [render_of_ne_nil h]
  cases l with
  | nil => exact absurd rfl h
  | cons n l =>
    have hpos := List.length_pos_iff.mpr n.valid.1
    simp only [List.flatMap_cons, List.length_append, List.length_cons]
    omega

theorem directoryBelow_short {home path : WString} (h : path.length ≤ home.length) :
    Session.directoryBelow home path = ['/'] := by
  unfold Session.directoryBelow
  rw [if_pos h]
  rfl

theorem directoryBelow_long {home path : WString} (hslash : home.getLast? = some '/')
    (h : home.length < path.length) :
    Session.directoryBelow home path = path.drop (home.length - 1) := by
  unfold Session.directoryBelow
  rw [if_neg (Nat.not_le.mpr h), if_pos hslash]
  apply if_neg
  intro hnil
  have hlength := List.drop_eq_nil_iff.mp hnil
  omega

-- the directory that CWD stores names what is left of the place below the home directory
theorem directoryBelow_render (top rest : List FileName) :
    Session.directoryBelow (homePath top) (render (top ++ rest)) = render rest := by
  unfold homePath
  by_cases htop : top = []
  · rw [htop, if_pos rfl, List.nil_append]
    by_cases hrest : rest = []
    · rw [hrest]
      rfl
    · exact directoryBelow_long rfl (render_length hrest)
  · rw [if_neg htop]
    by_cases hrest : rest = []
    · rw [hrest, List.append_nil]
      apply directoryBelow_short
      rw [List.length_append]
      omega
    · have hlong := render_length hrest
      rw [render_append htop hrest, directoryBelow_long List.getLast?_concat]
      · -- one character is given back, for the slash that the rest begins with
        rw [List.length_append]
        exact List.drop_left
      · simp only [List.length_append, List.length_singleton]
        omega

theorem rfind_append {a b : WString} (hb : '/' ∉ b) : rfind '/' (a ++ '/' :: b) = some a.length := by
  have hnone : rfind '/' b = none := by
    induction b with
    | nil => rfl
    | cons x b ih =>
      rw [List.mem_cons, not_or] at hb
      rw [rfind, ih hb.2, if_neg (Ne.symm hb.1)]
  induction a with
  | nil => rw [List.nil_append, rfind, hnone, if_pos rfl, List.length_nil]
  | cons x a ih => rw [List.cons_append, rfind, ih, List.length_cons]

theorem popSlashes_append {a b : WString} (hb : b ≠ []) (hslash : '/' ∉ b) :
    popSlashes (a ++ b) = a ++ b := by
  rcases List.eq_nil_or_concat' b with hnil | ⟨front, c, rfl⟩
  · exact absurd hnil hb
  · have hc : c ≠ '/' := by
      rintro rfl
      exact hslash (by simp)
    unfold popSlashes
    rw [← List.append_assoc, List.reverse_append, List.reverse_singleton, List.singleton_append,
      List.dropWhile_cons_of_neg (by simpa using hc), List.reverse_cons, List.reverse_reverse]

-- CDUP takes the last name off
theorem parentDirectory_render (rest : List FileName) :
    Session.parentDirectory (render rest) = render rest.dropLast := by
  rcases List.eq_nil_or_concat' rest with rfl | ⟨front, n, rfl⟩
  · rfl
  · have hrender : render (front ++ [n])
        = (front.flatMap fun m ↦ '/' :: m.text) ++ '/' :: n.text := by
      rw [render_of_ne_nil (by simp), List.flatMap_append, List.flatMap_singleton]
    have hroot : render (front ++ [n]) ≠ ['/'] := by
      intro h
      have hlong := render_length (l := front ++ [n]) (by simp)
      rw [h] at hlong
      exact absurd hlong (by decide)
    unfold Session.parentDirectory
    rw [if_pos hroot, hrender]
    have hpop : popSlashes ((front.flatMap fun m ↦ '/' :: m.text) ++ '/' :: n.text)
        = (front.flatMap fun m ↦ '/' :: m.text) ++ '/' :: n.text := by
      have hpop := popSlashes_append (a := (front.flatMap fun m ↦ '/' :: m.text) ++ ['/'])
        n.valid.1 n.valid.2.1
      rwa [List.append_assoc] at hpop
    dsimp only
    rw [hpop, rfind_append n.valid.2.1, List.dropLast_concat]
    dsimp only
    by_cases hfront : front = []
    · rw [hfront]
      rfl
    · rw [if_pos, List.take_left, render_of_ne_nil hfront]
      have hlong := render_length hfront
      rw [render_of_ne_nil hfront] at hlong
      omega

/-! ## Places -/

section Places

variable {t : Host} {env : Env} {top rest l : List FileName} {current asked : WString}

theorem homePath_ne_nil (top : List FileName) : homePath top ≠ [] := by
  unfold homePath
  split <;> simp

theorem homePath_head (top : List FileName) : (homePath top).head? = some '/' := by
  unfold homePath
  split
  · rfl
  · rename_i htop
    rw [List.head?_append, render_head]
    rfl

-- the home directory, followed by what is stored for a place below it, leads to that place
theorem locate_below (h : t.Real (top ++ rest)) :
    t.locate (homePath top ++ render rest) = some (top ++ rest) := by
  have hcomponents : components (homePath top ++ render rest) = (top ++ rest).map .entry := by
    rw [List.map_append, ← components_render rest]
    unfold homePath
    split
    · rename_i htop
      rw [htop]
      exact components_slash [] (render rest)
    · rw [List.append_assoc, List.singleton_append, components_slash, components_render]
  have hhead : (homePath top ++ render rest).head? = some '/' := by
    rw [List.head?_append, homePath_head]
    rfl
  unfold Host.locate
  rw [if_neg (by simp [homePath_ne_nil]), if_pos hhead, hcomponents]
  exact Theory.FileTree.walk_entries (l := []) h

theorem locate_home (h : t.Real top) : t.locate (homePath top) = some top := by
  have hcomponents : components (homePath top) = top.map .entry := by
    unfold homePath
    split
    · rename_i htop
      rw [htop]
      rfl
    · rw [components_slash, components_render, components_nil, List.append_nil]
  unfold Host.locate
  rw [if_neg (homePath_ne_nil top), if_pos (homePath_head top), hcomponents]
  exact Theory.FileTree.walk_entries (l := []) h

-- a path that leads to something present comes out of `build_path` as the path without links
theorem buildPath_eq_render (h : t.Posix env) (hcurrent : current ≠ [])
    (hl : t.locate (buildPath env.canonical (homePath top) current asked) = some l)
    (hpresent : t.present l = true) :
    buildPath env.canonical (homePath top) current asked = render l := by
  unfold buildPath at hl ⊢
  rw [if_pos ⟨homePath_ne_nil top, hcurrent⟩] at hl ⊢
  dsimp only at hl ⊢
  rw [if_pos rfl] at hl ⊢
  rw [locate_canonical h.answers] at hl
  rw [h.canonical, hl, Option.filter_some_pos hpresent]
  rfl

theorem statusOf_directory (h : t.Posix env) (path : WString) :
    (statusOf env path).any isDirectory = true ↔ ∃ l, t.locate path = some l ∧ t.isDir l = true := by
  unfold statusOf
  split
  · rename_i hnil
    rw [hnil]
    apply iff_of_false Bool.false_ne_true
    rintro ⟨l, hl, -⟩
    cases hl
  · exact h.status path

end Places

/-! ## CWD and CDUP -/

inductive Move
  | cwd (arg : WString) (env : Env)
  | cdup

/-- One CWD or CDUP of a session that is logged in to the account `user`. -/
def Session.Moves (user : UserNode) (s : Session) : Move → Session → Prop
  | .cwd arg env, s' => ∃ o, s.processCwdCmd env (some user) arg = .ok o ∧ o.session = s'
  | .cdup, s' => s.processCdupCmd.session = s'

/-- The session stands at the place `top ++ rest`, which is a directory. -/
structure StandsAt (t : Host) (top rest : List FileName) (s : Session) : Prop where
  stored : s.currentDirectory = render rest
  real : t.Real (top ++ rest)
  isDir : t.isDir (top ++ rest) = true

/-- What the argument of CWD leads to, if it is a directory, is the home directory or below it. -/
def StaysBelow (t : Host) (top : List FileName) (current asked : WString) : Prop :=
  ∀ l ∈ t.walk top (relative current asked), t.isDir l = true → top <+: l

instance (t : Host) (top : List FileName) (current asked : WString) :
    Decidable (StaysBelow t top current asked) :=
  inferInstanceAs (Decidable (∀ _ ∈ _, _))

theorem processCwdCmd_stands {t : Host} {env : Env} {top rest : List FileName} {s : Session}
    {user : UserNode} {arg : WString} {o : Outcome} (hposix : t.Posix env)
    (hhome : user.homeDirectory = homePath top) (htop : t.Real top) (hs : StandsAt t top rest s)
    (hbelow : StaysBelow t top s.currentDirectory arg)
    (h : s.processCwdCmd env (some user) arg = .ok o) :
    (o.session = s ∧ o.reply.code ≠ 250) ∨
    ∃ l, StandsAt t top l o.session ∧
      t.locate (buildPath env.canonical user.homeDirectory s.currentDirectory arg)
        = some (top ++ l) := by
  unfold Session.processCwdCmd at h
  split at h
  · dsimp only [deref, bind, Except.bind] at h
    split at h
    · rename_i hdirectory
      cases h
      apply Or.inr
      rcases (statusOf_directory hposix _).mp hdirectory with ⟨m, hm, hdir⟩
      have hcurrent : s.currentDirectory ≠ [] := by
        rw [hs.stored]
        exact render_ne_nil rest
      rw [hhome] at hm ⊢
      have hwalk : t.walk top (relative s.currentDirectory arg) = some m := by
        rw [locate_buildPath hposix.answers (homePath_ne_nil top) hcurrent, locate_home htop] at hm
        exact hm
      rcases hbelow m hwalk hdir with ⟨l, rfl⟩
      have hpath := buildPath_eq_render hposix hcurrent hm (t.present_of_isDir hdir)
      refine ⟨l, ?_, hm⟩
      exact {
        stored := by
          show Session.directoryBelow (homePath top) _ = _
          rw [hpath, directoryBelow_render]
        real := locate_real hm (t.present_of_isDir hdir)
        isDir := hdir }
    · cases h
      exact .inl ⟨rfl, show (550 : Nat) ≠ 250 by decide⟩
  · cases h
    exact .inl ⟨rfl, show (501 : Nat) ≠ 250 by decide⟩

theorem processCdupCmd_stands {t : Host} {top rest : List FileName} {s : Session}
    (htop : t.isDir top = true) (hs : StandsAt t top rest s) :
    StandsAt t top rest.dropLast s.processCdupCmd.session where
  stored := by
    show Session.parentDirectory s.currentDirectory = _
    rw [hs.stored, parentDirectory_render]
  real := hs.real.of_prefix ((List.prefix_append_right_inj top).mpr (List.dropLast_prefix rest))
  isDir := by
    rcases List.eq_nil_or_concat' rest with rfl | ⟨front, n, rfl⟩
    · simpa using htop
    · rw [List.dropLast_concat]
      -- what lies on the way to a place without links is a directory
      have hprefix : top ++ front ++ [n] <+: top ++ (front ++ [n]) := by
        rw [List.append_assoc]
      exact (hs.real _ _ hprefix).1

/-- CWD with the path that PWD shows. -/
theorem processCwdCmd_shown {t : Host} {env : Env} {top rest : List FileName} {s : Session}
    {user : UserNode} (hposix : t.Posix env) (hhome : user.homeDirectory = homePath top)
    (htop : t.Real top) (hs : StandsAt t top rest s) :
    ∃ o, s.processCwdCmd env (some user) s.currentDirectory = .ok o ∧ o.reply.code = 250 ∧
      o.session = s := by
  have hcurrent : s.currentDirectory ≠ [] := by
    rw [hs.stored]
    exact render_ne_nil rest
  have hrelative : relative s.currentDirectory s.currentDirectory = rest.map .entry := by
    unfold relative
    rw [hs.stored, if_pos (.inl (render_head rest)), List.nil_append, components_render]
  have hlocate : t.locate (buildPath env.canonical user.homeDirectory s.currentDirectory
      s.currentDirectory) = some (top ++ rest) := by
    rw [hhome, locate_buildPath hposix.answers (homePath_ne_nil top) hcurrent, locate_home htop,
      hrelative]
    exact Theory.FileTree.walk_entries hs.real
  have hpath : buildPath env.canonical (homePath top) s.currentDirectory s.currentDirectory
      = render (top ++ rest) :=
    buildPath_eq_render hposix hcurrent (hhome ▸ hlocate) (t.present_of_isDir hs.isDir)
  unfold Session.processCwdCmd
  rw [if_pos hcurrent]
  dsimp only [deref, bind, Except.bind]
  rw [if_pos ((statusOf_directory hposix _).mpr ⟨_, hlocate, hs.isDir⟩)]
  refine ⟨_, rfl, rfl, ?_⟩
  show { s with currentDirectory := Session.directoryBelow user.homeDirectory _ } = s
  rw [hhome, hpath, directoryBelow_render, ← hs.stored]

/-- After a CWD with the argument `arg`: if it was answered 250, the current directory begins with a
slash and names, below the home directory, the place that the argument was resolved to. -/
def NamesResolved (t : Host) (user : UserNode) (env : Env) (arg : WString) (s : Session)
    (o : Outcome) : Prop :=
  o.reply.code = 250 → o.session.currentDirectory.head? = some '/' ∧
    ∃ l, t.locate (user.homeDirectory ++ o.session.currentDirectory) = some l ∧
      t.locate (buildPath env.canonical user.homeDirectory s.currentDirectory arg) = some l

/-- CWD with the path that PWD shows is answered 250 and changes nothing. -/
def ShownIsReached (t : Host) (user : UserNode) (s : Session) : Prop :=
  ∀ env, t.Posix env → ∃ o, s.processCwdCmd env (some user) s.currentDirectory = .ok o ∧
    o.reply.code = 250 ∧ o.session = s

section Runs

variable {t : Host} {top : List FileName} {user : UserNode} {s s' : Session}
  {trace : List (Session × Move)}

theorem moves_stands (hhome : user.homeDirectory = homePath top) (hreal : t.Real top)
    (htop : t.isDir top = true) (hs : s.currentDirectory = ['/'])
    (run : Theory.Run (Session.Moves user) s trace s')
    (hposix : ∀ p ∈ trace, ∀ arg env, p.2 = .cwd arg env → t.Posix env)
    (hbelow : ∀ p ∈ trace, ∀ arg env, p.2 = .cwd arg env →
      StaysBelow t top p.1.currentDirectory arg) :
    ∃ rest, StandsAt t top rest s' := by
  apply run.invariant_of_steps (P := fun s ↦ ∃ rest, StandsAt t top rest s)
    (C := fun s move ↦ ∀ arg env, move = .cwd arg env →
      t.Posix env ∧ StaysBelow t top s.currentDirectory arg)
  · exact ⟨[], hs, by rwa [List.append_nil], by rwa [List.append_nil]⟩
  · rintro s move s' ⟨rest, hs⟩ hmove hstep
    cases move with
    | cwd arg env =>
      rcases hstep with ⟨o, ho, rfl⟩
      rcases hmove arg env rfl with ⟨hposix, hbelow⟩
      rcases processCwdCmd_stands hposix hhome hreal hs hbelow ho with
        ⟨hsame, -⟩ | ⟨l, hl, -⟩
      · exact ⟨rest, hsame ▸ hs⟩
      · exact ⟨l, hl⟩
    | cdup =>
      cases hstep
      exact ⟨rest.dropLast, processCdupCmd_stands htop hs⟩
  · exact fun p hp arg env hcwd ↦ ⟨hposix p hp arg env hcwd, hbelow p hp arg env hcwd⟩

/-- From a fresh login on, as long as what is asked for is the home directory or below it, the
current directory names the directory that the session stands in. -/
theorem currentDirectory_names (hhome : user.homeDirectory = homePath top) (hreal : t.Real top)
    (htop : t.isDir top = true) (hs : s.currentDirectory = ['/'])
    (run : Theory.Run (Session.Moves user) s trace s')
    (hposix : ∀ p ∈ trace, ∀ arg env, p.2 = .cwd arg env → t.Posix env)
    (hbelow : ∀ p ∈ trace, ∀ arg env, p.2 = .cwd arg env →
      StaysBelow t top p.1.currentDirectory arg) :
    (∀ p ∈ trace, ∀ arg env, p.2 = .cwd arg env → ∀ o,
      p.1.processCwdCmd env (some user) arg = .ok o → NamesResolved t user env arg p.1 o) ∧
    ShownIsReached t user s' := by
  constructor
  · intro p hp arg env hcwd o ho hreply
    rcases run.reaches_recorded hp with ⟨older, before, holder⟩
    rcases moves_stands hhome hreal htop hs before (fun q hq ↦ hposix q (holder q hq))
      (fun q hq ↦ hbelow q (holder q hq)) with ⟨rest, hp'⟩
    rcases processCwdCmd_stands (hposix p hp arg env hcwd) hhome hreal hp'
      (hbelow p hp arg env hcwd) ho with ⟨-, hrefused⟩ | ⟨l, hl, hresolved⟩
    · exact absurd hreply hrefused
    · refine ⟨?_, top ++ l, ?_, hresolved⟩
      · rw [hl.stored]
        exact render_head l
      · rw [hhome, hl.stored]
        exact locate_below hl.real
  · intro env henv
    rcases moves_stands hhome hreal htop hs run hposix hbelow with ⟨rest, hs'⟩
    exact processCwdCmd_shown henv hhome hreal hs'

end Runs

namespace Sample

/-- The answers of a POSIX system with the file system of the samples. -/
def posix : Env :=
  { hosted with
    getFileStatus := fun path ↦ ((host.locate path).filter host.present).map fun l ↦
      ⟨if host.isDir l then .directoryFile else .regularFile, 0⟩ }

theorem host_posix : host.Posix posix where
  canonical _ := rfl
  status path := by
    show (((host.locate path).filter host.present).map _).any isDirectory = true ↔ _
    cases host.locate path with
    | none =>
      apply iff_of_false Bool.false_ne_true
      rintro ⟨l, hl, -⟩
      cases hl
    | some l =>
      have hone : (∃ m, some l = some m ∧ host.isDir m = true) ↔ host.isDir l = true := by
        constructor
        · rintro ⟨m, ⟨⟩, hm⟩
          exact hm
        · exact fun h ↦ ⟨l, rfl, h⟩
      rw [hone]
      cases hdir : host.isDir l with
      | false =>
        cases hpresent : host.present l <;> simp [Option.filter, hpresent, isDirectory, hdir]
      | true => simp [Option.filter, host.present_of_isDir hdir, isDirectory, hdir]

theorem real_of_inits {l : List FileName}
    (hall : ∀ k ∈ l.inits, k ≠ [] → host.isDir k.dropLast = true ∧ host.follow k = k) :
    host.Real l := by
  intro m n h
  have hk := hall (m ++ [n]) ((List.mem_inits _ _).mpr h) (by simp)
  rwa [List.dropLast_concat] at hk

theorem home_real : host.Real [srv, home] := by
  apply real_of_inits
  decide

end Sample

/-- Into a directory and back. -/
theorem currentDirectory_names_music :
    (∀ o, Session.processCwdCmd Sample.posix (some Sample.bob) "music".toList {} = .ok o →
      NamesResolved Sample.host Sample.bob Sample.posix "music".toList {} o) ∧
    ShownIsReached Sample.host Sample.bob
      (Session.processCdupCmd { currentDirectory := "/music".toList }).session := by
  have run : Theory.Run (Session.Moves Sample.bob) {}
      [({ currentDirectory := "/music".toList }, .cdup), ({}, .cwd "music".toList Sample.posix)]
      (Session.processCdupCmd { currentDirectory := "/music".toList }).session :=
    (Theory.Run.refl.snoc ⟨_, rfl, by decide +kernel⟩).snoc rfl
  have hcwd : ∀ p ∈ [(({ currentDirectory := "/music".toList } : Session), Move.cdup),
      ({}, .cwd "music".toList Sample.posix)], ∀ arg env, p.2 = .cwd arg env →
      p = ({}, .cwd "music".toList Sample.posix) ∧ arg = "music".toList ∧ env = Sample.posix := by
    intro p hp arg env h
    rcases List.mem_cons.mp hp with rfl | hp
    · cases h
    · cases List.mem_singleton.mp hp
      cases h
      exact ⟨rfl, rfl, rfl⟩
  have hposix : ∀ p ∈ [(({ currentDirectory := "/music".toList } : Session), Move.cdup),
      ({}, .cwd "music".toList Sample.posix)], ∀ arg env, p.2 = .cwd arg env → Sample.host.Posix env := by
    intro p hp arg env h
    rcases hcwd p hp arg env h with ⟨-, -, rfl⟩
    exact Sample.host_posix
  have hbelow : ∀ p ∈ [(({ currentDirectory := "/music".toList } : Session), Move.cdup),
      ({}, .cwd "music".toList Sample.posix)], ∀ arg env, p.2 = .cwd arg env →
      StaysBelow Sample.host [Sample.srv, Sample.home] p.1.currentDirectory arg := by
    intro p hp arg env h
    rcases hcwd p hp arg env h with ⟨rfl, rfl, rfl⟩
    decide +kernel
  have hnames := currentDirectory_names (by decide) Sample.home_real (by decide) rfl run hposix
    hbelow
  exact ⟨fun o ho ↦ hnames.1 _ (List.mem_cons_of_mem _ List.mem_cons_self) _ _ rfl o ho, hnames.2⟩

/-- A link leads from the home directory to the directory `/srv/pub`: CWD is answered 250, and the
current directory says that the session is in the home directory. -/
theorem currentDirectory_fails : Sample.host.Posix Sample.posix ∧
    ∃ o, Session.processCwdCmd Sample.posix (some Sample.bob) "shared".toList {} = .ok o ∧
      o.reply.code = 250 ∧ ¬NamesResolved Sample.host Sample.bob Sample.posix "shared".toList {} o := by
  have hcwd : Session.processCwdCmd Sample.posix (some Sample.bob) "shared".toList {}
      = .ok (Session.answer {} 250 "CWD command successful."
          (statusEffects "/srv/pub".toList)) := by rfl
  refine ⟨Sample.host_posix, _, hcwd, rfl, ?_⟩
  intro h
  rcases h rfl with ⟨-, l, hstored, hresolved⟩
  have hne : Sample.host.locate (Sample.bob.homeDirectory ++ ['/'])
      ≠ Sample.host.locate (buildPath Sample.posix.canonical Sample.bob.homeDirectory ['/']
        "shared".toList) := by decide +kernel
  exact hne (hstored.trans hresolved.symm)

/-! ## CDUP and CWD with `..` -/

section Parent

variable {t : Host} {env : Env} {top rest : List FileName} {user : UserNode} {s : Session}

/-- CDUP, as far as the session goes. -/
def Session.cdup (s : Session) : Session := s.processCdupCmd.session

theorem relative_parent (rest : List FileName) :
    relative (render rest) "..".toList = rest.map .entry ++ [.up] := by
  unfold relative
  rw [if_neg (by decide), components_render, show components "..".toList = [.up] by decide]

theorem walk_parent (hreal : t.Real (top ++ rest)) (hdir : t.isDir (top ++ rest) = true) :
    t.walk top (rest.map .entry ++ [.up]) = some (top ++ rest).dropLast := by
  rw [Theory.FileTree.walk_append, Theory.FileTree.walk_entries hreal]
  show (t.step (top ++ rest) .up).bind _ = _
  rw [Theory.FileTree.step, if_pos hdir]
  rfl

theorem isDir_dropLast {l : List FileName} (hreal : t.Real l) (hdir : t.isDir l = true) :
    t.isDir l.dropLast = true := by
  rcases List.eq_nil_or_concat' l with rfl | ⟨front, n, rfl⟩
  · exact hdir
  · rw [List.dropLast_concat]
    exact (hreal front n (List.prefix_refl _)).1

-- the directory above the home directory has the shorter path, and CWD goes to `/` for it too
theorem directoryBelow_parent (htop : top ≠ []) (rest : List FileName) :
    Session.directoryBelow (homePath top) (render (top ++ rest).dropLast) =
      render rest.dropLast := by
  rcases List.eq_nil_or_concat' rest with rfl | ⟨front, n, rfl⟩
  · rw [List.append_nil]
    apply directoryBelow_short
    rw [homePath, if_neg htop, List.length_append]
    rcases List.eq_nil_or_concat' top with rfl | ⟨front, n, rfl⟩
    · exact absurd rfl htop
    · rw [List.dropLast_concat]
      by_cases hfront : front = []
      · rw [hfront]
        exact Nat.le_add_left 1 _
      · rw [render_append hfront (List.cons_ne_nil _ _), List.length_append]
        omega
  · rw [← List.append_assoc, List.dropLast_concat, List.dropLast_concat, directoryBelow_render]

theorem processCwdCmd_parent (hposix : t.Posix env) (hhome : user.homeDirectory = homePath top)
    (htop : top ≠ []) (hs : StandsAt t top rest s) :
    ∃ o, s.processCwdCmd env (some user) "..".toList = .ok o ∧ o.reply.code = 250 ∧
      o.session = s.cdup := by
  have hreal : t.Real top := hs.real.of_prefix (List.prefix_append top rest)
  have hcurrent : s.currentDirectory ≠ [] := by
    rw [hs.stored]
    exact render_ne_nil rest
  have hlocate : t.locate (buildPath env.canonical user.homeDirectory s.currentDirectory
      "..".toList) = some (top ++ rest).dropLast := by
    rw [hhome, locate_buildPath hposix.answers (homePath_ne_nil top) hcurrent, locate_home hreal,
      hs.stored, relative_parent]
    exact walk_parent hs.real hs.isDir
  have hdir := isDir_dropLast hs.real hs.isDir
  have hpath : buildPath env.canonical (homePath top) s.currentDirectory "..".toList
      = render (top ++ rest).dropLast :=
    buildPath_eq_render hposix hcurrent (hhome ▸ hlocate) (t.present_of_isDir hdir)
  unfold Session.processCwdCmd
  rw [if_pos (by decide)]
  dsimp only [deref, bind, Except.bind]
  rw [if_pos ((statusOf_directory hposix _).mpr ⟨_, hlocate, hdir⟩)]
  refine ⟨_, rfl, rfl, ?_⟩
  show { s with currentDirectory := Session.directoryBelow user.homeDirectory _ } =
    { s with currentDirectory := Session.parentDirectory s.currentDirectory }
  rw [hhome, hpath, directoryBelow_parent htop, hs.stored, parentDirectory_render]

theorem cdup_iterate (htop : t.isDir top = true) (hs : StandsAt t top rest s) (n : ℕ) :
    StandsAt t top (rest.take (rest.length - n)) (Session.cdup^[n] s) := by
  induction n with
  | zero =>
    rw [Nat.sub_zero, List.take_length]
    exact hs
  | succ n ih =>
    rw [Function.iterate_succ_apply']
    have hnext := processCdupCmd_stands htop ih
    have hshorter : (rest.take (rest.length - n)).dropLast = rest.take (rest.length - (n + 1)) := by
      rw [List.dropLast_eq_take, List.take_take, List.length_take]
      congr 1
      omega
    rwa [hshorter] at hnext

theorem StandsAt.home_isDir (hs : StandsAt t top rest s) : t.isDir top = true := by
  have hdir := hs.isDir
  cases rest with
  | nil => rwa [List.append_nil] at hdir
  | cons n rest =>
    have hname : top ++ [n] <+: top ++ n :: rest :=
      (List.prefix_append_right_inj top).mpr ⟨rest, rfl⟩
    exact (hs.real top n hname).1

/-- CDUP and CWD with `..` lead to the same session, which stands in the directory above, or in the
home directory again; as many CDUP as there are names lead to the home directory. -/
theorem cdup_eq_cwd_parent (hposix : t.Posix env) (hhome : user.homeDirectory = homePath top)
    (htop : top ≠ []) (hs : StandsAt t top rest s) :
    (∃ o, s.processCwdCmd env (some user) "..".toList = .ok o ∧ o.reply.code = 250 ∧
      o.session = s.cdup) ∧
    s.cdup.currentDirectory = render rest.dropLast ∧ StandsAt t top rest.dropLast s.cdup ∧
    (Session.cdup^[rest.length] s).currentDirectory = ['/'] := by
  have hup : StandsAt t top rest.dropLast s.cdup := processCdupCmd_stands hs.home_isDir hs
  refine ⟨processCwdCmd_parent hposix hhome htop hs, hup.stored, hup, ?_⟩
  have hhome' := cdup_iterate hs.home_isDir hs rest.length
  rw [Nat.sub_self, List.take_zero] at hhome'
  exact hhome'.stored

end Parent

/-- From `/music` up. -/
theorem cdup_eq_cwd_parent_music :
    (∃ o, Session.processCwdCmd Sample.posix (some Sample.bob) "..".toList
      { currentDirectory := "/music".toList } = .ok o ∧ o.reply.code = 250 ∧
      o.session = Session.cdup { currentDirectory := "/music".toList }) ∧
    (Session.cdup { currentDirectory := "/music".toList }).currentDirectory = ['/'] := by
  have hreal : Sample.host.Real ([Sample.srv, Sample.home] ++ [Sample.music]) := by
    apply Sample.real_of_inits
    decide
  have hhome : Sample.bob.homeDirectory = homePath [Sample.srv, Sample.home] := by decide
  have hs : StandsAt Sample.host [Sample.srv, Sample.home] [Sample.music]
      { currentDirectory := "/music".toList } := ⟨rfl, hreal, by decide⟩
  have h := cdup_eq_cwd_parent Sample.host_posix hhome (by decide) hs
  exact ⟨h.1, h.2.2.2⟩

end YFtp
