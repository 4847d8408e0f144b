import YFtp.Frames

/-!
# The user table under administration

What the five operations keep between them: the names are not empty and no two are alike, the
reserved ones mean what they mean, and a home directory ends with a separator.  The table is taken
as the list of its user nodes, each operation as what it does to that list.
-/

namespace YFtp

open Theory

namespace UserManager

/-- The user nodes of `ftp_user_list_`, in its order. -/
def table (m : UserManager) : List UserNode := m.ftpUserList.map m.users

/-- The names of the users. -/
def names (m : UserManager) : List WString := m.table.map UserNode.userName

/-- The loop of `set_user_password` and of `set_user_privilege` as it is written, with `ret`. -/
def modifyLoop (name : WString) (f : UserNode → UserNode) :
    List UserRef → UserManager → Bool × UserManager
  | [], m => (false, m)
  | u :: us, m =>
    if name = [] ∨ (m.users u).userName = name then
      -- `break`
      if name ≠ [] then (true, m.modify u f)
      else (true, (modifyLoop name f us (m.modify u f)).2)
    else modifyLoop name f us m

section Loop

variable {name : WString} {f : UserNode → UserNode}

theorem modifyLoop_all (us : List UserRef) (m : UserManager) :
    modifyLoop [] f us m = (!us.isEmpty, us.foldl (fun m u ↦ m.modify u f) m) := by
  induction us generalizing m with
  | nil => rfl
  | cons u us ih =>
    rw [modifyLoop, if_pos (.inl rfl), if_neg (fun h ↦ h rfl), ih]
    rfl

theorem modifyLoop_named (hname : name ≠ []) (us : List UserRef) (m : UserManager) :
    modifyLoop name f us m = match us.find? fun u ↦ (m.users u).userName = name with
      | some u => (true, m.modify u f)
      | none => (false, m) := by
  induction us with
  | nil => rfl
  | cons u us ih =>
    rw [modifyLoop, List.find?_cons]
    by_cases hu : (m.users u).userName = name
    · rw [if_pos (.inr hu), if_pos hname, decide_eq_true hu]
    · rw [if_neg (by simp [hname, hu]), ih, decide_eq_false hu]

/-- The loop returns `false` where no user is addressed, and has changed nothing then. -/
theorem modifyLoop_eq (m : UserManager) : modifyLoop name f m.ftpUserList m =
    match m.modifyNamed name f with
    | .ok m' => (true, m')
    | .error _ => (false, m) := by
  unfold modifyNamed
  by_cases hname : name = []
  · rw [hname, modifyLoop_all, if_pos rfl]
    by_cases hlist : m.ftpUserList = []
    · rw [if_pos hlist, hlist]
      rfl
    · rw [if_neg hlist, List.isEmpty_eq_false_iff.mpr hlist]
      rfl
  · rw [modifyLoop_named hname, if_neg hname]
    unfold findUser
    cases m.ftpUserList.find? fun u ↦ (m.users u).userName = name with
    | none => rfl
    | some u => rfl

end Loop

/-! ## The table after each operation -/

section Table

variable {m m' : UserManager} {name : WString} {u : UserRef} {f : UserNode → UserNode}

theorem mem_names : name ∈ m.names ↔ ∃ u ∈ m.ftpUserList, (m.users u).userName = name := by
  simp [names, table]

theorem findUser_eq_none_iff : m.findUser name = none ↔ name ∉ m.names := by
  rw [mem_names, findUser, List.find?_eq_none]
  simp

theorem findUser_mem (h : m.findUser name = some u) :
    u ∈ m.ftpUserList ∧ (m.users u).userName = name := by
  refine ⟨List.mem_of_find?_eq_some h, ?_⟩
  simpa using List.find?_some h

-- a user node that is not in the list
theorem table_update (hu : u ∉ m.ftpUserList) (node : UserNode) :
    m.ftpUserList.map (Function.update m.users u node) = m.table := by
  apply List.map_congr_left
  intro v hv
  apply Function.update_of_ne
  rintro rfl
  exact hu hv

-- one user after the other
theorem users_foldl_modify {us : List UserRef} (hus : us.Nodup) (m : UserManager) (v : UserRef) :
    (us.foldl (fun m u ↦ m.modify u f) m).users v =
      if v ∈ us then f (m.users v) else m.users v := by
  induction us generalizing m with
  | nil => rfl
  | cons u us ih =>
    rw [List.nodup_cons] at hus
    rw [List.foldl_cons, ih hus.2]
    by_cases hvu : v = u
    · rw [hvu, if_neg hus.1, if_pos List.mem_cons_self, modify_users_self]
    · rw [modify_users_of_ne m f hvu]
      simp only [List.mem_cons, hvu, false_or]

theorem ftpUserList_foldl_modify (us : List UserRef) (m : UserManager) :
    (us.foldl (fun m u ↦ m.modify u f) m).ftpUserList = m.ftpUserList ∧
    (us.foldl (fun m u ↦ m.modify u f) m).nextUser = m.nextUser := by
  induction us generalizing m with
  | nil => exact ⟨rfl, rfl⟩
  | cons u us ih => exact ih (m.modify u f)

theorem nodup_of_names (hnames : m.names.Nodup) : m.ftpUserList.Nodup := by
  unfold names table at hnames
  rw [List.map_map] at hnames
  exact hnames.of_map

/-- The users keep their places, and each is as it was or is changed by `f`. -/
structure Changes (f : UserNode → UserNode) (m m' : UserManager) : Prop where
  table : List.Forall₂ (fun user user' ↦ user' = user ∨ user' = f user) m.table m'.table
  ftpUserList : m'.ftpUserList = m.ftpUserList
  nextUser : m'.nextUser = m.nextUser

theorem changes_modify (m : UserManager) (u : UserRef) (f : UserNode → UserNode) :
    Changes f m (m.modify u f) := by
  refine ⟨?_, rfl, rfl⟩
  unfold table
  rw [List.forall₂_map_left_iff, List.forall₂_map_right_iff]
  apply List.forall₂_same.mpr
  intro v _
  by_cases hvu : v = u
  · rw [hvu, modify_users_self]
    exact .inr rfl
  · rw [modify_users_of_ne m f hvu]
    exact .inl rfl

theorem changes_modifyNamed (hnames : m.names.Nodup) (h : m.modifyNamed name f = .ok m') :
    Changes f m m' := by
  unfold modifyNamed at h
  split at h
  · split at h
    · cases h
    · cases h
      rcases ftpUserList_foldl_modify (f := f) m.ftpUserList m with ⟨hlist, hnext⟩
      refine ⟨?_, hlist, hnext⟩
      unfold table
      rw [hlist, List.forall₂_map_left_iff, List.forall₂_map_right_iff, List.forall₂_same]
      intro v hv
      rw [users_foldl_modify (nodup_of_names hnames), if_pos hv]
      exact .inr rfl
  · split at h
    · cases h
      exact changes_modify m _ f
    · cases h

theorem changes_names (h : Changes f m m') (hf : ∀ user, (f user).userName = user.userName) :
    m'.names = m.names := by
  unfold names
  have hpairs := h.table
  generalize m.table = us at hpairs
  generalize m'.table = us' at hpairs
  induction hpairs with
  | nil => rfl
  | cons huser _ ih =>
    rw [List.map_cons, List.map_cons, ih]
    rcases huser with rfl | rfl
    · rfl
    · rw [hf]

theorem changes_mem (h : Changes f m m') {user' : UserNode} (huser' : user' ∈ m'.table) :
    ∃ user ∈ m.table, user' = user ∨ user' = f user := by
  have hpairs := h.table
  generalize m.table = us at hpairs
  generalize m'.table = us' at hpairs huser'
  induction hpairs with
  | nil => cases huser'
  | cons huser _ ih =>
    rcases List.mem_cons.mp huser' with rfl | hmem
    · exact ⟨_, List.mem_cons_self, huser⟩
    · rcases ih hmem with ⟨user, huser, heq⟩
      exact ⟨user, List.mem_cons_of_mem _ huser, heq⟩

end Table

/-! ## The invariant -/

/-- The directory ends with a separator. -/
def EndsInSeparator (dir : WString) : Prop :=
  dir ≠ [] ∧ (dir.getLast? = some '/' ∨ dir.getLast? = some '\\')

theorem withSeparator_ends {dir : WString} (hdir : dir ≠ []) : EndsInSeparator (withSeparator dir) := by
  unfold withSeparator
  split
  · exact ⟨by simp, .inl (by simp)⟩
  · rename_i h
    rw [Classical.not_and_iff_not_or_not, not_not, not_not] at h
    exact ⟨hdir, h.symm⟩

theorem processHomeDirectory_ne_nil {env : Env} {homeDir home : WString}
    (h : processHomeDirectory env homeDir = .ok home) : home ≠ [] := by
  unfold processHomeDirectory at h
  dsimp only at h
  generalize simplifyPath env.canonical _ = temp at h
  split at h
  · cases h
  · rename_i hne
    split at h
    · cases h
      exact hne
    · cases h

/-- No user of the list is at the address of the next one. -/
def Fresh (m : UserManager) : Prop := ∀ u ∈ m.ftpUserList, u < m.nextUser

section Specs

variable {m m' : UserManager} {name : WString} {f : UserNode → UserNode}

/-- What `add_user` leaves. -/
structure Adds (name : WString) (m m' : UserManager) : Prop where
  nonempty : name ≠ []
  notIn : name ∉ m.names
  table : ∃ user, m'.table = m.table ++ [user] ∧ user.userName = name ∧
    EndsInSeparator user.homeDirectory
  fresh : Fresh m'

/-- The table after `add_user`. -/
theorem addUser_eq {env : Env} {homeDir home : WString} (password : WString) (priv : UInt8)
    (hm : Fresh m) (hname : name ≠ []) (hnotIn : name ∉ m.names)
    (hhome : processHomeDirectory env homeDir = .ok home) :
    ∃ m', m.addUser env name password homeDir priv = .ok m' ∧ Fresh m' ∧ m'.table = m.table ++
      [{ userName := name, userPassword := password, homeDirectory := withSeparator home
         userPrivilege := priv }] := by
  let user : UserNode :=
    { userName := name, userPassword := password, homeDirectory := withSeparator home
      userPrivilege := priv }
  let m' : UserManager :=
    { users := Function.update m.users m.nextUser user, ftpUserList := m.ftpUserList ++ [m.nextUser]
      nextUser := m.nextUser + 1 }
  refine ⟨m', ?_, ?_, ?_⟩
  · unfold addUser
    rw [if_neg hname, hhome]
    dsimp only [bind, Except.bind]
    rw [findUser_eq_none_iff.mpr hnotIn, if_neg (fun h ↦ h rfl)]
  · intro u hu
    rcases List.mem_append.mp hu with hu | hu
    · exact Nat.lt_succ_of_lt (hm u hu)
    · rw [List.mem_singleton.mp hu]
      exact Nat.lt_succ_self _
  · have hnew : m.nextUser ∉ m.ftpUserList := fun hin ↦ Nat.lt_irrefl _ (hm _ hin)
    show (m.ftpUserList ++ [m.nextUser]).map (Function.update m.users m.nextUser user) = _
    rw [List.map_append, table_update hnew, List.map_singleton, Function.update_self]

theorem addUser_adds {env : Env} {password homeDir : WString} {priv : UInt8} (hm : Fresh m)
    (h : m.addUser env name password homeDir priv = .ok m') : Adds name m m' := by
  have hadd := h
  unfold addUser at h
  split at h
  · cases h
  · rename_i hname
    cases hhome : processHomeDirectory env homeDir with
    | error e =>
      rw [hhome] at h
      cases h
    | ok home =>
      rw [hhome] at h
      dsimp only [bind, Except.bind] at h
      split at h
      · cases h
      · rename_i hfind
        have hnotIn := findUser_eq_none_iff.mp (not_not.mp hfind)
        rcases addUser_eq password priv hm hname hnotIn hhome with
          ⟨m'', hadd', hfresh, htable⟩
        rw [hadd, Except.ok.injEq] at hadd'
        subst hadd'
        refine ⟨hname, hnotIn, ⟨_, htable, rfl, ?_⟩, hfresh⟩
        exact withSeparator_ends (processHomeDirectory_ne_nil hhome)

/-- What `delete_user` leaves. -/
structure Deletes (name : WString) (m m' : UserManager) : Prop where
  table : m'.table.Sublist m.table
  notIn : name ∉ m'.names
  fresh : Fresh m'

/-- The table after `delete_user`. -/
theorem deleteUser_eq (hm : Fresh m) (hnames : m.names.Nodup) (hin : name ∈ m.names) :
    ∃ m', m.deleteUser name = .ok m' ∧ Fresh m' ∧
      m'.table = m.table.filter (·.userName ≠ name) := by
  cases hfind : m.findUser name with
  | none => exact absurd hin (findUser_eq_none_iff.mp hfind)
  | some u =>
    have hdelete : m.deleteUser name =
        .ok { m.deleteAllClient u with ftpUserList := m.ftpUserList.erase u } := by
      unfold deleteUser
      rw [hfind]
    refine ⟨_, hdelete, fun v hv ↦ hm v (List.mem_of_mem_erase hv), ?_⟩
    rcases findUser_mem hfind with ⟨hu, hname⟩
    have hnodup := nodup_of_names hnames
    have hsame : ∀ v ∈ m.ftpUserList.erase u, (m.deleteAllClient u).users v = m.users v := by
      intro v hv
      apply modify_users_of_ne
      rintro rfl
      exact hnodup.not_mem_erase hv
    unfold names table at hnames
    rw [List.map_map] at hnames
    show (m.ftpUserList.erase u).map (m.deleteAllClient u).users = _
    unfold table
    rw [List.map_congr_left hsame, hnodup.erase_eq_filter, List.filter_map]
    congr 1
    apply List.filter_congr
    intro v hv
    by_cases hvu : v = u
    · simp [hvu, hname]
    · have hne : (m.users v).userName ≠ name := fun heq ↦
        hvu (List.inj_on_of_nodup_map hnames hv hu (heq.trans hname.symm))
      simp [hvu, hne]

theorem deleteUser_deletes (hm : Fresh m) (hnames : m.names.Nodup)
    (h : m.deleteUser name = .ok m') : Deletes name m m' := by
  have hin : name ∈ m.names := by
    by_contra hnotIn
    unfold deleteUser at h
    rw [findUser_eq_none_iff.mpr hnotIn] at h
    cases h
  rcases deleteUser_eq hm hnames hin with ⟨m'', hdelete, hfresh, htable⟩
  rw [h, Except.ok.injEq] at hdelete
  subst hdelete
  refine ⟨?_, ?_, hfresh⟩
  · rw [htable]
    exact List.filter_sublist
  · unfold names
    rw [htable]
    intro hleft
    rcases List.mem_map.mp hleft with ⟨user, huser, hname⟩
    simpa [hname] using (List.mem_filter.mp huser).2

/-- The table after the loops of `set_user_password` and `set_user_privilege`, also where they
return `false`. -/
theorem modifyNamed_table (hnames : m.names.Nodup) (name : WString) (f : UserNode → UserNode) :
    (modifyLoop name f m.ftpUserList m).2.table =
      m.table.map fun user ↦ if name = [] ∨ user.userName = name then f user else user := by
  unfold table
  rw [List.map_map]
  have hnodup := nodup_of_names hnames
  by_cases hname : name = []
  · rw [hname, modifyLoop_all]
    dsimp only
    rw [(ftpUserList_foldl_modify m.ftpUserList m).1]
    apply List.map_congr_left
    intro u hu
    rw [users_foldl_modify hnodup, if_pos hu, Function.comp_apply, if_pos (Or.inl rfl)]
  · rw [modifyLoop_named hname]
    cases hfind : m.ftpUserList.find? fun u ↦ (m.users u).userName = name with
    | none =>
      apply List.map_congr_left
      intro v hv
      have hne := List.find?_eq_none.mp hfind v hv
      simp only [decide_eq_true_eq] at hne
      exact (if_neg (not_or.mpr ⟨hname, hne⟩)).symm
    | some u =>
      rcases findUser_mem (m := m) hfind with ⟨hu, huname⟩
      unfold names table at hnames
      rw [List.map_map] at hnames
      apply List.map_congr_left
      intro v hv
      by_cases hvu : v = u
      · rw [hvu, modify_users_self]
        exact (if_pos (.inr huname)).symm
      · rw [modify_users_of_ne m f hvu]
        have hne : (m.users v).userName ≠ name := fun heq ↦
          hvu (List.inj_on_of_nodup_map hnames hv hu (heq.trans huname.symm))
        exact (if_neg (not_or.mpr ⟨hname, hne⟩)).symm

theorem setUserHomeDirectory_changes {env : Env} {homeDir : WString}
    (h : m.setUserHomeDirectory env name homeDir = .ok m') :
    ∃ home, home ≠ [] ∧
      Changes (fun user ↦ { user with homeDirectory := withSeparator home }) m m' := by
  unfold setUserHomeDirectory at h
  cases hhome : processHomeDirectory env homeDir with
  | error e =>
    rw [hhome] at h
    cases h
  | ok home =>
    rw [hhome] at h
    dsimp only [bind, Except.bind] at h
    split at h
    · cases h
      exact ⟨home, processHomeDirectory_ne_nil hhome, changes_modify m _ _⟩
    · cases h

theorem setUserMaxClient_changes {maxClient : Int} (h : m.setUserMaxClient name maxClient = .ok m') :
    Changes (fun user ↦ { user with maxClientNum := maxClient }) m m' := by
  unfold setUserMaxClient at h
  split at h
  · cases h
    exact changes_modify m _ _
  · cases h

theorem Changes.fresh (h : Changes f m m') (hm : Fresh m) : Fresh m' := by
  unfold Fresh
  rw [h.ftpUserList, h.nextUser]
  exact hm

end Specs

end UserManager

open UserManager

/-- What the operations keep between them. -/
structure TableKept (σ : FtpServer) : Prop where
  nonempty : [] ∉ σ.userManager.names
  distinct : σ.userManager.names.Nodup
  ftp : "ftp".toList ∉ σ.userManager.names
  anonymous : "anonymous".toList ∈ σ.userManager.names ↔ σ.isAllowAnonymous = true
  homes : ∀ user ∈ σ.userManager.table, EndsInSeparator user.homeDirectory

namespace FtpServer

/-- A call of `ftp_server`, with what it returns. -/
def call (env : Env) (σ : FtpServer) (op : AdminOp) : Bool × FtpServer :=
  match σ.administer env op with
  | .ok τ => (true, τ)
  | .error _ => (false, σ)

section Kept

variable {σ τ : FtpServer} {env : Env} {m' : UserManager} {name : WString}
  {f : UserNode → UserNode}

theorem kept_changes (hσ : TableKept σ) (h : Changes f σ.userManager m')
    (hname : ∀ user, (f user).userName = user.userName)
    (hhome : ∀ user, (f user).homeDirectory = user.homeDirectory ∨
      EndsInSeparator (f user).homeDirectory) :
    TableKept { σ with userManager := m' } := by
  have hnames := changes_names h hname
  constructor
  · exact hnames ▸ hσ.nonempty
  · exact hnames ▸ hσ.distinct
  · exact hnames ▸ hσ.ftp
  · exact hnames ▸ hσ.anonymous
  · intro user' huser'
    rcases changes_mem h huser' with ⟨user, huser, rfl | rfl⟩
    · exact hσ.homes _ huser
    · rcases hhome user with heq | hends
      · rw [heq]
        exact hσ.homes _ huser
      · exact hends

theorem names_adds (h : Adds name σ.userManager m') : m'.names = σ.userManager.names ++ [name] := by
  rcases h.table with ⟨user, htable, hname, -⟩
  unfold names
  rw [htable, List.map_append, List.map_singleton, hname]

-- the new name is none of those that are there, and is allowed
theorem kept_adds {allow : Bool} (hσ : TableKept σ) (h : Adds name σ.userManager m')
    (hftp : name ≠ "ftp".toList)
    (hallow : ("anonymous".toList ∈ σ.userManager.names ∨ name = "anonymous".toList) ↔
      allow = true) :
    TableKept { σ with userManager := m', isAllowAnonymous := allow } := by
  have hnames := names_adds h
  constructor
  · show [] ∉ m'.names
    rw [hnames, List.mem_append, List.mem_singleton, not_or]
    exact ⟨hσ.nonempty, fun heq ↦ h.nonempty heq.symm⟩
  · show m'.names.Nodup
    rw [hnames, List.nodup_append]
    refine ⟨hσ.distinct, List.nodup_singleton _, ?_⟩
    intro a ha b hb
    rw [List.mem_singleton.mp hb]
    rintro rfl
    exact h.notIn ha
  · show _ ∉ m'.names
    rw [hnames, List.mem_append, List.mem_singleton, not_or]
    exact ⟨hσ.ftp, fun heq ↦ hftp heq.symm⟩
  · show _ ∈ m'.names ↔ _
    rw [hnames, List.mem_append, List.mem_singleton, eq_comm (b := name)]
    exact hallow
  · intro user huser
    rcases h.table with ⟨new, htable, -, hends⟩
    have huser : user ∈ m'.table := huser
    rw [htable] at huser
    rcases List.mem_append.mp huser with huser | huser
    · exact hσ.homes user huser
    · rw [List.mem_singleton.mp huser]
      exact hends

theorem kept_deletes (hσ : TableKept σ) (h : Deletes "anonymous".toList σ.userManager m') :
    TableKept { σ with userManager := m', isAllowAnonymous := false } := by
  have hnames : m'.names.Sublist σ.userManager.names := h.table.map _
  constructor
  · exact fun hin ↦ hσ.nonempty (hnames.subset hin)
  · exact hσ.distinct.sublist hnames
  · exact fun hin ↦ hσ.ftp (hnames.subset hin)
  · exact iff_of_false h.notIn (by simp)
  · exact fun user huser ↦ hσ.homes user (h.table.subset huser)

theorem allowAnonymous_kept {doAllow : Bool} {homeDir : WString} {priv : UInt8}
    (hfresh : Fresh σ.userManager) (hσ : TableKept σ)
    (h : σ.allowAnonymous env doAllow homeDir priv = .ok τ) :
    Fresh τ.userManager ∧ TableKept τ := by
  unfold allowAnonymous at h
  split at h
  · split at h
    · rename_i hallow
      cases hadd : σ.userManager.addUser env "anonymous".toList [] homeDir priv with
      | error e =>
        rw [hadd] at h
        cases h
      | ok m' =>
        rw [hadd] at h
        cases h
        have hadds := addUser_adds hfresh hadd
        exact ⟨hadds.fresh, kept_adds hσ hadds (by decide) (iff_of_true (.inr rfl) rfl)⟩
    · cases h
      exact ⟨hfresh, hσ⟩
  · split at h
    · cases hdelete : σ.userManager.deleteUser "anonymous".toList with
      | ok m' =>
        rw [hdelete] at h
        cases h
        have hdeletes := deleteUser_deletes hfresh hσ.distinct hdelete
        exact ⟨hdeletes.fresh, kept_deletes hσ hdeletes⟩
      | error e =>
        -- the user is there, so it is found
        rename_i hallow
        have hin := hσ.anonymous.mpr hallow
        unfold UserManager.deleteUser at hdelete
        split at hdelete
        · cases hdelete
        · rename_i hfind
          exact absurd hin (findUser_eq_none_iff.mp hfind)
    · cases h
      exact ⟨hfresh, hσ⟩

theorem administer_kept {op : AdminOp} (hfresh : Fresh σ.userManager) (hσ : TableKept σ)
    (h : σ.administer env op = .ok τ) : Fresh τ.userManager ∧ TableKept τ := by
  cases op with
  | addUser name password homeDir priv =>
    rw [administer, FtpServer.addUser] at h
    split at h
    · cases h
    · rename_i hreserved
      rw [not_or] at hreserved
      rcases eq_ok_of_map h with ⟨m', hadd, rfl⟩
      have hadds := addUser_adds hfresh hadd
      refine ⟨hadds.fresh, kept_adds hσ hadds hreserved.2 ?_⟩
      rw [or_iff_left hreserved.1]
      exact hσ.anonymous
  | allowAnonymous doAllow homeDir priv => exact allowAnonymous_kept hfresh hσ h
  | setUserPassword name password =>
    rcases eq_ok_of_map h with ⟨m', hset, rfl⟩
    have hchanges := changes_modifyNamed hσ.distinct hset
    exact ⟨hchanges.fresh hfresh, kept_changes hσ hchanges (fun _ ↦ rfl) (fun _ ↦ .inl rfl)⟩
  | setUserPrivilege name priv =>
    rcases eq_ok_of_map h with ⟨m', hset, rfl⟩
    have hchanges := changes_modifyNamed hσ.distinct hset
    exact ⟨hchanges.fresh hfresh, kept_changes hσ hchanges (fun _ ↦ rfl) (fun _ ↦ .inl rfl)⟩
  | setUserHomeDirectory name homeDir =>
    rcases eq_ok_of_map h with ⟨m', hset, rfl⟩
    rcases setUserHomeDirectory_changes hset with ⟨home, hhome, hchanges⟩
    exact ⟨hchanges.fresh hfresh,
      kept_changes hσ hchanges (fun _ ↦ rfl) (fun _ ↦ .inr (withSeparator_ends hhome))⟩
  | setUserMaxClient name maxClient =>
    rcases eq_ok_of_map h with ⟨m', hset, rfl⟩
    have hchanges := setUserMaxClient_changes hset
    exact ⟨hchanges.fresh hfresh, kept_changes hσ hchanges (fun _ ↦ rfl) (fun _ ↦ .inl rfl)⟩
  | setIsEnable user enable =>
    cases h
    have hchanges := changes_modify σ.userManager user fun node ↦ { node with isEnable := enable }
    exact ⟨hchanges.fresh hfresh, kept_changes hσ hchanges (fun _ ↦ rfl) (fun _ ↦ .inl rfl)⟩

end Kept

end FtpServer

namespace Sample

/-- A server with no user yet. -/
def unmanned : FtpServer :=
  { server with userManager := { server.userManager with ftpUserList := [] }
                isAllowAnonymous := false }

end Sample

end YFtp
