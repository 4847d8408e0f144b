import YFtp.InitFtpServer

/-!
# Initialisation, again

What is left of earlier configurations after `init_ftp_server` has been called with a new one: the
accounts that can log in and the port, against those of a server that is started fresh.
-/

namespace YFtp

open UserManager

/-! ## Who can log in -/

/-- An account as a client sees it.  The anonymous one takes every password. -/
structure Account where
  name : WString
  password : Option WString
  homeDirectory : WString
  userPrivilege : UInt8
  deriving DecidableEq, Repr

/-- The account that a user of the table is, unless nobody can log in as this user: PASS compares no
password while anonymous logins are allowed, and otherwise takes no empty one. -/
def UserNode.accountIf (allow : Bool) (user : UserNode) : Option Account :=
  if allow = true ∧ user.userName = "anonymous".toList then
    some ⟨user.userName, none, user.homeDirectory, user.userPrivilege⟩
  else if user.isEnable = true ∧ user.userPassword ≠ [] then
    some ⟨user.userName, some user.userPassword, user.homeDirectory, user.userPrivilege⟩
  else none

/-- The accounts that can log in. -/
def FtpServer.accounts (σ : FtpServer) : List Account :=
  σ.userManager.table.filterMap (UserNode.accountIf σ.isAllowAnonymous)

def Config.anonymousAccount (c : Config) (home : WString) : Account :=
  ⟨"anonymous".toList, none, withSeparator home, c.ucPriv⟩

def Config.namedAccount (c : Config) (home : WString) : Account :=
  ⟨c.szUsername, some c.szPassword, withSeparator home, c.ucPriv⟩

/-- The same accounts can log in, and the server listens on the same port. -/
def Native.SameService (w w' : Native) : Prop :=
  (∀ a, a ∈ w.server.accounts ↔ a ∈ w'.server.accounts) ∧ w.listener.usPort_ = w'.listener.usPort_

namespace Native

/-! ## The accounts after a call -/

def reset (w : Native) (c : Config) (user : UserNode) : UserNode :=
  w.resetPrivilege c (w.resetPassword c user)

section Accounts

variable {env : Env} {c : Config} {w : Native} {home : WString} {user : UserNode} {a : Account}

theorem reset_eq (w : Native) (c : Config) (user : UserNode) : w.reset c user =
    { user with
      userPassword := if w.ResetsPassword c user then c.szPassword else user.userPassword
      userPrivilege := if w.ResetsPrivilege c then c.ucPriv else user.userPrivilege } := by
  unfold reset resetPrivilege resetPassword
  split <;> split <;> rfl

theorem reset_userPassword : (w.reset c user).userPassword =
    if w.ResetsPassword c user then c.szPassword else user.userPassword := by
  rw [reset_eq]

theorem mem_tableAfter : user ∈ w.tableAfter c home ↔
    ∃ old, (old ∈ w.server.userManager.table ∧ c.Keeps old ∨
      w.Allows c ∧ old = c.anonymousUser home ∨ w.AddsUser c ∧ old = c.namedUser home) ∧
      w.reset c old = user := by
  unfold tableAfter
  rw [List.mem_map]
  apply exists_congr
  intro old
  apply and_congr_left
  intro _
  by_cases hallows : w.Allows c <;> by_cases hadds : w.AddsUser c <;>
    simp [hallows, hadds]

/-- What `init_ftp_server` remembers of the server is so. -/
structure Tracks (w : Native) : Prop where
  table : TableIs w.server w.gBAllowAnonymous w.server.userManager.table
  username : w.gUsername = [] ∨
    w.gUsername ≠ "anonymous".toList ∧ w.gUsername ∈ w.server.userManager.names
  enabled : ∀ user ∈ w.server.userManager.table, user.isEnable = true
  port : w.gListenPort ≠ 0 → w.listener.usPort_ = UInt16.ofInt w.gListenPort

theorem tracks_started (h : w.Started) : w.Tracks := by
  rcases h with ⟨⟨hport, -, -, hallow, hname, -⟩, husers, hisAllow, -⟩
  have htable : w.server.userManager.table = [] := by
    unfold table
    rw [husers]
    rfl
  have hnames : w.server.userManager.names = [] := by
    unfold names
    rw [htable]
    rfl
  refine ⟨⟨⟨?_, ?_, ?_, ?_, ?_⟩, ?_, rfl, ?_⟩, .inl hname, ?_, fun hne ↦ absurd hport hne⟩
  · simp [hnames]
  · simp [hnames]
  · simp [hnames]
  · simp [hnames, hisAllow]
  · simp [htable]
  · intro u hu
    rw [husers] at hu
    cases hu
  · rw [hallow, hisAllow]
  · simp [htable]

theorem tracks_initFtpServer (h : w.Tracks) (hvalid : c.Valid env) :
    (w.initFtpServer env c).2.Tracks := by
  rcases hvalid with ⟨home, hhome⟩
  rcases initFtpServer_eq h.table hhome with
    ⟨σ, l, gUsername, gPassword, gUcPriv, hinit, hname, hport, hσ⟩
  rw [hinit]
  have hmem {old : UserNode} (hold : old ∈ w.server.userManager.table ∧ c.Keeps old ∨
      w.Allows c ∧ old = c.anonymousUser home ∨ w.AddsUser c ∧ old = c.namedUser home) :
      old.userName ∈ σ.userManager.names := by
    rw [hσ.names]
    have hnew := mem_tableAfter.mpr ⟨old, hold, rfl⟩
    have hin := List.mem_map_of_mem (f := UserNode.userName) hnew
    rw [reset_eq] at hin
    exact hin
  refine ⟨⟨hσ.toTableKept, hσ.fresh, rfl, hσ.isAllowAnonymous⟩, ?_, ?_, ?_⟩
  · rcases hname with hname | hname | ⟨hadds, hname⟩
    · exact .inl hname
    · show gUsername = [] ∨ _
      rw [hname]
      rcases h.username with hempty | ⟨hne, hin⟩
      · exact .inl hempty
      · rcases List.mem_map.mp hin with ⟨old, hold, heq⟩
        have hkeeps : c.Keeps old := .inr (heq ▸ hne)
        exact .inr ⟨hne, heq ▸ hmem (.inl ⟨hold, hkeeps⟩)⟩
    · right
      show gUsername ≠ _ ∧ gUsername ∈ _
      rw [hname]
      exact ⟨fun heq ↦ hadds.2.2.1 (.inl heq), hmem (.inr (.inr ⟨hadds, rfl⟩))⟩
  · intro user huser
    have huser : user ∈ σ.userManager.table := huser
    rw [hσ.table, mem_tableAfter] at huser
    rcases huser with ⟨old, hold, rfl⟩
    rw [reset_eq]
    rcases hold with ⟨hold, -⟩ | ⟨-, rfl⟩ | ⟨-, rfl⟩
    · exact h.enabled old hold
    · rfl
    · rfl
  · intro hne
    show l.usPort_ = _
    rw [hport]
    split
    · rfl
    · rename_i hsame
      rw [not_not] at hsame
      rw [h.port (hsame ▸ hne), hsame]

theorem accountIf_anonymous (hallow : c.bDoAllow = true) :
    (w.reset c (c.anonymousUser home)).accountIf c.bDoAllow = some (c.anonymousAccount home) := by
  rw [reset_eq]
  unfold UserNode.accountIf
  rw [if_pos ⟨hallow, rfl⟩]
  show some (Account.mk _ none _ (if w.ResetsPrivilege c then c.ucPriv else c.ucPriv)) = _
  rw [ite_self]
  rfl

theorem accountIf_named (hadds : w.AddsUser c) :
    (w.reset c (c.namedUser home)).accountIf c.bDoAllow = some a ↔
      c.szPassword ≠ [] ∧ a = c.namedAccount home := by
  have hreset : w.reset c (c.namedUser home) = c.namedUser home := by
    rw [reset_eq]
    show UserNode.mk _ (if _ then c.szPassword else c.szPassword) _ _
      (if _ then c.ucPriv else c.ucPriv) _ _ _ = _
    rw [ite_self, ite_self]
    rfl
  have hne : ¬ (c.bDoAllow = true ∧ (c.namedUser home).userName = "anonymous".toList) :=
    fun h ↦ hadds.2.2.1 (.inl h.2)
  rw [hreset]
  unfold UserNode.accountIf
  rw [if_neg hne]
  by_cases hpassword : c.szPassword ≠ []
  · have hlogin : (c.namedUser home).isEnable = true ∧ (c.namedUser home).userPassword ≠ [] :=
      ⟨rfl, hpassword⟩
    rw [if_pos hlogin, Option.some_inj, eq_comm]
    exact (and_iff_right hpassword).symm
  · have hlogin : ¬ ((c.namedUser home).isEnable = true ∧ (c.namedUser home).userPassword ≠ []) :=
      fun h ↦ hpassword h.2
    rw [if_neg hlogin]
    exact iff_of_false (fun h ↦ by cases h) (fun h ↦ hpassword h.1)

theorem mem_accounts_init (h : w.Tracks)
    (hhome : processHomeDirectory env c.szStartPath = .ok home) :
    a ∈ (w.initFtpServer env c).2.server.accounts ↔
      (∃ old ∈ w.server.userManager.table, c.Keeps old ∧
        (w.reset c old).accountIf c.bDoAllow = some a) ∨
      w.Allows c ∧ a = c.anonymousAccount home ∨
      w.AddsUser c ∧ c.szPassword ≠ [] ∧ a = c.namedAccount home := by
  rcases initFtpServer_eq h.table hhome with ⟨σ, l, gUsername, gPassword, gUcPriv, hinit, -, -, hσ⟩
  rw [hinit]
  show a ∈ σ.accounts ↔ _
  unfold FtpServer.accounts
  rw [List.mem_filterMap, hσ.table, hσ.isAllowAnonymous]
  constructor
  · rintro ⟨user, huser, haccount⟩
    rcases mem_tableAfter.mp huser with ⟨old, ⟨hold, hkeeps⟩ | ⟨hallows, rfl⟩ | ⟨hadds, rfl⟩, rfl⟩
    · exact .inl ⟨old, hold, hkeeps, haccount⟩
    · rw [accountIf_anonymous hallows.2, Option.some_inj] at haccount
      exact .inr (.inl ⟨hallows, haccount.symm⟩)
    · exact .inr (.inr ⟨hadds, (accountIf_named hadds).mp haccount⟩)
  · rintro (⟨old, hold, hkeeps, haccount⟩ | ⟨hallows, rfl⟩ | ⟨hadds, hnamed⟩)
    · exact ⟨_, mem_tableAfter.mpr ⟨old, .inl ⟨hold, hkeeps⟩, rfl⟩, haccount⟩
    · exact ⟨_, mem_tableAfter.mpr ⟨_, .inr (.inl ⟨hallows, rfl⟩), rfl⟩,
        accountIf_anonymous hallows.2⟩
    · exact ⟨_, mem_tableAfter.mpr ⟨_, .inr (.inr ⟨hadds, rfl⟩), rfl⟩,
        (accountIf_named hadds).mpr hnamed⟩

/-- What a call alone produces on a freshly started server. -/
theorem mem_accounts_started (h : w.Started)
    (hhome : processHomeDirectory env c.szStartPath = .ok home) :
    a ∈ (w.initFtpServer env c).2.server.accounts ↔
      c.bDoAllow = true ∧ a = c.anonymousAccount home ∨
      (c.szUsername ≠ [] ∧ ¬ IsReserved c.szUsername) ∧ c.szPassword ≠ [] ∧
        a = c.namedAccount home := by
  have htracks := tracks_started h
  rcases h with ⟨⟨-, -, -, hallow, hname, -⟩, husers, -, -⟩
  have htable : w.server.userManager.table = [] := by
    unfold table
    rw [husers]
    rfl
  have hallows : w.Allows c ↔ c.bDoAllow = true := and_iff_right hallow
  have hadds : w.AddsUser c ↔ c.szUsername ≠ [] ∧ ¬ IsReserved c.szUsername := by
    unfold AddsUser names
    rw [hname, htable]
    constructor
    · exact fun h ↦ ⟨h.2.1, h.2.2.1⟩
    · exact fun h ↦ ⟨h.1.symm, h.1, h.2, List.not_mem_nil⟩
  rw [mem_accounts_init htracks hhome, hallows, hadds, htable]
  apply or_iff_right
  rintro ⟨old, hold, -⟩
  cases hold

theorem accountIf_kept_anonymous (hkeeps : c.Keeps user)
    (hname : user.userName = "anonymous".toList) :
    c.bDoAllow = true ∧ (w.reset c user).accountIf c.bDoAllow = some ⟨"anonymous".toList, none,
      user.homeDirectory, if w.ResetsPrivilege c then c.ucPriv else user.userPrivilege⟩ := by
  have hallow := hkeeps.resolve_right (not_not.mpr hname)
  refine ⟨hallow, ?_⟩
  rw [reset_eq]
  unfold UserNode.accountIf
  rw [if_pos ⟨hallow, hname⟩, ← hname]

theorem accountIf_kept_named (hname : user.userName ≠ "anonymous".toList)
    (henabled : user.isEnable = true) :
    (w.reset c user).accountIf c.bDoAllow = some a ↔ (w.reset c user).userPassword ≠ [] ∧
      a = ⟨user.userName, some (w.reset c user).userPassword, user.homeDirectory,
        if w.ResetsPrivilege c then c.ucPriv else user.userPrivilege⟩ := by
  rw [reset_userPassword, reset_eq]
  unfold UserNode.accountIf
  rw [if_neg (fun h ↦ hname h.2)]
  generalize (if w.ResetsPassword c user then c.szPassword else user.userPassword) = password
  by_cases hempty : password = []
  · rw [if_neg (fun h ↦ h.2 hempty)]
    exact iff_of_false (fun h ↦ by cases h) (fun h ↦ h.1 hempty)
  · rw [if_pos ⟨henabled, hempty⟩, Option.some_inj, eq_comm]
    exact (and_iff_right hempty).symm

end Accounts

/-! ## When a call reconciles the server -/

/-- The user can log in after the call, or is the one that the call is to set up. -/
def Concerns (w : Native) (c : Config) (user : UserNode) : Prop :=
  user.userName = "anonymous".toList ∨
    (user.userName = c.szUsername ∨ w.ResetsPassword c user) ∧ c.szPassword ≠ [] ∨
    ¬ w.ResetsPassword c user ∧ user.userPassword ≠ []

/-- The user has the name that the call gives, and what else the call gives unless the branch that
resets it is taken.  None resets the directory. -/
def Fits (w : Native) (c : Config) (home : WString) (user : UserNode) : Prop :=
  user.homeDirectory = withSeparator home ∧
    (w.ResetsPrivilege c ∨ user.userPrivilege = c.ucPriv) ∧
    (user.userName = "anonymous".toList ∨
      user.userName = c.szUsername ∧ (w.ResetsPassword c user ∨ user.userPassword = c.szPassword))

/-- Whoever is left from an earlier configuration fits the new one, and port 0 is only asked for
where no other port was. -/
def Reconciles (w : Native) (c : Config) (home : WString) : Prop :=
  (∀ user ∈ w.server.userManager.table, c.Keeps user → w.Concerns c user → w.Fits c home user) ∧
    (c.port ≠ 0 ∨ w.gListenPort = 0 ∧ w.listener.usPort_ = 21)

instance (w : Native) (c : Config) : DecidablePred (w.Concerns c) :=
  fun _ ↦ inferInstanceAs (Decidable (_ ∨ _))

instance (w : Native) (c : Config) (home : WString) : DecidablePred (w.Fits c home) :=
  fun _ ↦ inferInstanceAs (Decidable (_ ∧ _))

instance (w : Native) (c : Config) (home : WString) : Decidable (w.Reconciles c home) :=
  inferInstanceAs (Decidable (_ ∧ _))

section Reconciles

variable {env : Env} {c : Config} {w w₀ : Native} {home : WString} {user : UserNode} {a : Account}

theorem fits_iff_anonymous (hkeeps : c.Keeps user) (hname : user.userName = "anonymous".toList) :
    w.Fits c home user ↔
      (w.reset c user).accountIf c.bDoAllow = some (c.anonymousAccount home) := by
  rw [(accountIf_kept_anonymous (w := w) hkeeps hname).2, Option.some_inj]
  unfold Fits Config.anonymousAccount
  rw [Account.mk.injEq]
  by_cases hprivilege : w.ResetsPrivilege c
  · simp only [hprivilege, hname, if_true, true_or, and_true, true_and]
  · simp only [hprivilege, hname, if_false, true_or, false_or, and_true, true_and]

theorem fits_iff_named (hname : user.userName ≠ "anonymous".toList)
    (henabled : user.isEnable = true)
    (hpassword : (w.reset c user).userPassword ≠ []) :
    w.Fits c home user ↔ (w.reset c user).accountIf c.bDoAllow = some (c.namedAccount home) := by
  rw [accountIf_kept_named hname henabled, and_iff_right hpassword, reset_userPassword]
  unfold Fits Config.namedAccount
  rw [Account.mk.injEq, Option.some_inj, or_iff_right hname]
  constructor
  · rintro ⟨hhome, hprivilege, huser, hset⟩
    refine ⟨huser.symm, ?_, hhome.symm, ?_⟩
    · split
      · rfl
      · rename_i hreset
        exact (hset.resolve_left hreset).symm
    · split
      · rfl
      · rename_i hreset
        exact (hprivilege.resolve_left hreset).symm
  · rintro ⟨huser, hset, hhome, hprivilege⟩
    refine ⟨hhome.symm, ?_, huser.symm, ?_⟩
    · by_cases hreset : w.ResetsPrivilege c
      · exact .inl hreset
      · rw [if_neg hreset] at hprivilege
        exact .inr hprivilege.symm
    · by_cases hreset : w.ResetsPassword c user
      · exact .inl hreset
      · rw [if_neg hreset] at hset
        exact .inr hset.symm

/-- Besides the anonymous user, a call concerns whoever has a password after it, and the user that it
names if it gives a password. -/
theorem concerns_iff (hname : user.userName ≠ "anonymous".toList) : w.Concerns c user ↔
    (w.reset c user).userPassword ≠ [] ∨ user.userName = c.szUsername ∧ c.szPassword ≠ [] := by
  unfold Concerns
  rw [or_iff_right hname, reset_userPassword]
  by_cases hreset : w.ResetsPassword c user
  · rw [if_pos hreset]
    tauto
  · rw [if_neg hreset]
    tauto

theorem Fits.userPassword (h : w.Fits c home user) (hname : user.userName ≠ "anonymous".toList) :
    (w.reset c user).userPassword = c.szPassword := by
  rw [reset_userPassword]
  split
  · rfl
  · rename_i hreset
    exact (h.2.2.resolve_left hname).2.resolve_left hreset

-- only the anonymous account takes every password
theorem password_ne {name name' password dir dir' : WString} {priv priv' : UInt8} :
    Account.mk name none dir priv ≠ ⟨name', some password, dir', priv'⟩ :=
  fun heq ↦ nomatch congrArg Account.password heq

/-- A user of the table who is not the anonymous one has a name that `add_user` takes. -/
theorem Tracks.valid_name (h : w.Tracks) (huser : user ∈ w.server.userManager.table)
    (hname : user.userName ≠ "anonymous".toList) :
    user.userName ≠ [] ∧ ¬ IsReserved user.userName := by
  have hin : user.userName ∈ w.server.userManager.names := List.mem_map_of_mem huser
  refine ⟨fun heq ↦ h.table.nonempty (heq ▸ hin), ?_⟩
  rintro (heq | heq)
  · exact hname heq
  · exact h.table.ftp (heq ▸ hin)

theorem Tracks.user_unique (h : w.Tracks) {user' : UserNode}
    (huser : user ∈ w.server.userManager.table) (huser' : user' ∈ w.server.userManager.table)
    (hname : user'.userName = user.userName) : user' = user :=
  List.inj_on_of_nodup_map h.table.distinct huser' huser hname

/-- The user that a call names is added unless the table holds that name already. -/
theorem Tracks.mem_names (h : w.Tracks) (hvalid : c.szUsername ≠ [] ∧ ¬ IsReserved c.szUsername)
    (hadds : ¬ w.AddsUser c) : c.szUsername ∈ w.server.userManager.names := by
  by_contra hnotIn
  by_cases hsame : w.gUsername = c.szUsername
  · rcases h.username with hempty | ⟨-, hin⟩
    · exact hvalid.1 (hsame ▸ hempty)
    · exact hnotIn (hsame ▸ hin)
  · exact hadds ⟨hsame, hvalid.1, hvalid.2, hnotIn⟩

/-- The accounts are those that the call alone would have produced. -/
def SameAccounts (w w₀ : Native) (env : Env) (c : Config) : Prop :=
  ∀ a, a ∈ (w.initFtpServer env c).2.server.accounts ↔
    a ∈ (w₀.initFtpServer env c).2.server.accounts

theorem fits_of_sameAccounts (h : w.Tracks) (h₀ : w₀.Started)
    (hhome : processHomeDirectory env c.szStartPath = .ok home)
    (hsame : w.SameAccounts w₀ env c) (huser : user ∈ w.server.userManager.table)
    (hkeeps : c.Keeps user) (hconcerns : w.Concerns c user) : w.Fits c home user := by
  unfold SameAccounts at hsame
  simp only [mem_accounts_init h hhome, mem_accounts_started h₀ hhome] at hsame
  by_cases hname : user.userName = "anonymous".toList
  · rcases accountIf_kept_anonymous (w := w) hkeeps hname with ⟨hallow, haccount⟩
    rw [fits_iff_anonymous hkeeps hname, haccount]
    rcases (hsame _).mp (.inl ⟨user, huser, hkeeps, haccount⟩) with ⟨-, heq⟩ | ⟨-, -, heq⟩
    · rw [heq]
    · exact absurd heq password_ne
  · have henabled := h.enabled user huser
    by_cases hpassword : (w.reset c user).userPassword ≠ []
    · have haccount := (accountIf_kept_named (w := w) (c := c) hname henabled).mpr ⟨hpassword, rfl⟩
      rw [fits_iff_named hname henabled hpassword, haccount]
      rcases (hsame _).mp (.inl ⟨user, huser, hkeeps, haccount⟩) with ⟨-, heq⟩ | ⟨-, -, heq⟩
      · exact absurd heq.symm password_ne
      · rw [heq]
    · -- the user is the one to be set up, but cannot log in
      have hnamed := ((concerns_iff hname).mp hconcerns).resolve_left hpassword
      have hvalid := h.valid_name huser hname
      rw [hnamed.1] at hvalid
      rcases (hsame _).mpr (.inr ⟨hvalid, hnamed.2, rfl⟩) with
        ⟨user', huser', hkeeps', haccount⟩ | ⟨-, heq⟩ | ⟨hadds, -⟩
      · exfalso
        by_cases hname' : user'.userName = "anonymous".toList
        · rw [(accountIf_kept_anonymous hkeeps' hname').2, Option.some_inj] at haccount
          exact password_ne haccount
        · have hkept := (accountIf_kept_named hname' (h.enabled user' huser')).mp haccount
          have hsameName : user'.userName = user.userName :=
            (congrArg Account.name hkept.2).symm.trans hnamed.1.symm
          rw [h.user_unique huser huser' hsameName] at hkept
          exact hpassword hkept.1
      · exact absurd heq.symm password_ne
      · exact absurd (hnamed.1 ▸ List.mem_map_of_mem huser) hadds.2.2.2

theorem sameAccounts_of_fits (h : w.Tracks) (h₀ : w₀.Started)
    (hhome : processHomeDirectory env c.szStartPath = .ok home)
    (hfits : ∀ user ∈ w.server.userManager.table, c.Keeps user → w.Concerns c user →
      w.Fits c home user) : w.SameAccounts w₀ env c := by
  intro a
  rw [mem_accounts_init h hhome, mem_accounts_started h₀ hhome]
  constructor
  · rintro (⟨user, huser, hkeeps, haccount⟩ | ⟨hallows, heq⟩ | ⟨hadds, hnamed⟩)
    · by_cases hname : user.userName = "anonymous".toList
      · have hfit := hfits user huser hkeeps (.inl hname)
        rw [fits_iff_anonymous hkeeps hname, haccount, Option.some_inj] at hfit
        exact .inl ⟨(accountIf_kept_anonymous (w := w) hkeeps hname).1, hfit⟩
      · have henabled := h.enabled user huser
        have hpassword := ((accountIf_kept_named hname henabled).mp haccount).1
        have hfit := hfits user huser hkeeps ((concerns_iff hname).mpr (.inl hpassword))
        have hvalid := h.valid_name huser hname
        rw [(hfit.2.2.resolve_left hname).1] at hvalid
        have hgiven := hpassword
        rw [hfit.userPassword hname] at hgiven
        rw [fits_iff_named hname henabled hpassword, haccount, Option.some_inj] at hfit
        exact .inr ⟨hvalid, hgiven, hfit⟩
    · exact .inl ⟨hallows.2, heq⟩
    · exact .inr ⟨⟨hadds.2.1, hadds.2.2.1⟩, hnamed⟩
  · rintro (⟨hallow, rfl⟩ | ⟨hvalid, hpassword, rfl⟩)
    · by_cases hbefore : w.gBAllowAnonymous = false
      · exact .inr (.inl ⟨⟨hbefore, hallow⟩, rfl⟩)
      · -- the anonymous user stays
        have hin : "anonymous".toList ∈ w.server.userManager.names := by
          rw [h.table.anonymous, h.table.isAllowAnonymous]
          exact Bool.eq_true_of_not_eq_false hbefore
        rcases List.mem_map.mp hin with ⟨user, huser, hname⟩
        have hkeeps : c.Keeps user := .inl hallow
        have hfit := hfits user huser hkeeps (.inl hname)
        exact .inl ⟨user, huser, hkeeps, (fits_iff_anonymous hkeeps hname).mp hfit⟩
    · by_cases hadds : w.AddsUser c
      · exact .inr (.inr ⟨hadds, hpassword, rfl⟩)
      · -- the user stands in the table already
        rcases List.mem_map.mp (h.mem_names hvalid hadds) with ⟨user, huser, hname⟩
        have hne : user.userName ≠ "anonymous".toList :=
          fun heq ↦ hvalid.2 (.inl (hname ▸ heq))
        have hfit := hfits user huser (.inr hne)
          ((concerns_iff hne).mpr (.inr ⟨hname, hpassword⟩))
        have hafter : (w.reset c user).userPassword ≠ [] := by
          rw [hfit.userPassword hne]
          exact hpassword
        exact .inl ⟨user, huser, .inr hne,
          (fits_iff_named hne (h.enabled user huser) hafter).mp hfit⟩

theorem samePort_iff (h : w.Tracks) (h₀ : w₀.Started)
    (hhome : processHomeDirectory env c.szStartPath = .ok home) :
    (w.initFtpServer env c).2.listener.usPort_ = (w₀.initFtpServer env c).2.listener.usPort_ ↔
      c.port ≠ 0 ∨ w.gListenPort = 0 ∧ w.listener.usPort_ = 21 := by
  rcases initFtpServer_eq h.table hhome with ⟨_, l, _, _, _, hinit, -, hl, -⟩
  rcases initFtpServer_eq (tracks_started h₀).table hhome with ⟨_, l₀, _, _, _, hinit₀, -, hl₀, -⟩
  rw [hinit, hinit₀]
  show l.usPort_ = l₀.usPort_ ↔ _
  rw [hl, hl₀, h₀.globals.1, h₀.listener]
  by_cases hport : c.port = 0
  · rw [hport, if_neg (not_not.mpr rfl)]
    by_cases hlisten : w.gListenPort = 0
    · simp [hlisten]
    · simp [hlisten]
      decide
  · rw [if_pos (Ne.symm hport)]
    apply iff_of_true _ (.inl hport)
    split
    · rfl
    · rename_i hsame
      rw [not_not] at hsame
      rw [h.port (hsame ▸ hport), hsame]

end Reconciles

/-- After any calls of `init_ftp_server`, the next one returns `true`, and it leaves the accounts and
the port that it alone would have produced exactly if it reconciles the server. -/
theorem initFtpServer_settles_iff {w₀ w : Native} {trace : List (Native × Config × Env)}
    (hstart : w₀.Started) (run : Theory.Run Inits w₀ trace w)
    (hvalid : ∀ p ∈ trace, p.2.1.Valid p.2.2) {env : Env} {c : Config} {home : WString}
    (hhome : processHomeDirectory env c.szStartPath = .ok home) :
    (w.initFtpServer env c).1 = true ∧
      ((w.initFtpServer env c).2.SameService (w₀.initFtpServer env c).2 ↔
        w.Reconciles c home) := by
  have htracks : w.Tracks := by
    apply run.invariant_of_steps (C := fun _ l ↦ l.1.Valid l.2) (tracks_started hstart) _ hvalid
    rintro w l _ h hl rfl
    exact tracks_initFtpServer h hl
  rcases initFtpServer_eq htracks.table hhome with ⟨_, _, _, _, _, hinit, -⟩
  refine ⟨by rw [hinit], ?_⟩
  apply and_congr _ (samePort_iff htracks hstart hhome)
  constructor
  · intro hsame user huser hkeeps hconcerns
    exact fits_of_sameAccounts htracks hstart hhome hsame huser hkeeps hconcerns
  · exact sameAccounts_of_fits htracks hstart hhome

end Native

namespace Sample

/-- The wrapper before its first call. -/
def native : Native := { server := unmanned, listener := {} }

/-- Set up for one user, and for anonymous logins on the same directory. -/
def bobsConfig : Config := ⟨true, "bob".toList, "pw".toList, "/srv/bob".toList, 1, 2121⟩

/-- The same user with another password and another privilege. -/
def changedConfig : Config := { bobsConfig with szPassword := "new".toList, ucPriv := 3 }

/-- Another user instead, and nobody anonymous. -/
def alicesConfig : Config := ⟨false, "alice".toList, "pw".toList, "/srv/alice".toList, 1, 2121⟩

/-- The wrapper after its first call. -/
def configured : Native := (native.initFtpServer env bobsConfig).2

end Sample

theorem initFtpServer_settles_iff_password :
    (Sample.configured.initFtpServer Sample.env Sample.changedConfig).2.SameService
      (Sample.native.initFtpServer Sample.env Sample.changedConfig).2 := by
  have hinits : Native.Inits Sample.native (Sample.bobsConfig, Sample.env) Sample.configured := rfl
  have hstart : Sample.native.Started := ⟨⟨rfl, rfl, rfl, rfl, rfl, rfl⟩, rfl, rfl, rfl⟩
  have hvalid : ∀ p ∈ [(Sample.native, Sample.bobsConfig, Sample.env)], p.2.1.Valid p.2.2 := by
    intro p hp
    rw [List.mem_singleton.mp hp]
    exact ⟨"/srv/bob".toList, rfl⟩
  have hhome : processHomeDirectory Sample.env Sample.changedConfig.szStartPath =
      .ok "/srv/bob".toList := rfl
  have hsettles := Native.initFtpServer_settles_iff hstart (.snoc .refl hinits) hvalid hhome
  exact hsettles.2.mpr (by decide +kernel)

/-- The first user can still log in after the second configuration. -/
theorem initFtpServer_keeps_user :
    ¬ (Sample.configured.initFtpServer Sample.env Sample.alicesConfig).2.SameService
      (Sample.native.initFtpServer Sample.env Sample.alicesConfig).2 := by
  rintro ⟨haccounts, -⟩
  have hbob := (haccounts ⟨"bob".toList, some "pw".toList, "/srv/bob/".toList, 1⟩).mp
    (by decide +kernel)
  revert hbob
  decide +kernel

end YFtp
