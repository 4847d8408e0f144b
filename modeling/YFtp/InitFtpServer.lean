import YFtp.Listening
import YFtp.UserTable

/-!
# Initialisation

`ftpserve_native.cpp`: `init_ftp_server` compares its arguments with what it remembers of earlier
calls and changes the server branch by branch.
-/

namespace YFtp

open UserManager

/-- The arguments of `init_ftp_server`. -/
structure Config where
  bDoAllow : Bool
  szUsername : WString
  szPassword : WString
  szStartPath : WString
  ucPriv : UInt8
  port : Int
  deriving DecidableEq, Repr

/-- The globals of `ftpserve_native.cpp`, and the two parts of `ftp_server`. -/
structure Native where
  gListenPort : Int := 0
  gStartDir : WString := []
  gUcPriv : UInt8 := 0
  gBAllowAnonymous : Bool := false
  gUsername : WString := []
  gPassword : WString := []
  server : FtpServer
  listener : Listener

/-- `ftp_server::delete_user`, whose body is commented out. -/
def FtpServer.deleteUser (σ : FtpServer) (_name : WString) : Bool × FtpServer := (false, σ)

namespace Native

variable (env : Env) (c : Config) (w : Native)

def initAnonymous : Bool × Native :=
  if w.gBAllowAnonymous ≠ c.bDoAllow then
    let (bret, σ) := w.server.call env (.allowAnonymous c.bDoAllow c.szStartPath c.ucPriv)
    let w := { w with server := σ }
    (bret, if bret then { w with gBAllowAnonymous := c.bDoAllow, gUcPriv := c.ucPriv } else w)
  else (true, w)

def initPort : Native :=
  if w.gListenPort ≠ c.port then
    -- the `int` becomes an `unsigned short`
    { w with
      listener := w.listener.setListeningPort (UInt16.ofInt c.port), gListenPort := c.port }
  else w

def initUser : Native :=
  if w.gUsername ≠ c.szUsername then
    let w :=
      if w.gUsername ≠ [] then
        { w with server := (w.server.deleteUser w.gUsername).2, gUsername := [] }
      else w
    if c.szUsername ≠ [] then
      let (added, σ) := w.server.call env
        (.addUser c.szUsername c.szPassword c.szStartPath c.ucPriv)
      let w := { w with server := σ }
      if added then
        { w with gUsername := c.szUsername, gPassword := c.szPassword, gUcPriv := c.ucPriv }
      else w
    else w
  else if w.gPassword ≠ c.szPassword then
    let (set, σ) := w.server.call env (.setUserPassword c.szUsername c.szPassword)
    let w := { w with server := σ }
    if set then { w with gPassword := c.szPassword } else w
  else w

def initStartDir : Native :=
  if w.gStartDir ≠ c.szStartPath then
    let (set, σ) := w.server.call env (.setUserHomeDirectory [] c.szStartPath)
    let w := { w with server := σ }
    if set then { w with gStartDir := c.szStartPath } else w
  else w

def initPriv : Native :=
  if w.gUcPriv ≠ c.ucPriv then
    let (set, σ) := w.server.call env (.setUserPrivilege [] c.ucPriv)
    let w := { w with server := σ }
    if set then { w with gUcPriv := c.ucPriv } else w
  else w

/-- `init_ftp_server` -/
def initFtpServer : Bool × Native :=
  let (bret, w) := w.initAnonymous env c
  (bret, (((w.initPort c).initUser env c).initStartDir env c).initPriv env c)

end Native

/-- One call of `init_ftp_server`, with any answers of the file system. -/
def Native.Inits (w : Native) (l : Config × Env) (w' : Native) : Prop :=
  w' = (w.initFtpServer l.2 l.1).2

/-- The directory that is named is there. -/
def Config.Valid (c : Config) (env : Env) : Prop :=
  ∃ home, processHomeDirectory env c.szStartPath = .ok home

/-- A freshly started server. -/
structure Native.Started (w : Native) : Prop where
  globals : w.gListenPort = 0 ∧ w.gStartDir = [] ∧ w.gUcPriv = 0 ∧ w.gBAllowAnonymous = false ∧
    w.gUsername = [] ∧ w.gPassword = []
  users : w.server.userManager.ftpUserList = []
  isAllowAnonymous : w.server.isAllowAnonymous = false
  listener : w.listener = {}

/-! ## The table after each call -/

/-- The names that `add_user` turns down. -/
def IsReserved (name : WString) : Prop := name = "anonymous".toList ∨ name = "ftp".toList

instance (name : WString) : Decidable (IsReserved name) := inferInstanceAs (Decidable (_ ∨ _))

/-- The server with this table and this setting for anonymous logins. -/
structure TableIs (σ : FtpServer) (allow : Bool) (table : List UserNode) : Prop extends
    TableKept σ where
  fresh : Fresh σ.userManager
  table : σ.userManager.table = table
  isAllowAnonymous : σ.isAllowAnonymous = allow

section Calls

variable {σ : FtpServer} {env : Env} {allow : Bool} {users : List UserNode}
  {name homeDir home : WString}

theorem TableIs.names (h : TableIs σ allow users) :
    σ.userManager.names = users.map UserNode.userName := by
  rw [← h.table]
  rfl

theorem TableIs.of_administer {op : AdminOp} {τ : FtpServer} {allow' : Bool}
    {users' : List UserNode} (h : TableIs σ allow users) (hop : σ.administer env op = .ok τ)
    (htable : τ.userManager.table = users') (hallow : τ.isAllowAnonymous = allow') :
    TableIs τ allow' users' :=
  have hkept := FtpServer.administer_kept h.fresh h.toTableKept hop
  ⟨hkept.2, hkept.1, htable, hallow⟩

theorem FtpServer.call_eq {op : AdminOp} {τ : FtpServer} (hop : σ.administer env op = .ok τ) :
    σ.call env op = (true, τ) := by
  unfold call
  rw [hop]

theorem call_addUser (password : WString) (priv : UInt8) (h : TableIs σ allow users)
    (hname : name ≠ [])
    (hreserved : ¬ IsReserved name) (hnotIn : name ∉ users.map UserNode.userName)
    (hhome : processHomeDirectory env homeDir = .ok home) :
    ∃ τ, σ.call env (.addUser name password homeDir priv) = (true, τ) ∧
      TableIs τ allow (users ++
        [{ userName := name, userPassword := password, homeDirectory := withSeparator home
           userPrivilege := priv }]) := by
  rw [← h.names] at hnotIn
  rcases addUser_eq password priv h.fresh hname hnotIn hhome with
    ⟨m', hadd, -, htable⟩
  have hop : σ.administer env (.addUser name password homeDir priv) =
      .ok { σ with userManager := m' } := by
    unfold IsReserved at hreserved
    rw [FtpServer.administer, FtpServer.addUser, if_neg hreserved, hadd]
    rfl
  refine ⟨_, FtpServer.call_eq hop, h.of_administer hop ?_ h.isAllowAnonymous⟩
  rw [← h.table]
  exact htable

theorem call_addUser_fails (password : WString) (priv : UInt8) (h : TableIs σ allow users)
    (hname : name = [] ∨ IsReserved name ∨ name ∈ users.map UserNode.userName)
    (hhome : processHomeDirectory env homeDir = .ok home) :
    σ.call env (.addUser name password homeDir priv) = (false, σ) := by
  have hop : ∃ e, σ.administer env (.addUser name password homeDir priv) = .error e := by
    rw [FtpServer.administer, FtpServer.addUser]
    by_cases hreserved : IsReserved name
    · exact ⟨_, if_pos hreserved⟩
    · unfold IsReserved at hname hreserved
      rw [if_neg hreserved]
      unfold UserManager.addUser
      by_cases hempty : name = []
      · rw [if_pos hempty]
        exact ⟨_, rfl⟩
      · have hin := (hname.resolve_left hempty).resolve_left hreserved
        rw [← h.names] at hin
        have hfind : σ.userManager.findUser name ≠ none := fun hnone ↦
          findUser_eq_none_iff.mp hnone hin
        rw [if_neg hempty, hhome]
        dsimp only [bind, Except.bind]
        rw [if_pos hfind]
        exact ⟨_, rfl⟩
  rcases hop with ⟨e, hop⟩
  unfold FtpServer.call
  rw [hop]

theorem call_allowAnonymous (priv : UInt8) (h : TableIs σ false users)
    (hhome : processHomeDirectory env homeDir = .ok home) :
    ∃ τ, σ.call env (.allowAnonymous true homeDir priv) = (true, τ) ∧
      TableIs τ true (users ++
        [{ userName := "anonymous".toList, homeDirectory := withSeparator home
           userPrivilege := priv }]) := by
  have hnotIn : "anonymous".toList ∉ σ.userManager.names := by
    rw [h.anonymous, h.isAllowAnonymous]
    decide
  rcases addUser_eq [] priv h.fresh (by decide) hnotIn hhome with
    ⟨m', hadd, -, htable⟩
  have hop : σ.administer env (.allowAnonymous true homeDir priv) =
      .ok { σ with userManager := m', isAllowAnonymous := true } := by
    rw [FtpServer.administer, FtpServer.allowAnonymous, if_pos rfl, if_pos h.isAllowAnonymous, hadd]
    rfl
  refine ⟨_, FtpServer.call_eq hop, h.of_administer hop ?_ rfl⟩
  rw [← h.table]
  exact htable

theorem call_denyAnonymous (env : Env) (homeDir : WString) (priv : UInt8)
    (h : TableIs σ true users) :
    ∃ τ, σ.call env (.allowAnonymous false homeDir priv) = (true, τ) ∧
      TableIs τ false (users.filter (·.userName ≠ "anonymous".toList)) := by
  have hin : "anonymous".toList ∈ σ.userManager.names := h.anonymous.mpr h.isAllowAnonymous
  rcases deleteUser_eq h.fresh h.distinct hin with ⟨m', hdelete, -, htable⟩
  have hop : σ.administer env (.allowAnonymous false homeDir priv) =
      .ok { σ with userManager := m', isAllowAnonymous := false } := by
    rw [FtpServer.administer, FtpServer.allowAnonymous, if_neg (by decide),
      if_pos h.isAllowAnonymous, hdelete]
  refine ⟨_, FtpServer.call_eq hop, h.of_administer hop ?_ rfl⟩
  rw [← h.table]
  exact htable

/-- The loops over the table, whatever they return. -/
theorem call_modifyNamed {op : AdminOp} {f : UserNode → UserNode} (h : TableIs σ allow users)
    (hop : σ.administer env op =
      (σ.userManager.modifyNamed name f).map fun m ↦ { σ with userManager := m }) :
    ∃ b τ, σ.call env op = (b, τ) ∧ TableIs τ allow
      (users.map fun user ↦ if name = [] ∨ user.userName = name then f user else user) := by
  have htable := modifyNamed_table h.distinct name f
  rw [modifyLoop_eq, h.table] at htable
  unfold FtpServer.call
  cases hmodify : σ.userManager.modifyNamed name f with
  | ok m' =>
    rw [hmodify] at hop htable
    rw [hop]
    exact ⟨true, _, rfl, h.of_administer hop htable h.isAllowAnonymous⟩
  | error e =>
    rw [hmodify] at hop htable
    rw [hop]
    exact ⟨false, σ, rfl, h.toTableKept, h.fresh, htable, h.isAllowAnonymous⟩

/-- No user has the empty name. -/
theorem call_setUserHomeDirectory_nil (h : TableIs σ allow users) :
    σ.call env (.setUserHomeDirectory [] homeDir) = (false, σ) := by
  have hop : ∃ e, σ.administer env (.setUserHomeDirectory [] homeDir) = .error e := by
    rw [FtpServer.administer]
    unfold UserManager.setUserHomeDirectory
    cases processHomeDirectory env homeDir with
    | error e => exact ⟨e, rfl⟩
    | ok home =>
      dsimp only [bind, Except.bind]
      rw [findUser_eq_none_iff.mpr h.nonempty]
      exact ⟨_, rfl⟩
  rcases hop with ⟨e, hop⟩
  unfold FtpServer.call
  rw [hop]

end Calls

/-! ## What one call of `init_ftp_server` does -/

def Config.anonymousUser (c : Config) (home : WString) : UserNode :=
  { userName := "anonymous".toList, homeDirectory := withSeparator home, userPrivilege := c.ucPriv }

def Config.namedUser (c : Config) (home : WString) : UserNode :=
  { userName := c.szUsername, userPassword := c.szPassword, homeDirectory := withSeparator home
    userPrivilege := c.ucPriv }

/-- The user is not the anonymous one that the call takes out of the table. -/
def Config.Keeps (c : Config) (user : UserNode) : Prop :=
  c.bDoAllow = true ∨ user.userName ≠ "anonymous".toList

instance (c : Config) : DecidablePred c.Keeps := fun _ ↦ inferInstanceAs (Decidable (_ ∨ _))

namespace Native

/-- Anonymous logins become allowed. -/
def Allows (w : Native) (c : Config) : Prop :=
  w.gBAllowAnonymous = false ∧ c.bDoAllow = true

/-- The name is another than before and one that `add_user` takes. -/
def AddsUser (w : Native) (c : Config) : Prop :=
  w.gUsername ≠ c.szUsername ∧ c.szUsername ≠ [] ∧ ¬ IsReserved c.szUsername ∧
    c.szUsername ∉ w.server.userManager.names

/-- Where the name is the one of the last call, the branch of the password is taken. -/
def ResetsPassword (w : Native) (c : Config) (user : UserNode) : Prop :=
  w.gUsername = c.szUsername ∧ w.gPassword ≠ c.szPassword ∧
    (c.szUsername = [] ∨ user.userName = c.szUsername)

/-- The branch of the privilege is only taken where no earlier one has stored the new value. -/
def ResetsPrivilege (w : Native) (c : Config) : Prop :=
  w.gBAllowAnonymous = c.bDoAllow ∧ ¬ w.AddsUser c ∧ w.gUcPriv ≠ c.ucPriv

instance (w : Native) (c : Config) : Decidable (w.Allows c) := inferInstanceAs (Decidable (_ ∧ _))

instance (w : Native) (c : Config) : Decidable (w.AddsUser c) := inferInstanceAs (Decidable (_ ∧ _))

instance (w : Native) (c : Config) : DecidablePred (w.ResetsPassword c) :=
  fun _ ↦ inferInstanceAs (Decidable (_ ∧ _))

instance (w : Native) (c : Config) : Decidable (w.ResetsPrivilege c) :=
  inferInstanceAs (Decidable (_ ∧ _))

def resetPassword (w : Native) (c : Config) (user : UserNode) : UserNode :=
  if w.ResetsPassword c user then { user with userPassword := c.szPassword } else user

def resetPrivilege (w : Native) (c : Config) (user : UserNode) : UserNode :=
  if w.ResetsPrivilege c then { user with userPrivilege := c.ucPriv } else user

/-- The table after the call. -/
def tableAfter (w : Native) (c : Config) (home : WString) : List UserNode :=
  let users := w.server.userManager.table.filter c.Keeps
  let users := if w.Allows c then users ++ [c.anonymousUser home] else users
  let users := if w.AddsUser c then users ++ [c.namedUser home] else users
  users.map fun user ↦ w.resetPrivilege c (w.resetPassword c user)

section Branches

variable {env : Env} {c : Config} {w : Native} {users : List UserNode} {home : WString}
  {allow : Bool}

theorem initAnonymous_eq (h : TableIs w.server w.gBAllowAnonymous users)
    (hhome : processHomeDirectory env c.szStartPath = .ok home) :
    ∃ σ, w.initAnonymous env c = (true, { w with
        server := σ
        gBAllowAnonymous := c.bDoAllow
        gUcPriv := if w.gBAllowAnonymous = c.bDoAllow then w.gUcPriv else c.ucPriv }) ∧
      TableIs σ c.bDoAllow
        (let users := users.filter c.Keeps
         if w.Allows c then users ++ [c.anonymousUser home] else users) := by
  have hall (hallow : c.bDoAllow = true) : users.filter c.Keeps = users :=
    List.filter_eq_self.mpr fun _ _ ↦ decide_eq_true (.inl hallow)
  unfold initAnonymous
  by_cases hsame : w.gBAllowAnonymous = c.bDoAllow
  · have hkeeps : users.filter c.Keeps = users := by
      by_cases hallow : c.bDoAllow = true
      · exact hall hallow
      · -- there is no anonymous user
        have hnotIn : "anonymous".toList ∉ users.map UserNode.userName := by
          rw [← h.names, h.anonymous, h.isAllowAnonymous, hsame]
          exact hallow
        apply List.filter_eq_self.mpr
        intro user huser
        apply decide_eq_true
        right
        intro heq
        exact hnotIn (heq ▸ List.mem_map_of_mem huser)
    have hallows : ¬ w.Allows c := by
      rintro ⟨hfalse, htrue⟩
      rw [hfalse, htrue] at hsame
      cases hsame
    rw [if_neg (not_not.mpr hsame), if_pos hsame, if_neg hallows, hkeeps, ← hsame]
    exact ⟨w.server, rfl, h⟩
  · rw [if_pos hsame, if_neg hsame]
    cases hallow : c.bDoAllow with
    | true =>
      have hfalse : w.gBAllowAnonymous = false := by
        rw [hallow] at hsame
        exact Bool.eq_false_iff.mpr hsame
      rw [hfalse] at h
      rcases call_allowAnonymous c.ucPriv h hhome with ⟨σ, hcall, hσ⟩
      rw [hcall, if_pos ⟨hfalse, hallow⟩, hall hallow]
      exact ⟨σ, rfl, hσ⟩
    | false =>
      have htrue : w.gBAllowAnonymous = true := by
        rw [hallow] at hsame
        exact Bool.eq_true_of_not_eq_false hsame
      have hallows : ¬ w.Allows c := by
        rintro ⟨-, hdo⟩
        rw [hallow] at hdo
        cases hdo
      rw [htrue] at h
      rcases call_denyAnonymous env c.szStartPath c.ucPriv h with
        ⟨σ, hcall, hσ⟩
      rw [hcall, if_neg hallows]
      refine ⟨σ, rfl, ?_⟩
      have hfilter : users.filter c.Keeps = users.filter (·.userName ≠ "anonymous".toList) := by
        apply List.filter_congr
        intro user _
        have hkeeps : c.Keeps user ↔ user.userName ≠ "anonymous".toList :=
          or_iff_right (Bool.eq_false_iff.mp hallow)
        exact decide_eq_decide.mpr hkeeps
      rw [hfilter]
      exact hσ

theorem resetPassword_same (hname : w.gUsername ≠ c.szUsername ∨ w.gPassword = c.szPassword) :
    w.resetPassword c = id := by
  funext user
  unfold resetPassword
  apply if_neg
  rintro ⟨heq, hne, -⟩
  rcases hname with hname | hname
  · exact hname heq
  · exact hne hname

theorem initUser_eq (h : TableIs w.server allow users)
    (hhome : processHomeDirectory env c.szStartPath = .ok home) :
    ∃ σ gUsername gPassword, w.initUser env c = { w with
        server := σ
        gUsername := gUsername
        gPassword := gPassword
        gUcPriv := if w.AddsUser c then c.ucPriv else w.gUcPriv } ∧
      (gUsername = [] ∨ gUsername = w.gUsername ∨ w.AddsUser c ∧ gUsername = c.szUsername) ∧
      TableIs σ allow
        (List.map (w.resetPassword c)
          (if w.AddsUser c then users ++ [c.namedUser home] else users)) := by
  unfold initUser
  by_cases hname : w.gUsername ≠ c.szUsername
  · -- the earlier user is forgotten, not deleted
    have hforget : (if w.gUsername ≠ [] then
        { w with server := (w.server.deleteUser w.gUsername).2, gUsername := [] }
      else w) = { w with gUsername := [] } := by
      split
      · rfl
      · rename_i hempty
        rw [← not_not.mp hempty]
    rw [if_pos hname, hforget, resetPassword_same (.inl hname), List.map_id]
    by_cases hadds : w.AddsUser c
    · have hnotIn := hadds.2.2.2
      rw [h.names] at hnotIn
      rcases call_addUser c.szPassword c.ucPriv h hadds.2.1 hadds.2.2.1 hnotIn hhome with
        ⟨σ, hcall, hσ⟩
      rw [if_pos hadds, if_pos hadds]
      simp only [if_pos hadds.2.1, hcall, if_true]
      exact ⟨σ, _, _, rfl, .inr (.inr ⟨hadds, rfl⟩), hσ⟩
    · rw [if_neg hadds, if_neg hadds]
      refine ⟨w.server, [], w.gPassword, ?_, .inl rfl, h⟩
      by_cases hempty : c.szUsername ≠ []
      · have hin : IsReserved c.szUsername ∨ c.szUsername ∈ users.map UserNode.userName := by
          by_contra hnew
          rw [not_or, ← h.names] at hnew
          exact hadds ⟨hname, hempty, hnew⟩
        have hcall := call_addUser_fails c.szPassword c.ucPriv h (.inr hin) hhome
        simp only [if_pos hempty, hcall, Bool.false_eq_true, if_false]
      · rw [if_neg hempty]
  · have hadds : ¬ w.AddsUser c := fun hadds ↦ hname hadds.1
    rw [if_neg hname, if_neg hadds, if_neg hadds]
    by_cases hpassword : w.gPassword ≠ c.szPassword
    · have hop : w.server.administer env (.setUserPassword c.szUsername c.szPassword) =
          (w.server.userManager.modifyNamed c.szUsername fun user ↦
            { user with userPassword := c.szPassword }).map
              fun m ↦ { w.server with userManager := m } := rfl
      rcases call_modifyNamed h hop with ⟨b, σ, hcall, hσ⟩
      have hreset : (fun user : UserNode ↦ if c.szUsername = [] ∨ user.userName = c.szUsername then
          { user with userPassword := c.szPassword } else user) = w.resetPassword c := by
        funext user
        unfold resetPassword ResetsPassword
        simp only [not_not.mp hname, hpassword, ne_eq, not_false_eq_true, true_and]
      rw [hreset] at hσ
      rw [if_pos hpassword, hcall]
      refine ⟨σ, w.gUsername, if b then c.szPassword else w.gPassword, ?_, .inr (.inl rfl), hσ⟩
      cases b <;> rfl
    · rw [if_neg hpassword, resetPassword_same (.inr (not_not.mp hpassword)), List.map_id]
      exact ⟨w.server, w.gUsername, w.gPassword, rfl, .inr (.inl rfl), h⟩

theorem initStartDir_eq (h : TableIs w.server allow users) : w.initStartDir env c = w := by
  unfold initStartDir
  split
  · rw [call_setUserHomeDirectory_nil h]
    rfl
  · rfl

theorem initPriv_eq (h : TableIs w.server allow users) :
    ∃ σ gUcPriv, w.initPriv env c = { w with server := σ, gUcPriv := gUcPriv } ∧
      TableIs σ allow (users.map fun user ↦
        if w.gUcPriv ≠ c.ucPriv then { user with userPrivilege := c.ucPriv } else user) := by
  unfold initPriv
  by_cases hpriv : w.gUcPriv ≠ c.ucPriv
  · have hop : w.server.administer env (.setUserPrivilege [] c.ucPriv) =
        (w.server.userManager.modifyNamed [] fun user ↦ { user with userPrivilege := c.ucPriv }).map
          fun m ↦ { w.server with userManager := m } := rfl
    rcases call_modifyNamed h hop with ⟨b, σ, hcall, hσ⟩
    rw [if_pos hpriv, hcall]
    refine ⟨σ, if b then c.ucPriv else w.gUcPriv, ?_, ?_⟩
    · cases b <;> rfl
    · simpa only [true_or, if_pos, hpriv, ne_eq, not_false_eq_true] using hσ
  · rw [if_neg hpriv]
    refine ⟨w.server, w.gUcPriv, rfl, ?_⟩
    simpa only [if_neg hpriv, List.map_id'] using h

theorem initPort_eq : ∃ l, w.initPort c = { w with listener := l, gListenPort := c.port } ∧
    l.usPort_ = if w.gListenPort ≠ c.port then UInt16.ofInt c.port else w.listener.usPort_ := by
  unfold initPort
  split
  · exact ⟨_, rfl, rfl⟩
  · rename_i hport
    rw [← not_not.mp hport]
    exact ⟨_, rfl, rfl⟩

/-- The anonymous user has a name that `add_user` does not take. -/
theorem addsUser_initAnonymous {w' : Native} (h : TableIs w.server w.gBAllowAnonymous users)
    (hname : w'.gUsername = w.gUsername)
    (h' : TableIs w'.server allow
      (let users := users.filter c.Keeps
       if w.Allows c then users ++ [c.anonymousUser home] else users)) :
    w'.AddsUser c ↔ w.AddsUser c := by
  unfold AddsUser
  rw [hname, h'.names, h.names]
  apply and_congr_right
  intro _
  apply and_congr_right
  intro _
  apply and_congr_right
  intro hreserved
  rw [not_iff_not]
  have hne : c.szUsername ≠ "anonymous".toList := fun heq ↦ hreserved (.inl heq)
  have hleft : c.szUsername ∈ (users.filter c.Keeps).map UserNode.userName ↔
      c.szUsername ∈ users.map UserNode.userName := by
    constructor
    · exact fun hin ↦ (List.filter_sublist.map _).subset hin
    · intro hin
      rcases List.mem_map.mp hin with ⟨user, huser, hname⟩
      have hkeeps : c.Keeps user := .inr (hname ▸ hne)
      exact hname ▸ List.mem_map_of_mem (List.mem_filter.mpr ⟨huser, decide_eq_true hkeeps⟩)
  dsimp only
  split
  · rw [List.map_append, List.mem_append, hleft]
    apply or_iff_left
    intro hin
    exact hne (List.mem_singleton.mp hin)
  · exact hleft

/-- What a call of `init_ftp_server` leaves. -/
theorem initFtpServer_eq (h : TableIs w.server w.gBAllowAnonymous w.server.userManager.table)
    (hhome : processHomeDirectory env c.szStartPath = .ok home) :
    ∃ σ l gUsername gPassword gUcPriv, w.initFtpServer env c = (true, { w with
        gListenPort := c.port
        gUcPriv := gUcPriv
        gBAllowAnonymous := c.bDoAllow
        gUsername := gUsername
        gPassword := gPassword
        server := σ
        listener := l }) ∧
      (gUsername = [] ∨ gUsername = w.gUsername ∨ w.AddsUser c ∧ gUsername = c.szUsername) ∧
      (l.usPort_ = if w.gListenPort ≠ c.port then UInt16.ofInt c.port else w.listener.usPort_) ∧
      TableIs σ c.bDoAllow (w.tableAfter c home) := by
  rcases initAnonymous_eq h hhome with ⟨σ₁, hanonymous, hσ₁⟩
  let w₁ : Native :=
    { w with
      server := σ₁
      gBAllowAnonymous := c.bDoAllow
      gUcPriv := if w.gBAllowAnonymous = c.bDoAllow then w.gUcPriv else c.ucPriv }
  rcases initPort_eq (c := c) (w := w₁) with ⟨l, hport, hl⟩
  let w₂ : Native := { w₁ with listener := l, gListenPort := c.port }
  have hadds : w₂.AddsUser c ↔ w.AddsUser c := addsUser_initAnonymous h rfl hσ₁
  rcases initUser_eq (w := w₂) hσ₁ hhome with ⟨σ₃, gUsername, gPassword, huser, hname, hσ₃⟩
  let w₃ : Native :=
    { w₂ with
      server := σ₃
      gUsername := gUsername
      gPassword := gPassword
      gUcPriv := if w₂.AddsUser c then c.ucPriv else w₂.gUcPriv }
  rcases initPriv_eq (c := c) (w := w₃) hσ₃ with ⟨σ₄, gUcPriv, hpriv, hσ₄⟩
  refine ⟨σ₄, l, gUsername, gPassword, gUcPriv, ?_, ?_, hl, ?_⟩
  · unfold initFtpServer
    rw [hanonymous]
    show (true, (((w₁.initPort c).initUser env c).initStartDir env c).initPriv env c) = _
    rw [hport, huser, initStartDir_eq hσ₃, hpriv]
  · rw [hadds] at hname
    exact hname
  · -- the privilege is reset where no branch has stored the new one
    have hresets : w₃.gUcPriv ≠ c.ucPriv ↔ w.ResetsPrivilege c := by
      show (if w₂.AddsUser c then c.ucPriv else
        if w.gBAllowAnonymous = c.bDoAllow then w.gUcPriv else c.ucPriv) ≠ c.ucPriv ↔ _
      unfold ResetsPrivilege
      rw [← hadds]
      by_cases h₁ : w₂.AddsUser c
      · simp [h₁]
      · by_cases h₂ : w.gBAllowAnonymous = c.bDoAllow <;> simp [h₁, h₂]
    have hmap : (fun user : UserNode ↦
        if w₃.gUcPriv ≠ c.ucPriv then { user with userPrivilege := c.ucPriv } else user) =
        w.resetPrivilege c := by
      funext user
      unfold resetPrivilege
      simp only [hresets]
    rw [hmap, List.map_map] at hσ₄
    simp only [hadds] at hσ₄
    exact hσ₄

end Branches

end Native

end YFtp
