import YFtp.ClientLists
import YFtp.ConversationSteps

/-!
# Entries in client lists

A client node may stand in several client lists, and in one more than once.  Each command and each
end of a connection takes single entries out, and the node stays registered exactly when it has
another entry than those.
-/

namespace YFtp

/-- Anonymous logins are no longer allowed. -/
def AdminOp.disallows : AdminOp → Bool
  | .allowAnonymous doAllow _ _ => !doAllow
  | _ => false

namespace FtpServer

/-- Beside one entry in the list of each user of `gone`, the client node has another. -/
def Spare (σ : FtpServer) (c : ClientRef) (gone : List UserRef) : Prop :=
  ∃ u ∈ σ.userManager.ftpUserList, gone.count u < (σ.clientsOf u).count c

instance (σ : FtpServer) (c : ClientRef) (gone : List UserRef) : Decidable (Spare σ c gone) :=
  inferInstanceAs (Decidable (∃ _ ∈ _, _))

/-- The user whose list a USER takes a client out of that is logged in. -/
def Request.loggedOut (q : Request) : List UserRef :=
  if q.node.isLogged then q.node.user.toList else []

/-- There is room for the client, once it is logged out. -/
def roomFor (σ : FtpServer) (q : Request) (u : UserRef) : Bool :=
  UserManager.hasRoom { σ.userManager.users u with
    clientList :=
      if u ∈ q.loggedOut then (σ.clientsOf u).erase q.client else σ.clientsOf u }

/-- The command is a USER for an account that has no room, after which the connection ends. -/
def TurnedAway (σ : FtpServer) (q : Request) : Prop :=
  q.cmd.id = .USER ∧ ∃ u ∈ σ.namedUser q.cmd.args, σ.roomFor q u = false

instance (σ : FtpServer) (q : Request) : Decidable (TurnedAway σ q) :=
  inferInstanceAs (Decidable (_ ∧ _))

/-- The users out of whose lists the command takes its client, if it enters it in none. -/
def departures (σ : FtpServer) (q : Request) : List UserRef :=
  match q.cmd.id with
  | .USER =>
    match σ.namedUser q.cmd.args with
    | none => q.loggedOut
    | some u =>
      if σ.roomFor q u then []
      -- `user_` has been replaced by `u` unless the login is anonymous
      else if σ.asksAnonymous q.cmd.args then q.node.user.toList
      else q.loggedOut ++ [u]
  | .PASS => if PasswordAccepted σ q.node q.cmd.args then [] else q.node.user.toList
  | .REIN => q.node.user.toList
  | _ => []

section Entries

variable {σ τ : FtpServer} {c : ClientRef} {gone : List UserRef}

theorem registered_iff_spare : Registered σ c ↔ Spare σ c [] := by
  unfold Registered Spare
  simp only [List.count_nil, List.count_pos_iff]

theorem Spare.registered (h : Spare σ c gone) : Registered σ c := by
  rcases h with ⟨u, hu, hcount⟩
  exact ⟨u, hu, List.count_pos_iff.mp (Nat.zero_lt_of_lt hcount)⟩

theorem spare_congr (h : τ.userManager = σ.userManager) : Spare τ c gone ↔ Spare σ c gone := by
  unfold Spare clientsOf
  rw [h]

/-- An entry that is taken out is one that has to be spared for. -/
theorem spare_deleteClient (u : UserRef) :
    Spare (σ.deleteClient u c) c gone ↔ Spare σ c (u :: gone) := by
  have hcount : ∀ v, gone.count v < ((σ.deleteClient u c).clientsOf v).count c ↔
      (u :: gone).count v < (σ.clientsOf v).count c := by
    intro v
    rw [deleteClient_clientsOf]
    by_cases hv : v = u
    · subst hv
      rw [if_pos rfl, List.count_erase_self, List.count_cons_self]
      omega
    · rw [if_neg hv, List.count_cons_of_ne (Ne.symm hv)]
  unfold Spare
  simp only [hcount]
  exact Iff.rfl

theorem registered_deleteClient (u : UserRef) :
    Registered (σ.deleteClient u c) c ↔ Spare σ c [u] := by
  rw [registered_iff_spare, spare_deleteClient]

theorem registered_unbind : Registered (σ.unbind c) c ↔ Spare σ c (σ.nodes c).user.toList := by
  unfold unbind
  cases huser : (σ.nodes c).user with
  | none => exact registered_iff_spare
  | some u => exact registered_deleteClient u

theorem loggedOut_of_not {q : Request} (h : q.node.isLogged = false) : q.loggedOut = [] := by
  rw [Request.loggedOut, h]
  rfl

theorem loggedOut_of_user {q : Request} {u : UserRef} (h : q.node.isLogged = true)
    (huser : q.node.user = some u) : q.loggedOut = [u] := by
  rw [Request.loggedOut, if_pos h, huser]
  rfl

variable {cmd : Command}

/-- Logging out takes one entry out. -/
theorem spare_logOut (h : σ.logOut c = .ok τ) :
    Spare τ c gone ↔ Spare σ c (Request.loggedOut ⟨c, σ.nodes c, cmd⟩ ++ gone) := by
  rcases logOut_cases h with ⟨hlogged, rfl⟩ | ⟨hlogged, u, huser, rfl⟩
  · rw [loggedOut_of_not hlogged]
    exact Iff.rfl
  · rw [loggedOut_of_user hlogged huser]
    exact spare_deleteClient u

theorem hasRoom_logOut (h : σ.logOut c = .ok τ) (u : UserRef) :
    UserManager.hasRoom (τ.userManager.users u) = σ.roomFor ⟨c, σ.nodes c, cmd⟩ u := by
  unfold roomFor
  rcases logOut_cases h with ⟨hlogged, rfl⟩ | ⟨hlogged, v, huser, rfl⟩
  · rw [loggedOut_of_not hlogged, if_neg List.not_mem_nil]
    rfl
  · rw [loggedOut_of_user hlogged huser]
    by_cases hu : u = v
    · subst hu
      rw [if_pos (List.mem_singleton_self u)]
      simp [deleteClient, UserManager.deleteClient, clientsOf]
    · rw [if_neg (by simpa using hu)]
      simp [deleteClient, UserManager.deleteClient, clientsOf, UserManager.modify_users_of_ne, hu]

end Entries

/-! ## Commands -/

/-- The client node is in a list after the command, and if the connection is ended now, it is in one
after that too. -/
structure KeepsClient (a : Answer) (c : ClientRef) : Prop where
  registered : Registered a.server c
  ended : a.ret = false → ∀ u ∈ (a.server.nodes c).user, Spare a.server c [u]

section Commands

variable {build : Build} {env : Env} {σ τ : FtpServer} {c : ClientRef} {cmd : Command} {a : Answer}
  {r : FtpServer × Reply × Bool}

theorem Joined.registered {u : UserRef} (h : Joined σ τ c u)
    (hu : u ∈ σ.userManager.ftpUserList) : Registered τ c := by
  refine ⟨u, h.ftpUserList ▸ hu, ?_⟩
  rw [h.clientsOf, if_pos rfl]
  exact List.mem_append_right _ (List.mem_singleton_self c)

theorem departures_user (hid : cmd.id = .USER) (n : ClientNode) :
    departures σ ⟨c, n, cmd⟩ =
      match σ.namedUser cmd.args with
      | none => Request.loggedOut ⟨c, n, cmd⟩
      | some u =>
        if σ.roomFor ⟨c, n, cmd⟩ u then []
        else if σ.asksAnonymous cmd.args then n.user.toList
        else Request.loggedOut ⟨c, n, cmd⟩ ++ [u] := by
  unfold departures
  rw [hid]

theorem departures_anonymous (hid : cmd.id = .USER) {n : ClientNode} {u : UserRef}
    (hask : σ.asksAnonymous cmd.args = true)
    (hfind : σ.userManager.findUser "anonymous".toList = some u)
    (hroom : σ.roomFor ⟨c, n, cmd⟩ u = false) : departures σ ⟨c, n, cmd⟩ = n.user.toList := by
  have hnamed : σ.namedUser cmd.args = some u := by rw [namedUser, if_pos hask, hfind]
  rw [departures_user hid, hnamed]
  dsimp only
  rw [hroom, if_neg Bool.false_ne_true, if_pos hask]

theorem departures_full (hid : cmd.id = .USER) {n : ClientNode} {u : UserRef}
    (hask : σ.asksAnonymous cmd.args = false) (hfind : σ.enabledUser cmd.args = some u)
    (hroom : σ.roomFor ⟨c, n, cmd⟩ u = false) :
    departures σ ⟨c, n, cmd⟩ = Request.loggedOut ⟨c, n, cmd⟩ ++ [u] := by
  have hnamed : σ.namedUser cmd.args = some u := by
    rw [namedUser, hask, if_neg Bool.false_ne_true, hfind]
  rw [departures_user hid, hnamed]
  dsimp only
  rw [hroom, if_neg Bool.false_ne_true, hask, if_neg Bool.false_ne_true]

theorem departures_unknown (hid : cmd.id = .USER) {n : ClientNode}
    (hask : σ.asksAnonymous cmd.args = false) (hfind : σ.enabledUser cmd.args = none) :
    departures σ ⟨c, n, cmd⟩ = Request.loggedOut ⟨c, n, cmd⟩ := by
  have hnamed : σ.namedUser cmd.args = none := by
    rw [namedUser, hask, if_neg Bool.false_ne_true, hfind]
  rw [departures_user hid, hnamed]

theorem exists_anonymous
    (hanonymous : σ.isAllowAnonymous = true → σ.userManager.findUser "anonymous".toList ≠ none)
    (hask : σ.asksAnonymous cmd.args = true) :
    ∃ u, σ.userManager.findUser "anonymous".toList = some u := by
  have hallow : σ.isAllowAnonymous = true := by
    unfold asksAnonymous at hask
    exact (Bool.and_eq_true _ _ ▸ hask).1
  exact Option.ne_none_iff_exists'.mp (hanonymous hallow)

theorem processUserCmd_keepsClient
    (hanonymous : σ.isAllowAnonymous = true → σ.userManager.findUser "anonymous".toList ≠ none)
    (hid : cmd.id = .USER) (hname : cmd.args ≠ [])
    (hspare : Spare σ c (departures σ ⟨c, σ.nodes c, cmd⟩))
    (h : σ.processUserCmd c cmd.args = .ok r) :
    KeepsClient { server := r.1, reply := r.2.1, ret := r.2.2 } c := by
  rcases processUserCmd_ok h with ⟨τ, hτ, hbound⟩
  have hframe := logOut_frame hτ
  cases hbound with
  | @unchanged reply ret hsame =>
    rcases hsame with hnil | ⟨hask, hfull⟩
    · exact absurd hnil hname
    · -- there is no room for the anonymous login
      rw [hframe.asksAnonymous] at hask
      simp only [hframe.findUser] at hfull
      rcases exists_anonymous hanonymous hask with ⟨u, hu⟩
      have hroom := (hfull u hu).1
      rw [hasRoom_logOut hτ] at hroom
      rw [departures_anonymous hid hask hu hroom] at hspare
      rcases logOut_cases hτ with ⟨-, rfl⟩ | ⟨-, v, huser, rfl⟩
      · refine ⟨hspare.registered, fun _ v hv ↦ ?_⟩
        rw [Option.mem_def.mp hv] at hspare
        exact hspare
      · -- logged out, so that `end` has no user to go through
        rw [huser] at hspare
        refine ⟨(registered_deleteClient v).mpr hspare, fun _ w hw ↦ ?_⟩
        dsimp only at hw
        rw [setNode_self] at hw
        cases hw
  | anonymous _ _ hfind hadd =>
    have hjoined := joined_of_addClient hadd (n := { τ.nodes c with
      isLogged := true, isAnonymous := true, user := some _ }) rfl
    exact ⟨hjoined.registered (findUser_mem hfind), nofun⟩
  | named _ _ hfind hadd =>
    have hjoined := joined_of_setNode hadd rfl
    exact ⟨hjoined.registered (findUser_mem (enabledUser_eq_some hfind).1), nofun⟩
  | @full u reply _ hask hfind hroom =>
    rw [hframe.asksAnonymous] at hask
    rw [hframe.enabledUser] at hfind
    rw [hasRoom_logOut hτ] at hroom
    rw [departures_full hid hask hfind hroom, ← spare_logOut hτ] at hspare
    refine ⟨hspare.registered, fun _ v hv ↦ ?_⟩
    dsimp only at hv
    rw [setNode_self] at hv
    cases hv
    exact hspare
  | unknown _ hask hfind =>
    rw [hframe.asksAnonymous] at hask
    rw [hframe.enabledUser] at hfind
    rw [departures_unknown hid hask hfind, ← List.append_nil (Request.loggedOut _),
      ← spare_logOut hτ] at hspare
    exact ⟨hspare.registered, nofun⟩

/-- Only a USER that finds no room ends the connection. -/
theorem processUserCmd_turnedAway
    (hanonymous : σ.isAllowAnonymous = true → σ.userManager.findUser "anonymous".toList ≠ none)
    (hid : cmd.id = .USER) (hname : cmd.args ≠ []) (h : σ.processUserCmd c cmd.args = .ok r)
    (hret : r.2.2 = false) : TurnedAway σ ⟨c, σ.nodes c, cmd⟩ := by
  rcases processUserCmd_ok h with ⟨τ, hτ, hbound⟩
  have hframe := logOut_frame hτ
  refine ⟨hid, ?_⟩
  cases hbound with
  | unchanged hsame =>
    rcases hsame with hnil | ⟨hask, hfull⟩
    · exact absurd hnil hname
    · rw [hframe.asksAnonymous] at hask
      simp only [hframe.findUser] at hfull
      rcases exists_anonymous hanonymous hask with ⟨u, hu⟩
      refine ⟨u, ?_, by rw [← hasRoom_logOut hτ]; exact (hfull u hu).1⟩
      rw [Option.mem_def, namedUser, if_pos hask, hu]
  | anonymous => cases hret
  | named => cases hret
  | @full u _ _ hask hfind hroom =>
    rw [hframe.asksAnonymous] at hask
    rw [hframe.enabledUser] at hfind
    refine ⟨u, ?_, by rw [← hasRoom_logOut hτ]; exact hroom⟩
    rw [Option.mem_def, namedUser, hask, if_neg Bool.false_ne_true, hfind]
  | unknown => cases hret

theorem runSwitch_turnedAway
    (hanonymous : σ.isAllowAnonymous = true → σ.userManager.findUser "anonymous".toList ≠ none)
    (hname : cmd.id = .USER → cmd.args ≠ []) (h : σ.runSwitch build env c cmd = .ok a)
    (hret : a.ret = false) : TurnedAway σ ⟨c, σ.nodes c, cmd⟩ := by
  rcases runSwitch_cases h with ⟨hid, r, hr, rfl⟩ | ⟨-, rfl⟩ | ⟨-, rfl⟩ | ⟨-, o, ports, -, rfl⟩
  · exact processUserCmd_turnedAway hanonymous hid (hname hid) hr hret
  · cases hret
  · cases hret
  · cases hret

theorem runSwitch_keepsClient
    (hanonymous : σ.isAllowAnonymous = true → σ.userManager.findUser "anonymous".toList ≠ none)
    (hname : cmd.id = .USER → cmd.args ≠ [])
    (hspare : Spare σ c (departures σ ⟨c, σ.nodes c, cmd⟩))
    (h : σ.runSwitch build env c cmd = .ok a) : KeepsClient a c := by
  rcases runSwitch_cases h with
    ⟨hid, r, hr, rfl⟩ | ⟨hid, rfl⟩ | ⟨hid, rfl⟩ | ⟨-, o, ports, -, rfl⟩
  · exact processUserCmd_keepsClient hanonymous hid (hname hid) hspare hr
  · refine ⟨?_, nofun⟩
    dsimp only
    unfold departures at hspare
    rw [hid] at hspare
    dsimp only at hspare
    rw [processPasswordCmd_eq]
    split
    · exact hspare.registered
    · rename_i hrefused
      rw [if_neg hrefused] at hspare
      exact registered_unbind.mpr hspare
  · refine ⟨?_, nofun⟩
    unfold departures at hspare
    rw [hid] at hspare
    have hunbound := registered_unbind.mpr hspare
    exact hunbound
  · refine ⟨?_, nofun⟩
    have hsame := conclude_sameLogin env { σ with dataPorts := ports } c o
    exact (hsame.registered c).mpr hspare.registered

/-- The end of a connection whose client node has an entry to spare. -/
theorem endWork_registered {s : Handle} (hserves : Serves σ s c) (hreg : Registered σ c)
    (hspare : ∀ u ∈ (σ.nodes c).user, Spare σ c [u]) (h : σ.endWork s = .ok τ) :
    Registered τ c := by
  rcases endWork_ok h with ⟨-, rfl⟩ | ⟨d, hd, hend⟩
  · exact hreg
  · rcases findClient_eq_some hd with ⟨hd, hsocket⟩
    have hdc := hserves.alone d hd hsocket
    subst hdc
    rcases endClient_ok hend with ⟨u, huser, rfl⟩
    rw [registered_deleteClient]
    exact (spare_congr rfl).mpr (hspare u huser)

/-- The end of a connection is nothing to the client nodes of the others. -/
theorem endWork_other {s : Handle} {d : ClientRef} (hd : σ.findClient s ≠ some d)
    (h : σ.endWork s = .ok τ) : τ.nodes d = σ.nodes d ∧ (Registered τ d ↔ Registered σ d) := by
  rcases endWork_ok h with ⟨-, rfl⟩ | ⟨c, hc, hend⟩
  · exact ⟨rfl, Iff.rfl⟩
  · have hdc : d ≠ c := by
      rintro rfl
      exact hd hc
    have hframe := endClient_frame hend
    exact ⟨hframe.nodes d hdc, hframe.registered hdc⟩

theorem departures_congr (hmanager : τ.userManager = σ.userManager)
    (hallow : τ.isAllowAnonymous = σ.isAllowAnonymous) (q : Request) :
    τ.departures q = σ.departures q := by
  cases σ
  cases τ
  cases hmanager
  cases hallow
  rfl

theorem turnedAway_congr (hmanager : τ.userManager = σ.userManager)
    (hallow : τ.isAllowAnonymous = σ.isAllowAnonymous) (q : Request) :
    τ.TurnedAway q ↔ σ.TurnedAway q := by
  unfold TurnedAway roomFor namedUser asksAnonymous enabledUser clientsOf
  simp only [hmanager, hallow]

/-- The request that the line of a connection brings, when it is the command `cmd`. -/
abbrev requestOf (σ : FtpServer) (k : Connection) (cmd : Command) : Request :=
  ⟨(σ.clientFor k).2, (σ.clientFor k).1.nodes (σ.clientFor k).2, cmd⟩

variable {k : Connection} {p : RequestParser}

-- storing the parser makes no difference to what the command does to the lists
theorem departures_stored :
    (σ.stored k p).departures ⟨(σ.clientFor k).2, (σ.stored k p).nodes (σ.clientFor k).2, cmd⟩
      = σ.departures (σ.requestOf k cmd) := by
  rw [departures_congr (stored_userManager σ k p) (stored_isAllowAnonymous σ k p),
    setParser_nodes_self]
  rfl

theorem turnedAway_stored :
    (σ.stored k p).TurnedAway ⟨(σ.clientFor k).2, (σ.stored k p).nodes (σ.clientFor k).2, cmd⟩ ↔
      σ.TurnedAway (σ.requestOf k cmd) := by
  rw [turnedAway_congr (stored_userManager σ k p) (stored_isAllowAnonymous σ k p),
    setParser_nodes_self]
  exact Iff.rfl

theorem stored_anonymous (hcons : Consistent σ) : (σ.stored k p).isAllowAnonymous = true →
    (σ.stored k p).userManager.findUser "anonymous".toList ≠ none := by
  rw [stored_isAllowAnonymous, stored_userManager]
  exact hcons.anonymous

theorem Handled.keepsClient (hcons : Consistent σ) (hname : cmd.id = .USER → cmd.args ≠ [])
    (hspare : Spare σ (σ.clientFor k).2 (σ.departures (σ.requestOf k cmd)))
    (h : Handled build env (σ.clientFor k).1 (σ.clientFor k).2 p
      (if cmd.id = .invalid then none else some cmd) a) : KeepsClient a (σ.clientFor k).2 := by
  by_cases hid : cmd.id = .invalid
  · rw [if_pos hid] at h
    cases h with
    | ignored => exact ⟨(stored_registered σ k p _).mpr hspare.registered, nofun⟩
  · rw [if_neg hid] at h
    cases h with
    | ran hrun =>
      rw [← departures_stored (p := p), ← spare_congr (stored_userManager σ k p)] at hspare
      have hkeeps := runSwitch_keepsClient (stored_anonymous hcons) hname hspare hrun
      exact ⟨hkeeps.registered, hkeeps.ended⟩

theorem Handled.turnedAway (hcons : Consistent σ) (hname : cmd.id = .USER → cmd.args ≠ [])
    (h : Handled build env (σ.clientFor k).1 (σ.clientFor k).2 p
      (if cmd.id = .invalid then none else some cmd) a) (hret : a.ret = false) :
    σ.TurnedAway (σ.requestOf k cmd) := by
  by_cases hid : cmd.id = .invalid
  · rw [if_pos hid] at h
    cases h with
    | ignored => cases hret
  · rw [if_neg hid] at h
    cases h with
    | ran hrun =>
      have hturned := runSwitch_turnedAway (stored_anonymous hcons) hname hrun hret
      exact turnedAway_stored.mp hturned

theorem Handled.open (h : Handled build env (σ.clientFor k).1 (σ.clientFor k).2 p
      (if cmd.id = .invalid then none else some cmd) a) :
    (a.server.nodes (σ.clientFor k).2).isCtrlCanalOpen
      = (σ.requestOf k cmd).node.isCtrlCanalOpen := by
  have hstored : ((σ.stored k p).nodes (σ.clientFor k).2).isCtrlCanalOpen
      = (σ.requestOf k cmd).node.isCtrlCanalOpen := by
    rw [setParser_nodes_self]
  by_cases hid : cmd.id = .invalid
  · rw [if_pos hid] at h
    cases h with
    | ignored => exact hstored
  · rw [if_neg hid] at h
    cases h with
    | ran hrun => exact (runSwitch_isCtrlCanalOpen hrun).trans hstored

-- the node of another connection is left as it is
theorem Handled.other {cmd : Option Command} {d : ClientRef} (hd : d < σ.nextClient)
    (hne : d ≠ (σ.clientFor k).2)
    (h : Handled build env (σ.clientFor k).1 (σ.clientFor k).2 p cmd a) :
    a.server.nodes d = σ.nodes d ∧ (Registered a.server d ↔ Registered σ d) := by
  have hkeeps := clientFor_frame σ k
  constructor
  · rw [h.frame.nodes d hne, setParser_of_ne _ p hne, hkeeps.nodes d hd]
  · exact (h.frame.registered hne).trans (stored_registered σ k p d)

end Commands

/-! ## Administration -/

section Administration

variable {env : Env} {op : AdminOp} {σ τ : FtpServer} {u : UserRef}

/-- Only the anonymous account is ever taken out of the list of users. -/
theorem administer_listed (h : σ.administer env op = .ok τ) (hu : u ∈ σ.userManager.ftpUserList)
    (hother : op.disallows = true → σ.isAllowAnonymous = true →
      σ.userManager.findUser "anonymous".toList ≠ some u) : u ∈ τ.userManager.ftpUserList := by
  cases op with
  | addUser name password homeDir priv =>
    rw [administer, FtpServer.addUser] at h
    split at h
    · cases h
    · rcases eq_ok_of_map h with ⟨m, hm, rfl⟩
      rcases userManager_addUser_ok hm with ⟨user, -, -, rfl⟩
      exact List.mem_append_left _ hu
  | allowAnonymous doAllow homeDir priv =>
    rw [administer, FtpServer.allowAnonymous] at h
    split at h
    · split at h
      · rcases eq_ok_of_map h with ⟨m, hm, rfl⟩
        rcases userManager_addUser_ok hm with ⟨user, -, -, rfl⟩
        exact List.mem_append_left _ hu
      · cases h
        exact hu
    · rename_i hdisallows
      split at h
      · rename_i hallowed
        split at h
        · rename_i m hm
          cases h
          unfold UserManager.deleteUser at hm
          split at hm
          · rename_i v hv
            cases hm
            have hne : u ≠ v := by
              rintro rfl
              exact hother (by simpa [AdminOp.disallows] using hdisallows) hallowed hv
            exact (List.mem_erase_of_ne hne).mpr hu
          · cases hm
        · cases h
          exact hu
        · cases h
      · cases h
        exact hu
  | setUserPassword name password =>
    rcases eq_ok_of_map h with ⟨m, hm, rfl⟩
    exact (modifyNamed_lists hm).1 ▸ hu
  | setUserPrivilege name priv =>
    rcases eq_ok_of_map h with ⟨m, hm, rfl⟩
    exact (modifyNamed_lists hm).1 ▸ hu
  | setUserHomeDirectory name homeDir =>
    rcases eq_ok_of_map h with ⟨m, hm, rfl⟩
    unfold UserManager.setUserHomeDirectory at hm
    cases hhome : UserManager.processHomeDirectory env homeDir with
    | error e => rw [hhome] at hm; cases hm
    | ok home =>
      rw [hhome] at hm
      dsimp only [bind, Except.bind] at hm
      split at hm
      · cases hm
        exact hu
      · cases hm
  | setUserMaxClient name maxClient =>
    rcases eq_ok_of_map h with ⟨m, hm, rfl⟩
    unfold UserManager.setUserMaxClient at hm
    split at hm
    · cases hm
      exact hu
    · cases hm
  | setIsEnable user enable =>
    cases h
    exact hu

/-- A client node stays registered as long as one of its users stays listed. -/
theorem administer_registered {c : ClientRef} (hcons : Consistent σ)
    (h : σ.administer env op = .ok τ) (hu : u ∈ σ.userManager.ftpUserList)
    (hc : c ∈ σ.clientsOf u)
    (hother : op.disallows = true → σ.isAllowAnonymous = true →
      σ.userManager.findUser "anonymous".toList ≠ some u) : Registered τ c := by
  have hlisted := administer_listed h hu hother
  have hframe := administer_frame hcons.listed hcons.nodup hcons.anonymous h
  rcases hframe.clients u hlisted with ⟨-, hsame⟩ | ⟨rfl, -⟩
  · exact ⟨u, hlisted, hsame ▸ hc⟩
  · exact absurd (hcons.listed _ hu) (Nat.lt_irrefl _)

end Administration

end FtpServer

end YFtp
