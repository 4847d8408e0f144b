import YFtp.Registry

/-!
# Client lists

The correspondence between `user_` of the client nodes and the client lists of the users.  It is
kept by everything but one thing: a USER that binds or unbinds a client while an earlier USER of
the same client is still pending, since `process_user_cmd` takes the client out of its list only
when it is logged in.
-/

namespace YFtp.FtpServer

/-- The client stands once in the list of the user it is bound to and in no other, unless it stands
in none. -/
def Placed (σ : FtpServer) (c : ClientRef) : Prop :=
  Registered σ c → ∀ u ∈ σ.userManager.ftpUserList,
    (σ.clientsOf u).count c = if (σ.nodes c).user = some u then 1 else 0

instance (σ : FtpServer) (c : ClientRef) : Decidable (Placed σ c) :=
  inferInstanceAs (Decidable (_ → ∀ _ ∈ _, _))

/-- Every client node that can be reached is placed. -/
def OnceEach (σ : FtpServer) : Prop := ∀ c, Placed σ c

/-- Every client node that can be reached has an open connection. -/
def Connected (σ : FtpServer) : Prop :=
  ∀ c, Registered σ c → (σ.nodes c).ctrlSocket ∈ σ.connections.map (·.handle)

section Placement

variable {σ τ : FtpServer} {c : ClientRef} {u : UserRef}

theorem count_of_not_registered (h : ¬Registered σ c) (hu : u ∈ σ.userManager.ftpUserList) :
    (σ.clientsOf u).count c = 0 :=
  List.count_eq_zero.mpr fun hmem ↦ h ⟨u, hu, hmem⟩

theorem Placed.of_not_registered (h : ¬Registered σ c) : Placed σ c :=
  fun hc ↦ absurd hc h

theorem Placed.user (h : Placed σ c) (hc : Registered σ c) :
    ∃ u ∈ σ.userManager.ftpUserList, (σ.nodes c).user = some u ∧ (σ.clientsOf u).count c = 1 := by
  have hplace := h hc
  rcases hc with ⟨u, hu, hmem⟩
  have hpos := List.count_pos_iff.mpr hmem
  have hcount := hplace u hu
  by_cases huser : (σ.nodes c).user = some u
  · rw [if_pos huser] at hcount
    exact ⟨u, hu, huser, hcount⟩
  · rw [if_neg huser] at hcount
    omega

/-- Taking a placed client out of the list of its user takes it out of the registry. -/
theorem Placed.not_registered_deleteClient (h : Placed σ c) (huser : (σ.nodes c).user = some u) :
    ¬Registered (σ.deleteClient u c) c := by
  rintro ⟨v, hv, hmem⟩
  have hv : v ∈ σ.userManager.ftpUserList := hv
  have hpos := List.count_pos_iff.mpr hmem
  rw [deleteClient_clientsOf] at hpos
  by_cases hvu : v = u
  · -- in the list of its user it stood once
    subst hvu
    rw [if_pos rfl, List.count_erase_self] at hpos
    have hcount : 0 < (σ.clientsOf v).count c := by omega
    have hplace := h ⟨v, hv, List.count_pos_iff.mp hcount⟩ v hv
    rw [if_pos huser] at hplace
    omega
  · -- and in no other
    rw [if_neg hvu] at hpos
    have hplace := h ⟨v, hv, List.count_pos_iff.mp hpos⟩ v hv
    rw [huser, if_neg fun heq ↦ hvu (Option.some.inj heq).symm] at hplace
    omega

theorem SameLogin.placed (h : SameLogin σ τ) (hc : Placed σ c) : Placed τ c := by
  intro hreg u hu
  rw [h.clientsOf, h.user]
  exact hc ((h.registered c).mp hreg) u (h.userManager ▸ hu)

theorem SameLogin.onceEach (h : SameLogin σ τ) (hσ : OnceEach σ) : OnceEach τ :=
  fun c ↦ h.placed (hσ c)

/-- A step of one client can only misplace that client. -/
theorem ClientFrame.onceEach (h : ClientFrame c σ τ) (hσ : OnceEach σ) (hc : Placed τ c) :
    OnceEach τ := by
  intro d
  by_cases hd : d = c
  · rw [hd]
    exact hc
  · intro hreg u hu
    rw [h.count u d hd, h.nodes d hd]
    exact hσ d ((h.registered hd).mp hreg) u (h.ftpUserList ▸ hu)

theorem logOut_not_registered (hσ : OnceEach σ) (h : σ.logOut c = .ok τ)
    (hlogged : (σ.nodes c).isLogged = true) : ¬Registered τ c := by
  rcases logOut_cases h with ⟨hnot, -⟩ | ⟨-, u, huser, rfl⟩
  · rw [hnot] at hlogged
    cases hlogged
  · exact (hσ c).not_registered_deleteClient huser

theorem unbind_placed (hσ : OnceEach σ) (c : ClientRef) : Placed (σ.unbind c) c := by
  unfold unbind
  split
  · rename_i u huser
    exact .of_not_registered ((hσ c).not_registered_deleteClient huser)
  · exact hσ c

theorem endClient_not_registered (hc : Placed σ c) (h : σ.endClient c = .ok τ) :
    ¬Registered τ c := by
  rcases endClient_ok h with ⟨u, huser, rfl⟩
  have hframe := setNode_sameLogin σ c
    (n := { σ.nodes c with isCtrlCanalOpen := false }) rfl rfl rfl rfl
  apply Placed.not_registered_deleteClient (hframe.placed hc)
  rw [setNode_self, huser]

theorem endWork_not_registered {s : Handle} (hserves : Serves σ s c) (hc : Placed σ c)
    (h : σ.endWork s = .ok τ) : ¬Registered τ c := by
  rcases endWork_ok h with ⟨hnone, rfl⟩ | ⟨d, hd, hend⟩
  · exact fun hreg ↦ findClient_eq_none.mp hnone c hreg hserves.ctrlSocket
  · rcases findClient_eq_some hd with ⟨hreg, hsocket⟩
    have hdc := hserves.alone d hreg hsocket
    subst hdc
    exact endClient_not_registered hc hend

end Placement

/-! ## USER -/

/-- USER changes neither `user_` nor a list: there is no room for the anonymous login, or none for
the account the client is bound to already. -/
def Refused (σ : FtpServer) (user : Option UserRef) (name : WString) : Prop :=
  if σ.asksAnonymous name then
    ∀ u ∈ σ.userManager.findUser "anonymous".toList,
      UserManager.hasRoom (σ.userManager.users u) = false
  else
    ∃ u ∈ σ.enabledUser name, user = some u ∧
      UserManager.hasRoom (σ.userManager.users u) = false

instance (σ : FtpServer) (user : Option UserRef) (name : WString) :
    Decidable (Refused σ user name) :=
  inferInstanceAs (Decidable (ite ..))

/-- USER comes while the client is logged in or bound to nobody, or it is refused. -/
def UserInOrder (σ : FtpServer) (n : ClientNode) (name : WString) : Prop :=
  n.isLogged = true ∨ n.user = none ∨ Refused σ n.user name

instance (σ : FtpServer) (n : ClientNode) (name : WString) : Decidable (UserInOrder σ n name) :=
  inferInstanceAs (Decidable (_ ∨ _ ∨ _))

section User

variable {σ τ : FtpServer} {c : ClientRef} {name : WString} {r : FtpServer × Reply × Bool}

/-- The client has been bound to `u` and put into its list. -/
structure Joined (σ τ : FtpServer) (c : ClientRef) (u : UserRef) : Prop where
  ftpUserList : τ.userManager.ftpUserList = σ.userManager.ftpUserList
  clientsOf : ∀ v, τ.clientsOf v = if v = u then σ.clientsOf u ++ [c] else σ.clientsOf v
  user : (τ.nodes c).user = some u
  hasRoom : UserManager.hasRoom (σ.userManager.users u) = true

theorem joined_of_addClient {u : UserRef} (hadd : σ.addClient u c = some τ) {n : ClientNode}
    (huser : n.user = some u) : Joined σ (τ.setNode c n) c u where
  ftpUserList := (addClient_frame hadd).ftpUserList
  clientsOf v := by
    have hclients := addClient_clientsOf hadd v
    exact hclients
  user := by rw [setNode_self, huser]
  hasRoom := (addClient_eq_some hadd).1

theorem joined_of_setNode {u : UserRef} {n : ClientNode}
    (hadd : (σ.setNode c n).addClient u c = some τ) (huser : n.user = some u) :
    Joined σ τ c u where
  ftpUserList := (addClient_frame hadd).ftpUserList
  clientsOf v := by
    have hclients := addClient_clientsOf hadd v
    exact hclients
  user := by rw [addClient_nodes hadd, setNode_self, huser]
  hasRoom := (addClient_eq_some hadd).1

/-- A client that was in no list stands in the list it was put in. -/
theorem Joined.placed {u : UserRef} (h : Joined σ τ c u) (hfree : ¬Registered σ c) :
    Placed τ c := by
  intro _ v hv
  rw [h.ftpUserList] at hv
  have hcount : ∀ v ∈ σ.userManager.ftpUserList, (σ.clientsOf v).count c = 0 :=
    fun v hv ↦ count_of_not_registered hfree hv
  rw [h.user, h.clientsOf]
  by_cases hvu : v = u
  · subst hvu
    rw [if_pos rfl, if_pos rfl, List.count_append, hcount v hv, List.count_singleton_self]
  · rw [if_neg hvu, if_neg fun heq ↦ hvu (Option.some.inj heq).symm, hcount v hv]

theorem Bound.placed (hσ : OnceEach σ)
    (horder : ¬Registered σ c ∨ Refused σ (σ.nodes c).user name) (h : Bound σ c name r) :
    Placed r.1 c := by
  cases h with
  | unchanged => exact hσ c
  | anonymous _ hask hfind hadd =>
    rcases horder with hfree | hrefused
    · refine (joined_of_addClient hadd ?_).placed hfree
      rfl
    · rw [Refused, if_pos hask] at hrefused
      have hroom := hrefused _ hfind
      rw [(addClient_eq_some hadd).1] at hroom
      cases hroom
  | named _ hask hfind hadd =>
    have hjoined := joined_of_setNode hadd rfl
    rcases horder with hfree | hrefused
    · exact hjoined.placed hfree
    · rw [Refused, if_neg (by rw [hask]; decide)] at hrefused
      rcases hrefused with ⟨v, hv, -, hroom⟩
      rw [Option.mem_def, hfind] at hv
      cases hv
      rw [hjoined.hasRoom] at hroom
      cases hroom
  | @full u _ _ hask hfind =>
    rcases horder with hfree | hrefused
    · exact .of_not_registered hfree
    · rw [Refused, if_neg (by rw [hask]; decide)] at hrefused
      rcases hrefused with ⟨v, hv, huser, -⟩
      rw [Option.mem_def, hfind] at hv
      cases hv
      have hsame := setNode_sameLogin σ c (n := { σ.nodes c with user := some u })
        rfl huser.symm rfl rfl
      exact hsame.placed (hσ c)
  | unknown _ hask hfind =>
    rcases horder with hfree | hrefused
    · exact .of_not_registered hfree
    · rw [Refused, if_neg (by rw [hask]; decide)] at hrefused
      rcases hrefused with ⟨v, hv, -⟩
      rw [Option.mem_def, hfind] at hv
      cases hv

theorem processUserCmd_onceEach (hσ : OnceEach σ) (horder : UserInOrder σ (σ.nodes c) name)
    (h : σ.processUserCmd c name = .ok r) : OnceEach r.1 := by
  apply (processUserCmd_frame h).onceEach hσ
  rcases processUserCmd_ok h with ⟨τ, hτ, hbound⟩
  rcases logOut_cases hτ with ⟨hlogged, rfl⟩ | ⟨hlogged, -⟩
  · -- not logged in: the client is in no list, or USER puts it in none
    apply hbound.placed hσ
    rcases horder with hin | hnone | hrefused
    · rw [hin] at hlogged
      cases hlogged
    · have hfree : ¬Registered τ c := by
        intro hreg
        rcases (hσ c).user hreg with ⟨u, -, huser, -⟩
        rw [hnone] at huser
        cases huser
      exact .inl hfree
    · exact .inr hrefused
  · -- logged in: the client has just been taken out of its list
    have hfree := logOut_not_registered hσ hτ hlogged
    have honce := (logOut_frame hτ).onceEach hσ (.of_not_registered hfree)
    exact hbound.placed honce (.inl hfree)

/-- The client stands in the list of a user it is not bound to. -/
def Astray (σ : FtpServer) (c : ClientRef) : Prop :=
  ∃ v ∈ σ.userManager.ftpUserList, c ∈ σ.clientsOf v ∧ (σ.nodes c).user ≠ some v

theorem Astray.registered (h : Astray σ c) : Registered σ c := by
  rcases h with ⟨v, hv, hmem, -⟩
  exact ⟨v, hv, hmem⟩

/-- The end of the connection does not bring such a client back. -/
theorem Astray.endClient (h : Astray σ c) (hend : σ.endClient c = .ok τ) : Astray τ c := by
  rcases h with ⟨v, hv, hmem, huser⟩
  rcases endClient_ok hend with ⟨u, hu, rfl⟩
  refine ⟨v, hv, ?_, by simpa using huser⟩
  rw [deleteClient_clientsOf, if_neg]
  · exact hmem
  · rintro rfl
    exact huser hu

end User

/-! ## One event -/

/-- No USER processed in this event comes out of order. -/
def InOrder (σ : FtpServer) (e : Event Line) : Prop :=
  ∀ q ∈ request σ e, q.cmd.id = .USER → UserInOrder σ q.node q.cmd.args

instance (σ : FtpServer) (e : Event Line) : Decidable (InOrder σ e) :=
  inferInstanceAs (Decidable (∀ _ ∈ _, _))

section Event

variable {build : Build} {σ τ : FtpServer} {fs : List Effect} {e : Event Line}

theorem userInOrder_congr (hmanager : τ.userManager = σ.userManager)
    (hallow : τ.isAllowAnonymous = σ.isAllowAnonymous) (n : ClientNode) (name : WString) :
    UserInOrder τ n name ↔ UserInOrder σ n name := by
  unfold UserInOrder Refused asksAnonymous enabledUser
  rw [hmanager, hallow]

/-- The switch runs where USER is in order exactly when it is so where the line is received. -/
theorem userInOrder_stored (k : Connection) (p : RequestParser) (name : WString) :
    UserInOrder (σ.stored k p)
        ((σ.stored k p).nodes (σ.clientFor k).2) name ↔
      UserInOrder σ ((σ.clientFor k).1.nodes (σ.clientFor k).2) name := by
  rw [userInOrder_congr (stored_userManager σ k p) (stored_isAllowAnonymous σ k p),
    setParser_nodes_self]
  rfl

theorem setNode_onceEach (hσ : OnceEach σ) (c : ClientRef) {n : ClientNode}
    (huser : n.user = (σ.nodes c).user) : OnceEach (σ.setNode c n) := by
  intro d hreg u hu
  have hnode : ((σ.setNode c n).nodes d).user = (σ.nodes d).user := by
    by_cases hd : d = c
    · rw [hd, setNode_self, huser]
    · rw [setNode_of_ne σ n hd]
  rw [hnode]
  exact hσ d hreg u hu

theorem runSwitch_onceEach {env : Env} {c : ClientRef} {cmd : Command} {a : Answer}
    (hσ : OnceEach σ) (horder : cmd.id = .USER → UserInOrder σ (σ.nodes c) cmd.args)
    (h : σ.runSwitch build env c cmd = .ok a) : OnceEach a.server := by
  rcases runSwitch_cases h with ⟨hid, r, hr, rfl⟩ | ⟨-, rfl⟩ | ⟨-, rfl⟩ | ⟨-, o, ports, -, rfl⟩
  · exact processUserCmd_onceEach hσ (horder hid) hr
  · -- an accepted PASS moves no client, a refused one unbinds its own
    dsimp only
    rw [processPasswordCmd_eq]
    split
    · exact setNode_onceEach hσ c rfl
    · exact (unbind_frame σ c).onceEach hσ (unbind_placed hσ c)
  · have hunbound := (unbind_frame σ c).onceEach hσ (unbind_placed hσ c)
    exact setNode_onceEach hunbound c rfl
  · exact (conclude_sameLogin env { σ with dataPorts := ports } c o).onceEach hσ

theorem clientFor_onceEach (hcons : Consistent σ) (hσ : OnceEach σ) (k : Connection) :
    OnceEach (σ.clientFor k).1 := by
  have hkeeps := clientFor_frame σ k
  intro d hd u hu
  have hd := (hkeeps.registered d).mp hd
  rw [hkeeps.nodes d (hcons.allocated d hd)]
  rw [hkeeps.userManager] at hu
  unfold clientsOf
  rw [hkeeps.userManager]
  exact hσ d hd u hu

theorem Handled.onceEach {env : Env} {k : Connection} {p : RequestParser}
    {cmd : Option Command} {a : Answer} (hcons : Consistent σ) (hσ : OnceEach σ)
    (horder : ∀ cmd', cmd = some cmd' → cmd'.id = .USER →
      UserInOrder σ ((σ.clientFor k).1.nodes (σ.clientFor k).2) cmd'.args)
    (h : Handled build env (σ.clientFor k).1 (σ.clientFor k).2 p cmd a) : OnceEach a.server := by
  have hclient := clientFor_onceEach hcons hσ k
  have hparser := stored_sameLogin σ k p
  cases h with
  | ignored => exact hparser.onceEach hclient
  | ran h =>
    have ha := runSwitch_onceEach (hparser.onceEach hclient)
      (fun hid ↦ (userInOrder_stored k p _).mpr (horder _ rfl hid)) h
    exact ha

theorem AdminFrame.onceEach {op : AdminOp} (h : AdminFrame op σ τ) (hcons : Consistent σ)
    (hσ : OnceEach σ) : OnceEach τ := by
  intro d hd u hu
  have hd := h.registered hd
  rw [h.nodes]
  rcases h.clients u hu with ⟨hu, hsame⟩ | ⟨rfl, -, hempty⟩
  · rw [hsame]
    exact hσ d hd u hu
  · -- nobody is bound to a user that has just been added
    have hother : (σ.nodes d).user ≠ some σ.userManager.nextUser := by
      intro huser
      exact Nat.lt_irrefl _ (hcons.bound d _ (hcons.allocated d hd) huser)
    rw [hempty, if_neg hother]
    rfl

/-- A client node that is bound to a user when its command arrives is registered. -/
theorem clientFor_registered (k : Connection)
    (huser : ((σ.clientFor k).1.nodes (σ.clientFor k).2).user ≠ none) :
    Registered (σ.clientFor k).1 (σ.clientFor k).2 := by
  rcases clientFor_cases σ k with ⟨c, hfind, h⟩ | ⟨-, h⟩
  · rw [h]
    exact (findClient_eq_some hfind).1
  · rw [h] at huser
    simp [setNode, freshNode] at huser

theorem ClientFrame.connected {c : ClientRef} (h : ClientFrame c σ τ) (hσ : Connected σ)
    (hc : (σ.nodes c).ctrlSocket ∈ σ.connections.map (·.handle)) : Connected τ := by
  intro d hd
  rw [h.handles]
  by_cases hdc : d = c
  · rw [hdc, h.ctrlSocket]
    exact hc
  · rw [h.nodes d hdc]
    exact hσ d ((h.registered hdc).mp hd)

section Length

variable {c : ClientRef} {u : UserRef}

end Length

end Event

/-! ## Runs -/

section Runs

variable {build : Build} {σ τ : FtpServer} {trace : List (FtpServer × Event Line)}

theorem Initial.onceEach (h : Initial σ) : OnceEach σ := by
  intro c hc
  rcases hc with ⟨u, -, hmem⟩
  rw [clientsOf, h.noClients u] at hmem
  cases hmem

theorem Initial.connected (h : Initial σ) : Connected σ := by
  intro c hc
  rcases hc with ⟨u, -, hmem⟩
  rw [clientsOf, h.noClients u] at hmem
  cases hmem

end Runs

section Disconnect

variable {build : Build} {σ τ : FtpServer} {trace : List (FtpServer × Event Line)}

end Disconnect

end YFtp.FtpServer
