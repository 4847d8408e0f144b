import YFtp.ClientLists

/-!
# Authentication

Who a client that is logged in has shown to be.  PASS checks the password only of a client whose
`is_anonymous_` is not set, and only REIN resets that flag, so a client that logged in as anonymous
before may pass for any account that it names with USER.
-/

namespace YFtp.FtpServer

/-- An event and the state in which it happened. -/
abbrev Entry := FtpServer × Event Line

/-- The client sends USER. -/
def UserSent (c : ClientRef) (p : Entry) : Prop :=
  ∃ q ∈ request p.1 p.2, q.client = c ∧ q.cmd.id = .USER

/-- The client sends USER with the name of the account `u`, which is enabled. -/
def NamedBy (c : ClientRef) (u : UserRef) (p : Entry) : Prop :=
  ∃ q ∈ request p.1 p.2, q.client = c ∧ q.cmd.id = .USER ∧
    p.1.userManager.findUser q.cmd.args = some u ∧ (p.1.userManager.users u).isEnable = true

/-- The client sends PASS with the password that the account `u` has then. -/
def PassGiven (c : ClientRef) (u : UserRef) (p : Entry) : Prop :=
  ∃ q ∈ request p.1 p.2, q.client = c ∧ q.cmd.id = .PASS ∧
    q.cmd.args = (p.1.userManager.users u).userPassword

instance (c : ClientRef) (u : UserRef) (p : Entry) : Decidable (PassGiven c u p) :=
  inferInstanceAs (Decidable (∃ _ ∈ _, _))

/-- The last USER of the client in the run named the account `u`. -/
def Selected (c : ClientRef) (u : UserRef) (trace : List Entry) : Prop :=
  ∃ later p earlier, trace = later ++ p :: earlier ∧ NamedBy c u p ∧ ∀ q ∈ later, ¬UserSent c q

/-- The last USER of the client in the run named the account `u`, and a PASS after it gave the
password of `u`. -/
def Authenticated (c : ClientRef) (u : UserRef) (trace : List Entry) : Prop :=
  ∃ later p earlier, trace = later ++ p :: earlier ∧ NamedBy c u p ∧
    (∀ q ∈ later, ¬UserSent c q) ∧ ∃ q ∈ later, PassGiven c u q

/-- A PASS from a client whose `is_anonymous_` is set, and that is not logged in but bound to a
named account, carries the password of that account. -/
def PassHonest (σ : FtpServer) (q : Request) : Prop :=
  q.node.isAnonymous = true → q.node.isLogged = false → ∀ u ∈ q.node.user,
    (σ.userManager.users u).userName = "anonymous".toList ∨
      q.cmd.args = (σ.userManager.users u).userPassword

instance (σ : FtpServer) (q : Request) : Decidable (PassHonest σ q) :=
  inferInstanceAs (Decidable (_ → _ → ∀ _ ∈ _, _))

/-- A USER that finds no room for another anonymous login comes from a client that is logged in, is
bound to nobody, or stands in no list but once in that of its user. -/
def FullInOrder (σ : FtpServer) (q : Request) : Prop :=
  σ.asksAnonymous q.cmd.args = true → q.node.isLogged = false →
    (∀ u ∈ σ.userManager.findUser "anonymous".toList,
      UserManager.hasRoom (σ.userManager.users u) = false) →
    q.node.user = none ∨ Placed σ q.client

instance (σ : FtpServer) (q : Request) : Decidable (FullInOrder σ q) :=
  inferInstanceAs (Decidable (_ → _ → (∀ _ ∈ _, _) → _))

def KeepsIdentity (σ : FtpServer) (e : Event Line) : Prop :=
  ∀ q ∈ request σ e,
    (q.cmd.id = .PASS → PassHonest σ q) ∧ (q.cmd.id = .USER → FullInOrder σ q)

instance (σ : FtpServer) (e : Event Line) : Decidable (KeepsIdentity σ e) :=
  inferInstanceAs (Decidable (∀ _ ∈ _, _))

section History

variable {c : ClientRef} {u : UserRef} {p : Entry} {trace : List Entry}

theorem NamedBy.selected (h : NamedBy c u p) : Selected c u (p :: trace) :=
  ⟨[], p, trace, rfl, h, by simp⟩

theorem Selected.cons (h : Selected c u trace) (hp : ¬UserSent c p) :
    Selected c u (p :: trace) := by
  rcases h with ⟨later, q, earlier, rfl, hnamed, hlater⟩
  exact ⟨p :: later, q, earlier, rfl, hnamed, List.forall_mem_cons.mpr ⟨hp, hlater⟩⟩

theorem Authenticated.cons (h : Authenticated c u trace) (hp : ¬UserSent c p) :
    Authenticated c u (p :: trace) := by
  rcases h with ⟨later, q, earlier, rfl, hnamed, hlater, q', hq', hpass⟩
  exact ⟨p :: later, q, earlier, rfl, hnamed, List.forall_mem_cons.mpr ⟨hp, hlater⟩,
    q', List.mem_cons_of_mem _ hq', hpass⟩

/-- PASS with the password of the account that the last USER named. -/
theorem Selected.authenticated (h : Selected c u trace) (hp : PassGiven c u p)
    (huser : ¬UserSent c p) : Authenticated c u (p :: trace) := by
  rcases h with ⟨later, q, earlier, rfl, hnamed, hlater⟩
  exact ⟨p :: later, q, earlier, rfl, hnamed, List.forall_mem_cons.mpr ⟨huser, hlater⟩,
    p, List.mem_cons_self, hp⟩

theorem Authenticated.passGiven (h : Authenticated c u trace) : ∃ p ∈ trace, PassGiven c u p := by
  rcases h with ⟨later, q, earlier, rfl, -, -, p, hp, hpass⟩
  exact ⟨p, List.mem_append_left _ hp, hpass⟩

end History

section Untouched

variable {build : Build} {σ τ υ : FtpServer} {d : ClientRef} {e : Event Line} {fs : List Effect}

/-- The login of the client `d` is as it was, and it has entered no list. -/
structure Untouched (σ τ : FtpServer) (d : ClientRef) : Prop where
  user : (τ.nodes d).user = (σ.nodes d).user
  isLogged : (τ.nodes d).isLogged = (σ.nodes d).isLogged
  registered : Registered τ d → Registered σ d

theorem Untouched.refl (σ : FtpServer) (d : ClientRef) : Untouched σ σ d := ⟨rfl, rfl, id⟩

theorem Untouched.trans (h₁ : Untouched σ τ d) (h₂ : Untouched τ υ d) : Untouched σ υ d :=
  ⟨h₂.user.trans h₁.user, h₂.isLogged.trans h₁.isLogged, h₁.registered ∘ h₂.registered⟩

theorem SameLogin.untouched (h : SameLogin σ τ) (d : ClientRef) : Untouched σ τ d :=
  ⟨h.user d, h.isLogged d, (h.registered d).mp⟩

theorem ClientFrame.untouched {c : ClientRef} (h : ClientFrame c σ τ) (hd : d ≠ c) :
    Untouched σ τ d :=
  ⟨by rw [h.nodes d hd], by rw [h.nodes d hd], (h.registered hd).mp⟩

theorem clientFor_untouched (k : Connection) (hd : d < σ.nextClient) :
    Untouched σ (σ.clientFor k).1 d := by
  have hkeeps := clientFor_frame σ k
  have hnode := hkeeps.nodes d hd
  exact ⟨by rw [hnode], by rw [hnode], (hkeeps.registered d).mp⟩

theorem EndFrame.untouched (h : EndFrame σ τ) (d : ClientRef) : Untouched σ τ d := by
  rcases h.nodes d with ⟨isOpen, hnode⟩
  exact ⟨by rw [hnode], by rw [hnode], h.registered d⟩

/-- An event leaves the login of every client alone but that of the client it is a request of. -/
theorem exec_untouched (hcons : Consistent σ) (h : exec (onLine build) σ e = .ok (τ, fs))
    (hd : d < τ.nextClient) (hother : ∀ q ∈ request σ e, q.client ≠ d) :
    d < σ.nextClient ∧ Untouched σ τ d := by
  cases e with
  | connect k =>
    rw [exec] at h
    split at h <;> cases h <;> exact ⟨hd, rfl, rfl, id⟩
  | receive s line =>
    rcases exec_line h with
      ⟨-, rfl, -⟩ | ⟨k, cmd, reply, p, a, -, -, -, hrequest, hhandled, hreplied⟩
    · exact ⟨hd, .refl τ d⟩
    · have hdc : d ≠ (σ.clientFor k).2 := fun hdc ↦ hother _ hrequest hdc.symm
      have hparser := stored_sameLogin σ k p
      have hnext : τ.nextClient = (σ.clientFor k).1.nextClient := by
        rw [← hparser.nextClient, ← hhandled.frame.nextClient, hreplied.endFrame.nextClient]
      -- a node that the event has made is that of the request
      have hold : d < σ.nextClient := by
        rcases clientFor_cases σ k with ⟨c, -, hk⟩ | ⟨-, hk⟩
        · rwa [hnext, hk] at hd
        · rw [hk] at hdc
          rw [hnext, hk] at hd
          exact Nat.lt_of_le_of_ne (Nat.le_of_lt_succ hd) hdc
      exact ⟨hold, (clientFor_untouched k hold).trans <| (hparser.untouched d).trans <|
        (hhandled.frame.untouched hdc).trans (hreplied.endFrame.untouched d)⟩
  | close s =>
    rcases exec_close h with ⟨rfl, -⟩ | ⟨-, υ, hυ, rfl⟩
    · exact ⟨hd, .refl τ d⟩
    · have hframe := endWork_endFrame hυ
      have huntouched := hframe.untouched d
      exact ⟨by rw [← hframe.nextClient]; exact hd,
        huntouched.user, huntouched.isLogged, huntouched.registered⟩
  | worker i act env =>
    have hframe := (runWorker_frame h).toSameLogin
    exact ⟨by rwa [← hframe.nextClient], hframe.untouched d⟩
  | admin op env =>
    cases h
    cases hop : σ.administer env op with
    | error e =>
      rw [hop] at hd
      exact ⟨hd, .refl σ d⟩
    | ok τ =>
      have hframe := administer_frame hcons.listed hcons.nodup hcons.anonymous hop
      rw [hop] at hd
      have hd : d < τ.nextClient := hd
      have huser : (τ.nodes d).user = (σ.nodes d).user := by rw [hframe.nodes]
      have hlogged : (τ.nodes d).isLogged = (σ.nodes d).isLogged := by rw [hframe.nodes]
      exact ⟨by rwa [← hframe.nextClient], huser, hlogged, hframe.registered⟩

end Untouched

/-! ## Identified clients -/

/-- What the run so far shows of the account that the client is bound to.  The anonymous account
needs no password. -/
def IdentifiedAt (trace : List Entry) (σ : FtpServer) (c : ClientRef) : Prop :=
  ∀ u ∈ (σ.nodes c).user, (σ.userManager.users u).userName ≠ "anonymous".toList →
    ((σ.nodes c).isLogged = true → Authenticated c u trace) ∧
    (Registered σ c → Selected c u trace)

def Identified (trace : List Entry) (σ : FtpServer) : Prop :=
  ∀ c < σ.nextClient, IdentifiedAt trace σ c

/-- The state `σ` in which the switch runs on the request of the event `e`, which came in the state
`ρ`. -/
structure AtSwitch (ρ : FtpServer) (e : Event Line) (σ : FtpServer) (c : ClientRef)
    (cmd : Command) : Prop where
  request : ∃ n, request ρ e = some ⟨c, n, cmd⟩ ∧ n.user = (σ.nodes c).user ∧
    n.isLogged = (σ.nodes c).isLogged ∧ n.isAnonymous = (σ.nodes c).isAnonymous
  userManager : σ.userManager = ρ.userManager
  isAllowAnonymous : σ.isAllowAnonymous = ρ.isAllowAnonymous
  registered : (σ.nodes c).user ≠ none → Registered σ c
  placed : Placed ρ c → Placed σ c

theorem Incoming.atSwitch {ρ : FtpServer} {e : Event Line} {k : Connection} {env : Env}
    {cmd : Command} (hcons : Consistent ρ) (h : Incoming ρ e k env cmd) (p : RequestParser) :
    AtSwitch ρ e (ρ.stored k p) (ρ.clientFor k).2 cmd := by
  have hparser := stored_sameLogin ρ k p
  constructor
  case request =>
    exact ⟨_, h.request, (hparser.user _).symm, (hparser.isLogged _).symm,
      (hparser.isAnonymous _).symm⟩
  case userManager => exact stored_userManager ρ k p
  case isAllowAnonymous => exact stored_isAllowAnonymous ρ k p
  case registered =>
    intro huser
    rw [hparser.user] at huser
    rw [stored_registered]
    rcases clientFor_cases ρ k with ⟨c, hfind, hk⟩ | ⟨-, hk⟩
    · rw [hk]
      exact (findClient_eq_some hfind).1
    · rw [hk] at huser
      exact absurd (by simp [setNode, freshNode]) huser
  case placed =>
    intro hplaced
    apply hparser.placed
    rcases clientFor_cases ρ k with ⟨c, hfind, hk⟩ | ⟨-, hk⟩
    · rwa [hk] at hplaced ⊢
    · -- a fresh node stands in no list
      apply Placed.of_not_registered
      intro hreg
      rw [(clientFor_frame ρ k).registered, hk] at hreg
      exact Nat.lt_irrefl _ (hcons.allocated _ hreg)

section Identified

variable {build : Build} {ρ σ τ : FtpServer} {c : ClientRef} {u : UserRef} {cmd : Command}
  {e : Event Line} {trace : List Entry} {fs : List Effect}

theorem AtSwitch.userSent (h : AtSwitch ρ e σ c cmd) : UserSent c (ρ, e) ↔ cmd.id = .USER := by
  rcases h.request with ⟨n, hrequest, -⟩
  unfold UserSent
  rw [hrequest]
  simp

theorem AtSwitch.namedBy (h : AtSwitch ρ e σ c cmd) (hid : cmd.id = .USER)
    (hfind : σ.enabledUser cmd.args = some u) : NamedBy c u (ρ, e) := by
  rcases h.request with ⟨n, hrequest, -⟩
  have hsome := enabledUser_eq_some hfind
  rw [h.userManager] at hsome
  exact ⟨_, hrequest, rfl, hid, hsome⟩

theorem AtSwitch.passGiven (h : AtSwitch ρ e σ c cmd) (hid : cmd.id = .PASS)
    (hpass : cmd.args = (σ.userManager.users u).userPassword) : PassGiven c u (ρ, e) := by
  rcases h.request with ⟨n, hrequest, -⟩
  rw [h.userManager] at hpass
  exact ⟨_, hrequest, rfl, hid, hpass⟩

/-- A PASS that logs the client in carries the password of the account it is bound to. -/
theorem AtSwitch.honest (h : AtSwitch ρ e σ c cmd) (hkeeps : KeepsIdentity ρ e)
    (hid : cmd.id = .PASS) (hlogged : (σ.nodes c).isLogged = false)
    (huser : (σ.nodes c).user = some u)
    (hname : (σ.userManager.users u).userName ≠ "anonymous".toList)
    (haccepted : PasswordAccepted σ (σ.nodes c) cmd.args) : PassGiven c u (ρ, e) := by
  rcases haccepted with hanonymous | ⟨-, v, hv, -, hpass⟩
  · rcases h.request with ⟨n, hrequest, hnuser, hnlogged, hnanonymous⟩
    have hpass := ((hkeeps _ hrequest).1 hid) (hnanonymous.trans hanonymous)
      (hnlogged.trans hlogged) u (hnuser.trans huser)
    rw [h.userManager] at hname
    exact ⟨_, hrequest, rfl, hid, hpass.resolve_left hname⟩
  · rw [huser] at hv
    cases hv
    exact h.passGiven hid hpass

/-- A USER that finds no room for an anonymous login. -/
theorem AtSwitch.full (h : AtSwitch ρ e σ c cmd) (hkeeps : KeepsIdentity ρ e)
    (hid : cmd.id = .USER) (hlogged : (σ.nodes c).isLogged = false)
    (hask : σ.asksAnonymous cmd.args = true)
    (hroom : ∀ u, σ.userManager.findUser "anonymous".toList = some u →
      UserManager.hasRoom (σ.userManager.users u) = false) :
    (σ.nodes c).user = none ∨ Placed σ c := by
  rcases h.request with ⟨n, hrequest, hnuser, hnlogged, -⟩
  have hask : ρ.asksAnonymous cmd.args = true := by
    rwa [asksAnonymous, h.isAllowAnonymous] at hask
  rw [h.userManager] at hroom
  rcases ((hkeeps _ hrequest).2 hid) hask (hnlogged.trans hlogged) hroom with hnone | hplaced
  · exact .inl (hnuser.symm.trans hnone)
  · exact .inr (h.placed hplaced)

theorem identifiedAt_of_unbound (h : (σ.nodes c).user = none) : IdentifiedAt trace σ c := by
  intro u hu
  rw [h] at hu
  cases hu

theorem IdentifiedAt.untouched (h : IdentifiedAt trace σ c) (huntouched : Untouched σ τ c)
    (hname : ∀ u ∈ (σ.nodes c).user,
      (τ.userManager.users u).userName = (σ.userManager.users u).userName) :
    IdentifiedAt trace τ c := by
  intro u hu
  rw [huntouched.user] at hu
  rw [hname u hu, huntouched.isLogged]
  exact fun hother ↦ ⟨(h u hu hother).1, fun hreg ↦ (h u hu hother).2 (huntouched.registered hreg)⟩

theorem IdentifiedAt.cons (h : IdentifiedAt trace σ c) {p : Entry} (hp : ¬UserSent c p) :
    IdentifiedAt (p :: trace) σ c :=
  fun u hu hname ↦ ⟨fun hlogged ↦ ((h u hu hname).1 hlogged).cons hp,
    fun hreg ↦ ((h u hu hname).2 hreg).cons hp⟩

theorem logOut_isLogged (h : σ.logOut c = .ok τ) : (τ.nodes c).isLogged = false := by
  rcases logOut_cases h with ⟨hlogged, rfl⟩ | ⟨-, u, -, rfl⟩
  · exact hlogged
  · rw [setNode_self]

/-- USER with a name of an account binds the client, without logging it in. -/
theorem identifiedAt_of_named {p : Entry} (huser : (σ.nodes c).user = some u)
    (hlogged : (σ.nodes c).isLogged = false) (hnamed : NamedBy c u p) :
    IdentifiedAt (p :: trace) σ c := by
  intro v hv _
  rw [huser] at hv
  cases hv
  constructor
  · intro h
    rw [hlogged] at h
    cases h
  · exact fun _ ↦ hnamed.selected

/-- The client is refused another anonymous login and stays bound to the account it had named
before; the caller of the handler ends the connection. -/
structure Dismissed (a : Answer) (c : ClientRef) : Prop where
  ret : a.ret = false
  isLogged : (a.server.nodes c).isLogged = false
  placed : Placed a.server c

theorem processUserCmd_identified (hat : AtSwitch ρ e σ c cmd) (hcons : Consistent σ)
    (hkeeps : KeepsIdentity ρ e) (hid : cmd.id = .USER) (hname : cmd.args ≠ [])
    {r : FtpServer × Reply × Bool} (h : σ.processUserCmd c cmd.args = .ok r) :
    IdentifiedAt ((ρ, e) :: trace) r.1 c ∨
      Dismissed { server := r.1, reply := r.2.1, ret := r.2.2 } c := by
  have hframe := processUserCmd_frame h
  rcases processUserCmd_ok h with ⟨τ, hτ, hbound⟩
  have hlogged := logOut_isLogged hτ
  have hout := logOut_frame hτ
  cases hbound with
  | @unchanged reply ret hsame =>
    -- no room for an anonymous login, since the name is not empty
    rcases hsame with hnil | ⟨hask, hfull⟩
    · exact absurd hnil hname
    · rw [hout.asksAnonymous] at hask
      simp only [hout.findUser] at hfull
      rcases logOut_cases hτ with ⟨-, rfl⟩ | ⟨-, v, -, rfl⟩
      · rcases hat.full hkeeps hid hlogged hask fun u hu ↦ (hfull u hu).1 with hnone | hplaced
        · exact .inl (identifiedAt_of_unbound hnone)
        · -- the anonymous account exists as long as anonymous logins are allowed
          have hallowed : τ.isAllowAnonymous = true := by
            simp only [asksAnonymous, Bool.and_eq_true] at hask
            exact hask.1
          cases hfind : τ.userManager.findUser "anonymous".toList with
          | none => exact absurd hfind (hcons.anonymous hallowed)
          | some u => exact .inr ⟨(hfull u hfind).2, hlogged, hplaced⟩
      · exact .inl (identifiedAt_of_unbound (by rw [setNode_self]))
  | @anonymous u υ _ _ _ hfind hadd =>
    left
    intro v hv hother
    rw [setNode_self] at hv
    cases hv
    apply absurd _ hother
    rw [setNode_userManager, (addClient_frame hadd).userName]
    exact findUser_name hfind
  | named _ _ hfind hadd =>
    rw [hout.enabledUser] at hfind
    left
    apply identifiedAt_of_named _ _ (hat.namedBy hid hfind)
    · rw [addClient_nodes hadd, setNode_self]
    · rw [addClient_nodes hadd, setNode_self]
      exact hlogged
  | full _ _ hfind =>
    rw [hout.enabledUser] at hfind
    left
    apply identifiedAt_of_named _ _ (hat.namedBy hid hfind)
    · rw [setNode_self]
    · rw [setNode_self]
      exact hlogged
  | unknown => exact .inl (identifiedAt_of_unbound (by rw [setNode_self]))

theorem processPasswordCmd_identified (hat : AtSwitch ρ e σ c cmd) (hkeeps : KeepsIdentity ρ e)
    (hid : cmd.id = .PASS) (h : IdentifiedAt trace σ c) :
    IdentifiedAt ((ρ, e) :: trace) (σ.processPasswordCmd c cmd.args).1 c := by
  have hsent : ¬UserSent c (ρ, e) := by
    rw [hat.userSent, hid]
    decide
  rw [processPasswordCmd_eq]
  split
  · rename_i haccepted
    intro u hu hname
    rw [setNode_self] at hu
    have hu : (σ.nodes c).user = some u := hu
    have hreg : Registered σ c := hat.registered (Option.ne_none_iff_exists'.mpr ⟨u, hu⟩)
    have hselected := (h u hu hname).2 hreg
    constructor
    · intro _
      -- a client that was logged in already has shown its password before
      cases hlogged : (σ.nodes c).isLogged with
      | true => exact ((h u hu hname).1 hlogged).cons hsent
      | false =>
        exact hselected.authenticated (hat.honest hkeeps hid hlogged hu hname haccepted) hsent
    · exact fun _ ↦ hselected.cons hsent
  · exact identifiedAt_of_unbound (unbind_user σ c)

theorem runSwitch_identified {env : Env} {a : Answer} (hat : AtSwitch ρ e σ c cmd)
    (hcons : Consistent σ) (hkeeps : KeepsIdentity ρ e) (hname : cmd.id = .USER → cmd.args ≠ [])
    (h : IdentifiedAt trace σ c) (hrun : σ.runSwitch build env c cmd = .ok a) :
    IdentifiedAt ((ρ, e) :: trace) a.server c ∨ Dismissed a c := by
  rcases runSwitch_cases hrun with
    ⟨hid, r, hr, rfl⟩ | ⟨hid, rfl⟩ | ⟨-, rfl⟩ | ⟨hid, o, ports, -, rfl⟩
  · exact processUserCmd_identified hat hcons hkeeps hid (hname hid) hr
  · exact .inl (processPasswordCmd_identified hat hkeeps hid h)
  · -- REIN binds the client to nobody
    left
    apply identifiedAt_of_unbound
    rw [processReinCmd, setNode_self]
    exact unbind_user σ c
  · have hsent : ¬UserSent c (ρ, e) := by
      rw [hat.userSent]
      intro huser
      rw [huser] at hid
      cases hid
    have hsame := conclude_sameLogin env { σ with dataPorts := ports } c o
    have huntouched : Untouched σ ({ σ with dataPorts := ports }.conclude env c o).server c :=
      ⟨hsame.user c, hsame.isLogged c, (hsame.registered c).mp⟩
    have hnames := congrArg UserManager.users hsame.userManager
    exact .inl ((h.untouched huntouched fun u _ ↦ by rw [hnames]).cons hsent)

/-- The caller of the handler either goes on or ends the connection, after which a dismissed client
is not registered any more. -/
theorem Replied.identifiedAt {k : Connection} {a : Answer} (h : Replied k a τ fs)
    (hserves : Serves a.server k.handle c)
    (ha : IdentifiedAt trace a.server c ∨ Dismissed a c) : IdentifiedAt trace τ c := by
  have hnames : ∀ u,
      (τ.userManager.users u).userName = (a.server.userManager.users u).userName := by
    cases h with
    | goesOn => exact fun _ ↦ rfl
    | ended _ hend =>
      rcases endWork_ok hend with ⟨-, rfl⟩ | ⟨d, -, hd⟩
      · exact fun _ ↦ rfl
      · exact (endClient_frame hd).userName
  have huntouched := h.endFrame.untouched c
  rcases ha with ha | ha
  · exact ha.untouched huntouched fun u _ ↦ hnames u
  · cases h with
    | goesOn hret =>
      rw [ha.ret] at hret
      cases hret
    | @ended υ _ hend =>
      have hnot : ¬Registered υ c := endWork_not_registered hserves ha.placed hend
      intro u _ _
      constructor
      · intro hlogged
        rw [huntouched.isLogged, ha.isLogged] at hlogged
        cases hlogged
      · exact fun hreg ↦ absurd hreg hnot

/-- No event changes the name of an account. -/
theorem exec_userName (hcons : Consistent σ) (h : exec (onLine build) σ e = .ok (τ, fs))
    (u : UserRef) (hu : u < σ.userManager.nextUser) :
    (τ.userManager.users u).userName = (σ.userManager.users u).userName := by
  refine exec_invariant hcons
    (P := fun υ ↦ (υ.userManager.users u).userName = (σ.userManager.users u).userName) rfl
    ?connections ?client ?parser ?run ?ended ?worker ?admin h
  case connections => exact fun _ hυ ↦ hυ
  case client =>
    intro k
    rw [(clientFor_frame σ k).userManager]
  case parser => exact fun _ _ hυ ↦ hυ
  case run =>
    intro k p env cmd a _ hυ hrun
    rw [(runSwitch_frame hrun).userName]
    exact hυ
  case ended =>
    intro υ ω s c _ _ hυ hend
    rw [(endClient_frame hend).userName]
    exact hυ
  case worker =>
    intro υ hframe
    rw [hframe.userManager]
  case admin => exact fun _ _ hframe ↦ hframe.userName u hu

/-- The client node that a line is given to, before the switch runs. -/
theorem stored_identifiedAt (hcons : Consistent σ) (hσ : Identified trace σ) (k : Connection)
    (p : RequestParser) : IdentifiedAt trace (σ.stored k p) (σ.clientFor k).2 := by
  have hfound : IdentifiedAt trace (σ.clientFor k).1 (σ.clientFor k).2 := by
    rcases clientFor_cases σ k with ⟨d, hfind, hk⟩ | ⟨-, hk⟩
    · rw [hk]
      exact hσ d (hcons.allocated d (findClient_eq_some hfind).1)
    · rw [hk]
      exact identifiedAt_of_unbound (by simp [setNode, freshNode])
  exact hfound.untouched ((stored_sameLogin σ k p).untouched _) fun _ _ ↦ rfl

/-- A line is processed: its client stays identified, or is dismissed. -/
theorem Handled.identified {s : Handle} {line : Line} {k : Connection} {p : RequestParser}
    {reply : Reply} {a : Answer} (hcons : Consistent σ)
    (hkeeps : KeepsIdentity σ (.receive s line)) (hσ : Identified trace σ)
    (hcommand : RequestParser.getCommand ((σ.clientFor k).1.nodes (σ.clientFor k).2).isLogged
      line.bytes = .ok (cmd, reply))
    (hrequest : request σ (.receive s line)
      = some ⟨(σ.clientFor k).2, (σ.clientFor k).1.nodes (σ.clientFor k).2, cmd⟩)
    (h : Handled build line.env (σ.clientFor k).1 (σ.clientFor k).2 p
      (if cmd.id = .invalid then none else some cmd) a) :
    IdentifiedAt ((σ, .receive s line) :: trace) a.server (σ.clientFor k).2 ∨
      Dismissed a (σ.clientFor k).2 := by
  have hfound := stored_identifiedAt hcons hσ k p
  by_cases hid : cmd.id = .invalid
  · rw [if_pos hid] at h
    cases h with
    | ignored =>
      have hsent : ¬UserSent (σ.clientFor k).2 (σ, .receive s line) := by
        rintro ⟨q, hq, -, huser⟩
        rw [Option.mem_def, hrequest] at hq
        cases hq
        rw [hid] at huser
        cases huser
      exact .inl (hfound.cons hsent)
  · rw [if_neg hid] at h
    have hincoming := Incoming.of_command hrequest hcommand hid
    cases h with
    | ran hrun =>
      have hat := hincoming.atSwitch hcons p
      have hstored := setParser_consistent (clientFor_consistent k hcons) (σ.clientFor k).2 p
      have hb := runSwitch_identified hat hstored hkeeps hincoming.named hfound hrun
      rcases hb with hb | ⟨hret, hlogged, hplaced⟩
      · exact .inl hb
      · exact .inr ⟨hret, hlogged, hplaced⟩

theorem exec_identified (hcons : Consistent σ) (hkeeps : KeepsIdentity σ e)
    (hσ : Identified trace σ) (h : exec (onLine build) σ e = .ok (τ, fs)) :
    Identified ((σ, e) :: trace) τ := by
  intro c hc
  by_cases hother : ∀ q ∈ request σ e, q.client ≠ c
  · -- a client that the event is no request of
    have hsent : ¬UserSent c (σ, e) := by
      rintro ⟨q, hq, hclient, -⟩
      exact hother q hq hclient
    rcases exec_untouched hcons h hc hother with ⟨hc, huntouched⟩
    exact ((hσ c hc).untouched huntouched fun u hu ↦
      exec_userName hcons h u (hcons.bound c u hc hu)).cons hsent
  · -- the client of the request
    rw [not_forall₂] at hother
    rcases hother with ⟨q, hq, hclient⟩
    rw [not_not] at hclient
    cases e with
    | receive s line =>
      rcases exec_line h with ⟨hnone, -, -⟩ |
        ⟨k, cmd, reply, p, a, -, -, hcommand, hrequest, hhandled, hreplied⟩
      · simp [request, hnone] at hq
      · rw [Option.mem_def, hrequest] at hq
        rw [← Option.some.inj hq] at hclient
        have hclient : (σ.clientFor k).2 = c := hclient
        subst hclient
        exact hreplied.identifiedAt (hhandled.consistent hcons).2
          (hhandled.identified hcons hkeeps hσ hcommand hrequest)
    | _ => cases hq

end Identified

section Runs

variable {build : Build} {σ τ : FtpServer} {trace : List Entry} {c : ClientRef} {u : UserRef}

theorem lineRun_identified (hσ : Initial σ) (run : LineRun build σ trace τ)
    (hkeeps : ∀ p ∈ trace, KeepsIdentity p.1 p.2) : Consistent τ ∧ Identified trace τ := by
  have hstart : Consistent σ ∧ Identified [] σ := by
    refine ⟨hσ.consistent, fun c hc ↦ ?_⟩
    rw [hσ.noNodes] at hc
    exact absurd hc (Nat.not_lt_zero c)
  apply run.invariant_of_trace (P := fun trace υ ↦ Consistent υ ∧ Identified trace υ)
    (C := KeepsIdentity) hstart _ hkeeps
  · rintro trace ρ e υ ⟨hcons, hidentified⟩ hstep ⟨fs, h⟩
    exact ⟨exec_consistent (onLine_serving build) hcons h,
      exec_identified hcons hstep hidentified h⟩

/-- A client that is logged in to a named account has named it in its last USER, and has given its
password since. -/
theorem logged_authenticated (hσ : Initial σ) (run : LineRun build σ trace τ)
    (hkeeps : ∀ p ∈ trace, KeepsIdentity p.1 p.2) (hc : c < τ.nextClient)
    (hlogged : (τ.nodes c).isLogged = true) (huser : (τ.nodes c).user = some u)
    (hname : (τ.userManager.users u).userName ≠ "anonymous".toList) :
    Authenticated c u trace :=
  ((lineRun_identified hσ run hkeeps).2 c hc u huser hname).1 hlogged

end Runs

/-- A login with name and password. -/
theorem logged_authenticated_login : ∃ trace τ, LineRun {} Sample.server trace τ ∧
    (τ.nodes 0).isLogged = true ∧ (τ.nodes 0).user = some 1 ∧ Authenticated 0 1 trace := by
  rcases exists_lineRun {} Sample.server
      [.connect Sample.connection, Sample.line "USER anonymous", Sample.line "USER bob",
        Sample.line "PASS pw"]
      (fun r ↦ r.1.all (fun p ↦ KeepsIdentity p.1 p.2) && 0 < r.2.nextClient &&
        (r.2.nodes 0).isLogged && (r.2.nodes 0).user = some 1 &&
        (r.2.userManager.users 1).userName ≠ "anonymous".toList)
      (by decide +kernel) with ⟨trace, τ, run, h⟩
  simp only [Bool.and_eq_true, List.all_eq_true, decide_eq_true_eq] at h
  rcases h with ⟨⟨⟨⟨hkeeps, hc⟩, hlogged⟩, huser⟩, hname⟩
  exact ⟨trace, τ, run, hlogged, huser,
    logged_authenticated Sample.initial run hkeeps hc hlogged huser hname⟩

/-- After an anonymous login, any password is accepted for the account that USER names. -/
theorem logged_authenticated_fails : Initial Sample.server ∧
    ∃ trace τ, LineRun {} Sample.server trace τ ∧ 0 < τ.nextClient ∧
      (τ.nodes 0).isLogged = true ∧ (τ.nodes 0).user = some 1 ∧
      (τ.userManager.users 1).userName = "bob".toList ∧ ¬Authenticated 0 1 trace := by
  refine ⟨Sample.initial, ?_⟩
  rcases exists_lineRun {} Sample.server
      [.connect Sample.connection, Sample.line "USER anonymous", Sample.line "USER bob",
        Sample.line "PASS x"]
      (fun r ↦ r.1.all (fun p ↦ ¬PassGiven 0 1 p) && 0 < r.2.nextClient &&
        (r.2.nodes 0).isLogged && (r.2.nodes 0).user = some 1 &&
        (r.2.userManager.users 1).userName = "bob".toList)
      (by decide +kernel) with ⟨trace, τ, run, h⟩
  simp only [Bool.and_eq_true, List.all_eq_true, decide_eq_true_eq] at h
  rcases h with ⟨⟨⟨⟨hpass, hc⟩, hlogged⟩, huser⟩, hname⟩
  refine ⟨trace, τ, run, hc, hlogged, huser, hname, fun hauth ↦ ?_⟩
  rcases hauth.passGiven with ⟨p, hp, hgiven⟩
  exact hpass p hp hgiven

end YFtp.FtpServer
