import YFtp.Registry
import YFtp.HandlerSpecs

/-!
# Authorization

Which account each effect rests on.  The handlers look at a privilege bit when they run and the
parser lets only a few commands through before login, so that two things can go wrong: RNTO relies
on the check made by RNFR, and SITE passes the gate of the parser.
-/

namespace YFtp

/-- What an account may be allowed to do. -/
inductive Right
  | privilege (p : UserPrivilege)
  | extracmd
deriving DecidableEq, Repr

/-- The account has the bit for it. -/
def UserNode.allows (u : UserNode) : Right → Bool
  | .privilege p => u.holds p
  | .extracmd => u.extraCmd &&& extracmdExec = extracmdExec

/-- The right that an effect needs. -/
def Effect.needs : Effect → Option Right
  | .startRetrieve _ => some (.privilege .readFile)
  | .startStore _ => some (.privilege .writeFile)
  | .startList _ => some (.privilege .listDir)
  | .removeFile _ | .rename _ _ => some (.privilege .deleteFile)
  | .createDirectory _ => some (.privilege .createDir)
  | .removeDirectory _ => some (.privilege .deleteDir)
  | .system _ => some .extracmd
  | _ => none

/-- The right that a running transfer needs. -/
def Job.needs : Job → Right
  | .list _ _ => .privilege .listDir
  | .retrieve => .privilege .readFile
  | .store => .privilege .writeFile

namespace FtpServer

/-- The session is logged in and its current user has the right. -/
def Permitted (σ : FtpServer) (n : ClientNode) (r : Right) : Prop :=
  n.isLogged = true ∧ ∃ u ∈ n.user, (σ.userManager.users u).allows r = true

instance (σ : FtpServer) (n : ClientNode) (r : Right) : Decidable (Permitted σ n r) :=
  inferInstanceAs (Decidable (_ ∧ _))

/-- Every running transfer belongs to a session that may make it. -/
def TransfersPermitted (σ : FtpServer) : Prop :=
  ∀ w ∈ σ.workers, Permitted σ (σ.nodes w.client) w.job.needs

/-- The name that an event calls `set_user_privilege` with, and the privileges. -/
def setsPrivilege : Event Line → Option (WString × UInt8)
  | .admin (.setUserPrivilege name priv) _ => some (name, priv)
  | _ => none

/-- A rename that has been begun stays in the hands of accounts that may delete files, and SITE
EXEC is not sent before login. -/
def KeepsRename (build : Build) (σ : FtpServer) (e : Event Line) : Prop :=
  (∀ q ∈ request σ e, q.cmd.id = .USER → q.node.renameFromPath ≠ [] →
    ∀ u ∈ σ.namedUser q.cmd.args, (σ.userManager.users u).holds .deleteFile = true) ∧
  (∀ call ∈ setsPrivilege e, ∀ c < σ.nextClient, (σ.nodes c).renameFromPath ≠ [] →
    ∀ u ∈ (σ.nodes c).user, σ.userManager.Addressed call.1 u →
      call.2 &&& UserPrivilege.deleteFile.bit ≠ 0) ∧
  ∀ q ∈ request σ e, build.useExtraCmd = true → q.cmd.id = .SITE →
    q.cmd.args.take 5 = "EXEC ".toList → q.node.isLogged = false →
    ∀ u ∈ q.node.user, (σ.userManager.users u).allows .extracmd = false

instance (build : Build) (σ : FtpServer) (e : Event Line) : Decidable (KeepsRename build σ e) :=
  @instDecidableAnd _ _ inferInstance (@instDecidableAnd _ _ inferInstance inferInstance)

/-- While a transfer runs, its session keeps its login and its user keeps the right to it. -/
def KeepsTransfers (σ : FtpServer) (e : Event Line) : Prop :=
  (∀ q ∈ request σ e, (∃ w ∈ σ.workers, w.client = q.client) →
    q.cmd.id ≠ .USER ∧ q.cmd.id ≠ .REIN ∧
    (q.cmd.id = .PASS → PasswordAccepted σ q.node q.cmd.args)) ∧
  ∀ call ∈ setsPrivilege e, ∀ w ∈ σ.workers, ∀ u ∈ (σ.nodes w.client).user,
    σ.userManager.Addressed call.1 u →
      ({ userPrivilege := call.2 : UserNode }).allows w.job.needs = true

instance (σ : FtpServer) (e : Event Line) : Decidable (KeepsTransfers σ e) :=
  inferInstanceAs (Decidable (_ ∧ _))

/-- A rename is pending only for a user that may delete files. -/
def RenamePermitted (σ : FtpServer) : Prop :=
  ∀ c < σ.nextClient, (σ.nodes c).renameFromPath ≠ [] →
    ∀ u ∈ (σ.nodes c).user, (σ.userManager.users u).holds .deleteFile = true

/-! ## What the gate of the parser leaves -/

/-- The effects of the commands that pass before login. -/
theorem SessionRun.early {build : Build} {env : Env} {σ : FtpServer} {c : ClientRef}
    {cmd : Command} {o : Outcome} {ports : DataPorts}
    (h : SessionRun build env σ c cmd o ports) (hid : cmd.id ∈ RequestParser.beforeLogon) :
    ∀ f ∈ o.effects, ∀ r ∈ f.needs, r = .extracmd ∧ cmd.id = .SITE ∧ build.useExtraCmd = true ∧
      cmd.args.take 5 = "EXEC ".toList := by
  intro f hf r hr
  cases h with
  | pasv hpasv =>
    rw [hpasv] at hid
    exact absurd hid (by decide)
  | plain => cases hf
  | handler h =>
    unfold sessionHandler at h
    dsimp only at h
    cases hcmd : cmd.id <;> rw [hcmd] at h hid <;> dsimp only at h
    case AUTH =>
      cases h
      rcases (Session.processAuthCmd_spec build σ.sslContext (σ.usesSsl c) cmd.args
        (σ.nodes c).toSession).2 f hf with rfl | ⟨text, rfl⟩ <;> cases hr
    case PROT =>
      cases h
      have hspec := Session.processProtCmd_spec build (σ.usesSsl c) cmd.args (σ.nodes c).toSession
      rw [hspec.2.2] at hf
      cases hf
    case SITE =>
      split at h
      · rename_i hextra
        rcases (Session.processSiteCmd_spec (Option.some.inj h)).2 f hf with
          ⟨text, u, rfl, -, -, hprefix⟩
        cases hr
        exact ⟨rfl, rfl, hextra, hprefix⟩
      · cases h
    -- every other command is stopped before login or is not one of the session's handlers
    all_goals first | exact absurd hid (by decide) | cases h

/-- What an effect rests on, when a pending rename is permitted. -/
theorem allows_of_justified {env : Env} {s : Session} {user : Option UserNode} {arg : WString}
    {f : Effect} {r : Right} (hf : Justified env s user arg f) (hr : r ∈ f.needs)
    (hrename : s.renameFromPath ≠ [] → ∀ u, user = some u → u.holds .deleteFile = true) :
    ∃ u, user = some u ∧ u.allows r = true := by
  cases f with
  | switch => exact hf.elim
  | send | handshake | openData | status | fileSize | lastWriteTime => cases hr
  | removeFile | removeDirectory | createDirectory | startRetrieve | startStore =>
    cases hr
    rcases hf with ⟨u, huser, hholds, -⟩
    exact ⟨u, huser, hholds⟩
  | startList =>
    cases hr
    rcases hf with ⟨-, u, huser, hholds⟩
    exact ⟨u, huser, hholds⟩
  | rename =>
    cases hr
    rcases hf with ⟨rfl, hne, u, huser, -⟩
    exact ⟨u, huser, hrename hne u huser⟩
  | system =>
    cases hr
    rcases hf with ⟨u, huser, hexec⟩
    exact ⟨u, huser, by simpa [UserNode.allows] using hexec⟩

/-! ## The pending rename -/

section Rename

variable {build : Build} {σ τ : FtpServer} {c : ClientRef} {e : Event Line} {fs : List Effect}

/-- A step of one client can only spoil the pending rename of that client. -/
theorem ClientFrame.renamePermitted (h : ClientFrame c σ τ) (hσ : RenamePermitted σ)
    (hc : (τ.nodes c).renameFromPath ≠ [] → ∀ u ∈ (τ.nodes c).user,
      (σ.userManager.users u).holds .deleteFile = true) : RenamePermitted τ := by
  intro d hd hpath u hu
  rw [h.holds]
  by_cases hdc : d = c
  · subst hdc
    exact hc hpath u hu
  · rw [h.nodes d hdc] at hpath hu
    exact hσ d (h.nextClient ▸ hd) hpath u hu

theorem runSwitch_renamePermitted {env : Env} {cmd : Command} {a : Answer}
    (hσ : RenamePermitted σ) (hc : c < σ.nextClient)
    (huser : cmd.id = .USER → (σ.nodes c).renameFromPath ≠ [] →
      ∀ u ∈ σ.namedUser cmd.args, (σ.userManager.users u).holds .deleteFile = true)
    (h : σ.runSwitch build env c cmd = .ok a) : RenamePermitted a.server := by
  apply (runSwitch_frame h).renamePermitted hσ
  intro hpath u hu
  rcases runSwitch_cases h with
    ⟨hid, r, hr, rfl⟩ | ⟨-, rfl⟩ | ⟨-, rfl⟩ | ⟨-, o, ports, hsession, rfl⟩
  · -- USER leaves the pending rename to whoever it binds
    have hsame := processUserCmd_session hr
    dsimp only at hpath hu
    rw [hsame] at hpath
    rcases processUserCmd_user hr hu with hu | hu
    · exact hσ c hc hpath u hu
    · exact huser hid hpath u hu
  · -- PASS binds nobody new
    have hsame := processPasswordCmd_session σ c cmd.args
    dsimp only at hpath hu
    rw [hsame] at hpath
    exact hσ c hc hpath u (processPasswordCmd_user σ c cmd.args hu)
  · -- REIN forgets the pending rename
    simp [processReinCmd] at hpath
  · -- a handler of the session keeps it, forgets it, or is RNFR and has looked at the privilege
    have hspec := hsession.spec
    rw [conclude_nodes] at hpath hu
    have hu : (σ.nodes c).user = some u := by simpa [setSession] using hu
    have hpath : o.session.renameFromPath ≠ [] := by simpa [setSession] using hpath
    rcases hspec.renameFromPath with hsame | hnil | ⟨-, v, hv, hholds, -⟩
    · rw [hsame] at hpath
      exact hσ c hc hpath u hu
    · exact absurd hnil hpath
    · rw [hu] at hv
      rw [Option.some.inj hv]
      exact hholds

theorem clientFor_renamePermitted (hσ : RenamePermitted σ) (k : Connection) :
    RenamePermitted (σ.clientFor k).1 := by
  rcases clientFor_cases σ k with ⟨c, -, hfor⟩ | ⟨-, hfor⟩
  · rw [hfor]
    exact hσ
  · rw [hfor]
    intro d hd hpath u hu
    change ((σ.setNode σ.nextClient (freshNode k)).nodes d).renameFromPath ≠ [] at hpath
    change u ∈ ((σ.setNode σ.nextClient (freshNode k)).nodes d).user at hu
    -- nothing is pending in a fresh node
    by_cases hdc : d = σ.nextClient
    · rw [hdc, setNode_self] at hpath
      exact absurd rfl hpath
    · rw [setNode_of_ne σ (freshNode k) hdc] at hpath hu
      exact hσ d (Nat.lt_of_le_of_ne (Nat.lt_succ_iff.mp hd) hdc) hpath u hu

theorem setParser_renamePermitted (hσ : RenamePermitted σ) (c : ClientRef) (p : RequestParser) :
    RenamePermitted (σ.setParser c p) := by
  intro d hd hpath u hu
  by_cases hdc : d = c
  · subst hdc
    rw [setParser_nodes_self] at hpath hu
    exact hσ d hd hpath u hu
  · rw [setParser_of_ne σ p hdc] at hpath hu
    exact hσ d hd hpath u hu

theorem exec_renamePermitted (hcons : Consistent σ) (hσ : RenamePermitted σ)
    (hkeeps : KeepsRename build σ e) (h : exec (onLine build) σ e = .ok (τ, fs)) :
    RenamePermitted τ := by
  refine exec_invariant hcons hσ (fun _ hσ ↦ hσ) (clientFor_renamePermitted hσ)
    (fun c p hσ ↦ setParser_renamePermitted hσ c p) ?run ?ended ?worker ?admin h
  case run =>
    intro k p env cmd a hincoming hstored hswitch
    apply runSwitch_renamePermitted hstored (clientFor_serves k hcons).allocated ?_ hswitch
    intro hid hpath u hu
    rw [setParser_nodes_self] at hpath
    have hnames : u ∈ σ.namedUser cmd.args := by
      unfold namedUser asksAnonymous enabledUser at hu ⊢
      rwa [stored_userManager, stored_isAllowAnonymous] at hu
    rw [stored_userManager]
    exact hkeeps.1 _ hincoming.request hid hpath u hnames
  case ended =>
    intro σ τ s c hcons hfind hσ hend
    apply (endClient_frame hend).renamePermitted hσ
    intro hpath u hu
    rcases endClient_ok hend with ⟨v, -, rfl⟩
    rw [deleteClient_nodes, setNode_self] at hpath hu
    exact hσ c (hcons.serves hfind).allocated hpath u hu
  case worker =>
    intro τ hframe d hd hpath u hu
    rw [hframe.renameFromPath] at hpath
    rw [hframe.user] at hu
    rw [hframe.userManager]
    exact hσ d (hframe.nextClient ▸ hd) hpath u hu
  case admin =>
    intro τ op env he hop hframe d hd hpath u hu
    rw [hframe.nextClient] at hd
    rw [hframe.nodes] at hpath hu
    -- the privileges of a bound user are as they were, or the call has set them
    rcases hframe.userPrivilege u (hcons.bound d u hd hu) with hsame | ⟨name, hset, haddressed⟩
    · unfold UserNode.holds
      rw [hsame]
      exact hσ d hd hpath u hu
    · rw [hset] at he
      subst he
      simpa [UserNode.holds] using hkeeps.2.1 _ rfl d hd hpath u hu haddressed

-- What is sent needs no right.
theorem needs_of_mem_send {text : WString} : ∀ f ∈ [Effect.send text], f.needs = none := by
  intro f hf
  cases List.mem_singleton.mp hf
  rfl

theorem finishWorker_needs {i : Nat} {job : Job} {complete : Bool}
    (h : σ.finishWorker i c job complete = .ok (τ, fs)) : ∀ f ∈ fs, f.needs = none := by
  rcases eq_ok_of_bind h with ⟨s, -, h⟩
  cases h
  split
  · exact needs_of_mem_send
  · exact List.forall_mem_nil _

/-- What a worker does needs no further right: its transfer was permitted when it was started. -/
theorem runWorker_needs {env : Env} {i : Nat} {act : WorkerStep}
    (h : σ.runWorker env i act = .ok (τ, fs)) : ∀ f ∈ fs, f.needs = none := by
  unfold runWorker at h
  split at h
  · cases h
    exact List.forall_mem_nil _
  · dsimp only at h
    split at h
    · -- `begin`: the preliminary reply
      split at h <;> cases h <;> exact needs_of_mem_send
    · -- `buildPath`: a look at the status of the path
      rcases eq_ok_of_bind h with ⟨user, -, h⟩
      cases h
      intro f hf
      unfold statusEffects at hf
      split at hf
      · cases hf
      · cases List.mem_singleton.mp hf
        rfl
    · split at h
      · cases h
        exact needs_of_mem_send
      · exact finishWorker_needs h
    · exact finishWorker_needs h
    · exact finishWorker_needs h
    · cases h
      exact List.forall_mem_nil _

/-- The effects of the switch, for a client that has come through the gate. -/
theorem runSwitch_permitted {env : Env} {cmd : Command} {a : Answer}
    (hσ : RenamePermitted σ) (hc : c < σ.nextClient)
    (hgate : (σ.nodes c).isLogged = true ∨ cmd.id ∈ RequestParser.beforeLogon)
    (hsite : build.useExtraCmd = true → cmd.id = .SITE → cmd.args.take 5 = "EXEC ".toList →
      (σ.nodes c).isLogged = false → ∀ u ∈ (σ.nodes c).user,
        (σ.userManager.users u).allows .extracmd = false)
    (h : σ.runSwitch build env c cmd = .ok a) :
    ∀ f ∈ a.effects, ∀ r ∈ f.needs, Permitted σ (σ.nodes c) r := by
  rcases runSwitch_cases h with ⟨-, r, -, rfl⟩ | ⟨-, rfl⟩ | ⟨-, rfl⟩ | ⟨-, o, ports, hsession, rfl⟩
  · exact List.forall_mem_nil _
  · exact List.forall_mem_nil _
  · exact List.forall_mem_nil _
  · intro f hf r hr
    rcases hsession.spec.effects f hf with ⟨asked, -, hjustified⟩
    have hallows := allows_of_justified hjustified hr fun hpath v hv ↦ by
      rcases Option.map_eq_some_iff.mp hv with ⟨u, hu, rfl⟩
      exact hσ c hc hpath u hu
    rcases hallows with ⟨v, hv, hallows⟩
    rcases Option.map_eq_some_iff.mp hv with ⟨u, hu, rfl⟩
    have hlogged : (σ.nodes c).isLogged = true := by
      by_contra hlogged
      rw [Bool.not_eq_true] at hlogged
      rcases hgate with hin | hearly
      · rw [hlogged] at hin
        cases hin
      · -- only SITE EXEC has an effect before login that needs a right
        rcases hsession.early hearly f hf r hr with ⟨rfl, hid, hextra, hprefix⟩
        rw [hsite hextra hid hprefix hlogged u hu] at hallows
        cases hallows
    exact ⟨hlogged, u, hu, hallows⟩

/-- The same at the state in which the line is received. -/
theorem runSwitch_permitted_stored {k : Connection} {p : RequestParser} {env : Env}
    {cmd : Command} {a : Answer} (hcons : Consistent σ) (hσ : RenamePermitted σ)
    (hgate : ((σ.clientFor k).1.nodes (σ.clientFor k).2).isLogged = true ∨
      cmd.id ∈ RequestParser.beforeLogon)
    (hsite : build.useExtraCmd = true → cmd.id = .SITE → cmd.args.take 5 = "EXEC ".toList →
      ((σ.clientFor k).1.nodes (σ.clientFor k).2).isLogged = false →
      ∀ u ∈ ((σ.clientFor k).1.nodes (σ.clientFor k).2).user,
        (σ.userManager.users u).allows .extracmd = false)
    (h : (σ.stored k p).runSwitch build env (σ.clientFor k).2 cmd = .ok a) :
    ∀ f ∈ a.effects, ∀ r ∈ f.needs,
      Permitted σ ((σ.clientFor k).1.nodes (σ.clientFor k).2) r := by
  intro f hf r hr
  have hrename := setParser_renamePermitted (clientFor_renamePermitted hσ k) (σ.clientFor k).2 p
  have hpermitted := runSwitch_permitted hrename (clientFor_serves k hcons).allocated
    (by rw [setParser_nodes_self]; exact hgate)
    (by rw [setParser_nodes_self, stored_userManager]; exact hsite) h f hf r hr
  -- storing the parser changes neither the login nor a privilege
  unfold Permitted at hpermitted ⊢
  rw [setParser_nodes_self, stored_userManager] at hpermitted
  exact hpermitted

theorem exec_permitted (hcons : Consistent σ) (hσ : RenamePermitted σ)
    (hkeeps : KeepsRename build σ e) (h : exec (onLine build) σ e = .ok (τ, fs)) :
    ∀ f ∈ fs, ∀ r ∈ f.needs, ∃ q ∈ request σ e, Permitted σ q.node r := by
  apply exec_effects (P := fun f ↦ ∀ r ∈ f.needs, ∃ q ∈ σ.request e, σ.Permitted q.node r)
    _ _ _ _ h
  · intro text r hr
    cases hr
  · intro cmd r hr
    cases hr
  · intro k p env cmd a hincoming hswitch f hf r hr
    have hrequest := hincoming.request
    have hpermitted := runSwitch_permitted_stored hcons hσ hincoming.gate
      (hkeeps.2.2 _ hrequest) hswitch f hf r hr
    exact ⟨_, hrequest, hpermitted⟩
  · rintro i act env rfl f hf r hr
    rw [runWorker_needs h f hf] at hr
    cases hr

end Rename

/-! ## Running transfers -/

section Transfers

variable {build : Build} {σ τ : FtpServer} {c : ClientRef} {e : Event Line} {fs : List Effect}

theorem needs_of_jobOf {f : Effect} {j : Job} (h : jobOf f = some j) : f.needs = some j.needs := by
  cases f <;> cases h <;> rfl

theorem privilege_needs (j : Job) : ∃ p, j.needs = .privilege p := by
  cases j <;> exact ⟨_, rfl⟩

/-- A step of one client leaves the transfers of the others permitted. -/
theorem ClientFrame.permitted (h : ClientFrame c σ τ) {n : ClientNode} {j : Job}
    (hn : Permitted σ n j.needs) : Permitted τ n j.needs := by
  rcases hn with ⟨hlogged, u, hu, hallows⟩
  have hsame : (τ.userManager.users u).allows j.needs = true := by
    rcases privilege_needs j with ⟨p, hp⟩
    rw [hp] at hallows ⊢
    exact (h.holds u p).trans hallows
  exact ⟨hlogged, u, hu, hsame⟩

theorem SameLogin.permitted (h : SameLogin σ τ) (d : ClientRef) (r : Right) :
    Permitted τ (τ.nodes d) r ↔ Permitted σ (σ.nodes d) r := by
  unfold Permitted
  rw [h.isLogged, h.user, h.userManager]

theorem ClientFrame.transfersPermitted (h : ClientFrame c σ τ) (hσ : TransfersPermitted σ)
    (hc : ∀ w ∈ τ.workers, w.client = c → Permitted τ (τ.nodes c) w.job.needs) :
    TransfersPermitted τ := by
  intro w hw
  by_cases hwc : w.client = c
  · rw [hwc]
    exact hc w hw hwc
  · rcases h.workers with ⟨jobs, hjobs⟩
    rw [hjobs] at hw
    rcases List.mem_append.mp hw with hw | hw
    · rw [h.nodes _ hwc]
      exact h.permitted (hσ w hw)
    · rcases List.mem_map.mp hw with ⟨j, -, rfl⟩
      exact absurd rfl hwc

theorem runSwitch_transfersPermitted {env : Env} {cmd : Command} {a : Answer}
    (hσ : TransfersPermitted σ)
    (hbusy : (∃ w ∈ σ.workers, w.client = c) → cmd.id ≠ .USER ∧ cmd.id ≠ .REIN ∧
      (cmd.id = .PASS → PasswordAccepted σ (σ.nodes c) cmd.args))
    (hpermitted : ∀ f ∈ a.effects, ∀ r ∈ f.needs, Permitted σ (σ.nodes c) r)
    (h : σ.runSwitch build env c cmd = .ok a) : TransfersPermitted a.server := by
  have hframe := runSwitch_frame h
  apply hframe.transfersPermitted hσ
  intro w hw hwc
  -- a login command starts no worker
  have hold : a.server.workers = σ.workers → w ∈ σ.workers ∧ ∃ w ∈ σ.workers, w.client = c :=
    fun hsame ↦ ⟨hsame ▸ hw, w, hsame ▸ hw, hwc⟩
  rcases runSwitch_cases h with
    ⟨hid, r, hr, rfl⟩ | ⟨hid, rfl⟩ | ⟨hid, rfl⟩ | ⟨-, o, ports, hsession, rfl⟩
  · -- USER does not come while a worker runs
    exact absurd hid (hbusy (hold (processUserCmd_workers hr)).2).1
  · -- PASS is accepted then
    have hw := hold (processPasswordCmd_workers σ c cmd.args)
    have hbefore := hσ w hw.1
    rw [hwc] at hbefore
    have haccepted := processPasswordCmd_eq σ c cmd.args
    rw [if_pos ((hbusy hw.2).2.2 hid)] at haccepted
    have hafter := hframe.permitted hbefore
    dsimp only at hafter ⊢
    rw [haccepted] at hafter ⊢
    rw [setNode_self]
    exact ⟨rfl, hafter.2⟩
  · -- REIN does not come either
    exact absurd hid (hbusy (hold (processReinCmd_workers σ c)).2).2.1
  · -- a handler of the session keeps the login, and starts only what it is permitted
    rw [(conclude_sameLogin env { σ with dataPorts := ports } c o).permitted]
    rw [conclude_workers] at hw
    rcases List.mem_append.mp hw with hw | hw
    · have hbefore := hσ w hw
      rw [hwc] at hbefore
      exact hbefore
    · rcases List.mem_map.mp hw with ⟨j, hj, rfl⟩
      rcases List.mem_filterMap.mp hj with ⟨f, hf, hjob⟩
      exact hpermitted f hf _ (needs_of_jobOf hjob)

theorem clientFor_transfersPermitted (hcons : Consistent σ) (hσ : TransfersPermitted σ)
    (k : Connection) : TransfersPermitted (σ.clientFor k).1 := by
  have hkeeps := clientFor_frame σ k
  intro w hw
  rw [hkeeps.workers] at hw
  unfold Permitted
  rw [hkeeps.nodes _ (hcons.workers w hw), hkeeps.userManager]
  exact hσ w hw

theorem exec_transfersPermitted (hcons : Consistent σ) (hrename : RenamePermitted σ)
    (hσ : TransfersPermitted σ) (hkeepsRename : KeepsRename build σ e) (hkeeps : KeepsTransfers σ e)
    (h : exec (onLine build) σ e = .ok (τ, fs)) : TransfersPermitted τ := by
  refine exec_invariant hcons hσ (fun _ hσ ↦ hσ) (clientFor_transfersPermitted hcons hσ) ?parser
    ?run ?ended ?worker ?admin h
  case parser =>
    intro σ c p hσ w hw
    exact ((setParser_sameLogin σ c p).permitted w.client _).mpr (hσ w hw)
  case run =>
    intro k p env cmd a hincoming hstored hswitch
    have hbusy : (∃ w ∈ (σ.stored k p).workers, w.client = (σ.clientFor k).2) →
        cmd.id ≠ .USER ∧ cmd.id ≠ .REIN ∧ (cmd.id = .PASS → PasswordAccepted (σ.stored k p)
          ((σ.stored k p).nodes (σ.clientFor k).2) cmd.args) := by
      rw [stored_workers]
      intro hworker
      have hbusy := hkeeps.1 _ hincoming.request hworker
      unfold PasswordAccepted at hbusy ⊢
      rw [setParser_nodes_self, stored_userManager]
      exact hbusy
    apply runSwitch_transfersPermitted hstored hbusy ?_ hswitch
    intro f hf r hr
    have hpermitted := runSwitch_permitted_stored hcons hrename hincoming.gate
      (hkeepsRename.2.2 _ hincoming.request) hswitch f hf r hr
    unfold Permitted at hpermitted ⊢
    rw [setParser_nodes_self, stored_userManager]
    exact hpermitted
  case ended =>
    intro σ τ s c hcons hfind hσ hend
    apply (endClient_frame hend).transfersPermitted hσ
    intro w hw hwc
    have hframe := endClient_frame hend
    rcases endClient_ok hend with ⟨u, -, rfl⟩
    have hbefore := hσ w hw
    rw [hwc] at hbefore
    rw [deleteClient_nodes, setNode_self]
    exact hframe.permitted hbefore
  case worker =>
    intro τ hframe w hw
    rw [hframe.toSameLogin.permitted]
    rcases hframe.workers w hw with hw | ⟨cmd, hjob, hw⟩
    · exact hσ w hw
    · have hbefore := hσ _ hw
      rw [hjob]
      exact hbefore
  case admin =>
    intro τ op env he hop hframe w hw
    rw [hframe.workers] at hw
    rw [hframe.nodes]
    rcases hσ w hw with ⟨hlogged, u, hu, hallows⟩
    refine ⟨hlogged, u, hu, ?_⟩
    have hbound := hcons.bound _ u (hcons.workers w hw) hu
    rcases hframe.userPrivilege u hbound with hsame | ⟨name, hset, haddressed⟩
    · rcases privilege_needs w.job with ⟨p, hp⟩
      rw [hp] at hallows ⊢
      simp only [UserNode.allows, UserNode.holds, hsame] at hallows ⊢
      exact hallows
    · rw [hset] at he
      subst he
      have hpriv := hkeeps.2 _ rfl w hw u hu haddressed
      rcases privilege_needs w.job with ⟨p, hp⟩
      rw [hp] at hpriv ⊢
      exact hpriv

end Transfers

/-! ## Runs -/

section Runs

variable {build : Build} {σ τ : FtpServer} {trace : List (FtpServer × Event Line)}

theorem lineRun_renamePermitted (hσ : Initial σ) (run : LineRun build σ trace τ)
    (hkeeps : ∀ p ∈ trace, KeepsRename build p.1 p.2) : Consistent τ ∧ RenamePermitted τ := by
  have hstart : Consistent σ ∧ RenamePermitted σ :=
    ⟨hσ.consistent, fun c hc ↦ by rw [hσ.noNodes] at hc; exact absurd hc (Nat.not_lt_zero c)⟩
  refine run.invariant_of_steps (P := fun t ↦ Consistent t ∧ RenamePermitted t) hstart ?_ hkeeps
  rintro s e t ⟨hcons, hrename⟩ hkeep ⟨fs, hstep⟩
  exact ⟨exec_consistent (onLine_serving build) hcons hstep,
    exec_renamePermitted hcons hrename hkeep hstep⟩

/-- In a run that keeps begun renames in the hands of accounts that may delete files and SITE EXEC
behind the login, every effect is permitted when its command is processed; and where no login
command interferes with a running transfer, every transfer stays permitted as long as it runs. -/
theorem effects_permitted (hσ : Initial σ) (run : LineRun build σ trace τ)
    (hkeeps : ∀ p ∈ trace, KeepsRename build p.1 p.2) :
    (∀ p ∈ trace, ∀ t fs, exec (onLine build) p.1 p.2 = .ok (t, fs) → ∀ f ∈ fs, ∀ r ∈ f.needs,
      ∃ q ∈ request p.1 p.2, Permitted p.1 q.node r) ∧
    ((∀ p ∈ trace, KeepsTransfers p.1 p.2) → TransfersPermitted τ) := by
  constructor
  · intro p hp t fs hexec
    rcases run.reaches_recorded hp with ⟨older, run', hold⟩
    have hstate := lineRun_renamePermitted hσ run' fun q hq ↦ hkeeps q (hold q hq)
    exact exec_permitted hstate.1 hstate.2 (hkeeps p hp) hexec
  · intro htransfers
    have hstart : (Consistent σ ∧ RenamePermitted σ) ∧ TransfersPermitted σ := by
      refine ⟨lineRun_renamePermitted hσ (.refl : LineRun build σ [] σ) (by simp), ?_⟩
      intro w hw
      rw [hσ.noWorkers] at hw
      cases hw
    have hend := run.invariant_of_steps
      (P := fun t ↦ (Consistent t ∧ RenamePermitted t) ∧ TransfersPermitted t)
      (C := fun s e ↦ KeepsRename build s e ∧ KeepsTransfers s e) hstart ?_
      fun p hp ↦ ⟨hkeeps p hp, htransfers p hp⟩
    · exact hend.2
    · rintro s e t ⟨⟨hcons, hrename⟩, hrunning⟩ ⟨hkeep, htransfer⟩ ⟨fs, hstep⟩
      exact ⟨⟨exec_consistent (onLine_serving build) hcons hstep,
        exec_renamePermitted hcons hrename hkeep hstep⟩,
        exec_transfersPermitted hcons hrename hrunning hkeep htransfer hstep⟩

end Runs

/-- A rename by one account, from RNFR to RNTO. -/
theorem effects_permitted_rename : ∃ trace τ, LineRun {} Sample.server trace τ ∧
    ∃ p ∈ trace, ∃ t fs, exec (onLine {}) p.1 p.2 = .ok (t, fs) ∧
      .rename "/srv/bob//a".toList "/srv/bob//b".toList ∈ fs ∧
      ∃ q ∈ request p.1 p.2, Permitted p.1 q.node (.privilege .deleteFile) := by
  rcases exists_lineRun {} Sample.server
      [.connect Sample.connection, Sample.line "USER bob", Sample.line "PASS pw",
        Sample.line "RNFR a", Sample.line "RNTO b"]
      (fun r ↦ r.1.all (fun p ↦ KeepsRename {} p.1 p.2) && r.1.any fun p ↦
        (exec (onLine {}) p.1 p.2).toOption.any fun x ↦
          x.2.contains (.rename "/srv/bob//a".toList "/srv/bob//b".toList))
      (by decide +kernel) with ⟨trace, τ, run, h⟩
  simp only [Bool.and_eq_true, List.all_eq_true, decide_eq_true_eq, List.any_eq_true,
    Option.any_eq_true, List.contains_iff_mem] at h
  rcases h with ⟨hkeeps, p, hp, ⟨t, fs⟩, hexec, hf⟩
  have hexec := eq_ok_of_toOption hexec
  exact ⟨trace, τ, run, p, hp, t, fs, hexec, hf,
    (effects_permitted Sample.initial run hkeeps).1 p hp t fs hexec _ hf _ rfl⟩

/-- bob begins a rename and the anonymous user, who may only read, completes it. -/
theorem effects_permitted_fails : Initial Sample.server ∧
    ∃ trace τ, LineRun {} Sample.server trace τ ∧
      ∃ p ∈ trace, ∃ t fs, exec (onLine {}) p.1 p.2 = .ok (t, fs) ∧
        ∃ f ∈ fs, ∃ r ∈ f.needs, ¬∃ q ∈ request p.1 p.2, Permitted p.1 q.node r := by
  refine ⟨Sample.initial, ?_⟩
  rcases exists_lineRun {} Sample.server
      [.connect Sample.connection, Sample.line "USER bob", Sample.line "PASS pw",
        Sample.line "RNFR a", Sample.line "USER anonymous", Sample.line "RNTO b"]
      (fun r ↦ r.1.any fun p ↦ (exec (onLine {}) p.1 p.2).toOption.any fun x ↦
        x.2.any fun f ↦ f.needs.any fun r ↦ ¬∃ q ∈ request p.1 p.2, Permitted p.1 q.node r)
      (by decide +kernel) with ⟨trace, τ, run, h⟩
  simp only [decide_eq_true_eq, List.any_eq_true, Option.any_eq_true] at h
  rcases h with ⟨p, hp, ⟨t, fs⟩, hexec, f, hf, r, hr, hnot⟩
  have hexec := eq_ok_of_toOption hexec
  exact ⟨trace, τ, run, p, hp, t, fs, hexec, f, hf, r, hr, hnot⟩

end FtpServer

end YFtp
