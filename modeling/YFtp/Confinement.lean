import YFtp.Hosts
import YFtp.HandlerSpecs
import YFtp.Registry

/-!
# Confinement

Which paths the commands hand to the file system.  Only CWD compares the result of `build_path`
with the home directory, so a path stays inside as long as the client asks for nothing that leads
out: no `..` in the home directory and no link to the outside.
-/

namespace YFtp

/-- The paths that an effect hands to the file system, but for the source of a rename. -/
def Effect.paths : Effect → List WString
  | .status path | .fileSize path | .lastWriteTime path | .removeFile path | .removeDirectory path
  | .createDirectory path | .startRetrieve path | .startStore path | .rename _ path => [path]
  | _ => []

def Effect.source : Effect → Option WString
  | .rename source _ => some source
  | _ => none

/-- The commands whose handlers build a path.  The workers of LIST, NLST, MLSD and STAT build theirs
later. -/
def Commands.takesPath : Commands → Bool
  | .CWD | .MDTM | .RETR | .STOR | .APPE | .STOU | .SIZE | .DELE | .RNFR | .RNTO | .MKD | .RMD => true
  | _ => false

theorem paths_of_justified {env : Env} {s : Session} {user : Option UserNode} {asked : WString}
    {f : Effect} (hf : Justified env s user asked f) :
    ∀ path ∈ f.paths, ∃ u, user = some u ∧ Built env s u asked path := by
  intro path hpath
  cases f with
  | status | fileSize | lastWriteTime =>
    cases List.mem_singleton.mp hpath
    exact hf
  | removeFile | removeDirectory | createDirectory | startRetrieve | startStore =>
    cases List.mem_singleton.mp hpath
    rcases hf with ⟨u, huser, -, hbuilt⟩
    exact ⟨u, huser, hbuilt⟩
  | rename =>
    cases List.mem_singleton.mp hpath
    exact hf.2.2
  | _ => cases hpath

theorem source_of_justified {env : Env} {s : Session} {user : Option UserNode} {asked : WString}
    {f : Effect} (hf : Justified env s user asked f) :
    ∀ path ∈ f.source, path = s.renameFromPath ∧ path ≠ [] := by
  intro path hpath
  cases f with
  | rename =>
    cases hpath
    exact ⟨hf.1, hf.2.1⟩
  | _ => cases hpath

namespace FtpServer

theorem SessionRun.takesPath {build : Build} {env : Env} {σ : FtpServer} {c : ClientRef}
    {cmd : Command} {o : Outcome} {ports : DataPorts} (h : SessionRun build env σ c cmd o ports)
    {f : Effect} (hf : f ∈ o.effects) (hpaths : f.paths ≠ []) :
    Commands.takesPath cmd.id = true := by
  have hquiet : ∀ {o : Outcome}, o.effects = [] → f ∈ o.effects →
      Commands.takesPath cmd.id = true := by
    intro o hnil hf
    rw [hnil] at hf
    cases hf
  have hlist : ∀ {s : Session}, (f = .openData s.dataUseSsl ∨ (f = .startList cmd ∧
      ∃ u, (σ.nodes c).user.map σ.userManager.users = some u ∧ u.holds .listDir = true)) →
      Commands.takesPath cmd.id = true := by
    rintro s (rfl | ⟨rfl, -⟩) <;> exact absurd rfl hpaths
  cases h with
  | pasv _ h => exact hquiet (Session.processPasvCmd_spec h).2 hf
  | plain => cases hf
  | handler h =>
    unfold sessionHandler at h
    dsimp only at h
    cases hid : cmd.id
    all_goals
      rw [hid] at h
      dsimp only at h
    case CWD | MDTM | RETR | STOR | APPE | STOU | SIZE | DELE | RNFR | RNTO | MKD | RMD => rfl
    case SITE =>
      split at h
      · rcases (Session.processSiteCmd_spec (Option.some.inj h)).2 f hf with ⟨text, u, rfl, -⟩
        exact absurd rfl hpaths
      · cases h
    case TYPE | REST | PROT | CDUP =>
      cases h
      rw [← hid]
      first
        | exact hquiet (Session.processTypeCmd_spec _ _).2 hf
        | exact hquiet (Session.processRestCmd_spec _ _).2 hf
        | exact hquiet (Session.processProtCmd_spec _ _ _ _).2.2 hf
        | exact hquiet rfl hf
    case PORT =>
      rw [← hid]
      exact hquiet (Session.processPortCmd_spec (Option.some.inj h)).2 hf
    case LIST | NLST | MLSD =>
      rw [← hid]
      exact hlist ((Session.processListCmd_spec (Option.some.inj h)).2 f hf)
    case STAT =>
      split at h
      · rw [← hid]
        exact hlist ((Session.processListCmd_spec (Option.some.inj h)).2 f hf)
      · cases h
    case AUTH =>
      cases h
      rcases (Session.processAuthCmd_spec _ _ _ _ _).2 f hf with rfl | ⟨text, rfl⟩
        <;> exact absurd rfl hpaths
    case ABOR =>
      rcases (Session.processAborCmd_spec (Option.some.inj h)).2 f hf with ⟨text, rfl⟩
      exact absurd rfl hpaths
    all_goals cases h

/-- The list worker that builds its path in this step, as its client node and command. -/
def listing (σ : FtpServer) : Event Line → Option (ClientRef × Command)
  | .worker i .buildPath _ =>
    match σ.workers[i]? with
    | some ⟨c, .list cmd true⟩ => some (c, cmd)
    | _ => none
  | _ => none

/-- The account for which an event works with paths. -/
def actor (σ : FtpServer) (e : Event Line) : Option UserRef :=
  match request σ e with
  | some q => q.node.user
  | none => (listing σ e).bind fun (c, _) ↦ (σ.nodes c).user

/-- An RNFR of the client stored this path, inside the home directory of its account then. -/
def RenamedFrom (host : Env → Host) (trace : List (FtpServer × Event Line)) (c : ClientRef)
    (path : WString) : Prop :=
  ∃ p ∈ trace, ∃ env ∈ p.2.env, ∃ q ∈ request p.1 p.2, q.client = c ∧ q.cmd.id = .RNFR ∧
    ∃ u ∈ q.node.user, Inside (host env) (p.1.userManager.users u).homeDirectory path

/-- What a command or a list worker asks for does not lead out of the home directory. -/
structure KeepsHome (host : Env → Host) (σ : FtpServer) (e : Event Line) : Prop where
  asked : ∀ q ∈ request σ e, Commands.takesPath q.cmd.id = true → ∀ env ∈ e.env,
    ∀ u ∈ q.node.user, ∀ asked, q.cmd.Asks asked →
      StaysHome (host env) (σ.userManager.users u).homeDirectory q.node.currentDirectory asked
  listed : ∀ l ∈ listing σ e, ∀ env ∈ e.env, ∀ u ∈ (σ.nodes l.1).user,
    StaysHome (host env) (σ.userManager.users u).homeDirectory (σ.nodes l.1).currentDirectory
      (listArguments l.2.args).2

/-- The effect stays inside the home directory of the account it is done for. -/
structure Confined (host : Env → Host) (trace : List (FtpServer × Event Line)) (σ : FtpServer)
    (e : Event Line) (f : Effect) : Prop where
  paths : ∀ path ∈ f.paths, ∃ env ∈ e.env, ∃ u ∈ actor σ e,
    Inside (host env) (σ.userManager.users u).homeDirectory path
  source : ∀ path ∈ f.source, ∃ q ∈ request σ e, RenamedFrom host trace q.client path

/-- Every pending rename was begun inside. -/
def RenamesInside (host : Env → Host) (trace : List (FtpServer × Event Line)) (σ : FtpServer) :
    Prop :=
  ∀ c < σ.nextClient, (σ.nodes c).renameFromPath ≠ [] →
    RenamedFrom host trace c (σ.nodes c).renameFromPath

section Confined

variable {build : Build} {host : Env → Host} {trace : List (FtpServer × Event Line)}
  {σ τ : FtpServer} {c : ClientRef} {e : Event Line} {env : Env} {cmd : Command} {fs : List Effect}

theorem RenamedFrom.cons {path : WString} (h : RenamedFrom host trace c path)
    (p : FtpServer × Event Line) : RenamedFrom host (p :: trace) c path := by
  rcases h with ⟨p', hp', h⟩
  exact ⟨p', List.mem_cons_of_mem _ hp', h⟩

/-- What is built from what the command asks for stays inside. -/
theorem KeepsHome.inside {q : Request} (hkeeps : KeepsHome host σ e) (henv : e.env = some env)
    (hhost : (host env).Answers env) (hq : q ∈ request σ e)
    (htakes : Commands.takesPath q.cmd.id = true) {u : UserRef} (hu : q.node.user = some u)
    {asked path : WString} (hasks : q.cmd.Asks asked)
    (hbuilt : Built env q.node.toSession (σ.userManager.users u) asked path) :
    Inside (host env) (σ.userManager.users u).homeDirectory path := by
  rcases hbuilt with ⟨bcanonical, rfl⟩
  exact (hkeeps.asked q hq htakes env henv u hu asked hasks).inside hhost bcanonical

/-! ### Pending renames -/

theorem ClientFrame.renamesInside (h : ClientFrame c σ τ) (hσ : RenamesInside host trace σ)
    (hc : (τ.nodes c).renameFromPath ≠ [] →
      RenamedFrom host trace c (τ.nodes c).renameFromPath) : RenamesInside host trace τ := by
  intro d hd hpath
  by_cases hdc : d = c
  · rw [hdc] at hpath ⊢
    exact hc hpath
  · rw [h.nodes d hdc] at hpath ⊢
    exact hσ d (h.nextClient ▸ hd) hpath

theorem clientFor_renamesInside (hσ : RenamesInside host trace σ) (k : Connection) :
    RenamesInside host trace (σ.clientFor k).1 := by
  rcases clientFor_cases σ k with ⟨c, -, hfor⟩ | ⟨-, hfor⟩
  · rw [hfor]
    exact hσ
  · rw [hfor]
    intro d hd hpath
    change ((σ.setNode σ.nextClient (freshNode k)).nodes d).renameFromPath ≠ [] at hpath
    change RenamedFrom host trace d
      ((σ.setNode σ.nextClient (freshNode k)).nodes d).renameFromPath
    by_cases hdc : d = σ.nextClient
    · rw [hdc, setNode_self] at hpath
      exact absurd rfl hpath
    · rw [setNode_of_ne σ (freshNode k) hdc] at hpath ⊢
      exact hσ d (Nat.lt_of_le_of_ne (Nat.lt_succ_iff.mp hd) hdc) hpath

theorem setParser_renamesInside (hσ : RenamesInside host trace σ) (c : ClientRef)
    (p : RequestParser) : RenamesInside host trace (σ.setParser c p) := by
  intro d hd hpath
  by_cases hdc : d = c
  · rw [hdc] at hd hpath ⊢
    rw [setParser_nodes_self] at hpath ⊢
    exact hσ c hd hpath
  · rw [setParser_of_ne σ p hdc] at hpath ⊢
    exact hσ d hd hpath

theorem runSwitch_renamesInside {a : Answer} (hσ : RenamesInside host trace σ)
    (hc : c < σ.nextClient)
    (hrnfr : cmd.id = .RNFR → ∀ u ∈ (σ.nodes c).user, ∀ path,
      Built env (σ.nodes c).toSession (σ.userManager.users u) cmd.args path →
        RenamedFrom host trace c path)
    (h : σ.runSwitch build env c cmd = .ok a) : RenamesInside host trace a.server := by
  refine (runSwitch_frame h).renamesInside hσ fun hpath ↦ ?_
  rcases runSwitch_cases h with ⟨-, r, hr, rfl⟩ | ⟨-, rfl⟩ | ⟨-, rfl⟩ | ⟨-, o, ports, hsession, rfl⟩
  · have hsame := processUserCmd_session hr
    dsimp only at hpath ⊢
    rw [hsame] at hpath ⊢
    exact hσ c hc hpath
  · have hsame := processPasswordCmd_session σ c cmd.args
    dsimp only at hpath ⊢
    rw [hsame] at hpath ⊢
    exact hσ c hc hpath
  · simp [processReinCmd] at hpath
  · rw [conclude_nodes, setSession_toSession] at hpath ⊢
    rcases hsession.spec.renameFromPath with hsame | hnil | ⟨hid, v, hv, -, hbuilt⟩
    · rw [hsame] at hpath ⊢
      exact hσ c hc hpath
    · exact absurd hnil hpath
    · rcases Option.map_eq_some_iff.mp hv with ⟨u, hu, rfl⟩
      exact hrnfr hid u hu _ hbuilt

theorem exec_renamesInside (hcons : Consistent σ) (hkeeps : KeepsHome host σ e)
    (hhost : ∀ env ∈ e.env, (host env).Answers env) (hσ : RenamesInside host trace σ)
    (h : exec (onLine build) σ e = .ok (τ, fs)) : RenamesInside host ((σ, e) :: trace) τ := by
  have hσ : RenamesInside host ((σ, e) :: trace) σ := fun c hc hpath ↦ (hσ c hc hpath).cons _
  refine exec_invariant hcons hσ (fun _ hσ ↦ hσ) (clientFor_renamesInside hσ)
    (fun c p hσ ↦ setParser_renamesInside hσ c p) ?run ?ended ?worker ?admin h
  case run =>
    intro k p env cmd a hincoming hstored hswitch
    refine runSwitch_renamesInside hstored (clientFor_serves k hcons).allocated ?_ hswitch
    intro hid u hu path hbuilt
    rw [setParser_nodes_self] at hu hbuilt
    rw [stored_userManager] at hbuilt
    have hasks : cmd.Asks cmd.args := (if_neg (by rw [hid]; decide)).mpr rfl
    exact ⟨(σ, e), List.mem_cons_self, env, hincoming.env, _, hincoming.request, rfl, hid, u, hu,
      hkeeps.inside hincoming.env (hhost env hincoming.env) hincoming.request
        (by rw [hid]; rfl) hu hasks hbuilt⟩
  case ended =>
    intro υ ω s c hcons hfind hυ hend
    refine (endClient_frame hend).renamesInside hυ fun hpath ↦ ?_
    rcases endClient_ok hend with ⟨v, -, rfl⟩
    rw [deleteClient_nodes, setNode_self] at hpath ⊢
    exact hυ c (hcons.serves hfind).allocated hpath
  case worker =>
    intro υ hframe d hd hpath
    rw [hframe.renameFromPath] at hpath ⊢
    exact hσ d (hframe.nextClient ▸ hd) hpath
  case admin =>
    intro υ op env _ _ hframe d hd hpath
    rw [hframe.nextClient] at hd
    rw [hframe.nodes] at hpath ⊢
    exact hσ d hd hpath

/-! ### The effects of a step -/

theorem confined_of_pathless {f : Effect} (hpaths : f.paths = []) (hsource : f.source = none) :
    Confined host trace σ e f :=
  ⟨by simp [hpaths], by simp [hsource]⟩

theorem confined_send (text : WString) : Confined host trace σ e (.send text) :=
  confined_of_pathless rfl rfl

/-- A worker asks for the status of the path that it lists, and does no more with paths. -/
theorem runWorker_confined {i : Nat} {act : WorkerStep}
    (hkeeps : KeepsHome host σ (.worker i act env)) (hhost : (host env).Answers env)
    (h : σ.runWorker env i act = .ok (τ, fs)) :
    ∀ f ∈ fs, Confined host trace σ (.worker i act env) f := by
  have hfinish : ∀ {c : ClientRef} {job : Job} {complete : Bool},
      σ.finishWorker i c job complete = .ok (τ, fs) →
      ∀ f ∈ fs, Confined host trace σ (.worker i act env) f := by
    intro c job complete h f hf
    rcases eq_ok_of_bind h with ⟨s, -, h⟩
    cases h
    split at hf
    · cases List.mem_singleton.mp hf
      exact confined_send _
    · cases hf
  unfold runWorker at h
  split at h
  · cases h
    exact List.forall_mem_nil _
  · rename_i w hw
    dsimp only at h
    split at h
    · split at h
      all_goals
        cases h
        intro f hf
        cases List.mem_singleton.mp hf
        exact confined_send _
    · rename_i cmd hjob
      rcases eq_ok_of_bind h with ⟨user, huser, h⟩
      cases h
      rcases Option.map_eq_some_iff.mp (Session.deref_ok huser) with ⟨u, hu, rfl⟩
      have hlisting : listing σ (.worker i .buildPath env) = some (w.client, cmd) := by
        rcases w with ⟨c, job⟩
        cases hjob
        simp only [listing, hw]
      intro f hf
      unfold statusEffects at hf
      split at hf
      · cases hf
      · cases List.mem_singleton.mp hf
        refine ⟨fun path hpath ↦ ?_, fun path hpath ↦ nomatch hpath⟩
        cases List.mem_singleton.mp hpath
        refine ⟨env, rfl, u, ?_, ?_⟩
        · rw [Option.mem_def, actor, hlisting]
          exact hu
        · exact (hkeeps.listed _ hlisting env rfl u hu).inside hhost true
    · split at h
      · cases h
        intro f hf
        cases List.mem_singleton.mp hf
        exact confined_send _
      · exact hfinish h
    · exact hfinish h
    · exact hfinish h
    · cases h
      exact List.forall_mem_nil _

/-- The effects of the switch. -/
theorem runSwitch_confined {k : Connection} {p : RequestParser} {a : Answer}
    (hcons : Consistent σ) (hkeeps : KeepsHome host σ e)
    (hhost : (host env).Answers env) (hσ : RenamesInside host trace σ)
    (hincoming : Incoming σ e k env cmd)
    (h : (σ.stored k p).runSwitch build env (σ.clientFor k).2 cmd
      = .ok a) : ∀ f ∈ a.effects, Confined host trace σ e f := by
  intro f hf
  rcases runSwitch_cases h with ⟨-, r, -, rfl⟩ | ⟨-, rfl⟩ | ⟨-, rfl⟩ | ⟨-, o, ports, hsession, rfl⟩
  · cases hf
  · cases hf
  · cases hf
  · have hrequest := hincoming.request
    rcases hsession.spec.effects f hf with ⟨asked, hasks, hjustified⟩
    rw [setParser_nodes_self, stored_userManager] at hjustified
    constructor
    case paths =>
      intro path hpath
      have htakes := hsession.takesPath hf (List.ne_nil_of_mem hpath)
      rcases paths_of_justified hjustified path hpath with ⟨v, hv, hbuilt⟩
      rcases Option.map_eq_some_iff.mp hv with ⟨u, hu, rfl⟩
      refine ⟨env, hincoming.env, u, ?_, ?_⟩
      · rw [Option.mem_def, actor, hrequest]
        exact hu
      · exact hkeeps.inside hincoming.env hhost hrequest htakes hu hasks hbuilt
    case source =>
      intro path hpath
      rcases source_of_justified hjustified path hpath with ⟨rfl, hne⟩
      refine ⟨_, hrequest, ?_⟩
      have hstored := clientFor_renamesInside hσ k
      exact hstored _ (clientFor_serves k hcons).allocated hne

theorem exec_confined (hcons : Consistent σ) (hkeeps : KeepsHome host σ e)
    (hhost : ∀ env ∈ e.env, (host env).Answers env) (hσ : RenamesInside host trace σ)
    (h : exec (onLine build) σ e = .ok (τ, fs)) : ∀ f ∈ fs, Confined host trace σ e f := by
  apply exec_effects (P := Confined host trace σ e) _ _ _ _ h
  · exact fun text ↦ confined_send text
  · exact fun cmd ↦ confined_of_pathless rfl rfl
  · intro k p env cmd a hincoming hswitch
    exact runSwitch_confined hcons hkeeps (hhost env hincoming.env) hσ hincoming hswitch
  · rintro i act env rfl
    exact runWorker_confined hkeeps (hhost env rfl) h

end Confined

end FtpServer

/-! ## A small file system -/

namespace Sample

def srv : FileName := ⟨"srv".toList, by decide⟩

def home : FileName := ⟨"bob".toList, by decide⟩

def pub : FileName := ⟨"pub".toList, by decide⟩

def music : FileName := ⟨"music".toList, by decide⟩

def notes : FileName := ⟨"notes".toList, by decide⟩

def shared : FileName := ⟨"shared".toList, by decide⟩

def directories : List (List FileName) :=
  [[], [srv], [srv, home], [srv, home, music], [srv, pub]]

def files : List (List FileName) := [[srv, pub, notes]]

/-- The home directories of both accounts, and a link from the one to the other. -/
def host : Host where
  isDir l := directories.contains l
  present l := (directories ++ files).contains l
  follow l := if l = [srv, home, shared] then [srv, pub] else l
  present_of_isDir h := by
    rw [List.contains_iff_mem] at h ⊢
    exact List.mem_append_left _ h
  followed := by
    have hclosed : ∀ l ∈ directories ++ files, ∀ k ∈ l.inits,
        k ≠ [srv, home, shared] ∧ (k ≠ [] → k.dropLast ∈ directories) := by decide
    intro l m n hpresent hprefix
    rw [List.contains_iff_mem] at hpresent ⊢
    have hk := hclosed _ hpresent (m ++ [n]) ((List.mem_inits _ _).mpr hprefix)
    refine ⟨by simpa using hk.2 (by simp), if_neg hk.1⟩
  cwd := []
  cwd_real := Theory.FileTree.real_nil

/-- The answers of a system with this file system. -/
def hosted : Env :=
  { env with
    canonical := fun path ↦ ((host.locate path).filter host.present).map render
    canonical_absolute := fun h ↦ by
      rcases Option.map_eq_some_iff.mp h with ⟨l, -, rfl⟩
      exact render_head l }

theorem host_answers : host.Answers hosted := by
  intro path resolved h
  rcases Option.map_eq_some_iff.mp h with ⟨l, hl, rfl⟩
  rcases Option.filter_eq_some_iff.mp hl with ⟨hlocate, hpresent⟩
  exact ⟨l, hlocate, hpresent, rfl⟩

def request (text : String) : Event Line :=
  .receive 7 { bytes := text.toUTF8.toList, env := hosted }

end Sample

namespace FtpServer

section Runs

variable {build : Build} {host : Env → Host} {trace : List (FtpServer × Event Line)}
  {σ τ υ : FtpServer} {e : Event Line} {fs : List Effect}

/-- In a run that keeps what it asks for inside the home directories, every path handed to the file
system leads to the home directory of the account or below, and every rename takes its source from
there. -/
theorem effects_confined (hσ : Initial σ) (run : LineRun build σ trace τ)
    (hkeeps : ∀ p ∈ (τ, e) :: trace, KeepsHome host p.1 p.2)
    (hhost : ∀ p ∈ (τ, e) :: trace, ∀ env ∈ p.2.env, (host env).Answers env)
    (h : exec (onLine build) τ e = .ok (υ, fs)) :
    ∀ f ∈ fs, Confined host trace τ e f := by
  have hstart : Consistent σ ∧ RenamesInside host [] σ :=
    ⟨hσ.consistent, fun c hc ↦ by rw [hσ.noNodes] at hc; exact absurd hc (Nat.not_lt_zero c)⟩
  have hend := run.invariant_of_trace
    (P := fun trace τ ↦ Consistent τ ∧ RenamesInside host trace τ)
    (C := fun σ e ↦ KeepsHome host σ e ∧ ∀ env ∈ e.env, (host env).Answers env) hstart
    (fun ⟨hcons, hrename⟩ ⟨hkeep, hanswers⟩ ⟨_, hstep⟩ ↦
      ⟨exec_consistent (onLine_serving build) hcons hstep,
        exec_renamesInside hcons hkeep hanswers hrename hstep⟩)
    fun p hp ↦ ⟨hkeeps p (List.mem_cons_of_mem _ hp), hhost p (List.mem_cons_of_mem _ hp)⟩
  exact exec_confined hend.1 (hkeeps _ List.mem_cons_self) (hhost _ List.mem_cons_self) hend.2 h

end Runs

/-- A command other than STOU asks for its argument. -/
theorem keepsHome_of_args {host : Env → Host} {σ : FtpServer} {e : Event Line}
    (hasked : ∀ q ∈ request σ e, Commands.takesPath q.cmd.id = true → q.cmd.id ≠ .STOU ∧
      ∀ env ∈ e.env, ∀ u ∈ q.node.user, StaysHome (host env)
        (σ.userManager.users u).homeDirectory q.node.currentDirectory q.cmd.args)
    (hlisted : listing σ e = none) : KeepsHome host σ e where
  asked q hq htakes env henv u hu asked hasks := by
    rcases hasked q hq htakes with ⟨hid, hstays⟩
    rw [Command.Asks, if_neg hid] at hasks
    rw [hasks]
    exact hstays env henv u hu
  listed l hl := by
    rw [hlisted] at hl
    cases hl

/-- A rename inside the home directory. -/
theorem effects_confined_rename : ∃ trace τ υ fs, LineRun {} Sample.server trace τ ∧
    exec (onLine {}) τ (Sample.request "RNTO tunes") = .ok (υ, fs) ∧
    .rename "/srv/bob/music".toList "/srv/bob//tunes".toList ∈ fs ∧
    ∀ f ∈ fs, Confined (fun _ ↦ Sample.host) trace τ (Sample.request "RNTO tunes") f := by
  rcases exists_lineRun_of {} Sample.server
      [.connect Sample.connection, Sample.request "USER bob", Sample.request "PASS pw",
        Sample.request "RNFR music"]
      (fun r ↦ ((r.2, Sample.request "RNTO tunes") :: r.1).all (fun p ↦
          (∀ q ∈ request p.1 p.2, Commands.takesPath q.cmd.id = true → q.cmd.id ≠ .STOU ∧
            ∀ u ∈ q.node.user, StaysHome Sample.host
              (p.1.userManager.users u).homeDirectory q.node.currentDirectory q.cmd.args)
          && (listing p.1 p.2).isNone) &&
        (exec (onLine {}) r.2 (Sample.request "RNTO tunes")).toOption.any fun x ↦
          x.2.contains (.rename "/srv/bob/music".toList "/srv/bob//tunes".toList))
      (by decide +kernel) with ⟨trace, τ, run, hevents, h⟩
  simp only [Bool.and_eq_true, List.all_eq_true, decide_eq_true_eq, Option.any_eq_true,
    List.contains_iff_mem, Option.isNone_iff_eq_none] at h
  rcases h with ⟨hkeeps, ⟨υ, fs⟩, hexec, hrename⟩
  have hexec := eq_ok_of_toOption hexec
  refine ⟨trace, τ, υ, fs, run, hexec, hrename, effects_confined Sample.initial run ?_ ?_ hexec⟩
  · intro p hp
    have hp := hkeeps p hp
    exact keepsHome_of_args (fun q hq htakes ↦
      ⟨(hp.1 q hq htakes).1, fun _ _ ↦ (hp.1 q hq htakes).2⟩) hp.2
  · intro p hp env henv
    have hevent : p.2 ∈ [Sample.request "RNTO tunes", Sample.request "RNFR music",
        Sample.request "PASS pw", Sample.request "USER bob", .connect Sample.connection] := by
      rcases List.mem_cons.mp hp with rfl | hp
      · exact List.mem_cons_self
      · refine List.mem_cons_of_mem _ ?_
        have hmem := List.mem_map_of_mem (f := (·.2)) hp
        rwa [hevents] at hmem
    have henv : env = Sample.hosted := by
      simp only [List.mem_cons, List.not_mem_nil, or_false] at hevent
      rcases hevent with hevent | hevent | hevent | hevent | hevent <;>
        rw [hevent] at henv <;> cases henv <;> rfl
    rw [henv]
    exact Sample.host_answers

/-- bob retrieves a file from the home directory of the anonymous account. -/
theorem effects_confined_fails : Initial Sample.server ∧
    Sample.host.Answers Sample.hosted ∧
    ∃ trace τ υ fs, LineRun {} Sample.server trace τ ∧
      exec (onLine {}) τ (Sample.request "RETR ../pub/notes") = .ok (υ, fs) ∧
      .startRetrieve "/srv/pub/notes".toList ∈ fs ∧
      actor τ (Sample.request "RETR ../pub/notes") = some 1 ∧
      ¬Inside Sample.host (τ.userManager.users 1).homeDirectory "/srv/pub/notes".toList := by
  refine ⟨Sample.initial, Sample.host_answers, ?_⟩
  rcases exists_lineRun {} Sample.server
      [.connect Sample.connection, Sample.request "USER bob", Sample.request "PASS pw",
        Sample.request "PASV"]
      (fun r ↦ ((exec (onLine {}) r.2 (Sample.request "RETR ../pub/notes")).toOption.any fun x ↦
          x.2.contains (.startRetrieve "/srv/pub/notes".toList)) &&
        actor r.2 (Sample.request "RETR ../pub/notes") = some 1 &&
        ¬Inside Sample.host (r.2.userManager.users 1).homeDirectory "/srv/pub/notes".toList)
      (by decide +kernel) with ⟨trace, τ, run, h⟩
  simp only [Bool.and_eq_true, decide_eq_true_eq, Option.any_eq_true, List.contains_iff_mem] at h
  rcases h with ⟨⟨⟨⟨υ, fs⟩, hexec, hf⟩, hactor⟩, hinside⟩
  have hexec := eq_ok_of_toOption hexec
  exact ⟨trace, τ, υ, fs, run, hexec, hf, hactor, hinside⟩

end FtpServer

end YFtp
