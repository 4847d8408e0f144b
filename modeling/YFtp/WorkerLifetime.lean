import YFtp.ListEntries
import YFtp.Service
import YFtp.Theory.Pools

/-!
# The lifetime of workers

A thread does not own its client node.  The node outlives its threads as long as every entry that
goes out of a client list leaves another one, and they keep silent after its end as long as none of
them is at a statement that sends without asking whether the control connection is open.
-/

namespace YFtp

open FtpServer (request Registered)

/-- The thread sends on the control connection without asking whether it is open: that of a listing
before its 150, and that of STAT as long as it runs. -/
def Stage.unguarded : Stage → Bool
  | .list _ .begin | .list _ .announce | .list _ .endOfStatus => true
  | .list cmd _ => cmd.id = .STAT
  | _ => false

/-- `process_list_cmd` gets to its end and creates its thread. -/
def Session.startsListing (env : Env) (sslContext : Bool) (user : Option UserNode) (cmd : Command)
    (s : Session) : Bool :=
  env.joinable &&
    match cmd.id with
    | .STAT => cmd.args ≠ [] && user.any (·.holds .listDir)
    | .LIST | .NLST | .MLSD => s.opensData user cmd && s.dataOpens env sslContext
    | _ => false

namespace Service

/-- A thread of the client node has not come to its end. -/
def Busy (v : Service) (c : ClientRef) : Prop :=
  ∃ t ∈ v.threads, t.client = c ∧ t.stage.unfinished = true

instance (v : Service) (c : ClientRef) : Decidable (v.Busy c) :=
  inferInstanceAs (Decidable (∃ _ ∈ _, _))

/-- A thread of the client node is about to send without asking. -/
def Speaking (v : Service) (c : ClientRef) : Prop :=
  ∃ t ∈ v.threads, t.client = c ∧ t.stage.unguarded = true

instance (v : Service) (c : ClientRef) : Decidable (v.Speaking c) :=
  inferInstanceAs (Decidable (∃ _ ∈ _, _))

/-- A command leaves a client node with a running thread in some list, does not end the connection
of one that is about to send, and lists only where the control connection is open. -/
def SparesClient (v : Service) (env : Env) (q : FtpServer.Request) : Prop :=
  (v.Busy q.client → v.server.Spare q.client (v.server.departures q)) ∧
  (v.server.TurnedAway q → ¬v.Speaking q.client) ∧
  (q.node.startsListing env v.server.sslContext (q.node.user.map v.server.userManager.users) q.cmd
    = true → q.node.isCtrlCanalOpen = true)

instance (v : Service) (env : Env) (q : FtpServer.Request) : Decidable (v.SparesClient env q) :=
  inferInstanceAs (Decidable (_ ∧ _ ∧ _))

/-- A connection is closed only when its client node has no running thread, or another entry than
that in the list of its user and no thread that is about to send. -/
def SparesClosed (v : Service) (s : Handle) : Prop :=
  v.server.connections.any (·.handle = s) = true → ∀ c ∈ v.server.findClient s,
    (v.Busy c → v.server.Spare c (v.server.nodes c).user.toList) ∧ ¬v.Speaking c

instance (v : Service) (s : Handle) : Decidable (v.SparesClosed s) :=
  inferInstanceAs (Decidable (_ → ∀ _ ∈ _, _))

/-- The anonymous account goes only when every client node with a running thread stands in the list
of another user. -/
def SparesAnonymous (v : Service) : Prop :=
  v.server.isAllowAnonymous = true → ∀ t ∈ v.threads, t.stage.unfinished = true →
    ∃ u ∈ v.server.userManager.ftpUserList, t.client ∈ v.server.clientsOf u ∧
      v.server.userManager.findUser "anonymous".toList ≠ some u

instance (v : Service) : Decidable v.SparesAnonymous :=
  inferInstanceAs (Decidable (_ → ∀ _ ∈ _, _ → ∃ _ ∈ _, _))

def Spares (v : Service) : Deed → Prop
  | .event (.receive s line) =>
    ∀ q ∈ request v.server (.receive s line), v.SparesClient line.env q
  | .event (.close s) => v.SparesClosed s
  | .event (.admin op _) => op.disallows = true → v.SparesAnonymous
  | .event (.connect _) | .event (.worker ..) | .thread .. => True

instance (v : Service) : (d : Deed) → Decidable (v.Spares d)
  | .event (.receive _ _) => inferInstanceAs (Decidable (∀ _ ∈ _, _))
  | .event (.close s) => inferInstanceAs (Decidable (v.SparesClosed s))
  | .event (.admin _ _) => inferInstanceAs (Decidable (_ → v.SparesAnonymous))
  | .event (.connect _) => inferInstanceAs (Decidable True)
  | .event (.worker ..) => inferInstanceAs (Decidable True)
  | .thread .. => inferInstanceAs (Decidable True)

/-- A client node with a running thread is alive: a client list holds it.  And `client_node::end`,
which clears `is_ctrl_canal_open_`, is followed by no step that sends on the control connection. -/
structure WorkersSafe (build : Build) (v : Service) : Prop where
  alive : ∀ t ∈ v.threads, t.stage.unfinished = true → Registered v.server t.client
  silent : ∀ i t answers v' events, v.threads[i]? = some t →
    (v.server.nodes t.client).isCtrlCanalOpen = false →
    v.exec build (.thread i answers) = .ok (v', events) → ∀ r, .reply r ∉ events

end Service

/-! ## Threads -/

/-- What a step of a thread can send: at a guarded statement nothing, unless the control connection
is open, and it never gets back to one that is not. -/
structure GuardedStep (n : ClientNode) (stage next : Stage) (events : List ThreadEvent) : Prop where
  unguarded : next.unguarded = true → stage.unguarded = true
  unfinished : next.unfinished = true → stage.unfinished = true
  replies : ∀ r, .reply r ∈ events → stage.unguarded = true ∨ n.isCtrlCanalOpen = true

section Threads

variable {a : Answers} {n : ClientNode} {user : Option UserNode} {stage next : Stage} {s : Session}
  {events : List ThreadEvent}

theorem GuardedStep.of_unguarded (h : stage.unguarded = true) (hrunning : stage.unfinished = true) :
    GuardedStep n stage next events :=
  ⟨fun _ ↦ h, fun _ ↦ hrunning, fun _ _ ↦ .inl h⟩

-- a step that sends nothing and leads to a guarded statement
theorem GuardedStep.of_quiet (hnext : next.unguarded = false) (hrunning : stage.unfinished = true)
    (hquiet : ∀ r, .reply r ∉ events) : GuardedStep n stage next events := by
  refine ⟨fun h ↦ ?_, fun _ ↦ hrunning, fun r hr ↦ absurd hr (hquiet r)⟩
  rw [hnext] at h
  cases h

theorem afterListing_guarded {cmd : Command} (hid : cmd.id ≠ .STAT) :
    (afterListing cmd).unguarded = false := by
  rw [afterListing, if_neg hid]
  rfl

theorem listStage_guarded {cmd : Command} {stage : ListStage}
    (h : stage.step a n.toSession user cmd = .ok (s, next, events)) :
    GuardedStep n (.list cmd stage) next events := by
  by_cases hid : cmd.id = .STAT
  · have hstage : (Stage.list cmd stage).unguarded = true := by
      cases stage <;> first | rfl | exact decide_eq_true hid
    exact .of_unguarded hstage rfl
  -- the listing of a directory, whose lines go over the data connection
  have hlisting : ∀ {stage next : ListStage},
      (Stage.list cmd next).unguarded = decide (cmd.id = .STAT) →
      events = [] ∨ (∃ path, events = [.status path]) →
      GuardedStep n (.list cmd stage) (.list cmd next) events := by
    intro stage next hnext hevents
    refine .of_quiet (hnext.trans (decide_eq_false hid)) rfl fun r hr ↦ ?_
    rcases hevents with rfl | ⟨path, rfl⟩
    · cases hr
    · cases List.mem_singleton.mp hr
  have hends : ∀ {stage : ListStage}, events = [] ∨ (∃ path, events = [.status path]) →
      GuardedStep n (.list cmd stage) (afterListing cmd) events := by
    intro stage hevents
    refine .of_quiet (afterListing_guarded hid) rfl fun r hr ↦ ?_
    rcases hevents with rfl | ⟨path, rfl⟩
    · cases hr
    · cases List.mem_singleton.mp hr
  have hlisted := (list_listed h).2
  dsimp only at hlisted
  cases hlisted with
  | announces | begins | announced | ends => exact .of_unguarded rfl rfl
  | shows | enters => exact hlisting rfl (.inr ⟨_, rfl⟩)
  | misses =>
    apply hends
    split
    · exact .inl rfl
    · exact .inr ⟨_, rfl⟩
  | single | skips | entry => exact hlisting rfl (.inl rfl)
  | exhausted => exact hends (.inl rfl)
  | line hnext =>
    have hguarded : next.unguarded = false := by
      rcases hnext with rfl | ⟨path, -, rfl⟩
      · exact afterListing_guarded hid
      · exact decide_eq_false hid
    refine .of_quiet hguarded rfl fun r hr ↦ ?_
    -- the line goes over the data connection
    rw [if_neg hid] at hr
    cases List.mem_singleton.mp hr

theorem moved_guarded {α : Type} {thread : α → Stage} {job : Job} {stage : α}
    (hthread : ∀ stage, (thread stage).unguarded = false ∧ (thread stage).unfinished = true)
    (h : Moved thread job n.toSession (s, next, events)) :
    GuardedStep n (thread stage) next events := by
  have hnext : next.unguarded = false := by
    rcases h.next with ⟨next', hnext⟩ | ⟨complete, hnext⟩
    · have hnext : next = thread next' := hnext
      rw [hnext]
      exact (hthread next').1
    · have hnext : next = .shutDown job complete := hnext
      rw [hnext]
      rfl
  exact .of_quiet hnext (hthread stage).2 h.quiet

theorem stage_guarded (h : stage.step a n user = .ok (s, next, events)) :
    GuardedStep n stage next events := by
  cases stage with
  | list cmd stage => exact listStage_guarded h
  | store stage => exact moved_guarded (fun _ ↦ ⟨rfl, rfl⟩) (store_moved h)
  | retrieve stage => exact moved_guarded (fun _ ↦ ⟨rfl, rfl⟩) (retrieve_moved h)
  | shutDown job complete =>
    rcases eq_ok_of_liftFault_bind h with ⟨t, -, h⟩
    cases h
    exact .of_quiet rfl rfl (by simp)
  | closeSocket job complete =>
    rcases eq_ok_of_liftFault_bind h with ⟨t, -, h⟩
    cases h
    exact .of_quiet rfl rfl (by simp)
  | finish job complete =>
    rw [Stage.step] at h
    split at h
    · -- the final block looks at `is_ctrl_canal_open_` first
      rename_i hopen
      cases h
      constructor
      case unguarded => exact fun hnext ↦ by cases hnext
      case unfinished => exact fun _ ↦ rfl
      case replies => exact fun _ _ ↦ .inr hopen
    · cases h
      exact .of_quiet rfl rfl (by simp)
  | ended =>
    cases h
    exact ⟨id, id, fun r hr ↦ by cases hr⟩

end Threads

/-! ## New threads -/

namespace FtpServer

section Created

variable {build : Build} {env : Env} {σ : FtpServer} {c : ClientRef} {cmd : Command} {o : Outcome}
  {ports : DataPorts}

theorem processListCmd_lists {sslContext : Bool} {user : Option UserNode} {s : Session}
    (h : s.processListCmd env sslContext user cmd = .ok o)
    (hjobs : o.effects.filterMap jobOf ≠ []) :
    env.joinable = true ∧ user.any (·.holds .listDir) = true := by
  rcases eq_ok_of_bind h with ⟨u, hu, h⟩
  rw [Session.deref_ok hu]
  split at h
  · cases h
    exact absurd rfl hjobs
  · rename_i hholds
    split at h
    · cases h
      exact absurd rfl hjobs
    · rcases eq_ok_of_ite_bind h with ⟨⟨t, opened, fx⟩, hopen, h⟩
      have hfx : fx.filterMap jobOf = [] := by
        split at hopen
        · exact (Session.openDataConnection_opened hopen).jobs
        · cases hopen
          rfl
      dsimp only at h
      split at h
      · cases h
        exact absurd hfx hjobs
      · split at h
        · rename_i hjoinable
          exact ⟨hjoinable, by simpa using hholds⟩
        · cases h
          exact absurd hfx hjobs

/-- A listing is made by `process_list_cmd`. -/
theorem SessionRun.lists (h : SessionRun build env σ c cmd o ports)
    (hid : cmd.id = .LIST ∨ cmd.id = .NLST ∨ cmd.id = .MLSD ∨ cmd.id = .STAT)
    (hjobs : o.effects.filterMap jobOf ≠ []) :
    (cmd.id = .STAT → cmd.args ≠ []) ∧
      (σ.nodes c).processListCmd env σ.sslContext ((σ.nodes c).user.map σ.userManager.users) cmd
        = .ok o := by
  cases h with
  | pasv hpasv => rcases hid with hid | hid | hid | hid <;> rw [hpasv] at hid <;> cases hid
  | plain => exact absurd rfl hjobs
  | handler h =>
    unfold sessionHandler at h
    rcases hid with hid | hid | hid | hid <;> simp only [hid] at h
    · exact ⟨by simp [hid], Option.some.inj h⟩
    · exact ⟨by simp [hid], Option.some.inj h⟩
    · exact ⟨by simp [hid], Option.some.inj h⟩
    · split at h
      · rename_i hargs
        exact ⟨fun _ ↦ hargs, Option.some.inj h⟩
      · cases h

-- of the commands that need a data connection, those for no file are listings
theorem lists_of_transfers {id : Commands} (h : Commands.transfers id = true)
    (hfile : Commands.transfersFile id = false) : id = .LIST ∨ id = .NLST ∨ id = .MLSD := by
  cases id
  case LIST => exact .inl rfl
  case NLST => exact .inr (.inl rfl)
  case MLSD => exact .inr (.inr rfl)
  case RETR | STOR | APPE | STOU => cases hfile
  all_goals cases h

theorem user_of_opensData {user : Option UserNode} {s : Session}
    (h : s.opensData user cmd = true) : user ≠ none := by
  rintro rfl
  unfold Session.opensData entitled Commands.transfers at h
  cases hid : cmd.id <;> rw [hid] at h <;> simp at h

/-- Threads are created for a client that is bound to a user, and those of a listing when
`process_list_cmd` gets to its end. -/
theorem SessionRun.starts (h : SessionRun build env σ c cmd o ports) {job : Job}
    (hjob : job ∈ o.effects.filterMap jobOf) :
    (σ.nodes c).user ≠ none ∧
      (job.stage.unguarded = true → (σ.nodes c).startsListing env σ.sslContext
        ((σ.nodes c).user.map σ.userManager.users) cmd = true) := by
  have hjobs : o.effects.filterMap jobOf ≠ [] := List.ne_nil_of_mem hjob
  have hbound : (σ.nodes c).user.map σ.userManager.users ≠ none → (σ.nodes c).user ≠ none :=
    fun hne hnone ↦ hne (by rw [hnone]; rfl)
  -- a thread that transfers a file begins with a guarded statement
  have hguarded : ∀ {job' : Job}, o.effects.filterMap jobOf = [job'] →
      job'.stage.unguarded = false → job.stage.unguarded = true → False := by
    intro job' hlist hnot hyes
    rw [hlist] at hjob
    rw [List.mem_singleton.mp hjob, hnot] at hyes
    cases hyes
  cases h.acted with
  | keeps hkeeps => exact absurd hkeeps.jobs hjobs
  | prot _ _ _ hnone => exact absurd hnone hjobs
  | abor _ _ _ _ hnone => exact absurd hnone hjobs
  | rest _ _ _ _ _ hnone => exact absurd hnone hjobs
  | address _ _ _ _ _ _ _ _ hnone => exact absurd hnone hjobs
  | stat hid =>
    rcases h.lists (.inr (.inr (.inr hid))) hjobs with ⟨hargs, hlist⟩
    rcases processListCmd_lists hlist hjobs with ⟨hjoinable, hholds⟩
    refine ⟨hbound fun hnone ↦ ?_, fun _ ↦ ?_⟩
    · rw [hnone] at hholds
      cases hholds
    · unfold Session.startsListing
      rw [hjoinable, hid, hholds]
      simpa using hargs hid
  | opens hopens hopen _ _ _ hstarted =>
    refine ⟨hbound (user_of_opensData hopens), fun hyes ↦ ?_⟩
    cases hstarted with
    | refused hnone => exact absurd hnone hjobs
    | retrieve _ _ hlist => exact (hguarded hlist rfl hyes).elim
    | store _ _ hlist => exact (hguarded hlist rfl hyes).elim
    | list hopened hfile =>
      have hdata : (σ.nodes c).dataOpens env σ.sslContext = true := by
        rw [← (Session.openDataConnection_opened hopen).opened_iff, hopened]
      have hid := lists_of_transfers (Session.transfers_of_opensData hopens) hfile
      have hlisted : cmd.id = .LIST ∨ cmd.id = .NLST ∨ cmd.id = .MLSD ∨ cmd.id = .STAT := by
        rcases hid with hid | hid | hid
        · exact .inl hid
        · exact .inr (.inl hid)
        · exact .inr (.inr (.inl hid))
      have hjoinable := (processListCmd_lists (h.lists hlisted hjobs).2 hjobs).1
      unfold Session.startsListing
      rw [hjoinable, hopens, hdata]
      rcases hid with hid | hid | hid
      · rw [hid]
        rfl
      · rw [hid]
        rfl
      · rw [hid]
        rfl

theorem replyEffects_jobs (a : Answer) : (replyEffects a).filterMap jobOf = [] := by
  unfold replyEffects
  split
  · rfl
  · rfl

theorem stored_sslContext (σ : FtpServer) (k : Connection) (p : RequestParser) :
    (σ.stored k p).sslContext = σ.sslContext := by
  unfold stored
  rcases clientFor_cases σ k with ⟨c, -, h⟩ | ⟨-, h⟩
  · rw [h]
    rfl
  · rw [h]
    rfl

/-- The client node of a new thread is registered, and its connection goes on. -/
theorem Handled.created {k : Connection} {p : RequestParser} {a : Answer} {job : Job}
    (h : Handled build env (σ.clientFor k).1 (σ.clientFor k).2 p
      (if cmd.id = .invalid then none else some cmd) a)
    (hjob : job ∈ a.effects.filterMap jobOf) :
    a.ret = true ∧ Registered a.server (σ.clientFor k).2 ∧
      (job.stage.unguarded = true → (σ.requestOf k cmd).node.startsListing env σ.sslContext
        ((σ.requestOf k cmd).node.user.map σ.userManager.users) cmd = true) := by
  by_cases hid : cmd.id = .invalid
  · rw [if_pos hid] at h
    cases h with
    | ignored => cases hjob
  · rw [if_neg hid] at h
    cases h with
    | ran hrun =>
      rcases runSwitch_cases hrun with
        ⟨-, r, -, rfl⟩ | ⟨-, rfl⟩ | ⟨-, rfl⟩ | ⟨-, o, ports, hsession, rfl⟩
      · cases hjob
      · cases hjob
      · cases hjob
      · rcases hsession.starts hjob with ⟨huser, hstarts⟩
        rw [setParser_nodes_self] at huser hstarts
        rw [stored_userManager, stored_sslContext] at hstarts
        refine ⟨rfl, ?_, hstarts⟩
        have hsame := conclude_sameLogin env { σ.stored k p with dataPorts := ports }
          (σ.clientFor k).2 o
        have hreg := clientFor_registered (σ := σ) k huser
        exact (hsame.registered _).mpr ((stored_sameLogin σ k p).registered _ |>.mpr hreg)

end Created

end FtpServer

/-! ## The service -/

namespace Service

open FtpServer (Consistent Handled Replied jobOf)

/-- The client node of a thread that has not come to its end is registered, and its control
connection is open as long as the thread is about to send without asking. -/
structure Held (σ : FtpServer) (t : ClientThread) : Prop where
  registered : t.stage.unfinished = true → Registered σ t.client
  speaks : t.stage.unguarded = true → (σ.nodes t.client).isCtrlCanalOpen = true

structure Attended (v : Service) : Prop where
  consistent : Consistent v.server
  held : ∀ t ∈ v.threads, Held v.server t

section Attended

variable {build : Build} {v v' : Service} {σ τ : FtpServer} {t : ClientThread} {fs : List Effect}
  {e : Event Line} {d : Deed}

theorem unfinished_of_unguarded {stage : Stage} (h : stage.unguarded = true) :
    stage.unfinished = true := by
  cases stage with
  | ended => cases h
  | _ => rfl

theorem Held.of_finished (h : t.stage.unfinished = false) : Held σ t := by
  constructor
  · intro hrunning
    rw [h] at hrunning
    cases hrunning
  · intro hspeaks
    rw [unfinished_of_unguarded hspeaks] at h
    cases h

theorem Held.of_same (h : Held σ t) (hnode : τ.nodes t.client = σ.nodes t.client)
    (hreg : Registered τ t.client ↔ Registered σ t.client) : Held τ t := by
  refine ⟨fun hrunning ↦ hreg.mpr (h.registered hrunning), fun hspeaks ↦ ?_⟩
  rw [hnode]
  exact h.speaks hspeaks

/-- The end of a connection, for a thread of its client node and for one of another. -/
theorem Held.endWork {s : Handle} (h : Held σ t)
    (hclient : σ.findClient s = some t.client → t.stage.unfinished = true →
      (∀ u ∈ (σ.nodes t.client).user, σ.Spare t.client [u]) ∧ t.stage.unguarded = false)
    (hcons : Consistent σ) (hend : σ.endWork s = .ok τ) : Held (τ.closeConnection s) t := by
  cases hrunning : t.stage.unfinished with
  | false => exact .of_finished hrunning
  | true =>
    by_cases hfound : σ.findClient s = some t.client
    · rcases hclient hfound hrunning with ⟨hspare, hguarded⟩
      have hreg := FtpServer.endWork_registered (hcons.serves hfound) (h.registered hrunning) hspare
        hend
      refine ⟨fun _ ↦ hreg, fun hspeaks ↦ ?_⟩
      rw [hguarded] at hspeaks
      cases hspeaks
    · rcases FtpServer.endWork_other hfound hend with ⟨hnode, hreg⟩
      exact h.of_same hnode hreg

/-- A line that is processed, for a thread of any client node. -/
theorem Held.handled {env : Env} {k : Connection} {p : RequestParser} {cmd : Command} {a : Answer}
    (h : Held σ t) (hcons : Consistent σ) (hname : cmd.id = .USER → cmd.args ≠ [])
    (hspare : t.client = (σ.clientFor k).2 → t.stage.unfinished = true →
      σ.Spare (σ.clientFor k).2 (σ.departures (σ.requestOf k cmd)))
    (hhandled : Handled build env (σ.clientFor k).1 (σ.clientFor k).2 p
      (if cmd.id = .invalid then none else some cmd) a) : Held a.server t := by
  cases hrunning : t.stage.unfinished with
  | false => exact .of_finished hrunning
  | true =>
    have hallocated := hcons.allocated _ (h.registered hrunning)
    by_cases hclient : t.client = (σ.clientFor k).2
    · have hkeeps := hhandled.keepsClient hcons hname (hspare hclient hrunning)
      refine ⟨fun _ ↦ hclient ▸ hkeeps.registered, fun hspeaks ↦ ?_⟩
      rw [hclient, hhandled.open]
      -- a node that has been there is the one it was
      have hnode := (FtpServer.clientFor_frame σ k).nodes t.client hallocated
      have hopen := h.speaks hspeaks
      rw [← hnode, hclient] at hopen
      exact hopen
    · rcases hhandled.other hallocated hclient with ⟨hnode, hreg⟩
      exact h.of_same hnode hreg

theorem Held.received {env : Env} {k : Connection} {p : RequestParser} {cmd : Command} {a : Answer}
    (h : Held v.server t) (ht : t ∈ v.threads) (hcons : Consistent v.server)
    (hname : cmd.id = .USER → cmd.args ≠ [])
    (hspares : v.SparesClient env (v.server.requestOf k cmd))
    (hhandled : Handled build env (v.server.clientFor k).1 (v.server.clientFor k).2 p
      (if cmd.id = .invalid then none else some cmd) a)
    (hreplied : Replied k a τ fs) : Held τ t := by
  have hspare : t.client = (v.server.clientFor k).2 → t.stage.unfinished = true →
      v.server.Spare (v.server.clientFor k).2 (v.server.departures (v.server.requestOf k cmd)) :=
    fun hclient hrunning ↦ hspares.1 ⟨t, ht, hclient, hrunning⟩
  have ha := h.handled hcons hname hspare hhandled
  rcases hhandled.consistent hcons with ⟨haserver, hserves⟩
  cases hreplied with
  | goesOn => exact ha
  | ended hret hend =>
    refine ha.endWork (fun hfound hrunning ↦ ?_) haserver hend
    -- the connection that ends is that of the client which has been turned away
    rcases FtpServer.findClient_eq_some hfound with ⟨hreg, hsocket⟩
    have hclient := hserves.alone _ hreg hsocket
    have hkeeps := hhandled.keepsClient hcons hname (hspare hclient hrunning)
    have hturned := hhandled.turnedAway hcons hname hret
    refine ⟨hclient ▸ hkeeps.ended hret, Bool.eq_false_iff.mpr fun hspeaks ↦ ?_⟩
    exact hspares.2.1 hturned ⟨t, ht, hclient, hspeaks⟩

/-- What an event leaves of the threads that are there. -/
theorem Held.event (h : Held v.server t) (ht : t ∈ v.threads) (hcons : Consistent v.server)
    (hspares : v.Spares (.event e)) (hworker : ∀ i act env, e ≠ .worker i act env)
    (hexec : v.server.exec (FtpServer.onLine build) e = .ok (τ, fs)) : Held τ t := by
  cases e with
  | connect k =>
    rw [FtpServer.exec] at hexec
    split at hexec
    · cases hexec
      exact h
    · cases hexec
      exact ⟨h.registered, h.speaks⟩
  | receive s line =>
    rcases FtpServer.exec_line hexec with
      ⟨-, rfl, -⟩ | ⟨k, cmd, reply, p, a, -, -, hcommand, hrequest, hhandled, hreplied⟩
    · exact h
    · exact h.received ht hcons (RequestParser.getCommand_user hcommand) (hspares _ hrequest)
        hhandled hreplied
  | close s =>
    rw [FtpServer.exec] at hexec
    split at hexec
    · rename_i hopen
      rcases eq_ok_of_map hexec with ⟨υ, hυ, heq⟩
      cases heq
      refine h.endWork (fun hfound hrunning ↦ ?_) hcons hυ
      rcases hspares hopen _ hfound with ⟨hspare, hsilent⟩
      refine ⟨fun u hu ↦ ?_, Bool.eq_false_iff.mpr fun hspeaks ↦ hsilent ⟨t, ht, rfl, hspeaks⟩⟩
      have hspare := hspare ⟨t, ht, rfl, hrunning⟩
      rw [Option.mem_def.mp hu] at hspare
      exact hspare
    · cases hexec
      exact h
  | worker i act env => exact absurd rfl (hworker i act env)
  | admin op env =>
    cases hexec
    cases hop : v.server.administer env op with
    | error code => exact h
    | ok τ =>
      have hframe := FtpServer.administer_frame hcons.listed hcons.nodup hcons.anonymous hop
      constructor
      case registered =>
        intro hrunning
        rcases h.registered hrunning with ⟨u, hu, hmem⟩
        by_cases hdisallows : op.disallows = true ∧ v.server.isAllowAnonymous = true
        · rcases hspares hdisallows.1 hdisallows.2 t ht hrunning with ⟨w, hw, hmem, hother⟩
          exact FtpServer.administer_registered hcons hop hw hmem fun _ _ ↦ hother
        · exact FtpServer.administer_registered hcons hop hu hmem
            fun hyes hallow ↦ absurd ⟨hyes, hallow⟩ hdisallows
      case speaks =>
        intro hspeaks
        change (τ.nodes t.client).isCtrlCanalOpen = true
        rw [hframe.nodes]
        exact h.speaks hspeaks

theorem Attended.safe (h : Attended v) : WorkersSafe build v := by
  constructor
  case alive => exact fun t ht ↦ (h.held t ht).registered
  case silent =>
    intro i t answers v' events ht hclosed hexec r hr
    rcases exec_thread hexec with ⟨-, rfl, -⟩ | ⟨t', s, stage, ht', hstage, -⟩
    · cases hr
    · rw [ht] at ht'
      cases ht'
      have hopen : (v.server.nodes t.client).isCtrlCanalOpen = true := by
        rcases (stage_guarded hstage).replies r hr with hspeaks | hopen
        · exact (h.held t (List.mem_of_getElem? ht)).speaks hspeaks
        · exact hopen
      rw [hclosed] at hopen
      cases hopen

end Attended

end Service

/-! ## A download and a listing -/

namespace Sample

def answers : Answers := { env := env }

def serve (text : String) : Deed := .event (line text)

end Sample

end YFtp
