import YFtp.AlikeServers
import YFtp.Independence
import YFtp.WorkerLifetime

/-!
# Conversations of the server

A run of the whole server, seen from one client node.  As long as its connection stays open, what
happens to the node and to its threads is a conversation, in which everything else comes in from
elsewhere: what holds of every conversation holds of every client node of the server.
-/

namespace YFtp

open FtpServer (Consistent Handled Replied jobOf request)

namespace FtpServer

/-! ## The parser -/

-- the handlers neither read nor write the parser of the client node

section Parser

variable {build : Build} {env : Env} {σ τ : FtpServer} {c : ClientRef} {cmd : Command}
  (p : RequestParser)

theorem setParser_setParser (q : RequestParser) :
    (σ.setParser c p).setParser c q = σ.setParser c q := by
  rw [setParser, setParser_nodes_self, setParser, setNode_setNode]
  rfl

/-- A node that is written keeps the parser that it has. -/
theorem setParser_setNode (n : ClientNode) :
    (σ.setParser c p).setNode c { n with requestParser := p } = (σ.setNode c n).setParser c p := by
  rw [setParser, setNode_setNode, setParser, setNode_setNode, setNode_self]

theorem logOut_setParser :
    (σ.setParser c p).logOut c = (σ.logOut c).map (·.setParser c p) := by
  unfold logOut
  rw [setParser_nodes_self]
  dsimp only
  split
  · split
    · rfl
    · exact congrArg Except.ok (setParser_setNode (σ := σ.deleteClient _ c) p
        { σ.nodes c with isLogged := false, user := none })
  · rfl

theorem addClient_setParser (u : UserRef) :
    (σ.setParser c p).addClient u c = (σ.addClient u c).map (·.setParser c p) := by
  unfold addClient
  rw [Option.map_map]
  rfl

theorem bindUser_setParser (arg : WString) :
    (σ.setParser c p).bindUser c arg
      = ((σ.bindUser c arg).1.setParser c p, (σ.bindUser c arg).2) := by
  unfold bindUser
  by_cases hname : arg = []
  · rw [if_pos hname, if_pos hname]
  · rw [if_neg hname, if_neg hname]
    rw [show (σ.setParser c p).asksAnonymous arg = σ.asksAnonymous arg from rfl]
    cases σ.asksAnonymous arg with
    | true =>
      rw [if_pos rfl, if_pos rfl]
      rw [show (σ.setParser c p).userManager = σ.userManager from rfl]
      cases σ.userManager.findUser "anonymous".toList with
      | none => rfl
      | some u =>
        dsimp only
        rw [addClient_setParser]
        cases σ.addClient u c with
        | none => rfl
        | some τ =>
          rw [Option.map_some, setParser_nodes_self]
          exact Prod.ext (setParser_setNode p { σ.nodes c with
            isLogged := true, isAnonymous := true, user := some u }) rfl
    | false =>
      rw [if_neg Bool.false_ne_true, if_neg Bool.false_ne_true]
      have hnode : (σ.setParser c p).setNode c { (σ.setParser c p).nodes c with
            user := (σ.setParser c p).enabledUser arg }
          = (σ.setNode c { σ.nodes c with user := σ.enabledUser arg }).setParser c p := by
        rw [setParser_nodes_self]
        exact setParser_setNode p { σ.nodes c with user := σ.enabledUser arg }
      rw [hnode]
      simp only [setParser_nodes_self, setNode_self]
      cases σ.enabledUser arg with
      | none => rfl
      | some u =>
        dsimp only
        rw [addClient_setParser]
        cases (σ.setNode c { σ.nodes c with user := some u }).addClient u c with
        | none => rfl
        | some τ => rfl

theorem unbind_setParser : (σ.setParser c p).unbind c = (σ.unbind c).setParser c p := by
  unfold unbind
  rw [setParser_nodes_self]
  dsimp only
  split
  · exact setParser_setNode (σ := σ.deleteClient _ c) p { σ.nodes c with user := none }
  · rfl

theorem processPasswordCmd_setParser (arg : WString) :
    (σ.setParser c p).processPasswordCmd c arg
      = ((σ.processPasswordCmd c arg).1.setParser c p, (σ.processPasswordCmd c arg).2) := by
  have haccept : (σ.setParser c p).setNode c { (σ.setParser c p).nodes c with isLogged := true }
      = (σ.setNode c { σ.nodes c with isLogged := true }).setParser c p := by
    rw [setParser_nodes_self]
    exact setParser_setNode p { σ.nodes c with isLogged := true }
  have hmatches : (σ.setParser c p).passwordMatches c arg = σ.passwordMatches c arg := by
    unfold passwordMatches
    rw [setParser_nodes_self]
    rfl
  unfold processPasswordCmd
  rw [haccept, hmatches, unbind_setParser, setParser_nodes_self]
  dsimp only
  split
  · rfl
  · split
    · split <;> rfl
    · rfl

theorem processReinCmd_setParser :
    (σ.setParser c p).processReinCmd c
      = ((σ.processReinCmd c).1.setParser c p, (σ.processReinCmd c).2) := by
  unfold processReinCmd
  rw [unbind_setParser]
  dsimp only
  rw [setParser_nodes_self]
  exact Prod.ext (setParser_setNode p { (σ.unbind c).nodes c with
    isLogged := false, isAnonymous := false, binaryMode := true, currentDirectory := ['/']
    curDataMode := .none, renameFromPath := [] }) rfl

theorem outcomeOf_setParser :
    (σ.setParser c p).outcomeOf build env c cmd = σ.outcomeOf build env c cmd := by
  have hssl : (σ.setParser c p).usesSsl c = σ.usesSsl c := by
    unfold usesSsl
    rw [setParser_nodes_self]
    rfl
  unfold outcomeOf sessionHandler
  rw [hssl, setParser_nodes_self]
  rfl

theorem foldl_perform_setParser (fs : List Effect) :
    fs.foldl (perform env c) (σ.setParser c p) = (fs.foldl (perform env c) σ).setParser c p := by
  rw [foldl_perform_eq, foldl_perform_eq, setParser_nodes_self]
  rfl

theorem conclude_setParser (o : Outcome) :
    (σ.setParser c p).conclude env c o
      = { σ.conclude env c o with server := (σ.conclude env c o).server.setParser c p } := by
  have hsession : (σ.setParser c p).setSession c o.session
      = (σ.setSession c o.session).setParser c p := by
    rw [setSession, setParser_nodes_self]
    exact setParser_setNode p { σ.nodes c with toSession := o.session }
  unfold conclude
  rw [hsession, foldl_perform_setParser]

theorem runSwitch_setParser :
    (σ.setParser c p).runSwitch build env c cmd =
      (σ.runSwitch build env c cmd).map fun a ↦ { a with server := a.server.setParser c p } := by
  by_cases hcmd : Commands.isLogin cmd.id = false
  · rw [runSwitch_eq_conclude build env _ c hcmd, runSwitch_eq_conclude build env _ c hcmd,
      outcomeOf_setParser]
    cases σ.outcomeOf build env c cmd with
    | error fault => rfl
    | ok r => exact congrArg Except.ok (conclude_setParser (σ := { σ with dataPorts := r.2 }) p r.1)
  · unfold runSwitch
    split
    · rw [processUserCmd, processUserCmd, logOut_setParser]
      cases σ.logOut c with
      | error fault => rfl
      | ok τ => exact congrArg Except.ok (by rw [bindUser_setParser])
    · rw [processPasswordCmd_setParser]
      rfl
    · rw [processReinCmd_setParser]
      rfl
    · rename_i hid
      rw [hid] at hcmd
      exact absurd rfl hcmd
    · rename_i huser hpass hrein hpasv
      exfalso
      apply hcmd
      cases hid : cmd.id <;> first | rfl | contradiction

end Parser

end FtpServer

/-! ## What is seen of a conversation -/

/-- The connection of the client node is open. -/
def Service.Connected (v : Service) (c : ClientRef) : Prop :=
  ∃ k ∈ v.server.connections, k.handle = (v.server.nodes c).ctrlSocket

/-- The threads of a client node. -/
def Service.stagesOf (v : Service) (c : ClientRef) : List Stage :=
  (v.threads.filter (·.client = c)).map (·.stage)

/-- The conversation is what the client node `c` has of the server: its parser does not matter. -/
structure Follows (c : ClientRef) (v : Service) (w : Talk) : Prop where
  server : ∃ p, v.server = w.server.setParser c p
  threads : w.threads.map (·.stage) = v.stagesOf c

/-- The command that a deed makes the client node `c` run. -/
def Service.asked (c : ClientRef) : Service × Deed → Option Command
  | (v, .event e) =>
    (request v.server e).bind fun q ↦
      if q.client = c ∧ q.cmd.id ≠ .invalid then some q.cmd else none
  | (_, .thread ..) => none

def Talk.said : Talk × Act → Option Command
  | (_, .command cmd _) => some cmd
  | _ => none

/-- What the server does next is a part of the conversation that says `asked`. -/
def Continues (build : Build) (c : ClientRef) (w : Talk) (asked : Option Command) (v : Service) :
    Prop :=
  ∃ talk w', TalkRun build c w talk w' ∧ Follows c v w' ∧ talk.filterMap Talk.said = asked.toList

/-! ## One deed -/

section Deeds

variable {build : Build} {env : Env} {c : ClientRef} {v v' : Service} {w : Talk} {e : Event Line}
  {cmd : Command} {a : Answer} {k : Connection} {p : RequestParser} {τ : FtpServer}
  {fs : List Effect}

theorem Follows.continues (h : Follows c v w) : Continues build c w none v :=
  ⟨[], w, .refl, h, rfl⟩

theorem Talk.speaks_of_command (h : w.server.runSwitch build env c cmd = .ok a)
    (hret : a.ret = true) :
    Talk.Speaks build c w (.command cmd env) (w.afterCommand c env cmd a) := by
  rw [Talk.Speaks, Talk.exec, h]
  show Except.ok (if a.ret then _ else _) = _
  rw [hret]
  rfl

/-- The node of the conversation is the node of the server, less its parser. -/
theorem Follows.node (h : Follows c v w) :
    ∃ p, v.server.nodes c = { w.node c with requestParser := p } := by
  rcases h.server with ⟨p, hserver⟩
  exact ⟨p, by rw [hserver, FtpServer.setParser_nodes_self]; rfl⟩

/-- What happens at other client nodes comes in from elsewhere. -/
theorem Follows.elsewhere (h : Follows c v w)
    (hnode : v'.server.nodes c = v.server.nodes c) (hstages : v'.stagesOf c = v.stagesOf c) :
    Continues build c w none v' := by
  rcases h.node with ⟨p, hw⟩
  refine ⟨[(w, .elsewhere v'.server)], { w with server := v'.server.setNode c (w.node c) },
    .snoc .refl rfl, ⟨⟨p, ?_⟩, h.threads.trans hstages.symm⟩, rfl⟩
  show _ = (v'.server.setNode c (w.node c)).setNode c _
  rw [FtpServer.setNode_self, FtpServer.setNode_setNode, ← hw, ← hnode, FtpServer.setNode_eq_self]

/-- A thread does not look at the parser. -/
theorem Stage.step_parser (stage : Stage) (answers : Answers) (n : ClientNode)
    (user : Option UserNode) (p : RequestParser) :
    stage.step answers { n with requestParser := p } user = stage.step answers n user := by
  cases stage <;> rfl

/-- A step of a thread of the client node. -/
theorem Follows.thread (h : Follows c v w) {i : Nat} {answers : Answers} {t : ClientThread}
    {s : Session} {next : Stage} {events : List ThreadEvent} (ht : v.threads[i]? = some t)
    (hclient : t.client = c)
    (hstep : t.stage.step answers (v.server.nodes c) (v.account c) = .ok (s, next, events)) :
    Continues build c w none
      { server := v.server.setSession c s
        threads := v.threads.set i { t with stage := next } } := by
  rcases h.server with ⟨p, hserver⟩
  rcases Theory.filter_set_of_pos (p := fun t : ClientThread ↦ decide (t.client = c))
    (b := { t with stage := next }) ht (by simpa using hclient) (by simpa using hclient)
    with ⟨j, hj, hset⟩
  -- the same thread of the conversation
  have hstages := h.threads
  have hstage : (w.threads.map (·.stage))[j]? = some t.stage := by
    rw [hstages, Service.stagesOf, List.getElem?_map, hj]
    rfl
  rw [List.getElem?_map] at hstage
  rcases Option.map_eq_some_iff.mp hstage with ⟨t', ht', heq⟩
  have haccount : v.account c = w.account c := by
    unfold Service.account Talk.account
    rw [hserver, FtpServer.setParser_nodes_self]
    rfl
  rw [hserver, FtpServer.setParser_nodes_self, Stage.step_parser, haccount, ← heq] at hstep
  refine ⟨_, _, .snoc .refl (Talk.speaks_of_step ht' hstep), ⟨⟨p, ?_⟩, ?_⟩, rfl⟩
  · rw [hserver, FtpServer.setSession, FtpServer.setParser_nodes_self]
    exact FtpServer.setParser_setNode p { w.server.nodes c with toSession := s }
  · show (w.threads.set j { t' with stage := next }).map (·.stage) = _
    rw [List.map_set, hstages, Service.stagesOf, Service.stagesOf, hset, List.map_set]

/-- A thread of another client node. -/
theorem Follows.otherThread (h : Follows c v w) {i : Nat} {t : ClientThread} {s : Session}
    {next : Stage} (ht : v.threads[i]? = some t) (hclient : t.client ≠ c) :
    Continues build c w none { server := v.server.setSession t.client s
                               threads := v.threads.set i { t with stage := next } } := by
  apply h.elsewhere
  · exact FtpServer.setSession_of_ne _ _ hclient.symm
  · unfold Service.stagesOf
    rw [Theory.filter_set_of_neg ht (by simpa using hclient) (by simpa using hclient)]

/-- The threads that an event creates belong to the client node that it is given to. -/
theorem stagesOf_created (fs : List Effect) (σ : FtpServer) (c : ClientRef) {q : FtpServer.Request}
    (hrequest : request v.server e = some q) :
    Service.stagesOf { server := σ, threads := v.threads ++ v.created e fs } c
      = v.stagesOf c ++ if q.client = c then (fs.filterMap jobOf).map Job.stage else [] := by
  have hcreated : v.created e fs
      = (fs.filterMap jobOf).map fun job ↦ ⟨q.client, job.stage⟩ := by
    rw [Service.created, hrequest]
  rw [Service.stagesOf, List.filter_append, List.map_append, hcreated, List.filter_map]
  congr 1
  by_cases hclient : q.client = c
  · rw [if_pos hclient, List.map_map,
      List.filter_eq_self.mpr (by simpa using fun _ _ _ _ ↦ hclient)]
    rfl
  · rw [if_neg hclient, List.filter_eq_nil_iff.mpr (by simpa using fun _ _ _ _ ↦ hclient)]
    rfl

theorem stagesOf_created_none (σ : FtpServer) (c : ClientRef)
    (hrequest : request v.server e = none) :
    Service.stagesOf { server := σ, threads := v.threads ++ v.created e fs } c = v.stagesOf c := by
  rw [Service.stagesOf, Service.created, hrequest, List.append_nil]
  rfl

theorem replyEffects_noJobs (a : Answer) :
    (a.effects ++ FtpServer.replyEffects a).filterMap jobOf = a.effects.filterMap jobOf := by
  rw [List.filterMap_append, FtpServer.replyEffects_jobs, List.append_nil]

/-- A line that the client node `c` gets, and after which its connection stays open. -/
theorem Follows.received {q : RequestParser}
    (hserver : (v.server.clientFor k).1 = w.server.setParser c q)
    (hthreads : w.threads.map (·.stage) = v.stagesOf c)
    (hrequest : request v.server e = some ⟨c, (v.server.clientFor k).1.nodes c, cmd⟩)
    (hhandled : Handled build env (v.server.clientFor k).1 c p
      (if cmd.id = .invalid then none else some cmd) a) (hret : a.ret = true) :
    Continues build c w (Service.asked c (v, .event e))
      { server := a.server
        threads := v.threads ++ v.created e (a.effects ++ FtpServer.replyEffects a) } := by
  have hstages := stagesOf_created (a.effects ++ FtpServer.replyEffects a) a.server c hrequest
  rw [if_pos rfl, replyEffects_noJobs] at hstages
  rw [Service.asked, hrequest, Option.bind_some]
  by_cases hid : cmd.id = .invalid
  · -- the parser has refused the line
    rw [if_pos hid] at hhandled
    cases hhandled with
    | ignored =>
      rw [if_neg (fun h ↦ h.2 hid)]
      refine Follows.continues ⟨⟨p, ?_⟩, hthreads.trans ?_⟩
      · rw [hserver, FtpServer.setParser_setParser]
      · rw [hstages]
        exact (List.append_nil _).symm
  · rw [if_neg hid] at hhandled
    rw [if_pos ⟨rfl, hid⟩]
    cases hhandled with
    | @ran _ b hrun =>
      rw [hserver, FtpServer.setParser_setParser, FtpServer.runSwitch_setParser] at hrun
      rcases eq_ok_of_map hrun with ⟨b', hb', rfl⟩
      refine ⟨_, _, .snoc .refl (Talk.speaks_of_command hb' hret), ⟨⟨p, rfl⟩, ?_⟩, rfl⟩
      rw [hstages, Talk.afterCommand_threads, List.map_append, hthreads, Talk.created, List.map_map]
      rfl

theorem not_connected_closed {σ : FtpServer} {s : Handle} {threads : List ClientThread}
    (h : (σ.nodes c).ctrlSocket = s) :
    ¬Service.Connected { server := σ.closeConnection s, threads } c := by
  rintro ⟨k, hk, hsocket⟩
  have hne := (List.mem_filter.mp hk).2
  rw [decide_eq_true_eq] at hne
  exact hne (hsocket.trans h)

/-- A connection is closed, and that of the client node `c` stays open. -/
theorem endWork_node {σ : FtpServer} {s : Handle} {threads : List ClientThread}
    (hend : σ.endWork s = .ok τ)
    (hconnected : Service.Connected { server := τ.closeConnection s, threads } c) :
    τ.nodes c = σ.nodes c := by
  by_cases hfound : σ.findClient s = some c
  · rcases (FtpServer.endWork_endFrame hend).nodes c with ⟨isOpen, hnode⟩
    refine absurd hconnected (not_connected_closed ?_)
    rw [hnode]
    exact (FtpServer.findClient_eq_some hfound).2
  · exact (FtpServer.endWork_other hfound hend).1

theorem clientFor_ctrlSocket (σ : FtpServer) (k : Connection) :
    ((σ.clientFor k).1.nodes (σ.clientFor k).2).ctrlSocket = k.handle := by
  rcases FtpServer.clientFor_cases σ k with ⟨c, hfound, heq⟩ | ⟨-, heq⟩
  · rw [heq]
    exact (FtpServer.findClient_eq_some hfound).2
  · rw [heq]
    show ((σ.setNode σ.nextClient _).nodes σ.nextClient).ctrlSocket = _
    rw [FtpServer.setNode_self]
    rfl

/-- The connection of the client node that gets the line stays open: the command goes on. -/
theorem ret_of_connected {threads : List ClientThread} {handled : Option Command}
    (hhandled : Handled build env (v.server.clientFor k).1 (v.server.clientFor k).2 p handled a)
    (hreplied : Replied k a τ fs)
    (hconnected : Service.Connected { server := τ, threads } (v.server.clientFor k).2) :
    a.ret = true ∧ τ = a.server ∧ fs = a.effects ++ FtpServer.replyEffects a := by
  cases hreplied with
  | goesOn hret => exact ⟨hret, rfl, rfl⟩
  | ended hret hend =>
    rcases (FtpServer.endWork_endFrame hend).nodes (v.server.clientFor k).2 with ⟨isOpen, hnode⟩
    refine absurd hconnected (not_connected_closed ?_)
    rw [hnode]
    show (a.server.nodes _).ctrlSocket = _
    rw [hhandled.frame.ctrlSocket, FtpServer.setParser_nodes_self]
    exact clientFor_ctrlSocket v.server k

/-- An event, for a client node that is there. -/
theorem Follows.event (h : Follows c v w) (hc : c < v.server.nextClient)
    (hexec : v.server.exec (FtpServer.onLine build) e = .ok (τ, fs))
    (hworker : ∀ i act env, e ≠ .worker i act env)
    (hconnected : Service.Connected { server := τ, threads := v.threads ++ v.created e fs } c) :
    Continues build c w (Service.asked c (v, .event e))
      { server := τ, threads := v.threads ++ v.created e fs } := by
  -- an event that brings no line leaves the nodes whose connections stay open as they are
  have hquiet : request v.server e = none → τ.nodes c = v.server.nodes c →
      Continues build c w (Service.asked c (v, .event e))
        { server := τ, threads := v.threads ++ v.created e fs } := by
    intro hrequest hnode
    rw [Service.asked, hrequest]
    exact h.elsewhere hnode (stagesOf_created_none τ c hrequest)
  cases e with
  | connect k =>
    apply hquiet rfl
    rw [FtpServer.exec] at hexec
    split at hexec <;> cases hexec <;> rfl
  | close s =>
    apply hquiet rfl
    rcases FtpServer.exec_close hexec with ⟨rfl, -⟩ | ⟨-, υ, hend, rfl⟩
    · rfl
    · have hnode := endWork_node hend hconnected
      exact hnode
  | admin op env =>
    apply hquiet rfl
    cases hexec
    cases hop : v.server.administer env op with
    | error code => rfl
    | ok τ =>
      rcases FtpServer.administer_eq hop with ⟨m, allow, rfl⟩
      rfl
  | worker i act env => exact absurd rfl (hworker i act env)
  | receive s line =>
    rcases FtpServer.exec_line hexec with
      ⟨hnone, rfl, rfl⟩ | ⟨k, cmd, reply, p, a, -, hsocket, -, hrequest, hhandled, hreplied⟩
    · apply hquiet _ rfl
      rw [request, hnone]
      rfl
    · by_cases hclient : (v.server.clientFor k).2 = c
      · subst hclient
        rcases ret_of_connected hhandled hreplied hconnected with ⟨hret, rfl, rfl⟩
        -- the node was there before
        have hfound : (v.server.clientFor k).1 = v.server := by
          rcases FtpServer.clientFor_cases v.server k with ⟨c, -, heq⟩ | ⟨-, heq⟩
          · rw [heq]
          · rw [heq] at hc
            exact absurd hc (Nat.lt_irrefl _)
        rcases h.server with ⟨q, hserver⟩
        exact Follows.received (hfound.trans hserver) h.threads hrequest hhandled hret
      · have hnone : Service.asked c (v, .event (.receive s line)) = none := by
          rw [Service.asked, hrequest, Option.bind_some, if_neg (fun h ↦ hclient h.1)]
        rw [hnone]
        have hstages := stagesOf_created fs τ c hrequest
        rw [if_neg hclient, List.append_nil] at hstages
        refine h.elsewhere ?_ hstages
        have hnode := (hhandled.other hc (Ne.symm hclient)).1
        cases hreplied with
        | goesOn => exact hnode
        | ended hret hend =>
          have hend := endWork_node hend hconnected
          exact hend.trans hnode

/-- An event other than a step of a worker is one of the server. -/
theorem Service.exec_server (hworker : ∀ i act env, e ≠ .worker i act env)
    {events : List ThreadEvent} (h : v.exec build (.event e) = .ok (v', events)) :
    ∃ τ fs, v.server.exec (FtpServer.onLine build) e = .ok (τ, fs) ∧
      v' = { server := τ, threads := v.threads ++ v.created e fs } := by
  have hexec : v.exec build (.event e)
      = (liftFault (v.server.exec (FtpServer.onLine build) e)).map fun r ↦
        ({ server := r.1, threads := v.threads ++ v.created e r.2 }, []) := by
    cases e with
    | worker i act env => exact absurd rfl (hworker i act env)
    | _ => rfl
  rw [hexec] at h
  rcases eq_ok_of_map h with ⟨r, hr, heq⟩
  cases heq
  exact ⟨r.1, r.2, eq_ok_of_liftFault hr, rfl⟩

/-- A deed, for a client node that is there. -/
theorem Follows.step {d : Deed} (h : Follows c v w) (hc : c < v.server.nextClient)
    (hstep : Service.Step build v d v') (hconnected : v'.Connected c) :
    Continues build c w (Service.asked c (v, d)) v' := by
  rcases hstep with ⟨events, hexec⟩
  cases d with
  | event e =>
    by_cases hworker : ∃ i act env, e = .worker i act env
    · rcases hworker with ⟨i, act, env, rfl⟩
      cases hexec
      exact h.continues
    · have hother := fun i act env heq ↦ hworker ⟨i, act, env, heq⟩
      rcases Service.exec_server hother hexec with ⟨τ, fs, hτ, rfl⟩
      exact h.event hc hτ hother hconnected
  | thread i answers =>
    rcases Service.exec_thread hexec with ⟨rfl, -, -⟩ | ⟨t, s, stage, ht, hstage, rfl⟩
    · exact h.continues
    · by_cases hclient : t.client = c
      · subst hclient
        exact h.thread ht rfl hstage
      · exact h.otherThread ht hclient

/-- Client nodes are made when lines are received. -/
theorem nextClient_event {σ : FtpServer} (hother : ∀ s line, e ≠ .receive s line)
    (hexec : σ.exec (FtpServer.onLine build) e = .ok (τ, fs)) : τ.nextClient = σ.nextClient := by
  cases e with
  | connect k =>
    rw [FtpServer.exec] at hexec
    split at hexec <;> cases hexec <;> rfl
  | receive s line => exact absurd rfl (hother s line)
  | close s =>
    rcases FtpServer.exec_close hexec with ⟨rfl, -⟩ | ⟨-, υ, hend, rfl⟩
    · rfl
    · exact (FtpServer.endWork_endFrame hend).nextClient
  | worker i act env => exact (FtpServer.runWorker_frame hexec).nextClient
  | admin op env =>
    cases hexec
    cases hop : σ.administer env op with
    | error code => rfl
    | ok τ =>
      rcases FtpServer.administer_eq hop with ⟨m, allow, rfl⟩
      rfl

/-- A line makes a client node when its connection has none. -/
theorem nextClient_received (hhandled : Handled build env (v.server.clientFor k).1
      (v.server.clientFor k).2 p (if cmd.id = .invalid then none else some cmd) a)
    (hreplied : Replied k a τ fs) (hnew : τ.nextClient ≠ v.server.nextClient) :
    (v.server.clientFor k).2 = v.server.nextClient ∧ τ.nextClient = v.server.nextClient + 1 ∧
      (v.server.clientFor k).1.nodes (v.server.clientFor k).2 = FtpServer.freshNode k := by
  have hnext : τ.nextClient = (v.server.clientFor k).1.nextClient :=
    hreplied.endFrame.nextClient.trans hhandled.frame.nextClient
  rcases FtpServer.clientFor_cases v.server k with ⟨c', -, heq⟩ | ⟨-, heq⟩
  · rw [heq] at hnext
    exact absurd hnext hnew
  · rw [heq] at hnext ⊢
    exact ⟨rfl, hnext, FtpServer.setNode_self ..⟩

/-- A deed that makes a client node: a line on a connection that has none. -/
theorem received_of_new {d : Deed} (hstep : Service.Step build v d v')
    (hnew : v'.server.nextClient ≠ v.server.nextClient) :
    ∃ s line k cmd p a fs, d = .event (.receive s line) ∧
      request v.server (.receive s line)
        = some ⟨(v.server.clientFor k).2, (v.server.clientFor k).1.nodes (v.server.clientFor k).2,
            cmd⟩ ∧
      Handled build line.env (v.server.clientFor k).1 (v.server.clientFor k).2 p
        (if cmd.id = .invalid then none else some cmd) a ∧
      Replied k a v'.server fs ∧
      v'.threads = v.threads ++ v.created (.receive s line) fs := by
  rcases hstep with ⟨events, hexec⟩
  cases d with
  | thread i answers =>
    rcases Service.exec_thread hexec with ⟨rfl, -, -⟩ | ⟨t, s, stage, ht, hstage, rfl⟩ <;>
      exact absurd rfl hnew
  | event e =>
    by_cases hworker : ∃ i act env, e = .worker i act env
    · rcases hworker with ⟨i, act, env, rfl⟩
      cases hexec
      exact absurd rfl hnew
    · have hother := fun i act env heq ↦ hworker ⟨i, act, env, heq⟩
      rcases Service.exec_server hother hexec with ⟨τ, fs, hτ, rfl⟩
      by_cases hreceive : ∃ s line, e = .receive s line
      · rcases hreceive with ⟨s, line, rfl⟩
        rcases FtpServer.exec_line hτ with
          ⟨-, rfl, rfl⟩ | ⟨k, cmd, reply, p, a, -, -, -, hrequest, hhandled, hreplied⟩
        · exact absurd rfl hnew
        · exact ⟨s, line, k, cmd, p, a, fs, rfl, hrequest, hhandled, hreplied, rfl⟩
      · exact absurd (nextClient_event (fun s line heq ↦ hreceive ⟨s, line, heq⟩) hτ) hnew

end Deeds

/-! ## A whole run -/

/-- The registry is in order, and every thread belongs to a client node that is there. -/
structure Service.Orderly (v : Service) : Prop where
  consistent : Consistent v.server
  threads : ∀ t ∈ v.threads, t.client < v.server.nextClient

section Runs

variable {build : Build} {c : ClientRef} {v₀ v v' : Service} {trace : List (Service × Deed)}
  {d : Deed}

theorem nextClient_step (hstep : Service.Step build v d v') :
    v.server.nextClient ≤ v'.server.nextClient := by
  by_cases hnew : v'.server.nextClient = v.server.nextClient
  · exact Nat.le_of_eq hnew.symm
  · rcases received_of_new hstep hnew with ⟨s, line, k, cmd, p, a, fs, -, -, hhandled, hreplied, -⟩
    rw [(nextClient_received hhandled hreplied hnew).2.1]
    exact Nat.le_succ _

/-- The threads that an event creates belong to the client node that it is given to. -/
theorem created_allocated (hv : Consistent v.server) {e : Event Line} {τ : FtpServer}
    {fs : List Effect} (hexec : v.server.exec (FtpServer.onLine build) e = .ok (τ, fs)) :
    ∀ t ∈ v.created e fs, t.client < τ.nextClient := by
  intro t ht
  rw [Service.created] at ht
  cases e with
  | receive s line =>
    rcases FtpServer.exec_line hexec with
      ⟨-, -, rfl⟩ | ⟨k, cmd, reply, p, a, -, -, -, hrequest, hhandled, hreplied⟩
    · split at ht <;> cases ht
    · rw [hrequest] at ht
      rcases List.mem_map.mp ht with ⟨job, -, rfl⟩
      rw [hreplied.endFrame.nextClient]
      exact (hhandled.consistent hv).2.allocated
  | connect k => cases ht
  | close s => cases ht
  | worker i act env => cases ht
  | admin op env => cases ht

theorem Service.Orderly.step (h : v.Orderly) (hstep : Service.Step build v d v') : v'.Orderly := by
  have hnext := nextClient_step hstep
  rcases hstep with ⟨events, hexec⟩
  cases d with
  | event e =>
    by_cases hworker : ∃ i act env, e = .worker i act env
    · rcases hworker with ⟨i, act, env, rfl⟩
      cases hexec
      exact h
    · have hother := fun i act env heq ↦ hworker ⟨i, act, env, heq⟩
      rcases Service.exec_server hother hexec with ⟨τ, fs, hτ, rfl⟩
      refine ⟨FtpServer.exec_consistent (FtpServer.onLine_serving build) h.consistent hτ, ?_⟩
      apply Theory.forall_mem_append
      · exact fun t ht ↦ Nat.lt_of_lt_of_le (h.threads t ht) hnext
      · exact created_allocated h.consistent hτ
  | thread i answers =>
    rcases Service.exec_thread hexec with ⟨rfl, -, -⟩ | ⟨t, s, stage, ht, hstage, rfl⟩
    · exact h
    · have hsame := FtpServer.setSession_sameLogin v.server t.client s
      refine ⟨hsame.consistent h.consistent h.consistent.workers, ?_⟩
      apply Theory.forall_mem_set
      · exact fun j t' _ ht' ↦ h.threads t' (List.mem_of_getElem? ht')
      · exact h.threads t (List.mem_of_getElem? ht)

end Runs

instance (v : Service) (c : ClientRef) : Decidable (v.Connected c) :=
  inferInstanceAs (Decidable (∃ _ ∈ _, _))

end YFtp
