import YFtp.Theory.Observations
import YFtp.AlikeServers
import YFtp.IdleSessions

/-!
# A new login on an old connection

USER logs a session out and binds it to the next user, but leaves what the first user had set up;
REIN resets some of it.  A conversation that goes on after USER is compared with one on a fresh
connection, step by step.
-/

namespace YFtp

open Theory
open FtpServer (jobOf AlikeAnswers)
open Session (SameSocket AlikeSteps)

/-- What the client and the file system see of a step. -/
inductive Shown
  | answered (reply : Reply) (goesOn : Bool) (effects : List Effect)
  | stepped (events : List ThreadEvent)
  | ended (fault : ThreadFault)
  | nothing
deriving DecidableEq, Repr

namespace Talk

variable (build : Build) (c : ClientRef)

/-- A step of the conversation, with what it shows. -/
def next (w : Talk) : Act → Shown × Option Talk
  | .command cmd env =>
    match w.server.runSwitch build env c cmd with
    | .error fault => (.ended (.fault fault), none)
    | .ok a =>
      (.answered a.reply a.ret a.effects, if a.ret then some (w.afterCommand c env cmd a) else none)
  | .thread i answers =>
    match w.threads[i]? with
    | none => (.nothing, some w)
    | some t =>
      match t.stage.step answers (w.node c) (w.account c) with
      | .error fault => (.ended fault, none)
      | .ok (s, stage, events) => (.stepped events, some { w with
          server := w.server.setSession c s, threads := w.threads.set i { t with stage := stage } })
  | .elsewhere σ => (.nothing, some { w with server := σ.setNode c (w.node c) })

variable {build c} {v w w' : Talk} {act : Act}

/-- It is the step that a run takes. -/
theorem next_eq_some : (w.next build c act).2 = some w' ↔ w.Speaks build c act w' := by
  cases act with
  | command cmd env =>
    rw [next, Speaks, exec]
    cases w.server.runSwitch build env c cmd with
    | error fault => simp [liftFault, Except.mapError, Except.map]
    | ok a => simp [liftFault, Except.mapError, Except.map]
  | thread i answers =>
    rw [next, Speaks, exec]
    cases w.threads[i]? with
    | none => simp
    | some t =>
      dsimp only
      cases t.stage.step answers (w.node c) (w.account c) with
      | error fault => simp [Except.map]
      | ok r => simp [Except.map]
  | elsewhere σ => simp [next, Speaks, exec]

end Talk

/-! ## Conversations that look alike -/

theorem AlikeServers.reuse {build : Build} {used used' : Prop} {c : ClientRef} {σ τ : FtpServer}
    (h : AlikeServers build used c σ τ)
    (hsocket : used' → SameSocket (σ.nodes c).toSession (τ.nodes c).toSession) :
    AlikeServers build used' c σ τ := by
  cases h with
  | intro ρ hnode =>
    rw [FtpServer.setNode_self, FtpServer.setNode_self] at hsocket
    exact .intro ρ { hnode with socket := hsocket }

-- whoever gets a thread for a transfer has a data socket
theorem Session.Acted.dataSocket {env : Env} {sslContext : Bool} {user : Option UserNode}
    {s : Session} {cmd : Command} {o : Outcome} (h : Session.Acted env sslContext user s cmd o)
    {job : Job} (hjob : job ∈ o.effects.filterMap jobOf)
    (hrunning : job.stage.transferring = true) : o.session.dataSocket ≠ none := by
  have hno : o.effects.filterMap jobOf ≠ [] := List.ne_nil_of_mem hjob
  cases h with
  | keeps hkeeps => exact absurd hkeeps.jobs hno
  | stat hid _ hjobs =>
    rw [hjobs] at hjob
    rw [List.mem_singleton.mp hjob] at hrunning
    exact absurd hid (of_decide_eq_true hrunning)
  | prot _ _ _ hjobs => exact absurd hjobs hno
  | abor _ _ _ _ hjobs => exact absurd hjobs hno
  | rest _ _ _ _ _ hjobs => exact absurd hjobs hno
  | address _ _ _ _ _ _ _ _ hjobs => exact absurd hjobs hno
  | opens _ hopen hsocket _ _ hstarted =>
    rw [hsocket]
    have hready := (Session.openDataConnection_opened hopen).ready
    cases hstarted with
    | refused hjobs => exact absurd hjobs hno
    | list hopened => exact (hready hopened).2.1
    | retrieve hopened => exact (hready hopened).2.1
    | store hopened => exact (hready hopened).2.1

theorem FtpServer.runSwitch_dataSocket {build : Build} {env : Env} {σ : FtpServer} {c : ClientRef}
    {cmd : Command} {a : Answer} (h : σ.runSwitch build env c cmd = .ok a) {job : Job}
    (hjob : job ∈ a.effects.filterMap jobOf) (hrunning : job.stage.transferring = true) :
    (a.server.nodes c).dataSocket ≠ none := by
  cases FtpServer.runSwitch_commanded (w := { server := σ }) h with
  | login _ heffects =>
    rw [heffects] at hjob
    cases hjob
  | session hacted hnode heffects =>
    rw [heffects] at hjob
    rw [hnode]
    exact hacted.dataSocket hjob hrunning

namespace Talk

/-- Two conversations with threads that stand at the same statements. -/
structure AlikeTalks (build : Build) (c : ClientRef) (v w : Talk) : Prop where
  server : AlikeServers build (v.idle = false) c v.server w.server
  stages : w.threads.map (·.stage) = v.threads.map (·.stage)

section Alike

variable {build : Build} {c : ClientRef} {v w : Talk} {env : Env} {cmd : Command} {a b : Answer}
  {i : Nat} {answers : Answers}

theorem AlikeTalks.account (h : AlikeTalks build c v w) : w.account c = v.account c := by
  unfold Talk.account node
  rw [(FtpServer.alike_node h.server).user, FtpServer.alike_userManager h.server]

theorem map_stage_created (c : ClientRef) (w : Talk) (env : Env) (cmd : Command) (a : Answer) :
    (w.created c env cmd a).map (·.stage) = (a.effects.filterMap jobOf).map Job.stage := by
  unfold created
  rw [List.map_map]
  rfl

theorem AlikeTalks.command (h : AlikeTalks build c v w)
    (ha : v.server.runSwitch build env c cmd = .ok a)
    (hb : w.server.runSwitch build env c cmd = .ok b)
    (hab : AlikeAnswers build (v.idle = false) c a b) :
    AlikeTalks build c (v.afterCommand c env cmd a) (w.afterCommand c env cmd b) := by
  constructor
  case server =>
    apply hab.server.reuse
    intro hbusy
    by_cases hidle : v.idle = true
    · -- the threads that transfer are new
      rcases exists_running hbusy with ⟨t, ht, hrunning⟩
      rcases List.mem_append.mp ht with hold | hnew
      · rw [idle_iff.mp hidle t hold] at hrunning
        cases hrunning
      · rcases List.mem_map.mp hnew with ⟨job, hjob, rfl⟩
        have hjob' : job ∈ b.effects.filterMap jobOf := by
          rw [hab.effects]
          exact hjob
        exact iff_of_false (FtpServer.runSwitch_dataSocket ha hjob hrunning)
          (FtpServer.runSwitch_dataSocket hb hjob' hrunning)
    · rw [Bool.not_eq_true] at hidle
      exact (FtpServer.alike_node hab.server).socket hidle
  case stages =>
    rw [afterCommand_threads, afterCommand_threads, List.map_append, List.map_append, h.stages,
      map_stage_created, map_stage_created, hab.effects]

-- a step of a thread takes up no transfer
theorem transferring_of_stepped {n : ClientNode} {s : Session} {stage next : Stage}
    (h : Stepped n s stage next) (hnext : next.transferring = true) :
    stage.transferring = true := by
  cases h with
  | goesOn _ _ _ transferring => exact transferring hnext
  | begins => exact hnext
  | closes => rfl
  | finishes => cases hnext

theorem AlikeTalks.thread (h : AlikeTalks build c v w) {t : Thread} (t' : Thread)
    {r r' : StepResult} (ht : v.threads[i]? = some t)
    (hstep : t.stage.step answers (v.node c) (v.account c) = .ok r)
    (hr : AlikeSteps build (v.node c).toSession (w.node c).toSession r r') :
    AlikeTalks build c
      { v with server := v.server.setSession c r.1
               threads := v.threads.set i { t with stage := r.2.1 } }
      { w with server := w.server.setSession c r'.1
               threads := w.threads.set i { t' with stage := r'.2.1 } } := by
  have hsocket := (FtpServer.alike_node h.server).socket
  have hserver := FtpServer.alike_setSession h.server hr.session fun hbusy ↦ hr.kept (hsocket hbusy)
  constructor
  case server =>
    apply hserver.reuse
    intro hbusy
    apply (FtpServer.alike_node hserver).socket
    rw [← Bool.not_eq_true, idle_iff] at hbusy ⊢
    intro hidle
    apply hbusy
    apply forall_mem_set
    · exact fun j u _ hu ↦ hidle u (List.mem_of_getElem? hu)
    · rw [← Bool.not_eq_true]
      intro hnext
      have hrunning := transferring_of_stepped (stage_stepped hstep) hnext
      rw [hidle t (List.mem_of_getElem? ht)] at hrunning
      cases hrunning
  case stages =>
    rw [List.map_set, List.map_set, h.stages, hr.result]

end Alike

end Talk

/-! ## A fresh connection -/

/-- The client stands in no list. -/
def UserManager.without (m : UserManager) (c : ClientRef) : UserManager :=
  { m with users := fun u ↦
      { m.users u with clientList := (m.users u).clientList.filter fun d ↦ d ≠ c } }

/-- The server as it were if the connection of the client had just been made, at the level of TLS
that it is at. -/
def FtpServer.renew (σ : FtpServer) (c : ClientRef) : FtpServer :=
  { σ with userManager := σ.userManager.without c }.setNode c
    { freshNode { handle := (σ.nodes c).ctrlSocket, useSsl := σ.usesSsl c
                  serverIp := (σ.nodes c).serverIp, clientIp := (σ.nodes c).clientIp } with
      dataUseSsl := (σ.nodes c).dataUseSsl, sslSocket := (σ.nodes c).sslSocket }

/-- The conversation on the fresh connection.  The threads there were count as ended, so that those
to come have the same numbers. -/
def Talk.renewed (c : ClientRef) (w : Talk) : Talk where
  server := w.server.renew c
  threads := w.threads.map fun t ↦ { t with stage := .ended }

/-- Nothing is left of an earlier login that the user `name` would find. -/
structure Talk.CleanFor (build : Build) (c : ClientRef) (w : Talk) (name : WString) : Prop where
  currentDirectory : (w.node c).currentDirectory = ['/']
  renameFromPath : (w.node c).renameFromPath = []
  restartAt : (w.node c).restartAt ≤ 0
  curDataMode : (w.node c).curDataMode = .none
  isAnonymous : (w.node c).isAnonymous = true → w.server.asksAnonymous name = true
  dataSocket : (w.node c).dataSocket = none ∨ (w.node c).toSession.ClosesAnyway build
  listed : ∀ u, (w.server.userManager.users u).clientList.count c
    ≤ if (w.node c).isLogged = true ∧ (w.node c).user = some u then 1 else 0
  threads : ∀ t ∈ w.threads, t.stage = .ended

theorem filter_of_notMem {l : List ClientRef} {c : ClientRef} (h : c ∉ l) :
    (l.filter fun d ↦ d ≠ c) = l := by
  apply List.filter_eq_self.mpr
  intro d hd
  rw [decide_eq_true_iff]
  rintro rfl
  exact h hd

-- `erase` takes out every entry there is
theorem erase_of_count_le_one {l : List ClientRef} {c : ClientRef} (h : l.count c ≤ 1) :
    l.erase c = l.filter fun d ↦ d ≠ c := by
  have hgone : c ∉ l.erase c := by
    rw [← List.count_eq_zero, List.count_erase_self]
    omega
  have hnot : c ∉ l.filter fun d ↦ d ≠ c := by simp
  calc l.erase c = (l.erase c).filter fun d ↦ d ≠ c := (filter_of_notMem hgone).symm
    _ = (l.filter fun d ↦ d ≠ c).erase c := List.erase_filter.symm
    _ = l.filter fun d ↦ d ≠ c := List.erase_of_not_mem hnot

namespace UserManager

variable {m : UserManager} {c : ClientRef}

theorem without_eq_self (h : ∀ u, c ∉ (m.users u).clientList) : m.without c = m := by
  unfold without
  have husers : (fun u ↦ { m.users u with
      clientList := (m.users u).clientList.filter fun d ↦ d ≠ c }) = m.users := by
    funext u
    rw [filter_of_notMem (h u)]
  rw [husers]

theorem deleteClient_eq_without {u : UserRef} (hone : (m.users u).clientList.count c ≤ 1)
    (hnone : ∀ v, v ≠ u → c ∉ (m.users v).clientList) : m.deleteClient u c = m.without c := by
  unfold deleteClient without modify
  congr 1
  funext v
  by_cases hv : v = u
  · rw [hv, Function.update_self]
    dsimp only
    rw [erase_of_count_le_one hone]
  · rw [Function.update_of_ne hv, filter_of_notMem (hnone v hv)]

end UserManager

namespace FtpServer

variable {build : Build} {σ τ : FtpServer} {c : ClientRef} {name : WString}

theorem renew_setNode (σ : FtpServer) (c : ClientRef) (n : ClientNode) :
    (σ.renew c).setNode c n = { σ with userManager := σ.userManager.without c }.setNode c n := by
  unfold renew
  rw [setNode_setNode]

-- a client that was logged in once has left its list, and one that was not stands in none
theorem logOut_renew (hlisted : ∀ u, (σ.userManager.users u).clientList.count c
      ≤ if (σ.nodes c).isLogged = true ∧ (σ.nodes c).user = some u then 1 else 0)
    (h : σ.logOut c = .ok τ) :
    ∃ user, τ = (σ.renew c).setNode c { σ.nodes c with isLogged := false, user := user } := by
  have hnone : ∀ u, ¬((σ.nodes c).isLogged = true ∧ (σ.nodes c).user = some u) →
      c ∉ (σ.userManager.users u).clientList := by
    intro u hno
    have hcount := hlisted u
    rw [if_neg hno] at hcount
    exact List.count_eq_zero.mp (Nat.le_zero.mp hcount)
  rcases logOut_cases h with ⟨hlogged, rfl⟩ | ⟨hlogged, u, huser, rfl⟩
  · have hsame : { τ.nodes c with isLogged := false, user := (τ.nodes c).user } = τ.nodes c := by
      rw [← hlogged]
    have hwithout : τ.userManager.without c = τ.userManager := by
      apply UserManager.without_eq_self
      intro u
      apply hnone
      rw [hlogged]
      exact fun hno ↦ Bool.false_ne_true hno.1
    refine ⟨(τ.nodes c).user, ?_⟩
    rw [renew_setNode, hwithout, hsame]
    exact (setNode_eq_self τ c).symm
  · have hwithout : σ.userManager.deleteClient u c = σ.userManager.without c := by
      apply UserManager.deleteClient_eq_without
      · have hcount := hlisted u
        rw [if_pos ⟨hlogged, huser⟩] at hcount
        exact hcount
      · intro v hv
        apply hnone
        rw [huser]
        exact fun hno ↦ hv (Option.some.inj hno.2).symm
    refine ⟨none, ?_⟩
    rw [renew_setNode, ← hwithout]
    rfl

theorem addClient_setNode (σ : FtpServer) (c : ClientRef) (n : ClientNode) (u : UserRef) :
    (σ.setNode c n).addClient u c
      = (σ.userManager.addClient u c).map fun m ↦ { σ with userManager := m }.setNode c n := rfl

/-- USER is accepted. -/
def userAccepted (r : FtpServer × Reply × Bool) : Prop :=
  (r.2.1.code = 331 ∨ r.2.1.code = 230) ∧ r.2.2 = true

-- what USER finds of an earlier USER it overwrites, but for the flag of an anonymous login
theorem bindUser_anew {n : ClientNode} (haccepted : userAccepted ((σ.setNode c n).bindUser c name))
    (hanonymous : n.isAnonymous = true → σ.asksAnonymous name = true) :
    (σ.setNode c { n with user := none, isAnonymous := false }).bindUser c name
      = (σ.setNode c n).bindUser c name := by
  have hasks : ∀ n, (σ.setNode c n).asksAnonymous name = σ.asksAnonymous name := fun _ ↦ rfl
  have henabled : ∀ n, (σ.setNode c n).enabledUser name = σ.enabledUser name := fun _ ↦ rfl
  unfold bindUser at haccepted ⊢
  simp only [hasks, henabled, setNode_userManager, setNode_setNode, setNode_self,
    addClient_setNode] at haccepted ⊢
  by_cases hname : name = []
  · rw [if_pos hname] at haccepted
    rcases haccepted with ⟨hcode | hcode, -⟩ <;> cases hcode
  · rw [if_neg hname] at haccepted ⊢
    rw [if_neg hname]
    by_cases hasks : σ.asksAnonymous name = true
    · rw [if_pos hasks] at haccepted ⊢
      rw [if_pos hasks]
      cases hfind : σ.userManager.findUser "anonymous".toList with
      | none =>
        rw [hfind] at haccepted
        rcases haccepted with ⟨hcode | hcode, -⟩ <;> cases hcode
      | some u =>
        dsimp only
        cases hadd : σ.userManager.addClient u c with
        | none =>
          rw [hfind] at haccepted
          dsimp only at haccepted
          rw [hadd] at haccepted
          cases haccepted.2
        | some m =>
          rw [Option.map_some, Option.map_some]
          dsimp only
          rw [setNode_setNode, setNode_setNode]
    · rw [if_neg hasks, if_neg hasks]
      have hsame : ∀ user,
          { n with user := user, isAnonymous := false } = { n with user := user } := by
        intro user
        have hno : n.isAnonymous = false := by
          rw [← Bool.not_eq_true]
          exact fun hyes ↦ hasks (hanonymous hyes)
        rw [← hno]
      rw [hsame]

end FtpServer

namespace Talk

variable {build : Build} {c : ClientRef} {start w : Talk} {cmd : Command} {env : Env} {a : Answer}
  {name : WString}

theorem CleanFor.idle (h : CleanFor build c w name) : w.idle = true := by
  rw [idle_iff]
  intro t ht
  rw [h.threads t ht]
  rfl

-- nothing that a handler looks at tells the client node from a new one
theorem CleanFor.alikeNodes (h : CleanFor build c w name) (htaken : TakenBack c w) :
    AlikeNodes build False
      { w.node c with isLogged := false, user := none, isAnonymous := false }
      ((w.server.renew c).nodes c) := by
  have hmoving : w.moving = false := by
    rw [moving_eq_false]
    intro t ht
    rw [h.threads t ht]
    rfl
  have hcurrent := h.currentDirectory
  have hrename := h.renameFromPath
  have hmode := h.curDataMode
  have hwaiting := htaken.waiting h.idle
  have hpath := htaken.noPath hmoving
  have hsocket := h.dataSocket
  unfold FtpServer.renew FtpServer.freshNode
  rw [FtpServer.setNode_self]
  constructor
  case session =>
    constructor
    case sslSocket => rfl
    case dataUseSsl => rfl
    case curDataMode => exact hmode.symm
    case curStatus => exact hwaiting.symm
    case transferPath => exact hpath.symm
    case renameFromPath => exact hrename.symm
    case currentDirectory => exact hcurrent.symm
    case restartAt => exact .inr ⟨h.restartAt, le_refl 0⟩
    case dataAcceptor =>
      intro hpasv
      dsimp only at hpasv
      rw [hmode] at hpasv
      cases hpasv
    case dataSocket =>
      rcases hsocket with hnone | hanyway
      · exact .inl (iff_of_true hnone rfl)
      · exact .inr ⟨hwaiting, hanyway⟩
  case socket => exact False.elim
  case ctrlSocket => rfl
  case serverIp => rfl
  case user => rfl
  case isLogged => rfl
  case isAnonymous => rfl
  case isCtrlCanalOpen => exact htaken.isOpen.symm

-- the fresh connection has nobody to log out
theorem logOut_renewed (σ : FtpServer) (c : ClientRef) :
    (σ.renew c).logOut c = .ok (σ.renew c) := by
  have hlogged : ((σ.renew c).nodes c).isLogged = false := by
    rw [FtpServer.renew, FtpServer.setNode_self]
    rfl
  rw [FtpServer.logOut, hlogged, if_neg Bool.false_ne_true]

/-- The first step: an accepted USER is accepted on the fresh connection too. -/
theorem CleanFor.user (h : CleanFor build c w cmd.args) (htaken : TakenBack c w)
    (hid : cmd.id = .USER) (ha : w.server.runSwitch build env c cmd = .ok a)
    (hcode : a.reply.code = 331 ∨ a.reply.code = 230) (hret : a.ret = true) :
    a.effects = [] ∧ ∃ b, (w.server.renew c).runSwitch build env c cmd = .ok b ∧
      AlikeAnswers build False c a b := by
  have hrun : ∀ σ : FtpServer, σ.runSwitch build env c cmd = (σ.processUserCmd c cmd.args).map
      fun r ↦ { server := r.1, reply := r.2.1, ret := r.2.2 } := by
    intro σ
    unfold FtpServer.runSwitch
    rw [hid]
  rw [hrun] at ha
  rcases eq_ok_of_map ha with ⟨r, hr, rfl⟩
  rcases eq_ok_of_bind hr with ⟨τ, hτ, hr⟩
  cases hr
  rcases FtpServer.logOut_renew h.listed hτ with ⟨user, rfl⟩
  have hanew := FtpServer.bindUser_anew ⟨hcode, hret⟩ h.isAnonymous
  have hserver : AlikeServers build False c ((w.server.renew c).setNode c
      { w.node c with isLogged := false, user := none, isAnonymous := false })
      (w.server.renew c) := by
    have hboth := AlikeServers.intro (c := c) (w.server.renew c) (h.alikeNodes htaken)
    rw [FtpServer.setNode_eq_self] at hboth
    exact hboth
  have hbound := FtpServer.bindUser_alike hserver cmd.args
  refine ⟨rfl, { server := ((w.server.renew c).bindUser c cmd.args).1
                 reply := ((w.server.renew c).bindUser c cmd.args).2.1
                 ret := ((w.server.renew c).bindUser c cmd.args).2.2 }, ?_, ?_⟩
  · rw [hrun, FtpServer.processUserCmd, logOut_renewed]
    rfl
  · rw [← hanew]
    exact ⟨hbound.1, congrArg Prod.fst hbound.2, congrArg Prod.snd hbound.2, rfl⟩

theorem CleanFor.first (h : CleanFor build c w cmd.args) (htaken : TakenBack c w)
    (hid : cmd.id = .USER) (ha : w.server.runSwitch build env c cmd = .ok a)
    (hcode : a.reply.code = 331 ∨ a.reply.code = 230) (hret : a.ret = true) :
    SameStep (next build c) (AlikeTalks build c) w (w.renewed c) (.command cmd env) := by
  rcases h.user htaken hid ha hcode hret with ⟨heffects, b, hb, hab⟩
  have hnobody : ∀ v : Talk, v.created c env cmd a = [] := fun v ↦
    created_eq_nil (by rw [heffects]; rfl)
  have hnobody' : ∀ v : Talk, v.created c env cmd b = [] := fun v ↦
    created_eq_nil (by rw [hab.effects, heffects]; rfl)
  have hlater : AlikeTalks build c (w.afterCommand c env cmd a)
      ((w.renewed c).afterCommand c env cmd b) := by
    constructor
    case server =>
      apply hab.server.reuse
      intro hbusy
      rcases exists_running hbusy with ⟨t, ht, hrunning⟩
      rw [afterCommand_threads, hnobody, List.append_nil] at ht
      rw [h.threads t ht] at hrunning
      cases hrunning
    case stages =>
      rw [afterCommand_threads, afterCommand_threads, hnobody, hnobody', List.append_nil,
        List.append_nil, renewed, List.map_map]
      apply List.map_congr_left
      exact fun t ht ↦ (h.threads t ht).symm
  have hshown : next build c (w.renewed c) (.command cmd env)
      = (.answered a.reply a.ret a.effects, some ((w.renewed c).afterCommand c env cmd b)) := by
    rw [next, renewed, hb]
    dsimp only
    rw [hab.reply, hab.ret, hab.effects, if_pos hret]
  refine .of_eq (by rw [next, ha]) hshown ?_
  rw [if_pos hret]
  exact .some hlater

/-! ## A new login -/

end Talk

namespace Sample

/-- The server with bob logged in as the first client. -/
def listed : FtpServer :=
  { server with userManager := { server.userManager with
      users := fun u ↦
        if u = 1 then { bob with clientList := [0] } else server.userManager.users u } }

end Sample

namespace Talk

end Talk

end YFtp
