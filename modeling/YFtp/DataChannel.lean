import YFtp.ConversationSteps
import YFtp.Survival
import YFtp.Theory.Pools

/-!
# The data channel

Whether the data connection is used through `ssl_socket_` or through `data_socket_` is decided by
`data_use_ssl_` at each use, and PROT changes the flag whatever is under way and whatever sockets
there are.
-/

namespace YFtp

open Theory
open FtpServer (jobOf)

/-- The next statement of the thread works on the data connection. -/
def Stage.usesData : Stage → Bool
  | .list cmd (.line _ _) => cmd.id ≠ .STAT
  | .store (.receive _) | .retrieve (.send _ _) | .shutDown _ _ | .closeSocket _ _ => true
  | _ => false

namespace Talk

/-- The handler calls `close_data_socket`. -/
def Closes (c : ClientRef) (w : Talk) (cmd : Command) : Prop :=
  cmd.id = .ABOR ∧ (w.node c).curStatus ≠ .waiting ∨
    (cmd.id = .PASV ∨ cmd.id = .PORT ∧ Session.portNumbers cmd.args ≠ none) ∧
      (w.node c).curStatus = .waiting ∧ (w.node c).curDataMode ≠ .none ∧
      (w.node c).dataSocket ≠ none

/-- PROT changes the level while no transfer is under way and no data connection is open; a data
mode is given up when there is a TLS stream to close over it, if TLS is on; and a data connection is
opened while no other transfer is under way. -/
def Guarded (c : ClientRef) (w : Talk) : Act → Prop
  | .command cmd _ =>
    (cmd.id = .PROT → cmd.args = (if (w.node c).dataUseSsl then "C".toList else "P".toList) →
      w.idle = true ∧ (w.node c).dataSocket ≠ some .connected) ∧
    (Closes c w cmd → cmd.id ≠ .ABOR → (w.node c).dataUseSsl = true → (w.node c).sslSocket ≠ none) ∧
    ((w.node c).opensData (w.account c) cmd = true → w.idle = true)
  | _ => True

/-- A running transfer has the last data connection, at the level that is in force. -/
structure Ready (c : ClientRef) (w : Talk) : Prop where
  dataSocket : (w.node c).dataSocket ≠ none
  sslSocket : (w.node c).dataUseSsl = true → (w.node c).sslSocket ≠ none
  level : ∃ k, w.connection = some k ∧ k.tls = (w.node c).dataUseSsl

structure ChannelKept (c : ClientRef) (w : Talk) : Prop where
  running : ∀ t ∈ w.threads, t.stage.transferring = true → t.connection = w.connection ∧ Ready c w
  connected : (w.node c).dataSocket = some .connected →
    ∃ k, w.connection = some k ∧ k.tls = (w.node c).dataUseSsl
  busy : (w.node c).curStatus ≠ .waiting → w.idle = false
  isOpen : (w.node c).isCtrlCanalOpen = true

end Talk

/-- A step leaves the data channel at least as it was. -/
structure Session.SameChannel (s t : Session) : Prop where
  dataSocket : s.dataSocket ≠ none → t.dataSocket ≠ none
  connected : t.dataSocket = some .connected → s.dataSocket = some .connected
  sslSocket : t.sslSocket = s.sslSocket
  dataUseSsl : t.dataUseSsl = s.dataUseSsl

theorem Session.sameChannel_of_eq {s t : Session} (hsocket : t.dataSocket = s.dataSocket)
    (hssl : t.sslSocket = s.sslSocket) (huse : t.dataUseSsl = s.dataUseSsl) : s.SameChannel t := by
  refine ⟨?_, ?_, hssl, huse⟩
  · rw [hsocket]
    exact id
  · rw [hsocket]
    exact id

-- a data socket that is closed stays there
theorem Session.sameChannel_of_closed {s t : Session} (hsocket : t.dataSocket = some .closed)
    (hssl : t.sslSocket = s.sslSocket) (huse : t.dataUseSsl = s.dataUseSsl) : s.SameChannel t := by
  refine ⟨?_, ?_, hssl, huse⟩
  · rw [hsocket]
    exact fun _ ↦ Option.some_ne_none _
  · rw [hsocket]
    intro hconnected
    cases hconnected

namespace Talk

variable {build : Build} {c : ClientRef} {start w w' : Talk} {env : Env} {cmd : Command} {a : Answer}
  {i : Nat} {answers : Answers}

theorem Ready.same (h : Ready c w) (hsame : (w.node c).SameChannel (w'.node c).toSession)
    (hconnection : w'.connection = w.connection) : Ready c w' := by
  refine ⟨hsame.dataSocket h.dataSocket, ?_, ?_⟩
  · rw [hsame.sslSocket, hsame.dataUseSsl]
    exact h.sslSocket
  · rw [hconnection, hsame.dataUseSsl]
    exact h.level

/-! ## Commands -/

theorem idle_append {w : Talk} {a : Answer} (h : w.idle = false) :
    (w.afterCommand c env cmd a).idle = false := by
  unfold idle at h ⊢
  rw [afterCommand_threads, List.all_append, h]
  rfl

-- a command that leaves the data channel and creates no thread of a transfer
theorem ChannelKept.keep (h : ChannelKept c w) (ha : w.server.runSwitch build env c cmd = .ok a)
    (hopens : (w.node c).opensData (w.account c) cmd = false)
    (hcreated : ∀ t ∈ w.created c env cmd a, t.stage.transferring = false)
    (hsame : (w.node c).SameChannel (a.server.nodes c).toSession)
    (hstatus : (a.server.nodes c).curStatus ≠ .waiting → (w.node c).curStatus ≠ .waiting) :
    ChannelKept c (w.afterCommand c env cmd a) := by
  have hconnection : (w.afterCommand c env cmd a).connection = w.connection := by
    show w.connectionAfter c env cmd = _
    unfold connectionAfter
    rw [hopens]
    rfl
  refine ⟨?_, ?_, ?_, ?_⟩
  · apply forall_mem_append
    · intro t ht hrunning
      rcases h.running t ht hrunning with ⟨hcurrent, hready⟩
      exact ⟨hcurrent.trans hconnection.symm, hready.same hsame hconnection⟩
    · intro t ht hrunning
      rw [hcreated t ht] at hrunning
      cases hrunning
  · intro hnow
    rw [hconnection, afterCommand_node, hsame.dataUseSsl]
    exact h.connected (hsame.connected hnow)
  · intro hbusy
    exact idle_append (h.busy (hstatus hbusy))
  · rw [afterCommand_node, FtpServer.runSwitch_isCtrlCanalOpen ha]
    exact h.isOpen

-- PROT changes the level
theorem ChannelKept.prot (h : ChannelKept c w) (ha : w.server.runSwitch build env c cmd = .ok a)
    (hidle : w.idle = true) (hclosed : (w.node c).dataSocket ≠ some .connected)
    (hjobs : a.effects.filterMap jobOf = [])
    (hsession : (a.server.nodes c).toSession
      = { (w.node c).toSession with dataUseSsl := !(w.node c).dataUseSsl }) :
    ChannelKept c (w.afterCommand c env cmd a) := by
  have hnode : ((w.afterCommand c env cmd a).node c).toSession = _ := hsession
  rw [idle_iff] at hidle
  refine ⟨?_, ?_, ?_, ?_⟩
  · rw [afterCommand_threads, created_eq_nil hjobs, List.append_nil]
    intro t ht hrunning
    rw [hidle t ht] at hrunning
    cases hrunning
  · intro hnow
    rw [hnode] at hnow
    exact absurd hnow hclosed
  · intro hbusy
    rw [hnode] at hbusy
    exact idle_append (h.busy hbusy)
  · rw [afterCommand_node, FtpServer.runSwitch_isCtrlCanalOpen ha]
    exact h.isOpen

-- a data connection is asked for while no transfer is under way
theorem ChannelKept.opened (h : ChannelKept c w) (ha : w.server.runSwitch build env c cmd = .ok a)
    (hidle : w.idle = true) (hopens : (w.node c).opensData (w.account c) cmd = true)
    {t : Session} {opened : Bool} {fx : List Effect}
    (hopen : Session.OpenedData env w.server.sslContext (w.node c).toSession t opened fx)
    (hsocket : (a.server.nodes c).dataSocket = t.dataSocket)
    (hssl : (a.server.nodes c).sslSocket = t.sslSocket)
    (huse : (a.server.nodes c).dataUseSsl = t.dataUseSsl)
    (hcreated : opened = false → w.created c env cmd a = [])
    (hbusy : (a.server.nodes c).curStatus ≠ .waiting →
      ∃ u ∈ w.created c env cmd a, u.stage.transferring = true) :
    ChannelKept c (w.afterCommand c env cmd a) := by
  have hconnects : (w.node c).connects env = true → ∃ k,
      (w.afterCommand c env cmd a).connection = some k ∧ k.tls = (a.server.nodes c).dataUseSsl := by
    intro hconnects
    have hnew : (w.afterCommand c env cmd a).connection
        = some ⟨(w.connection.map (·.number + 1)).getD 0, (w.node c).dataUseSsl⟩ := by
      show w.connectionAfter c env cmd = _
      unfold connectionAfter
      rw [hopens, hconnects]
      rfl
    exact ⟨_, hnew, by rw [huse, hopen.dataUseSsl]⟩
  rw [idle_iff] at hidle
  refine ⟨?_, ?_, ?_, ?_⟩
  · apply forall_mem_append
    · intro u hu hrunning
      rw [hidle u hu] at hrunning
      cases hrunning
    · intro u hu _
      have hopened : opened = true := by
        rw [← Bool.not_eq_false]
        intro hclosed
        have hnone := hcreated hclosed
        unfold created at hnone
        rw [hnone] at hu
        cases hu
      rcases hopen.ready hopened with ⟨hpeer, hready, hsecured⟩
      rcases List.mem_map.mp hu with ⟨job, -, rfl⟩
      refine ⟨rfl, ?_, ?_, hconnects hpeer⟩
      · rw [afterCommand_node, hsocket]
        exact hready
      · rw [afterCommand_node, huse, hssl, hopen.dataUseSsl]
        exact hsecured
  · intro hnow
    rw [afterCommand_node, hsocket] at hnow
    cases hpeer : (w.node c).connects env with
    | true => exact hconnects hpeer
    | false =>
      have hold : (w.node c).dataSocket = some .connected := by
        rcases hopen.connected hnow with hyes | hold
        · rw [hpeer] at hyes
          cases hyes
        · exact hold
      rw [afterCommand_node, huse, hopen.dataUseSsl]
      have hsame : (w.afterCommand c env cmd a).connection = w.connection := by
        show w.connectionAfter c env cmd = _
        unfold connectionAfter
        rw [hpeer, Bool.and_false]
        rfl
      rw [hsame]
      exact h.connected hold
  · intro hstatus
    rcases hbusy hstatus with ⟨u, hu, hrunning⟩
    rw [← Bool.not_eq_true, idle_iff]
    intro hnone
    rw [hnone u (List.mem_append_right _ hu)] at hrunning
    cases hrunning
  · rw [afterCommand_node, FtpServer.runSwitch_isCtrlCanalOpen ha]
    exact h.isOpen

theorem ChannelKept.command (h : ChannelKept c w) (hguard : Guarded c w (.command cmd env))
    (ha : w.server.runSwitch build env c cmd = .ok a) :
    ChannelKept c (w.afterCommand c env cmd a) := by
  have hnothing : a.effects.filterMap jobOf = [] →
      ∀ t ∈ w.created c env cmd a, t.stage.transferring = false := by
    exact forall_mem_created_of_nil
  cases FtpServer.runSwitch_commanded ha with
  | login hlogin heffects hsession =>
    apply h.keep ha _ (hnothing (by rw [heffects]; rfl))
    · exact Session.sameChannel_of_eq hsession.dataSocket hsession.sslSocket hsession.dataUseSsl
    · rw [hsession.curStatus]
      exact id
    · apply Session.opensData_eq_false
      cases hid : cmd.id <;> first | rfl | (rw [hid] at hlogin; cases hlogin)
  | @session o hacted hnode heffects =>
    rw [heffects] at hnothing
    have hkeep := h.keep ha
    rw [hnode] at hkeep
    cases hacted with
    | keeps hkeeps hother =>
      have hsame := hkeeps.same
      apply hkeep hother (hnothing hkeeps.jobs)
      · exact Session.sameChannel_of_eq hsame.dataSocket hsame.sslSocket hsame.dataUseSsl
      · rw [hsame.curStatus]
        exact id
    | stat hid hsession hjobs =>
      apply hkeep (Session.opensData_eq_false (by rw [hid]; rfl))
      · exact created_of_stat hid (by rw [heffects, hjobs])
      · rw [hsession]
        exact Session.sameChannel_of_eq rfl rfl rfl
      · rw [hsession]
        exact id
    | prot hid hlevel hsession hjobs =>
      rcases hguard.1 hid hlevel with ⟨hidle, hclosed⟩
      exact h.prot ha hidle hclosed (by rw [heffects, hjobs]) (hnode.trans hsession)
    | abor hid hbusy hclose hsession hjobs =>
      apply hkeep (Session.opensData_eq_false (by rw [hid]; rfl)) (hnothing hjobs)
      · rw [hsession, (Session.closeDataSocket_ok hclose).1]
        exact Session.sameChannel_of_closed rfl rfl rfl
      · intro _
        exact hbusy
    | rest hid hwaiting value hsession hcode hjobs =>
      apply hkeep (Session.opensData_eq_false (by rw [hid]; rfl)) (hnothing hjobs)
      · rw [hsession]
        exact Session.sameChannel_of_eq rfl rfl rfl
      · rw [hsession]
        exact id
    | address hid hwaiting hreset hsocket hssl huse hrestart hstatus hjobs =>
      have hother : (w.node c).opensData (w.account c) cmd = false := by
        apply Session.opensData_eq_false
        rcases hid with hport | hpasv
        · rw [hport]
          rfl
        · rw [hpasv]
          rfl
      have hdata := Session.resetDataMode_ok hreset
      have hssl' := hssl.trans hdata.sslSocket
      have huse' := huse.trans hdata.dataUseSsl
      apply hkeep hother (hnothing hjobs)
      · rcases hsocket with hsame | ⟨-, hclosed⟩
        · rcases hdata.dataSocket with ⟨-, hold⟩ | ⟨-, -, hclosed⟩
          · exact Session.sameChannel_of_eq (hsame.trans hold) hssl' huse'
          · exact Session.sameChannel_of_closed (hsame.trans hclosed) hssl' huse'
        · exact Session.sameChannel_of_closed hclosed hssl' huse'
      · rw [hstatus, hdata.status]
        exact id
    | @opens hopens t opened fx hopen hsocket hssl huse started =>
      apply h.opened ha (hguard.2.2 hopens) hopens (Session.openDataConnection_opened hopen)
      · rw [hnode, hsocket]
      · rw [hnode, hssl]
      · rw [hnode, huse]
      · intro hclosed
        cases started with
        | refused hjobs => exact created_eq_nil (by rw [heffects, hjobs])
        | list hopened => rw [hclosed] at hopened; cases hopened
        | retrieve hopened => rw [hclosed] at hopened; cases hopened
        | store hopened => rw [hclosed] at hopened; cases hopened
      · rw [hnode]
        intro hbusy
        cases started with
        | refused hjobs hstatus => exact absurd hstatus hbusy
        | list hopened hid hjobs hstatus => exact absurd hstatus hbusy
        | retrieve hopened hid hjobs =>
          rw [created_eq (by rw [heffects, hjobs])]
          exact ⟨_, List.mem_singleton_self _, rfl⟩
        | store hopened hid hjobs =>
          rw [created_eq (by rw [heffects, hjobs])]
          exact ⟨_, List.mem_singleton_self _, rfl⟩

/-! ## Threads -/

theorem ChannelKept.thread (h : ChannelKept c w) (hstep : w.StepsThread c i answers w') :
    ChannelKept c w' := by
  rcases hstep with ⟨t, s, next, fx, ht, hstep, rfl⟩
  have hmem := List.mem_of_getElem? ht
  have hset : (next.transferring = true → t.stage.transferring = true) →
      (w.node c).SameChannel s →
      (s.curStatus ≠ .waiting → next.transferring = false →
        (w.node c).curStatus ≠ .waiting ∧ t.stage.transferring = false) →
      ChannelKept c { w with
        server := w.server.setSession c s, threads := w.threads.set i { t with stage := next } } := by
    intro hkeeps hsame hbusy
    have hready : ∀ u ∈ w.threads, u.stage.transferring = true → u.connection = w.connection ∧
        Ready c { w with
          server := w.server.setSession c s
          threads := w.threads.set i { t with stage := next } } := by
      intro u hu hrunning
      rcases h.running u hu hrunning with ⟨hcurrent, hready⟩
      refine ⟨hcurrent, hready.same ?_ rfl⟩
      rw [setSession_node]
      exact hsame
    refine ⟨?_, ?_, ?_, ?_⟩
    · apply forall_mem_set
      · exact fun j u _ hu ↦ hready u (List.mem_of_getElem? hu)
      · exact fun hrunning ↦ hready t hmem (hkeeps hrunning)
    · rw [setSession_node]
      intro hnow
      rw [hsame.dataUseSsl]
      exact h.connected (hsame.connected hnow)
    · rw [setSession_node]
      intro hstatus
      rw [← Bool.not_eq_true, idle_iff]
      intro hnone
      rcases hbusy hstatus (hnone _ (List.mem_set (List.getElem?_eq_some_iff.mp ht).1 _)) with
        ⟨hold, hended⟩
      have hbefore := h.busy hold
      rw [← Bool.not_eq_true, idle_iff] at hbefore
      exact hbefore (forall_mem_of_set ht hnone fun _ ↦ hended)
    · rw [setSession_node]
      exact h.isOpen
  generalize t.stage = stage at hstep hset
  cases stage_stepped hstep with
  | goesOn hsession hbegun hstarted hkeeps hmoves hunfinished =>
    apply hset hkeeps
    · rw [hsession]
      exact Session.sameChannel_of_eq rfl rfl rfl
    · intro hstatus hnext
      rw [hsession] at hstatus
      refine ⟨hstatus, ?_⟩
      rw [← Bool.not_eq_true]
      intro hrunning
      rw [hunfinished hrunning] at hnext
      cases hnext
  | begins hid hsession =>
    apply hset (fun _ ↦ decide_eq_true hid)
    · rw [hsession]
      exact Session.sameChannel_of_eq rfl rfl rfl
    · intro _ hnext
      exact absurd hid (of_decide_eq_false hnext)
  | closes hclose =>
    apply hset (fun _ ↦ rfl)
    · rw [(Session.closeDataSocket_ok hclose).1]
      exact Session.sameChannel_of_closed rfl rfl rfl
    · intro _ hnext
      cases hnext
  | @finishes job complete hsession =>
    rw [if_pos h.isOpen] at hsession
    apply hset (fun hended ↦ by cases hended)
    · rw [hsession]
      cases job <;> exact Session.sameChannel_of_eq rfl rfl rfl
    · intro hstatus
      rw [hsession] at hstatus
      cases job <;> exact absurd rfl hstatus

/-! ## Conversations -/

theorem ChannelKept.step {act : Act} (h : ChannelKept c w) (hguard : Guarded c w act)
    (hstep : Speaks build c w act w') : ChannelKept c w' := by
  cases act with
  | command cmd env =>
    rcases speaks_command hstep with ⟨a, ha, -, rfl⟩
    exact h.command hguard ha
  | thread i answers =>
    rcases speaks_thread hstep with rfl | hstep
    · exact h
    · exact h.thread hstep
  | elsewhere σ =>
    rw [speaks_elsewhere hstep]
    refine ⟨?_, ?_, ?_, ?_⟩
    · intro t ht hrunning
      rcases h.running t ht hrunning with ⟨hcurrent, hready⟩
      refine ⟨hcurrent, hready.same ?_ rfl⟩
      rw [elsewhere_node]
      exact Session.sameChannel_of_eq rfl rfl rfl
    · rw [elsewhere_node]
      exact h.connected
    · rw [elsewhere_node]
      exact h.busy
    · rw [elsewhere_node]
      exact h.isOpen

theorem ChannelKept.initial (hstart : start.Begins c) : ChannelKept c start := by
  rcases hstart.node with ⟨k, hnode⟩
  refine ⟨?_, ?_, ?_, ?_⟩
  · rw [hstart.threads]
    exact List.forall_mem_nil _
  · rw [hnode]
    intro hconnected
    cases hconnected
  · rw [hnode]
    exact fun hbusy ↦ absurd rfl hbusy
  · rw [hnode]
    rfl

instance (c : ClientRef) (w : Talk) (cmd : Command) : Decidable (Closes c w cmd) :=
  inferInstanceAs (Decidable (_ ∨ _))

instance (c : ClientRef) (w : Talk) : (act : Act) → Decidable (Guarded c w act)
  | .command _ _ => inferInstanceAs (Decidable (_ ∧ _ ∧ _))
  | .thread _ _ => inferInstanceAs (Decidable True)
  | .elsewhere _ => inferInstanceAs (Decidable True)

end Talk

end YFtp
