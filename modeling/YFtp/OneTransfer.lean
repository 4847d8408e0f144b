import YFtp.Theory.Pools
import YFtp.ConversationSteps

/-!
# One transfer at a time

While `cur_status_` says that a transfer is under way, PASV, PORT and every other transfer are
refused.  The handlers of RETR, STOR, APPE and STOU set it before they create their thread, but for a
listing its thread does, in its first statement; and ABOR resets it under a running thread.
-/

namespace YFtp

open Theory
open FtpServer (jobOf)

/-- PASV, PORT and the commands that transfer data. -/
def Commands.usesData : Commands → Bool
  | .PASV | .PORT => true
  | id => Commands.transfers id

namespace Talk

/-- ABOR comes when no transfer is under way; and a command that works on the data connection comes,
while one is, from an account that may give it and when its thread has run its first statement. -/
def Orderly (c : ClientRef) (w : Talk) : Act → Prop
  | .command cmd _ =>
    (cmd.id = .ABOR → w.idle = true) ∧
      (Commands.usesData cmd.id = true → w.idle = false →
        entitled (w.account c) cmd = true ∧
          ∀ t ∈ w.threads, t.stage.transferring = true → t.stage.atBegin = false)
  | _ => True

instance (c : ClientRef) (w : Talk) : (act : Act) → Decidable (Orderly c w act)
  | .command _ _ => inferInstanceAs (Decidable (_ ∧ _))
  | .thread _ _ => inferInstanceAs (Decidable True)
  | .elsewhere _ => inferInstanceAs (Decidable True)

/-- The command is answered 425 and leaves the data connection and its address alone. -/
def Refuses (build : Build) (c : ClientRef) (w : Talk) (env : Env) (cmd : Command) : Prop :=
  ∃ a, w.server.runSwitch build env c cmd = .ok a ∧ a.reply.code = 425 ∧
    (a.server.nodes c).dataSocket = (w.node c).dataSocket ∧
    (a.server.nodes c).dataAcceptor = (w.node c).dataAcceptor ∧
    (a.server.nodes c).curDataMode = (w.node c).curDataMode ∧
    (a.server.nodes c).dataIp = (w.node c).dataIp ∧
    (a.server.nodes c).dataPort = (w.node c).dataPort

end Talk

/-! ## A busy session -/

section Busy

variable {build : Build} {env : Env} {σ : FtpServer} {c : ClientRef} {cmd : Command}

theorem exists_of_holds {user : Option UserNode} {privilege : UserPrivilege}
    (h : user.any (·.holds privilege) = true) : ∃ u, user = some u ∧ u.holds privilege = true := by
  rwa [Option.any_eq_true] at h

/-- The answer to whoever comes while a transfer is under way. -/
def Session.busy (s : Session) : Outcome := s.answer 425 "You're already connected."

namespace Session

variable {sslContext : Bool} {user : Option UserNode} {s : Session}

theorem processListCmd_busy (hstat : cmd.id ≠ .STAT) (hbusy : s.curStatus ≠ .waiting)
    (hholds : user.any (·.holds .listDir) = true) :
    s.processListCmd env sslContext user cmd = .ok s.busy := by
  rcases exists_of_holds hholds with ⟨u, rfl, hlist⟩
  show (if u.holds .listDir = false then _ else ite _ _ _) = _
  rw [if_neg (by rw [hlist]; decide), if_pos ⟨hstat, hbusy⟩]
  rfl

theorem processRetrCmd_busy (hbusy : s.curStatus ≠ .waiting)
    (hholds : (user.any (·.holds .readFile) && cmd.args ≠ []) = true) :
    s.processRetrCmd env sslContext user cmd.args = .ok s.busy := by
  rw [Bool.and_eq_true, decide_eq_true_iff] at hholds
  rcases exists_of_holds hholds.1 with ⟨u, rfl, hread⟩
  show (if u.holds .readFile = false then _ else ite _ _ _) = _
  rw [if_neg (by rw [hread]; decide), if_pos hholds.2, if_pos hbusy]
  rfl

theorem processStorCmd_busy (hbusy : s.curStatus ≠ .waiting)
    (hholds : user.any (·.holds .writeFile) = true) (hargs : cmd.args ≠ [] ∨ cmd.id = .STOU) :
    s.processStorCmd env sslContext user cmd = .ok s.busy := by
  rcases exists_of_holds hholds with ⟨u, rfl, hwrite⟩
  show (if u.holds .writeFile = false then _ else ite _ _ _) = _
  rw [if_neg (by rw [hwrite]; decide), if_pos hargs, if_pos hbusy]
  rfl

theorem processPortCmd_busy (hbusy : s.curStatus ≠ .waiting) (arg : WString) :
    s.processPortCmd arg = .ok s.busy := by
  unfold processPortCmd
  rw [if_pos hbusy]
  rfl

theorem processPasvCmd_busy (hbusy : s.curStatus ≠ .waiting) (serverIp : Nat) (ports : DataPorts) :
    s.processPasvCmd env serverIp ports = .ok (s.busy, ports) := by
  unfold processPasvCmd
  rw [if_pos hbusy]
  rfl

end Session

/-- A busy session refuses whoever may give the command. -/
theorem runSwitch_busy (hkind : Commands.usesData cmd.id = true)
    (hbusy : (σ.nodes c).curStatus ≠ .waiting)
    (hentitled : entitled ((σ.nodes c).user.map σ.userManager.users) cmd = true) :
    ∃ a, σ.runSwitch build env c cmd = .ok a ∧ a.reply.code = 425 ∧
      (a.server.nodes c).toSession = (σ.nodes c).toSession := by
  have hsame : ((σ.conclude env c (σ.nodes c).busy).server.nodes c).toSession
      = (σ.nodes c).toSession := by
    rw [FtpServer.conclude_nodes, FtpServer.setSession_toSession]
    rfl
  refine ⟨σ.conclude env c (σ.nodes c).busy, ?_, rfl, hsame⟩
  unfold entitled at hentitled
  unfold FtpServer.runSwitch FtpServer.sessionHandler
  cases hid : cmd.id <;> rw [hid] at hkind hentitled <;> dsimp only at hentitled ⊢
  case PASV =>
    rw [Session.processPasvCmd_busy hbusy]
    rfl
  case PORT =>
    rw [Session.processPortCmd_busy hbusy]
    rfl
  case LIST =>
    rw [Session.processListCmd_busy (by rw [hid]; decide) hbusy hentitled]
    rfl
  case NLST =>
    rw [Session.processListCmd_busy (by rw [hid]; decide) hbusy hentitled]
    rfl
  case MLSD =>
    rw [Session.processListCmd_busy (by rw [hid]; decide) hbusy hentitled]
    rfl
  case RETR =>
    rw [Session.processRetrCmd_busy hbusy hentitled]
    rfl
  case STOR =>
    rw [Bool.and_eq_true, decide_eq_true_iff] at hentitled
    rw [Session.processStorCmd_busy hbusy hentitled.1 (.inl hentitled.2)]
    rfl
  case APPE =>
    rw [Bool.and_eq_true, decide_eq_true_iff] at hentitled
    rw [Session.processStorCmd_busy hbusy hentitled.1 (.inl hentitled.2)]
    rfl
  case STOU =>
    rw [Session.processStorCmd_busy hbusy hentitled (.inr hid)]
    rfl
  -- no other command works on the data connection
  all_goals cases hkind

end Busy

/-! ## Conversations -/

namespace Talk

/-- At most one transfer is under way, and once its thread has run its first statement the session
says so. -/
structure OneAtATime (c : ClientRef) (w : Talk) : Prop where
  sole : AtMostOne (fun t ↦ t.stage.transferring) w.threads
  busy : ∀ t ∈ w.threads, t.stage.transferring = true → t.stage.atBegin = false →
    (w.node c).curStatus ≠ .waiting

variable {build : Build} {c : ClientRef} {start w w' : Talk} {env : Env} {cmd : Command} {a : Answer}
  {i : Nat} {answers : Answers}

-- a command that leaves the status and creates no thread of a transfer
theorem OneAtATime.keep (h : OneAtATime c w)
    (hstatus : (a.server.nodes c).curStatus = (w.node c).curStatus)
    (hcreated : ∀ t ∈ w.created c env cmd a, t.stage.transferring = false) :
    OneAtATime c (w.afterCommand c env cmd a) := by
  refine ⟨h.sole.append hcreated, ?_⟩
  rw [afterCommand_threads, afterCommand_node, hstatus]
  apply forall_mem_append h.busy
  intro t ht hrunning
  rw [hcreated t ht] at hrunning
  cases hrunning

-- a command that comes while no transfer is under way
theorem OneAtATime.fresh (hidle : w.idle = true) (hone : (w.created c env cmd a).length ≤ 1)
    (hbusy : ∀ t ∈ w.created c env cmd a, t.stage.atBegin = false →
      (a.server.nodes c).curStatus ≠ .waiting) :
    OneAtATime c (w.afterCommand c env cmd a) := by
  rw [idle_iff] at hidle
  refine ⟨AtMostOne.append_new hidle hone, ?_⟩
  rw [afterCommand_threads, afterCommand_node]
  apply forall_mem_append
  · intro t ht hrunning
    rw [hidle t ht] at hrunning
    cases hrunning
  · intro t ht _ hbegun
    exact hbusy t ht hbegun

-- a transfer is asked for only when none is under way
theorem OneAtATime.idle (h : OneAtATime c w) (horderly : Orderly c w (.command cmd env))
    (hkind : Commands.usesData cmd.id = true) (hwaiting : (w.node c).curStatus = .waiting) :
    w.idle = true := by
  rw [← Bool.not_eq_false]
  intro hbusy
  rcases exists_running hbusy with ⟨t, ht, hrunning⟩
  exact h.busy t ht hrunning ((horderly.2 hkind hbusy).2 t ht hrunning) hwaiting

theorem OneAtATime.command (h : OneAtATime c w) (horderly : Orderly c w (.command cmd env))
    (ha : w.server.runSwitch build env c cmd = .ok a) :
    OneAtATime c (w.afterCommand c env cmd a) := by
  have hkeep : a.effects.filterMap jobOf = [] →
      (a.server.nodes c).curStatus = (w.node c).curStatus →
      OneAtATime c (w.afterCommand c env cmd a) := by
    intro hjobs hstatus
    exact h.keep hstatus (forall_mem_created_of_nil hjobs)
  have hfresh : ∀ job, w.idle = true → a.effects.filterMap jobOf = [job] →
      (job.stage.atBegin = false → (a.server.nodes c).curStatus ≠ .waiting) →
      OneAtATime c (w.afterCommand c env cmd a) := by
    intro job hidle hjobs hbusy
    apply OneAtATime.fresh hidle
    · rw [created_eq hjobs]
      exact Nat.le_refl 1
    · rw [created_eq hjobs]
      intro t ht
      cases List.mem_singleton.mp ht
      exact hbusy
  cases FtpServer.runSwitch_commanded ha with
  | login hlogin heffects hsession => exact hkeep (by rw [heffects]; rfl) hsession.curStatus
  | @session o hacted hnode heffects =>
    rw [heffects, hnode] at hkeep
    simp only [heffects, hnode] at hfresh
    cases hacted with
    | keeps hkeeps hother => exact hkeep hkeeps.jobs hkeeps.same.curStatus
    | stat hid hsession hjobs =>
      apply h.keep
      · rw [hnode, hsession]
      · exact created_of_stat hid (by rw [heffects, hjobs])
    | prot hid hlevel hsession hjobs => exact hkeep hjobs (by rw [hsession])
    | rest hid hwaiting value hsession hcode hjobs => exact hkeep hjobs (by rw [hsession])
    | abor hid hbusy hclose hsession hjobs =>
      have hnone : w.created c env cmd a = [] := created_eq_nil (heffects ▸ hjobs)
      apply OneAtATime.fresh (horderly.1 hid)
      · rw [hnone]
        exact Nat.zero_le 1
      · rw [hnone]
        exact List.forall_mem_nil _
    | address hid hwaiting hreset hsocket hssl huse hrestart hstatus hjobs =>
      exact hkeep hjobs (hstatus.trans (Session.resetDataMode_ok hreset).status)
    | opens hopens hopen hsocket hssl huse started =>
      have hidle : w.idle = true := by
        apply h.idle horderly _ (Session.waiting_of_opensData hopens)
        have htransfers := Session.transfers_of_opensData hopens
        unfold Commands.usesData
        split
        · rfl
        · rfl
        · exact htransfers
      cases started with
      | refused hjobs hstatus =>
        exact hkeep hjobs (hstatus.trans (Session.waiting_of_opensData hopens).symm)
      | list hopened hid hjobs hstatus => exact hfresh _ hidle hjobs fun h ↦ by cases h
      | retrieve hopened hid hjobs hstatus => exact hfresh _ hidle hjobs fun _ ↦ by simp [hstatus]
      | store hopened hid hjobs hstatus => exact hfresh _ hidle hjobs fun _ ↦ by simp [hstatus]

theorem OneAtATime.thread (h : OneAtATime c w) (hstep : w.StepsThread c i answers w') :
    OneAtATime c w' := by
  rcases hstep with ⟨t, s, next, fx, ht, hstep, rfl⟩
  have hmem := List.mem_of_getElem? ht
  have hset : (next.transferring = true → t.stage.transferring = true) →
      (∀ (j : Nat) u, j ≠ i → w.threads[j]? = some u → u.stage.transferring = true →
        u.stage.atBegin = false → s.curStatus ≠ .waiting) →
      (next.transferring = true → next.atBegin = false → s.curStatus ≠ .waiting) →
      OneAtATime c { w with
        server := w.server.setSession c s, threads := w.threads.set i { t with stage := next } } := by
    intro hkeeps hothers hbusy
    refine ⟨h.sole.set ht hkeeps, ?_⟩
    rw [setSession_node]
    exact forall_mem_set hothers hbusy
  -- as long as the status stays, the other threads are as busy as before
  have hsame : s.curStatus = (w.node c).curStatus → ∀ (j : Nat) u, j ≠ i →
      w.threads[j]? = some u → u.stage.transferring = true → u.stage.atBegin = false →
      s.curStatus ≠ .waiting := by
    intro hstatus j u _ hu
    rw [hstatus]
    exact h.busy u (List.mem_of_getElem? hu)
  have hbusy := h.busy t hmem
  have hsole : ∀ (j : Nat) u, t.stage.transferring = true → j ≠ i → w.threads[j]? = some u →
      u.stage.transferring = false := fun j u hrunning hij hu ↦ h.sole.others ht hrunning hij hu
  generalize t.stage = stage at hstep hset hbusy hsole
  cases stage_stepped hstep with
  | goesOn hsession hbegun hstarted hkeeps hmoves hunfinished =>
    have hstatus := congrArg Session.curStatus hsession
    apply hset hkeeps (hsame hstatus)
    intro hnext _
    rw [hstatus]
    apply hbusy (hkeeps hnext)
    rw [← Bool.not_eq_true]
    intro hbegin
    rw [hstarted hbegin] at hkeeps
    cases hkeeps hnext
  | begins hid hsession =>
    have hlisting : s.curStatus ≠ .waiting := by simp [hsession]
    exact hset (fun _ ↦ decide_eq_true hid) (fun _ _ _ _ _ _ ↦ hlisting) fun _ _ ↦ hlisting
  | closes hclose =>
    have hstatus : s.curStatus = (w.node c).curStatus := by rw [(Session.closeDataSocket_ok hclose).1]
    apply hset (fun _ ↦ rfl) (hsame hstatus)
    intro _ _
    rw [hstatus]
    exact hbusy rfl rfl
  | finishes hsession =>
    -- no other transfer is under way, so the status may be reset
    apply hset (fun h ↦ by cases h)
    · intro j u hij hu hrunning
      rw [hsole j u rfl hij hu] at hrunning
      cases hrunning
    · intro hended
      cases hended

theorem OneAtATime.step {act : Act} (h : OneAtATime c w) (horderly : Orderly c w act)
    (hstep : Speaks build c w act w') : OneAtATime c w' := by
  cases act with
  | command cmd env =>
    rcases speaks_command hstep with ⟨a, ha, -, rfl⟩
    exact h.command horderly ha
  | thread i answers =>
    rcases speaks_thread hstep with rfl | hstep
    · exact h
    · exact h.thread hstep
  | elsewhere σ =>
    rw [speaks_elsewhere hstep]
    exact ⟨h.sole, by rw [elsewhere_node]; exact h.busy⟩

theorem OneAtATime.initial (hstart : start.Begins c) : OneAtATime c start := by
  constructor
  · rw [hstart.threads]
    exact atMostOne_nil
  · rw [hstart.threads]
    exact List.forall_mem_nil _

/-- In an orderly conversation every PASV, PORT and transfer is refused while a transfer is under
way. -/
theorem refuses_of_orderly {trace : List (Talk × Act)} (hstart : start.Begins c)
    (run : TalkRun build c start trace w) (hsteps : ∀ p ∈ trace, Orderly c p.1 p.2)
    (hkind : Commands.usesData cmd.id = true) (hbusy : w.idle = false)
    (horderly : Orderly c w (.command cmd env)) : Refuses build c w env cmd := by
  have hone : OneAtATime c w :=
    run.invariant_of_steps (OneAtATime.initial hstart) (fun h ho hs ↦ h.step ho hs) hsteps
  have hstatus : (w.node c).curStatus ≠ .waiting := by
    intro hwaiting
    rw [hone.idle horderly hkind hwaiting] at hbusy
    cases hbusy
  rcases runSwitch_busy hkind hstatus (horderly.2 hkind hbusy).1 with ⟨a, ha, hcode, hsame⟩
  have hfield : ∀ {α : Type} (field : Session → α),
      field (a.server.nodes c).toSession = field (w.node c).toSession :=
    fun field ↦ congrArg field hsame
  exact ⟨a, ha, hcode, hfield Session.dataSocket, hfield Session.dataAcceptor,
    hfield Session.curDataMode, hfield Session.dataIp, hfield Session.dataPort⟩

/-! ## A download and a listing -/

theorem refuses_download : ∃ w, w.idle = false ∧
    Refuses {} 0 w Sample.env { Command.none with id := .PASV } := by
  rcases exists_run_while (fun w act ↦ decide (Orderly 0 w act)) {} 0 Sample.talk
    (Sample.login ++ [Sample.say .PASV "", Sample.say .RETR "notes"])
    (fun w ↦ !w.idle && decide (Orderly 0 w (Sample.say .PASV ""))) (by decide +kernel) with
    ⟨trace, w, run, hsteps, hw⟩
  rw [Bool.and_eq_true, Bool.not_eq_true', decide_eq_true_iff] at hw
  refine ⟨w, hw.1, refuses_of_orderly Sample.talk_begins run ?_ rfl hw.1 hw.2⟩
  exact fun p hp ↦ of_decide_eq_true (hsteps p hp)

/-- Between LIST and the first statement of its thread, PASV is answered 227. -/
theorem refuses_fails : ∃ trace w, TalkRun {} 0 Sample.talk trace w ∧ w.idle = false ∧
    ¬Refuses {} 0 w Sample.env { Command.none with id := .PASV } := by
  rcases exists_run_while (fun _ _ ↦ true) {} 0 Sample.talk
    (Sample.login ++ [Sample.say .PASV "", Sample.say .LIST ""])
    (fun w ↦ !w.idle && decide ((w.server.runSwitch {} Sample.env 0
      { Command.none with id := .PASV }).toOption.map (·.reply.code) = some 227))
    (by decide +kernel) with ⟨trace, w, run, -, hw⟩
  rw [Bool.and_eq_true, Bool.not_eq_true', decide_eq_true_iff] at hw
  refine ⟨trace, w, run, hw.1, ?_⟩
  rintro ⟨a, ha, hcode, -⟩
  rw [ha] at hw
  have hentered : a.reply.code = 227 := Option.some.inj hw.2
  rw [hcode] at hentered
  cases hentered

end Talk

end YFtp
