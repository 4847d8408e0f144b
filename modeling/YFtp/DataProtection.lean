import YFtp.HandlerSpecs
import YFtp.Registry

/-!
# Protection of the data connection

PROT P sets `data_use_ssl_` in the client node, and a data connection is opened over TLS while it is
set.  No other command changes the flag, so data stays protected for as long as the connection keeps
its client node; a fresh node starts with the flag cleared.
-/

namespace YFtp.FtpServer

/-! ## The flag -/

section Flag

variable {build : Build} {env : Env} {σ : FtpServer} {c : ClientRef} {cmd : Command} {a : Answer}

/-- PROT changes the flag when it answers 200, and nothing otherwise. -/
theorem processProtCmd_cases (build : Build) (useSsl : Bool) (arg : WString) (s : Session) :
    (∃ text, (s.processProtCmd build useSsl arg).reply = .create 200 text ∧
      ((arg = "C".toList ∧ (s.processProtCmd build useSsl arg).session.dataUseSsl = false) ∨
       (arg = "P".toList ∧ (s.processProtCmd build useSsl arg).session.dataUseSsl = true))) ∨
    (∃ code ∈ [431, 501, 534], ∃ text,
      (s.processProtCmd build useSsl arg).reply = .create code text ∧
      (s.processProtCmd build useSsl arg).session = s) := by
  have hsame : ∀ {o : Outcome} {code : Nat} (text : WString), code ∈ [431, 501, 534] →
      o = s.answer code text →
      ∃ code ∈ [431, 501, 534], ∃ text, o.reply = .create code text ∧ o.session = s := by
    rintro o code text hcode rfl
    exact ⟨code, hcode, text, rfl, rfl⟩
  unfold Session.processProtCmd
  dsimp only
  split
  · exact .inr (hsame _ (by decide) rfl)
  · split
    · rename_i hclear
      split
      · exact .inr (hsame _ (by decide) rfl)
      · exact .inl ⟨_, rfl, .inl ⟨hclear, rfl⟩⟩
    · split
      · rename_i hprotect
        split
        · split
          · exact .inr (hsame _ (by decide) rfl)
          · split
            · exact .inl ⟨_, rfl, .inr ⟨hprotect, rfl⟩⟩
            · exact .inr (hsame _ (by decide) rfl)
        · exact .inr (hsame _ (by decide) rfl)
      · exact .inr (hsame _ (by decide) rfl)

/-- The code of a reply can be read off its text. -/
theorem content_ne_of_code {code : Nat} (hcode : code ∈ [431, 501, 534]) (t text : WString) :
    (Reply.create code t).content ≠ (Reply.create 200 text).content := by
  intro heq
  have hhead : (Reply.create code t).content.head? = some '2' := by rw [heq]; rfl
  simp only [List.mem_cons, List.not_mem_nil, or_false] at hcode
  rcases hcode with rfl | rfl | rfl <;> cases hhead

@[simp] theorem processProtCmd_effects (build : Build) (useSsl : Bool) (arg : WString)
    (s : Session) : (s.processProtCmd build useSsl arg).effects = [] :=
  (Session.processProtCmd_spec build useSsl arg s).2.2

/-- The switch on PROT. -/
theorem runSwitch_prot (hid : cmd.id = .PROT) (h : σ.runSwitch build env c cmd = .ok a) :
    a = σ.conclude env c ((σ.nodes c).processProtCmd build (σ.usesSsl c) cmd.args) := by
  unfold runSwitch sessionHandler at h
  simp only [hid] at h
  exact (Except.ok.inj h).symm

theorem conclude_dataUseSsl (env : Env) (σ : FtpServer) (c : ClientRef) (o : Outcome) :
    ((σ.conclude env c o).server.nodes c).dataUseSsl = o.session.dataUseSsl := by
  rw [conclude_nodes, setSession_toSession]

/-- Only a PROT C that is answered 200 clears the flag. -/
theorem runSwitch_keeps (h : σ.runSwitch build env c cmd = .ok a)
    (hflag : (σ.nodes c).dataUseSsl = true) :
    (a.server.nodes c).dataUseSsl = true ∨
      (cmd.id = .PROT ∧ cmd.args = "C".toList ∧ ∃ text, a.reply = .create 200 text) := by
  by_cases hid : cmd.id = .PROT
  · cases runSwitch_prot hid h
    rw [conclude_dataUseSsl]
    rcases processProtCmd_cases build (σ.usesSsl c) cmd.args (σ.nodes c).toSession with
      ⟨text, hreply, ⟨hclear, -⟩ | ⟨-, hset⟩⟩ | ⟨-, -, -, -, hsame⟩
    · exact .inr ⟨hid, hclear, text, hreply⟩
    · exact .inl hset
    · rw [hsame]
      exact .inl hflag
  · refine .inl ?_
    rcases runSwitch_cases h with
      ⟨-, r, hr, rfl⟩ | ⟨-, rfl⟩ | ⟨-, rfl⟩ | ⟨-, o, ports, hsession, rfl⟩
    · rw [congrArg Session.dataUseSsl (processUserCmd_session hr), hflag]
    · rw [congrArg Session.dataUseSsl (processPasswordCmd_session σ c cmd.args), hflag]
    · rw [processReinCmd, setNode_self]
      exact (congrArg Session.dataUseSsl (unbind_session σ c)).trans hflag
    · rw [conclude_dataUseSsl]
      rcases hsession.spec.dataUseSsl with hsame | hprot
      · exact hsame.trans hflag
      · exact absurd hprot hid

/-- A data connection is opened as the flag says. -/
theorem runSwitch_openData {tls : Bool} (h : σ.runSwitch build env c cmd = .ok a)
    (hopen : .openData tls ∈ a.effects) : tls = (σ.nodes c).dataUseSsl := by
  rcases runSwitch_cases h with ⟨-, r, -, rfl⟩ | ⟨-, rfl⟩ | ⟨-, rfl⟩ | ⟨-, o, ports, hsession, rfl⟩
  · cases hopen
  · cases hopen
  · cases hopen
  · rcases hsession.spec.effects _ hopen with ⟨asked, -, hjustified⟩
    exact hjustified

end Flag

/-! ## Protected connections -/

/-- The event brings PROT with this argument on the connection, and it is answered 200. -/
def ProtAnswered (build : Build) (s : Handle) (arg : WString) (p : FtpServer × Event Line) : Prop :=
  ∃ line r τ fs text, p.2 = .receive s line ∧ request p.1 p.2 = some r ∧ r.cmd.id = .PROT ∧
    r.cmd.args = arg ∧ exec (onLine build) p.1 p.2 = .ok (τ, fs) ∧
    .send (Reply.create 200 text).content ∈ fs

/-- A command that comes on the open connection finds the client node of the connection in some
user's list. -/
def NodeKept (s : Handle) (p : FtpServer × Event Line) : Prop :=
  ∀ line, p.2 = .receive s line → (p.1.connections.find? (·.handle = s)).isSome = true →
    p.1.findClient s ≠ none

/-- A data connection that the event opens on behalf of the connection is opened over TLS, and in
the state `τ` its client node still says so. -/
def DataProtected (build : Build) (s : Handle) (τ : FtpServer) (p : FtpServer × Event Line) : Prop :=
  ∀ line r υ fs tls, p.2 = .receive s line → request p.1 p.2 = some r →
    exec (onLine build) p.1 p.2 = .ok (υ, fs) → .openData tls ∈ fs →
    tls = true ∧ (τ.nodes r.client).dataUseSsl = true

/-- The client node `c` is the one that serves the connection, and its flag is set. -/
structure Protected (σ : FtpServer) (s : Handle) (c : ClientRef) : Prop extends Serves σ s c where
  dataUseSsl : (σ.nodes c).dataUseSsl = true

section Steps

variable {build : Build} {σ τ : FtpServer} {s : Handle} {c : ClientRef} {e : Event Line}
  {fs : List Effect}

theorem EndFrame.serves (h : EndFrame σ τ) (hσ : Serves σ s c) : Serves τ s c := by
  have hsocket : ∀ d, (τ.nodes d).ctrlSocket = (σ.nodes d).ctrlSocket := by
    intro d
    rcases h.nodes d with ⟨isOpen, hnode⟩
    rw [hnode]
  refine ⟨h.nextClient ▸ hσ.allocated, (hsocket c).trans hσ.ctrlSocket, fun d hd hd' ↦ ?_⟩
  exact hσ.alone d (h.registered d hd) ((hsocket d).symm.trans hd')

theorem EndFrame.protected (h : EndFrame σ τ) (hσ : Protected σ s c) : Protected τ s c := by
  rcases h.nodes c with ⟨isOpen, hnode⟩
  exact ⟨h.serves hσ.toServes, by rw [hnode]; exact hσ.dataUseSsl⟩

/-- What happens elsewhere leaves the client node of the connection alone. -/
theorem exec_protected_elsewhere (hcons : Consistent σ) (hσ : Protected σ s c)
    (hother : ∀ input, e ≠ .receive s input) (h : exec (onLine build) σ e = .ok (τ, fs)) :
    Protected τ s c := by
  have halone : ∀ d, Registered τ d → (τ.nodes d).ctrlSocket = s → d = c := by
    intro d hd hsocket
    rcases exec_elsewhere (onLine_serving build) hcons h hother hd hsocket with ⟨hreg, hsame, -⟩
    exact hσ.alone d hreg hsame
  have hnode : c < τ.nextClient ∧ (τ.nodes c).ctrlSocket = (σ.nodes c).ctrlSocket ∧
      (τ.nodes c).dataUseSsl = (σ.nodes c).dataUseSsl := by
    cases e with
    | connect k =>
      rw [exec] at h
      split at h <;> cases h <;> exact ⟨hσ.allocated, rfl, rfl⟩
    | receive s' line =>
      rcases exec_receive h with ⟨-, rfl, -⟩ | ⟨k, a, -, hk, ha, hreplied⟩
      · exact ⟨hσ.allocated, rfl, rfl⟩
      · rcases onLine_serving build ha with ⟨env, p, cmd, hhandled⟩
        have hkeeps := clientFor_frame σ k
        have hold := hkeeps.nodes c hσ.allocated
        -- the line is processed for the node of its own connection
        have hne : c ≠ (σ.clientFor k).2 := by
          intro heq
          have hsocket := (clientFor_serves k hcons).ctrlSocket
          rw [← heq, hold, hσ.ctrlSocket, hk] at hsocket
          exact hother line (hsocket ▸ rfl)
        rcases hreplied.endFrame.nodes c with ⟨isOpen, hnode⟩
        have hparser := stored_sameLogin σ k p
        rw [hnode, hhandled.frame.nodes c hne, setParser_of_ne _ p hne, hold,
          hreplied.endFrame.nextClient, hhandled.frame.nextClient, hparser.nextClient]
        exact ⟨Nat.lt_of_lt_of_le hσ.allocated hkeeps.nextClient, rfl, rfl⟩
    | close s' =>
      rcases exec_close h with ⟨rfl, -⟩ | ⟨-, υ, hυ, rfl⟩
      · exact ⟨hσ.allocated, rfl, rfl⟩
      · have hframe := endWork_endFrame hυ
        rcases hframe.nodes c with ⟨isOpen, hnode⟩
        change c < υ.nextClient ∧ (υ.nodes c).ctrlSocket = _ ∧ (υ.nodes c).dataUseSsl = _
        rw [hnode, hframe.nextClient]
        exact ⟨hσ.allocated, rfl, rfl⟩
    | worker i act env =>
      have hframe := runWorker_frame h
      exact ⟨hframe.nextClient ▸ hσ.allocated, hframe.ctrlSocket c, hframe.dataUseSsl c⟩
    | admin op env =>
      cases h
      cases hop : σ.administer env op with
      | error e => exact ⟨hσ.allocated, rfl, rfl⟩
      | ok τ =>
        have hframe := administer_frame hcons.listed hcons.nodup hcons.anonymous hop
        change c < τ.nextClient ∧ (τ.nodes c).ctrlSocket = _ ∧ (τ.nodes c).dataUseSsl = _
        rw [hframe.nodes, hframe.nextClient]
        exact ⟨hσ.allocated, rfl, rfl⟩
  exact ⟨⟨hnode.1, hnode.2.1.trans hσ.ctrlSocket, halone⟩, hnode.2.2.trans hσ.dataUseSsl⟩

/-- An answered command: the replies and effects of the switch are among the effects of the event. -/
theorem Replied.send_mem {k : Connection} {a : Answer} (h : Replied k a τ fs) {text : WString}
    (ha : a.reply = .create 200 text) : .send (Reply.create 200 text).content ∈ fs := by
  have hsent : .send (Reply.create 200 text).content ∈ replyEffects a := by
    unfold replyEffects
    rw [ha, Reply.create_not_empty text (by decide)]
    exact List.mem_singleton_self _
  cases h with
  | goesOn => exact List.mem_append_right _ hsent
  | ended => exact List.mem_append_right _ hsent

theorem Replied.effects {k : Connection} {a : Answer} (h : Replied k a τ fs) :
    fs = a.effects ++ replyEffects a := by
  cases h <;> rfl

/-- A command on the protected connection is processed by its client node, opens data connections
over TLS only, and leaves the flag set but for a PROT C that is answered 200. -/
theorem exec_protected_receive {line : Line} (hcons : Consistent σ) (hσ : Protected σ s c)
    (hkept : NodeKept s (σ, .receive s line))
    (hclear : ¬ProtAnswered build s "C".toList (σ, .receive s line))
    (h : exec (onLine build) σ (.receive s line) = .ok (τ, fs)) :
    Protected τ s c ∧ ∀ r ∈ request σ (.receive s line), r.client = c ∧
      ∀ tls, .openData tls ∈ fs → tls = true := by
  rcases exec_line h with
    ⟨hnone, rfl, rfl⟩ | ⟨k, cmd, reply, p, a, hk, hsocket, -, hrequest, hhandled, hreplied⟩
  · refine ⟨hσ, fun r hr ↦ ?_⟩
    simp [request, hnone] at hr
  · -- the node that is found is the protected one, so none is made
    have hfor : σ.clientFor k = (σ, c) := by
      rcases clientFor_cases σ k with ⟨d, hd, hfor⟩ | ⟨hnone, -⟩
      · rcases findClient_eq_some hd with ⟨hreg, hd⟩
        rw [hfor, hσ.alone d hreg (hd.trans hsocket)]
      · exact absurd (hsocket ▸ hnone) (hkept line rfl (by rw [hk]; rfl))
    have hserves := (hhandled.consistent hcons).2
    rw [hfor] at hhandled hrequest hserves
    have hstored : ((σ.setParser c p).nodes c).dataUseSsl = true := by
      rw [setParser_nodes_self]
      exact hσ.dataUseSsl
    have hrun : (a.server.nodes c).dataUseSsl = true ∧
        ∀ tls, .openData tls ∈ a.effects → tls = true := by
      by_cases hid : cmd.id = .invalid
      · rw [if_pos hid] at hhandled
        cases hhandled with
        | ignored => exact ⟨hstored, fun tls htls ↦ by cases htls⟩
      · rw [if_neg hid] at hhandled
        cases hhandled with
        | @ran _ b hswitch =>
          constructor
          · rcases runSwitch_keeps hswitch hstored with hset | ⟨hprot, hargs, text, hanswer⟩
            · exact hset
            · exact absurd ⟨line, _, τ, fs, text, rfl, hrequest, hprot, hargs, h,
                hreplied.send_mem hanswer⟩ hclear
          · intro tls htls
            rcases List.mem_cons.mp htls with hswitched | htls
            · cases hswitched
            · exact (runSwitch_openData hswitch htls).trans hstored
    refine ⟨hreplied.endFrame.protected ⟨hsocket ▸ hserves, hrun.1⟩, fun r hr ↦ ?_⟩
    cases hrequest.symm.trans hr
    refine ⟨rfl, fun tls htls ↦ ?_⟩
    rw [hreplied.effects] at htls
    rcases List.mem_append.mp htls with htls | hsent
    · exact hrun.2 tls htls
    · unfold replyEffects at hsent
      split at hsent
      · cases hsent
      · cases List.mem_singleton.mp hsent

/-- PROT P that is answered 200 protects the connection. -/
theorem exec_protects {ρ : FtpServer} (hcons : Consistent ρ)
    (hprot : ProtAnswered build s "P".toList (ρ, e)) (h : exec (onLine build) ρ e = .ok (τ, fs)) :
    ∃ c, Protected τ s c := by
  rcases hprot with ⟨line, r, υ, gs, text, heq, hr, hid, hargs, hexec, hsent⟩
  dsimp only at heq hr hexec
  subst heq
  cases hexec.symm.trans h
  rcases exec_line h with
    ⟨-, -, rfl⟩ | ⟨k, cmd, reply, p, a, -, hsocket, -, hrequest, hhandled, hreplied⟩
  · cases hsent
  · cases hrequest.symm.trans hr
    have hserves := (hhandled.consistent hcons).2
    refine ⟨_, hreplied.endFrame.protected ⟨hsocket ▸ hserves, ?_⟩⟩
    rw [if_neg (by rw [hid]; decide)] at hhandled
    cases hhandled with
    | @ran _ b hswitch =>
      cases runSwitch_prot hid hswitch
      dsimp only
      rw [conclude_dataUseSsl]
      rcases processProtCmd_cases build (usesSsl _ _) cmd.args (ClientNode.toSession _) with
        ⟨-, -, ⟨hclear, -⟩ | ⟨-, hset⟩⟩ | ⟨code, hcode, t, hreply, -⟩
      · exact absurd (hargs.symm.trans hclear) (by decide)
      · exact hset
      · -- any other answer is not a 200
        rw [hreplied.effects, replyEffects] at hsent
        simp only [conclude, processProtCmd_effects, hreply, List.cons_append, List.nil_append, List.mem_cons,
          reduceCtorEq, false_or] at hsent
        split at hsent
        · cases hsent
        · exact absurd (Effect.send.inj (List.mem_singleton.mp hsent)).symm
            (content_ne_of_code hcode t text)

end Steps

section Runs

variable {build : Build} {σ ρ υ τ : FtpServer} {s : Handle} {e : Event Line}
  {older trace : List (FtpServer × Event Line)}

/-- The run lemma. -/
theorem run_protected {c : ClientRef} (hυ : Consistent υ) (hprotected : Protected υ s c)
    (later : LineRun build υ trace τ) (hclear : ∀ p ∈ trace, ¬ProtAnswered build s "C".toList p)
    (hkept : ∀ p ∈ trace, NodeKept s p) : Consistent τ ∧ Protected τ s c := by
  refine later.invariant_of_steps (P := fun t ↦ Consistent t ∧ Protected t s c)
    (C := fun t e ↦ ¬ProtAnswered build s "C".toList (t, e) ∧ NodeKept s (t, e))
    ⟨hυ, hprotected⟩ ?_ fun p hp ↦ ⟨hclear p hp, hkept p hp⟩
  rintro t e t' ⟨ht, hprotected⟩ ⟨hclear, hkept⟩ ⟨fs, hstep⟩
  refine ⟨exec_consistent (onLine_serving build) ht hstep, ?_⟩
  by_cases hother : ∀ input, e ≠ .receive s input
  · exact exec_protected_elsewhere ht hprotected hother hstep
  · push Not at hother
    rcases hother with ⟨line, rfl⟩
    exact (exec_protected_receive ht hprotected hkept hclear hstep).1

/-- After a PROT P that has been answered 200, and until a PROT C is, every data connection of the
connection is protected, as long as each of its commands finds its client node registered. -/
theorem data_protected (hσ : Initial σ) (first : LineRun build σ older ρ)
    (hprot : ProtAnswered build s "P".toList (ρ, e)) (step : LineStep build ρ e υ)
    (later : LineRun build υ trace τ) (hclear : ∀ p ∈ trace, ¬ProtAnswered build s "C".toList p)
    (hkept : ∀ p ∈ trace, NodeKept s p) : ∀ p ∈ trace, DataProtected build s τ p := by
  have hρ := lineRun_consistent hσ first
  rcases step with ⟨fs, hstep⟩
  have hυ := exec_consistent (onLine_serving build) hρ hstep
  rcases exec_protects hρ hprot hstep with ⟨c, hprotected⟩
  have hτ := (run_protected hυ hprotected later hclear hkept).2
  intro p hp line r τ' gs tls heq hr hexec htls
  rcases later.reaches_recorded hp with ⟨before, hbefore, hsub⟩
  rcases run_protected hυ hprotected hbefore (fun q hq ↦ hclear q (hsub q hq))
    fun q hq ↦ hkept q (hsub q hq) with ⟨hcons, hthen⟩
  rcases p with ⟨t, e'⟩
  dsimp only at heq hr hexec hcons hthen
  subst heq
  rcases (exec_protected_receive hcons hthen (hkept _ hp) (hclear _ hp) hexec).2 r hr with
    ⟨rfl, htls'⟩
  exact ⟨htls' tls htls, hτ.dataUseSsl⟩

end Runs

/-- A PROT that is answered 200, found by executing it. -/
theorem protAnswered_of {build : Build} {σ : FtpServer} {s : Handle} {line : Line} {arg : WString}
    (text : WString) (h : ((request σ (.receive s line)).any
      (fun r ↦ r.cmd.id = .PROT && r.cmd.args = arg) &&
      (exec (onLine build) σ (.receive s line)).toOption.any
        (.send (Reply.create 200 text).content ∈ ·.2)) = true) :
    ProtAnswered build s arg (σ, .receive s line) := by
  simp only [Bool.and_eq_true, Option.any_eq_true, decide_eq_true_eq] at h
  rcases h with ⟨⟨r, hr, hid, hargs⟩, ⟨τ, fs⟩, hexec, hsent⟩
  exact ⟨line, r, τ, fs, text, rfl, hr, hid, hargs, eq_ok_of_toOption hexec, hsent⟩

theorem not_protAnswered_of {build : Build} {s : Handle} {arg : WString}
    {p : FtpServer × Event Line} (h : (request p.1 p.2).any (·.cmd.id = .PROT) = false) :
    ¬ProtAnswered build s arg p := by
  rintro ⟨line, r, τ, fs, text, -, hr, hid, -⟩
  rw [hr] at h
  exact of_decide_eq_false h hid

/-- A listing after USER, PROT P and PASS. -/
theorem data_protected_listing : ∃ older ρ υ trace τ, LineRun {} Sample.server older ρ ∧
    LineStep {} ρ (Sample.line "PROT P") υ ∧ LineRun {} υ trace τ ∧
    trace.map (·.2) = [Sample.line "LIST", Sample.line "PASV", Sample.line "PASS pw"] ∧
    (∃ p ∈ trace, ∃ x, exec (onLine {}) p.1 p.2 = .ok x ∧ .openData true ∈ x.2) ∧
    ∀ p ∈ trace, DataProtected {} 7 τ p := by
  rcases exists_lineRun {} Sample.server [.connect Sample.connection, Sample.line "USER bob"]
      (fun r ↦ ((request r.2 (Sample.line "PROT P")).any
          (fun q ↦ q.cmd.id = .PROT && q.cmd.args = "P".toList) &&
        (exec (onLine {}) r.2 (Sample.line "PROT P")).toOption.any
          (.send (Reply.create 200 "DATA CHANNEL PROTECTION LEVEL set to P").content ∈ ·.2)) &&
        (exec (onLine {}) r.2 (Sample.line "PROT P")).toOption.any fun x ↦
          (execAll (onLine {}) [] x.1 [Sample.line "PASS pw", Sample.line "PASV",
            Sample.line "LIST"]).toOption.any fun q ↦
              q.1.all (fun p ↦ (request p.1 p.2).any (·.cmd.id = .PROT) = false &&
                (p.1.findClient 7).isSome) &&
              q.1.any fun p ↦ (exec (onLine {}) p.1 p.2).toOption.any (.openData true ∈ ·.2))
      (by decide +kernel) with ⟨older, ρ, first, h⟩
  rw [Bool.and_eq_true, Option.any_eq_true] at h
  rcases h with ⟨hprot, ⟨υ, fs⟩, hexec, h⟩
  have step : LineStep {} ρ (Sample.line "PROT P") υ := ⟨fs, eq_ok_of_toOption hexec⟩
  rcases exists_lineRun_of {} υ _ _ h with ⟨trace, τ, later, hevents, h⟩
  simp only [Bool.and_eq_true, List.all_eq_true, List.any_eq_true, Option.any_eq_true,
    decide_eq_true_eq] at h
  rcases h with ⟨hsteps, p, hp, x, hx, hopen⟩
  exact ⟨older, ρ, υ, trace, τ, first, step, later, hevents,
    ⟨p, hp, x, eq_ok_of_toOption hx, hopen⟩,
    data_protected Sample.initial first (protAnswered_of _ hprot) step later
      (fun p hp ↦ not_protAnswered_of (hsteps p hp).1)
      fun p hp _ _ _ ↦ Option.ne_none_iff_isSome.mpr (hsteps p hp).2⟩

/-- PROT P before USER: the listing goes over a data connection in the clear. -/
theorem data_protected_fails : Initial Sample.server ∧
    ∃ older ρ υ trace τ, LineRun {} Sample.server older ρ ∧
      ProtAnswered {} 7 "P".toList (ρ, Sample.line "PROT P") ∧
      LineStep {} ρ (Sample.line "PROT P") υ ∧ LineRun {} υ trace τ ∧
      trace.map (·.2) = [Sample.line "LIST", Sample.line "PASV", Sample.line "PASS pw",
        Sample.line "USER bob"] ∧
      (∀ p ∈ trace, ¬ProtAnswered {} 7 "C".toList p) ∧
      ∃ p ∈ trace, (∃ x, exec (onLine {}) p.1 p.2 = .ok x ∧ .openData false ∈ x.2) ∧
        ¬DataProtected {} 7 τ p := by
  refine ⟨Sample.initial, ?_⟩
  rcases exists_lineRun {} Sample.server [.connect Sample.connection]
      (fun r ↦ ((request r.2 (Sample.line "PROT P")).any
          (fun q ↦ q.cmd.id = .PROT && q.cmd.args = "P".toList) &&
        (exec (onLine {}) r.2 (Sample.line "PROT P")).toOption.any
          (.send (Reply.create 200 "DATA CHANNEL PROTECTION LEVEL set to P").content ∈ ·.2)) &&
        (exec (onLine {}) r.2 (Sample.line "PROT P")).toOption.any fun x ↦
          (execAll (onLine {}) [] x.1 [Sample.line "USER bob", Sample.line "PASS pw",
            Sample.line "PASV", Sample.line "LIST"]).toOption.any fun q ↦
              q.1.all (fun p ↦ (request p.1 p.2).any (·.cmd.id = .PROT) = false) &&
              q.1.head?.any fun p ↦ (request p.1 (Sample.line "LIST")).isSome &&
                (exec (onLine {}) p.1 (Sample.line "LIST")).toOption.any
                  (.openData false ∈ ·.2))
      (by decide +kernel) with ⟨older, ρ, first, h⟩
  rw [Bool.and_eq_true, Option.any_eq_true] at h
  rcases h with ⟨hprot, ⟨υ, fs⟩, hexec, h⟩
  rcases exists_lineRun_of {} υ _ _ h with ⟨trace, τ, later, hevents, h⟩
  simp only [Bool.and_eq_true, List.all_eq_true, Option.any_eq_true, decide_eq_true_eq,
    Option.isSome_iff_exists] at h
  rcases h with ⟨hsteps, p, hp, ⟨r, hr⟩, ⟨τ', gs⟩, hlist, hopen⟩
  have hlist := eq_ok_of_toOption hlist
  have hmem : p ∈ trace := List.mem_of_head? hp
  have hlast : p.2 = Sample.line "LIST" := by
    have hhead := congrArg List.head? hevents
    rw [List.head?_map, hp] at hhead
    exact Option.some.inj hhead
  refine ⟨older, ρ, υ, trace, τ, first, protAnswered_of _ hprot,
    ⟨fs, eq_ok_of_toOption hexec⟩, later, hevents,
    fun p hp ↦ not_protAnswered_of (hsteps p hp), p, hmem, ?_, fun h ↦ ?_⟩
  · rw [hlast]
    exact ⟨_, hlist, hopen⟩
  · exact absurd (h _ r τ' gs false hlast (hlast ▸ hr) (hlast ▸ hlist) hopen).1 (by decide)

end YFtp.FtpServer
