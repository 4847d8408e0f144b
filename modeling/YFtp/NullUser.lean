import YFtp.ClientLists
import YFtp.HandlerSpecs

/-!
# The user pointer

Where `user_` is read without a check.  It is set to null by a USER that names no account, by a
refused PASS and by REIN; it is read by the handlers of a session that is logged in, by a running
list worker and at the end of every registered connection.
-/

namespace YFtp

def Job.isList : Job → Bool
  | .list _ _ => true
  | _ => false

theorem ok_ne_error {α : Type} {a : α} {fault : Fault} :
    (.ok a : Except Fault α) ≠ .error fault :=
  nofun

theorem bind_ne_error {α β : Type} {x : Except Fault α} {f : α → Except Fault β} {fault : Fault}
    (hx : x ≠ .error fault) (hf : ∀ a, f a ≠ .error fault) : x.bind f ≠ .error fault := by
  cases x with
  | error other => exact fun h ↦ hx (congrArg _ (Except.error.inj h))
  | ok a => exact hf a

theorem map_ne_error {α β : Type} {x : Except Fault α} {f : α → β} {fault : Fault}
    (hx : x ≠ .error fault) : x.map f ≠ .error fault := by
  cases x with
  | error other => exact fun h ↦ hx (congrArg _ (Except.error.inj h))
  | ok a => exact ok_ne_error

theorem ne_of_some {α : Type} {a b c : α} (h : some a = some b) (ha : a ≠ c) : b ≠ c :=
  Option.some.inj h ▸ ha

/-- A handler of a bound session gets its user. -/
theorem deref_ne {α : Type} {u : UserNode} {f : UserNode → Except Fault α} {fault : Fault}
    (hf : f u ≠ .error fault) : (deref (some u)).bind f ≠ .error fault :=
  hf

/-! ## Handlers of a bound session -/

namespace Session

variable {env : Env} {s : Session} {u : UserNode} {arg : WString}

theorem closeDataSocket_ne (s : Session) : s.closeDataSocket ≠ .error .nullUser := by
  unfold closeDataSocket
  split <;> split <;> nofun

theorem shutDownDataSocket_ne (s : Session) : s.shutDownDataSocket ≠ .error .nullUser := by
  unfold shutDownDataSocket
  split <;> split <;> nofun

theorem openDataConnection_ne (env : Env) (sslContext : Bool) (s : Session) :
    s.openDataConnection env sslContext ≠ .error .nullUser := by
  unfold openDataConnection
  split
  · nofun
  · split
    · nofun
    · dsimp only
      split <;> nofun
  · split
    · nofun
    · split <;> nofun

theorem resetDataMode_ne (s : Session) : s.resetDataMode ≠ .error .nullUser := by
  unfold resetDataMode
  split
  · dsimp only
    split
    · exact bind_ne_error (closeDataSocket_ne _) fun _ ↦ nofun
    · nofun
  · nofun

theorem processPortCmd_ne (arg : WString) (s : Session) :
    s.processPortCmd arg ≠ .error .nullUser := by
  unfold processPortCmd
  split
  · nofun
  · split
    · exact bind_ne_error (resetDataMode_ne s) fun _ ↦ nofun
    · nofun

theorem processPasvCmd_ne (env : Env) (serverIp : Nat) (ports : DataPorts) (s : Session) :
    s.processPasvCmd env serverIp ports ≠ .error .nullUser := by
  unfold processPasvCmd
  split
  · nofun
  · apply bind_ne_error (resetDataMode_ne s)
    intro t
    split
    · nofun
    · dsimp only
      split
      · split <;> nofun
      · split <;> nofun

theorem processAborCmd_ne (s : Session) : s.processAborCmd ≠ .error .nullUser := by
  unfold processAborCmd
  split
  · exact bind_ne_error (closeDataSocket_ne s) fun _ ↦ nofun
  · nofun

theorem processCwdCmd_ne : s.processCwdCmd env (some u) arg ≠ .error .nullUser := by
  unfold processCwdCmd
  split
  · apply deref_ne
    dsimp only
    split <;> nofun
  · nofun

theorem processMdtmCmd_ne : s.processMdtmCmd env (some u) arg ≠ .error .nullUser := by
  unfold processMdtmCmd
  split
  · apply deref_ne
    dsimp only
    split
    · split <;> nofun
    · nofun
  · nofun

theorem processSizeCmd_ne : s.processSizeCmd env (some u) arg ≠ .error .nullUser := by
  unfold processSizeCmd
  split
  · apply deref_ne
    dsimp only
    split
    · split <;> nofun
    · nofun
  · nofun

theorem processDelCmd_ne : s.processDelCmd env (some u) arg ≠ .error .nullUser := by
  unfold processDelCmd
  apply deref_ne
  split
  · nofun
  · split
    · dsimp only
      split
      · split <;> nofun
      · nofun
    · nofun

theorem processRnfrCmd_ne : s.processRnfrCmd env (some u) arg ≠ .error .nullUser := by
  unfold processRnfrCmd
  apply deref_ne
  split
  · nofun
  · split
    · dsimp only
      split <;> nofun
    · nofun

theorem processRntoCmd_ne : s.processRntoCmd env (some u) arg ≠ .error .nullUser := by
  unfold processRntoCmd
  split
  · split
    · apply deref_ne
      dsimp only
      split
      · split <;> nofun
      · nofun
    · nofun
  · nofun

theorem processMkdCmd_ne : s.processMkdCmd env (some u) arg ≠ .error .nullUser := by
  unfold processMkdCmd
  apply deref_ne
  split
  · nofun
  · split
    · dsimp only
      split
      · split <;> nofun
      · nofun
    · nofun

theorem processRmdCmd_ne : s.processRmdCmd env (some u) arg ≠ .error .nullUser := by
  unfold processRmdCmd
  apply deref_ne
  split
  · nofun
  · split
    · dsimp only
      split
      · split <;> nofun
      · nofun
    · nofun

theorem processSiteCmd_ne : s.processSiteCmd (some u) arg ≠ .error .nullUser := by
  unfold processSiteCmd
  split
  · apply deref_ne
    split
    · split <;> nofun
    · nofun
  · nofun

theorem processListCmd_ne {sslContext : Bool} {cmd : Command} :
    s.processListCmd env sslContext (some u) cmd ≠ .error .nullUser := by
  unfold processListCmd
  apply deref_ne
  split
  · nofun
  · split
    · nofun
    · have hrest : ∀ r : Session × Bool × List Effect,
          (if r.2.1 = false then
            Except.ok (r.1.answer 425 "Can't open data connection." r.2.2)
          else if env.joinable then
            .ok { session := r.1, effects := r.2.2 ++ [.startList cmd] }
          else .ok (r.1.answer 425 "425 Can't open data connection." r.2.2))
            ≠ Except.error Fault.nullUser := by
        intro r
        split
        · nofun
        · split <;> nofun
      dsimp only
      split
      · exact bind_ne_error (openDataConnection_ne env sslContext s) hrest
      · exact bind_ne_error nofun hrest

theorem processRetrCmd_ne {sslContext : Bool} :
    s.processRetrCmd env sslContext (some u) arg ≠ .error .nullUser := by
  unfold processRetrCmd
  apply deref_ne
  split
  · nofun
  · split
    · split
      · nofun
      · refine bind_ne_error (openDataConnection_ne env sslContext s) fun r ↦ ?_
        dsimp only
        split
        · nofun
        · split
          · split <;> nofun
          · nofun
    · nofun

theorem searchUniqueName_ne (env : Env) (home current : WString) (left tried : Nat) :
    searchUniqueName env home current left tried ≠ .error .nullUser := by
  induction left generalizing tried with
  | zero => simp [searchUniqueName]
  | succ left ih =>
    unfold searchUniqueName
    dsimp only
    split
    · exact bind_ne_error (ih _) fun _ ↦ ok_ne_error
    · exact ok_ne_error

theorem processStorCmd_ne {sslContext : Bool} {cmd : Command} :
    s.processStorCmd env sslContext (some u) cmd ≠ .error .nullUser := by
  unfold processStorCmd
  apply deref_ne
  split
  · nofun
  · split
    · split
      · nofun
      · refine bind_ne_error (openDataConnection_ne env sslContext s) fun r ↦ ?_
        dsimp only
        split
        · nofun
        · split
          all_goals
            first
            | refine bind_ne_error (searchUniqueName_ne _ _ _ _ _) fun found ↦ ?_
            | refine bind_ne_error nofun fun found ↦ ?_
            rcases found with ⟨unique, searched⟩
            dsimp only
            generalize (if unique ≠ [] then unique else _) = path
            split
            · split <;> nofun
            · nofun
    · nofun

end Session

namespace FtpServer

/-! ## The invariant -/

/-- A client that is bound to nobody is not logged in, in no list, and not listing. -/
def Guarded (σ : FtpServer) (c : ClientRef) : Prop :=
  (σ.nodes c).user = none → (σ.nodes c).isLogged = false ∧ ¬Registered σ c ∧
    ∀ w ∈ σ.workers, w.client = c → w.job.isList = false

def AllGuarded (σ : FtpServer) : Prop := ∀ c < σ.nextClient, Guarded σ c

/-- Where the code takes `user_` for granted, it is not null. -/
structure UserPresent (σ : FtpServer) : Prop where
  logged : ∀ c < σ.nextClient, (σ.nodes c).isLogged = true → (σ.nodes c).user ≠ none
  listed : ∀ u ∈ σ.userManager.ftpUserList, ∀ c ∈ σ.clientsOf u, (σ.nodes c).user ≠ none
  listing : ∀ w ∈ σ.workers, w.job.isList = true → (σ.nodes w.client).user ≠ none

theorem AllGuarded.present {σ : FtpServer} (hcons : Consistent σ) (h : AllGuarded σ) :
    UserPresent σ where
  logged c hc hlogged huser := by
    rw [(h c hc huser).1] at hlogged
    cases hlogged
  listed u hu c hc huser := by
    have hreg : Registered σ c := ⟨u, hu, hc⟩
    exact (h c (hcons.allocated c hreg) huser).2.1 hreg
  listing w hw hlist huser := by
    have hnot := (h w.client (hcons.workers w hw) huser).2.2 w hw rfl
    rw [hlist] at hnot
    cases hnot

/-- The command leaves its client bound to nobody: a USER that finds no account or, after a login,
no room for an anonymous one, a refused PASS, or REIN. -/
def Unbinds (σ : FtpServer) (q : Request) : Prop :=
  (q.cmd.id = .USER ∧
    if σ.asksAnonymous q.cmd.args then
      q.node.isLogged = true ∧
      ∀ v ∈ q.node.user, ∀ u ∈ σ.userManager.findUser "anonymous".toList,
        UserManager.hasRoom ((σ.userManager.deleteClient v q.client).users u) = false
    else σ.enabledUser q.cmd.args = none) ∨
  (q.cmd.id = .PASS ∧ ¬PasswordAccepted σ q.node q.cmd.args) ∨
  q.cmd.id = .REIN

instance (σ : FtpServer) (q : Request) : Decidable (Unbinds σ q) :=
  inferInstanceAs (Decidable (_ ∨ _ ∨ _))

/-- A command unbinds its client only when the client stands in no list but once in that of its
user and is not listing, by USER only after a login and by PASS only before one; and SITE is sent by
a bound client. -/
def KeepsUser (build : Build) (σ : FtpServer) (e : Event Line) : Prop :=
  ∀ q ∈ request σ e,
    (Unbinds σ q → q.node.user ≠ none →
      Placed σ q.client ∧ (∀ w ∈ σ.workers, w.client = q.client → w.job.isList = false) ∧
      (q.cmd.id = .USER → q.node.isLogged = true) ∧
      (q.cmd.id = .PASS → q.node.isLogged = false)) ∧
    (build.useExtraCmd = true → q.cmd.id = .SITE → q.node.user ≠ none)

instance (build : Build) (σ : FtpServer) (e : Event Line) : Decidable (KeepsUser build σ e) :=
  inferInstanceAs (Decidable (∀ _ ∈ _, _))

section Guarded

variable {build : Build} {σ τ : FtpServer} {c : ClientRef} {e : Event Line} {fs : List Effect}

theorem SameLogin.guarded (h : SameLogin σ τ) (hworkers : ∀ w ∈ τ.workers, w.client = c →
      w.job.isList = true → (σ.nodes c).user = none → w ∈ σ.workers) (hσ : Guarded σ c) :
    Guarded τ c := by
  intro huser
  rw [h.user] at huser
  rcases hσ huser with ⟨hlogged, hreg, hlist⟩
  rw [h.isLogged, h.registered]
  refine ⟨hlogged, hreg, ?_⟩
  intro w hw hwc
  by_contra hlisting
  rw [Bool.not_eq_false] at hlisting
  have hnot := hlist w (hworkers w hw hwc hlisting huser) hwc
  rw [hlisting] at hnot
  cases hnot

/-- A step of one client leaves the others guarded. -/
theorem ClientFrame.allGuarded (h : ClientFrame c σ τ) (hσ : AllGuarded σ) (hc : Guarded τ c) :
    AllGuarded τ := by
  intro d hd huser
  by_cases hdc : d = c
  · subst hdc
    exact hc huser
  · rw [h.nextClient] at hd
    rw [h.nodes d hdc] at huser ⊢
    rcases hσ d hd huser with ⟨hlogged, hreg, hlist⟩
    refine ⟨hlogged, fun hτ ↦ hreg ((h.registered hdc).mp hτ), ?_⟩
    -- the workers that the step starts are those of its own client
    intro w hw hwd
    rcases h.workers with ⟨jobs, hjobs⟩
    rw [hjobs] at hw
    rcases List.mem_append.mp hw with hw | hw
    · exact hlist w hw hwd
    · rcases List.mem_map.mp hw with ⟨j, -, rfl⟩
      exact absurd hwd.symm hdc

theorem guarded_of_bound {u : UserRef} (h : (τ.nodes c).user = some u) : Guarded τ c := by
  intro huser
  rw [h] at huser
  cases huser

/-- The same lists and workers, for a client that is not logged in. -/
theorem guarded_of_unbound (hlogged : (τ.nodes c).isLogged = false) (hreg : ¬Registered τ c)
    (hworkers : τ.workers = σ.workers)
    (hlist : ∀ w ∈ σ.workers, w.client = c → w.job.isList = false) : Guarded τ c :=
  fun _ ↦ ⟨hlogged, hreg, hworkers ▸ hlist⟩

theorem processUserCmd_guarded {name : WString} {r : FtpServer × Reply × Bool}
    (hσ : Guarded σ c) (hname : name ≠ [])
    (hunbind : (if σ.asksAnonymous name then
        (σ.nodes c).isLogged = true ∧
        ∀ v ∈ (σ.nodes c).user, ∀ u ∈ σ.userManager.findUser "anonymous".toList,
          UserManager.hasRoom ((σ.userManager.deleteClient v c).users u) = false
      else σ.enabledUser name = none) → (σ.nodes c).user ≠ none →
      Placed σ c ∧ (∀ w ∈ σ.workers, w.client = c → w.job.isList = false) ∧
      (σ.nodes c).isLogged = true)
    (h : σ.processUserCmd c name = .ok r) : Guarded r.1 c := by
  rcases processUserCmd_ok h with ⟨τ, hτ, hbound⟩
  have hframe := logOut_frame hτ
  have hworkers := hbound.workers.trans (logOut_workers hτ)
  -- the account that USER looks up is the same before and after the logout
  have hask : τ.asksAnonymous name = σ.asksAnonymous name := hframe.asksAnonymous name
  rcases logOut_cases hτ with ⟨hlogged, rfl⟩ | ⟨hlogged, v, huser, rfl⟩
  · -- not logged in: only an unknown name unbinds, and only a client that was unbound already
    cases hbound with
    | unchanged => exact hσ
    | anonymous => exact guarded_of_bound (by rw [setNode_self])
    | named _ _ _ hadd => exact guarded_of_bound (by rw [addClient_nodes hadd, setNode_self])
    | full => exact guarded_of_bound (by rw [setNode_self])
    | unknown _ hnot hfind =>
      rw [if_neg (by rw [hnot]; decide)] at hunbind
      have hnone : (τ.nodes c).user = none := by
        by_contra hsome
        have hin := (hunbind hfind hsome).2.2
        rw [hlogged] at hin
        cases hin
      rcases hσ hnone with ⟨hlogged, hreg, hlist⟩
      exact guarded_of_unbound (by rw [setNode_self]; exact hlogged) hreg hworkers hlist
  · -- logged in: the client has left the list of its user, so it must stand in no other
    have hsome : (σ.nodes c).user ≠ none := Option.ne_none_iff_exists'.mpr ⟨v, huser⟩
    have hfree : Placed σ c → ¬Registered (σ.deleteClient v c) c :=
      fun hplaced ↦ hplaced.not_registered_deleteClient huser
    cases hbound with
    | unchanged hsame =>
      rcases hsame with hnil | ⟨hanonymous, hfull⟩
      · exact absurd hnil hname
      · rw [hask] at hanonymous
        rw [if_pos hanonymous] at hunbind
        have hnoroom : ∀ v' ∈ (σ.nodes c).user,
            ∀ u ∈ σ.userManager.findUser "anonymous".toList,
              UserManager.hasRoom ((σ.userManager.deleteClient v' c).users u) = false := by
          intro v' hv' u hu
          rw [huser] at hv'
          cases hv'
          exact (hfull u ((hframe.findUser _).trans hu)).1
        have hcond := hunbind ⟨hlogged, hnoroom⟩ hsome
        exact guarded_of_unbound (by rw [setNode_self]) (hfree hcond.1) hworkers hcond.2.1
    | anonymous => exact guarded_of_bound (by rw [setNode_self])
    | named _ _ _ hadd => exact guarded_of_bound (by rw [addClient_nodes hadd, setNode_self])
    | full => exact guarded_of_bound (by rw [setNode_self])
    | unknown _ hnot hfind =>
      rw [hask] at hnot
      rw [if_neg (by rw [hnot]; decide)] at hunbind
      have hcond := hunbind ((hframe.enabledUser name).symm.trans hfind) hsome
      exact guarded_of_unbound (by rw [setNode_self, setNode_self]) (hfree hcond.1) hworkers
        hcond.2.1

/-- What leaving the list of its user makes of a client that stands nowhere else. -/
theorem unbind_not_registered (hplaced : (σ.nodes c).user ≠ none → Placed σ c)
    (hσ : (σ.nodes c).user = none → ¬Registered σ c) : ¬Registered (σ.unbind c) c := by
  unfold unbind
  split
  · rename_i u huser
    have hsome : (σ.nodes c).user ≠ none := Option.ne_none_iff_exists'.mpr ⟨u, huser⟩
    exact (hplaced hsome).not_registered_deleteClient huser
  · rename_i hnone
    exact hσ hnone

theorem unbind_isLogged (σ : FtpServer) (c : ClientRef) :
    ((σ.unbind c).nodes c).isLogged = (σ.nodes c).isLogged := by
  unfold unbind
  split
  · rw [setNode_self]
  · rfl

theorem runSwitch_guarded {env : Env} {cmd : Command} {a : Answer} (hσ : Guarded σ c)
    (hname : cmd.id = .USER → cmd.args ≠ [])
    (hanonymous : (σ.nodes c).isAnonymous = true → (σ.nodes c).user ≠ none)
    (hunbind : Unbinds σ ⟨c, σ.nodes c, cmd⟩ → (σ.nodes c).user ≠ none →
      Placed σ c ∧ (∀ w ∈ σ.workers, w.client = c → w.job.isList = false) ∧
      (cmd.id = .USER → (σ.nodes c).isLogged = true) ∧
      (cmd.id = .PASS → (σ.nodes c).isLogged = false))
    (h : σ.runSwitch build env c cmd = .ok a) : Guarded a.server c := by
  -- what the condition and the invariant say of a client that is unbound
  have hlist : Unbinds σ ⟨c, σ.nodes c, cmd⟩ →
      ∀ w ∈ σ.workers, w.client = c → w.job.isList = false := by
    intro hun
    by_cases huser : (σ.nodes c).user = none
    · exact (hσ huser).2.2
    · exact (hunbind hun huser).2.1
  have hfree : Unbinds σ ⟨c, σ.nodes c, cmd⟩ → ¬Registered (σ.unbind c) c :=
    fun hun ↦ unbind_not_registered (fun huser ↦ (hunbind hun huser).1) fun huser ↦ (hσ huser).2.1
  rcases runSwitch_cases h with
    ⟨hid, r, hr, rfl⟩ | ⟨hid, rfl⟩ | ⟨hid, rfl⟩ | ⟨-, o, ports, hsession, rfl⟩
  · apply processUserCmd_guarded hσ (hname hid) _ hr
    intro hun huser
    have hcond := hunbind (.inl ⟨hid, hun⟩) huser
    exact ⟨hcond.1, hcond.2.1, hcond.2.2.1 hid⟩
  · dsimp only
    rw [processPasswordCmd_eq]
    split
    · -- accepted: by the password of its user, or as a client that is anonymous and so bound
      rename_i haccepted
      intro hnone
      rw [setNode_self] at hnone
      rcases haccepted with hyes | ⟨-, u, hu, -⟩
      · exact absurd hnone (hanonymous hyes)
      · rw [Option.mem_def, hnone] at hu
        cases hu
    · rename_i hrefused
      have hun : Unbinds σ ⟨c, σ.nodes c, cmd⟩ := .inr (.inl ⟨hid, hrefused⟩)
      have hlogged : (σ.nodes c).isLogged = false := by
        by_cases huser : (σ.nodes c).user = none
        · exact (hσ huser).1
        · exact (hunbind hun huser).2.2.2 hid
      exact guarded_of_unbound (by rw [unbind_isLogged]; exact hlogged) (hfree hun)
        (unbind_workers σ c) (hlist hun)
  · have hun : Unbinds σ ⟨c, σ.nodes c, cmd⟩ := .inr (.inr hid)
    exact guarded_of_unbound (by simp [processReinCmd]) (hfree hun) (processReinCmd_workers σ c)
      (hlist hun)
  · -- a list worker is started only by a handler that has looked at the user
    apply (conclude_sameLogin env { σ with dataPorts := ports } c o).guarded _ hσ
    intro w hw hwc hlisting hnone
    rw [conclude_workers] at hw
    rcases List.mem_append.mp hw with hw | hw
    · exact hw
    · rcases List.mem_map.mp hw with ⟨j, hj, rfl⟩
      rcases List.mem_filterMap.mp hj with ⟨f, hf, hjob⟩
      rcases hsession.spec.effects f hf with ⟨asked, -, hjustified⟩
      have hnone : (σ.nodes c).user = none := hnone
      cases f with
      | startList =>
        rcases hjustified with ⟨-, u, huser, -⟩
        rw [hnone] at huser
        cases huser
      | startRetrieve | startStore =>
        cases hjob
        cases hlisting
      | _ => cases hjob

theorem clientFor_allGuarded (hcons : Consistent σ) (hσ : AllGuarded σ) (k : Connection) :
    AllGuarded (σ.clientFor k).1 := by
  have hkeeps := clientFor_frame σ k
  intro d hd huser
  rcases Nat.lt_or_ge d σ.nextClient with hold | hnew
  · rw [hkeeps.nodes d hold] at huser ⊢
    rw [hkeeps.workers, hkeeps.registered]
    exact hσ d hold huser
  · rcases clientFor_cases σ k with ⟨c, -, hfor⟩ | ⟨-, hfor⟩
    · rw [hfor] at hd
      exact absurd hd (Nat.not_lt.mpr hnew)
    · -- a fresh node is in no list and has no worker
      rw [hkeeps.workers, hkeeps.registered]
      have hd : d = σ.nextClient := by
        rw [hfor] at hd
        exact Nat.le_antisymm (Nat.lt_succ_iff.mp hd) hnew
      have hlogged : ((σ.clientFor k).1.nodes d).isLogged = false := by
        rw [hfor, hd]
        simp [setNode, freshNode]
      refine ⟨hlogged, ?_, ?_⟩
      · exact fun hreg ↦ absurd (hcons.allocated d hreg) (Nat.not_lt.mpr hnew)
      · exact fun w hw hwd ↦ absurd (hwd ▸ hcons.workers w hw) (Nat.not_lt.mpr hnew)

theorem setParser_allGuarded (hσ : AllGuarded σ) (c : ClientRef) (p : RequestParser) :
    AllGuarded (σ.setParser c p) :=
  fun d hd ↦ (setParser_sameLogin σ c p).guarded (fun _ hw _ _ _ ↦ hw) (hσ d hd)

/-- A client node that a command reaches is not anonymous unless it is bound. -/
theorem clientFor_anonymous (hcons : Consistent σ) (hσ : AllGuarded σ) (k : Connection)
    (hanonymous : ((σ.clientFor k).1.nodes (σ.clientFor k).2).isAnonymous = true) :
    ((σ.clientFor k).1.nodes (σ.clientFor k).2).user ≠ none := by
  rcases clientFor_cases σ k with ⟨c, hfind, hfor⟩ | ⟨-, hfor⟩
  · rw [hfor]
    intro huser
    have hreg := (findClient_eq_some hfind).1
    exact (hσ c (hcons.allocated c hreg) huser).2.1 hreg
  · rw [hfor] at hanonymous
    simp [setNode, freshNode] at hanonymous

theorem endClient_allGuarded (hσ : AllGuarded σ) (h : σ.endClient c = .ok τ) : AllGuarded τ := by
  apply (endClient_frame h).allGuarded hσ
  rcases endClient_ok h with ⟨u, huser, rfl⟩
  exact guarded_of_bound (by rw [deleteClient_nodes, setNode_self, huser])

/-- The condition on a request, at the state in which the switch runs. -/
theorem KeepsUser.at_switch {k : Connection} {p : RequestParser} {env : Env} {cmd : Command}
    (hkeeps : KeepsUser build σ e) (hincoming : Incoming σ e k env cmd)
    (hun : Unbinds (σ.stored k p)
      ⟨(σ.clientFor k).2, (σ.stored k p).nodes (σ.clientFor k).2, cmd⟩)
    (huser : ((σ.stored k p).nodes (σ.clientFor k).2).user ≠ none) :
    Placed (σ.stored k p) (σ.clientFor k).2 ∧
    (∀ w ∈ (σ.stored k p).workers, w.client = (σ.clientFor k).2 → w.job.isList = false) ∧
    (cmd.id = .USER → ((σ.stored k p).nodes (σ.clientFor k).2).isLogged = true) ∧
    (cmd.id = .PASS → ((σ.stored k p).nodes (σ.clientFor k).2).isLogged = false) := by
  have hparser := stored_sameLogin σ k p
  rw [setParser_nodes_self] at hun huser ⊢
  have hun' : Unbinds σ ⟨(σ.clientFor k).2, (σ.clientFor k).1.nodes (σ.clientFor k).2, cmd⟩ := by
    unfold Unbinds PasswordAccepted asksAnonymous enabledUser at hun ⊢
    rw [stored_userManager, stored_isAllowAnonymous] at hun
    exact hun
  have hcond := (hkeeps _ hincoming.request).1 hun' huser
  refine ⟨?_, ?_, hcond.2.2.1, hcond.2.2.2⟩
  · -- a bound client node is one that was there before
    rcases clientFor_cases σ k with ⟨c, -, hfor⟩ | ⟨-, hfor⟩
    · rw [hfor] at hcond hparser ⊢
      exact hparser.placed hcond.1
    · rw [hfor] at huser
      simp [setNode, freshNode] at huser
  · rw [stored_workers]
    exact hcond.2.1

theorem runSwitch_allGuarded {k : Connection} {p : RequestParser} {cmd : Command} {env : Env}
    {a : Answer} (hcons : Consistent σ) (hσ : AllGuarded σ) (hkeeps : KeepsUser build σ e)
    (hincoming : Incoming σ e k env cmd)
    (h : (σ.stored k p).runSwitch build env (σ.clientFor k).2 cmd = .ok a) :
    AllGuarded a.server := by
  have hstored := setParser_allGuarded (clientFor_allGuarded hcons hσ k) (σ.clientFor k).2 p
  have hclient := hstored _ (clientFor_serves k hcons).allocated
  apply (runSwitch_frame h).allGuarded hstored
  apply runSwitch_guarded hclient hincoming.named _
    (fun hun huser ↦ hkeeps.at_switch hincoming hun huser) h
  rw [setParser_nodes_self]
  exact clientFor_anonymous hcons hσ k

theorem exec_allGuarded (hcons : Consistent σ) (hσ : AllGuarded σ) (hkeeps : KeepsUser build σ e)
    (h : exec (onLine build) σ e = .ok (τ, fs)) : AllGuarded τ := by
  refine exec_invariant hcons hσ (fun _ hσ ↦ hσ) (clientFor_allGuarded hcons hσ)
    (fun c p hσ ↦ setParser_allGuarded hσ c p) ?run ?ended ?worker ?admin h
  case run => exact fun hincoming _ hswitch ↦ runSwitch_allGuarded hcons hσ hkeeps hincoming hswitch
  case ended => exact fun _ _ hσ hend ↦ endClient_allGuarded hσ hend
  case worker =>
    intro τ hframe d hd huser
    rw [hframe.user] at huser
    rw [hframe.nextClient] at hd
    rcases hσ d hd huser with ⟨hlogged, hreg, hlist⟩
    rw [hframe.isLogged, hframe.toSameLogin.registered]
    refine ⟨hlogged, hreg, ?_⟩
    intro w hw hwd
    rcases hframe.workers w hw with hw | ⟨cmd, -, hw⟩
    · exact hlist w hw hwd
    · -- a list worker that has begun was a list worker before
      have hnot := hlist _ hw hwd
      cases hnot
  case admin =>
    intro τ op env _ _ hframe d hd huser
    rw [hframe.nextClient] at hd
    rw [hframe.nodes] at huser ⊢
    rcases hσ d hd huser with ⟨hlogged, hreg, hlist⟩
    rw [hframe.workers]
    exact ⟨hlogged, fun hτ ↦ hreg (hframe.registered hτ), hlist⟩

/-! ## No fault -/

/-- The handlers of a bound session, or of one that has come through the gate without SITE. -/
theorem sessionHandler_ne {env : Env} {cmd : Command} {x : Except Fault Outcome}
    (hbound : (σ.nodes c).user ≠ none ∨
      (cmd.id ∈ RequestParser.beforeLogon ∧ (build.useExtraCmd = true → cmd.id ≠ .SITE)))
    (h : σ.sessionHandler build env c cmd = some x) : x ≠ .error .nullUser := by
  cases huser : (σ.nodes c).user with
  | none =>
    rcases hbound with hsome | ⟨hid, hsite⟩
    · exact absurd huser hsome
    · unfold sessionHandler at h
      dsimp only at h
      cases hcmd : cmd.id <;> rw [hcmd] at h hid hsite <;> dsimp only at h
      case SITE =>
        split at h
        · rename_i hextra
          exact absurd rfl (hsite hextra)
        · cases h
      case AUTH | PROT => exact ne_of_some h ok_ne_error
      -- every other command is stopped before login or has no handler of the session
      all_goals first | exact absurd hid (by decide) | cases h
  | some u =>
    unfold sessionHandler at h
    simp only [huser, Option.map_some] at h
    cases hcmd : cmd.id <;> rw [hcmd] at h <;> dsimp only at h
    case SITE =>
      split at h
      · exact ne_of_some h Session.processSiteCmd_ne
      · cases h
    case STAT =>
      split at h
      · exact ne_of_some h Session.processListCmd_ne
      · cases h
    case TYPE | PROT | AUTH | CDUP | REST => exact ne_of_some h ok_ne_error
    case PORT => exact ne_of_some h (Session.processPortCmd_ne _ _)
    case LIST | NLST | MLSD => exact ne_of_some h Session.processListCmd_ne
    case CWD => exact ne_of_some h Session.processCwdCmd_ne
    case MDTM => exact ne_of_some h Session.processMdtmCmd_ne
    case ABOR => exact ne_of_some h (Session.processAborCmd_ne _)
    case RETR => exact ne_of_some h Session.processRetrCmd_ne
    case STOR | APPE | STOU => exact ne_of_some h Session.processStorCmd_ne
    case SIZE => exact ne_of_some h Session.processSizeCmd_ne
    case DELE => exact ne_of_some h Session.processDelCmd_ne
    case RNFR => exact ne_of_some h Session.processRnfrCmd_ne
    case RNTO => exact ne_of_some h Session.processRntoCmd_ne
    case MKD => exact ne_of_some h Session.processMkdCmd_ne
    case RMD => exact ne_of_some h Session.processRmdCmd_ne
    all_goals cases h

theorem runSwitch_ne {env : Env} {cmd : Command} (hσ : Guarded σ c)
    (hgate : (σ.nodes c).isLogged = true ∨ cmd.id ∈ RequestParser.beforeLogon)
    (hsite : build.useExtraCmd = true → cmd.id = .SITE → (σ.nodes c).user ≠ none) :
    σ.runSwitch build env c cmd ≠ .error .nullUser := by
  have hlogOut : σ.logOut c ≠ .error .nullUser := by
    unfold logOut
    split
    · rename_i hlogged
      split
      · rename_i huser
        rw [(hσ huser).1] at hlogged
        cases hlogged
      · nofun
    · nofun
  unfold runSwitch
  split
  · exact map_ne_error (bind_ne_error hlogOut fun _ ↦ nofun)
  · nofun
  · nofun
  · exact map_ne_error (Session.processPasvCmd_ne _ _ _ _)
  · split
    · rename_i result hresult
      apply map_ne_error
      apply sessionHandler_ne _ hresult
      by_cases huser : (σ.nodes c).user = none
      · -- bound to nobody, the client is not logged in and the parser has held it back
        have hearly : cmd.id ∈ RequestParser.beforeLogon := by
          rcases hgate with hlogged | hearly
          · rw [(hσ huser).1] at hlogged
            cases hlogged
          · exact hearly
        exact .inr ⟨hearly, fun hextra hid ↦ hsite hextra hid huser⟩
      · exact .inl huser
    · nofun

theorem endWork_ne (hcons : Consistent σ) (hσ : AllGuarded σ) (s : Handle) :
    σ.endWork s ≠ .error .nullUser := by
  unfold endWork
  split
  · rename_i d hfind
    have hreg := (findClient_eq_some hfind).1
    unfold endClient
    simp only [setNode_self]
    split
    · nofun
    · rename_i huser
      exact absurd hreg (hσ d (hcons.allocated d hreg) huser).2.1
  · nofun

theorem finishSession_ne (isOpen : Bool) (job : Job) (s : Session) :
    finishSession isOpen job s ≠ .error .nullUser := by
  unfold finishSession
  apply bind_ne_error (Session.shutDownDataSocket_ne s)
  intro t
  apply bind_ne_error (Session.closeDataSocket_ne t)
  intro closed
  split
  · split <;> nofun
  · nofun

theorem finishWorker_ne (σ : FtpServer) (i : Nat) (c : ClientRef) (job : Job) (complete : Bool) :
    σ.finishWorker i c job complete ≠ .error .nullUser :=
  bind_ne_error (finishSession_ne _ _ _) fun _ ↦ ok_ne_error

theorem runWorker_ne {env : Env} {i : Nat} {act : WorkerStep} (hcons : Consistent σ)
    (hσ : AllGuarded σ) : σ.runWorker env i act ≠ .error .nullUser := by
  unfold runWorker
  split
  · nofun
  · rename_i w hw
    dsimp only
    split
    · split <;> nofun
    · -- `buildPath` reads the user of a listing session
      rename_i cmd hjob
      have hmem : w ∈ σ.workers := List.mem_of_getElem? hw
      cases huser : (σ.nodes w.client).user with
      | none =>
        have hnot := (hσ w.client (hcons.workers w hmem) huser).2.2 w hmem rfl
        rw [hjob] at hnot
        cases hnot
      | some u => exact bind_ne_error nofun fun _ ↦ nofun
    · split
      · nofun
      · exact finishWorker_ne _ _ _ _ _
    · exact finishWorker_ne _ _ _ _ _
    · exact finishWorker_ne _ _ _ _ _
    · nofun

theorem getCommand_ne (loggedon : Bool) (line : List UInt8) :
    RequestParser.getCommand loggedon line ≠ .error .nullUser := by
  unfold RequestParser.getCommand
  split
  · nofun
  · dsimp only
    split
    · split <;> nofun
    · split <;> nofun
    · split
      · nofun
      · split <;> nofun

theorem processLine_ne {s : Handle} {line : Line} {k : Connection} (hcons : Consistent σ)
    (hσ : AllGuarded σ) (hkeeps : KeepsUser build σ (.receive s line))
    (hk : σ.connections.find? (·.handle = s) = some k) :
    onLine build σ k line ≠ .error .nullUser := by
  unfold onLine processLine
  dsimp only
  split
  · rename_i fault hcommand
    intro hfault
    cases hfault
    exact getCommand_ne _ _ hcommand
  · rename_i cmd reply hcommand
    split
    · exact ok_ne_error
    · rename_i hid
      have hincoming := Incoming.of_command (request_of_line hk hcommand) hcommand hid
      have hstored := setParser_allGuarded (clientFor_allGuarded hcons hσ k) (σ.clientFor k).2
        (line.parser.setStatus ((σ.clientFor k).1.nodes (σ.clientFor k).2).isLogged)
      apply map_ne_error
      apply runSwitch_ne (hstored _ (clientFor_serves k hcons).allocated)
      · rw [setParser_nodes_self]
        exact hincoming.gate
      · rw [setParser_nodes_self]
        exact (hkeeps _ hincoming.request).2

theorem processLine_allGuarded {s : Handle} {line : Line} {k : Connection} {a : Answer}
    (hcons : Consistent σ) (hσ : AllGuarded σ) (hkeeps : KeepsUser build σ (.receive s line))
    (hk : σ.connections.find? (·.handle = s) = some k) (h : onLine build σ k line = .ok a) :
    Consistent a.server ∧ AllGuarded a.server := by
  rcases processLine_handled h with ⟨cmd, reply, hcommand, hhandled⟩
  refine ⟨(hhandled.consistent hcons).1, ?_⟩
  by_cases hid : cmd.id = .invalid
  · rw [if_pos hid] at hhandled
    cases hhandled with
    | ignored => exact setParser_allGuarded (clientFor_allGuarded hcons hσ k) _ _
  · rw [if_neg hid] at hhandled
    have hincoming := Incoming.of_command (request_of_line hk hcommand) hcommand hid
    cases hhandled with
    | ran hswitch =>
      have ha := runSwitch_allGuarded hcons hσ hkeeps hincoming hswitch
      exact ha

/-- No event reads a null `user_`. -/
theorem exec_ne (hcons : Consistent σ) (hσ : AllGuarded σ) (hkeeps : KeepsUser build σ e) :
    exec (onLine build) σ e ≠ .error .nullUser := by
  cases e with
  | connect k =>
    rw [exec]
    split <;> exact ok_ne_error
  | receive s line =>
    rw [exec]
    split
    · exact ok_ne_error
    · rename_i k hk
      apply map_ne_error
      cases hdata : onLine build σ k line with
      | error fault =>
        intro hfault
        cases hfault
        exact processLine_ne hcons hσ hkeeps hk hdata
      | ok a =>
        -- a reply that ends the connection unregisters the client node
        rcases processLine_allGuarded hcons hσ hkeeps hk hdata with ⟨haserver, ha⟩
        show afterCommand k a ≠ _
        rw [afterCommand_eq]
        split
        · exact ok_ne_error
        · exact map_ne_error (endWork_ne haserver ha k.handle)
  | close s =>
    rw [exec]
    split
    · exact map_ne_error (endWork_ne hcons hσ s)
    · exact ok_ne_error
  | worker i act env => exact runWorker_ne hcons hσ
  | admin op env => exact ok_ne_error

end Guarded

/-! ## Runs -/

section Runs

variable {build : Build} {σ τ : FtpServer} {trace : List (FtpServer × Event Line)}

theorem lineRun_allGuarded (hσ : Initial σ) (run : LineRun build σ trace τ)
    (hkeeps : ∀ p ∈ trace, KeepsUser build p.1 p.2) : Consistent τ ∧ AllGuarded τ := by
  have hstart : Consistent σ ∧ AllGuarded σ :=
    ⟨hσ.consistent, fun c hc ↦ by rw [hσ.noNodes] at hc; exact absurd hc (Nat.not_lt_zero c)⟩
  refine run.invariant_of_steps (P := fun t ↦ Consistent t ∧ AllGuarded t) hstart ?_ hkeeps
  rintro s e t ⟨hcons, hguarded⟩ hkeep ⟨fs, hstep⟩
  exact ⟨exec_consistent (onLine_serving build) hcons hstep,
    exec_allGuarded hcons hguarded hkeep hstep⟩

/-- In a run whose commands unbind no client that is listed elsewhere, listing, or left half logged
in, the user pointer is not null where it is read, and no further such event faults on it. -/
theorem userPresent (hσ : Initial σ) (run : LineRun build σ trace τ)
    (hkeeps : ∀ p ∈ trace, KeepsUser build p.1 p.2) :
    UserPresent τ ∧ ∀ e, KeepsUser build τ e → exec (onLine build) τ e ≠ .error .nullUser := by
  rcases lineRun_allGuarded hσ run hkeeps with ⟨hcons, hguarded⟩
  exact ⟨hguarded.present hcons, fun e ↦ exec_ne hcons hguarded⟩

end Runs

/-- An ordinary session, up to a listing and the end of the connection. -/
theorem userPresent_login : ∃ trace τ, LineRun {} Sample.server trace τ ∧
    (∃ w ∈ τ.workers, w.job.isList = true) ∧ UserPresent τ ∧
    exec (onLine {}) τ (.close 7) ≠ .error .nullUser := by
  rcases exists_lineRun {} Sample.server
      [.connect Sample.connection, Sample.line "USER bob", Sample.line "PASS pw",
        Sample.line "PASV", Sample.line "LIST"]
      (fun r ↦ r.1.all (fun p ↦ KeepsUser {} p.1 p.2) && r.2.workers.any (·.job.isList))
      (by decide +kernel) with ⟨trace, τ, run, h⟩
  simp only [Bool.and_eq_true, List.all_eq_true, decide_eq_true_eq, List.any_eq_true] at h
  have hpresent := userPresent Sample.initial run h.1
  exact ⟨trace, τ, run, h.2, hpresent.1, hpresent.2 _ fun q hq ↦ nomatch hq⟩

/-- USER bob, then USER with an unknown name: the client stays in the list of bob, bound to nobody,
and the end of its connection reads through the null pointer. -/
theorem userPresent_fails : Initial Sample.server ∧
    ∃ trace τ, LineRun {} Sample.server trace τ ∧ ¬UserPresent τ ∧
      exec (onLine {}) τ (.close 7) = .error .nullUser := by
  refine ⟨Sample.initial, ?_⟩
  rcases exists_lineRun {} Sample.server
      [.connect Sample.connection, Sample.line "USER bob", Sample.line "USER nosuch"]
      (fun r ↦ r.2.userManager.ftpUserList = [0, 1] && r.2.clientsOf 1 = [0] &&
        (r.2.nodes 0).user = none && match exec (onLine {}) r.2 (.close 7) with
          | .error fault => fault = .nullUser
          | .ok _ => false)
      (by decide +kernel) with ⟨trace, τ, run, h⟩
  simp only [Bool.and_eq_true, decide_eq_true_eq] at h
  rcases h with ⟨⟨⟨hlist, hclients⟩, huser⟩, hend⟩
  refine ⟨trace, τ, run, fun hpresent ↦ ?_, ?_⟩
  · exact hpresent.listed 1 (by rw [hlist]; decide) 0 (by rw [hclients]; decide) huser
  · cases hexec : exec (onLine {}) τ (.close 7) with
    | error fault =>
      rw [hexec] at hend
      rw [of_decide_eq_true hend]
    | ok r =>
      rw [hexec] at hend
      cases hend

end FtpServer

end YFtp
