import Mathlib.Tactic.MkIffOfInductiveProp
import YFtp.Theory.Observations
import YFtp.LackingServers
import YFtp.ReplyTexts
import YFtp.Survival

/-!
# User names

What can be told from the replies about whether an account exists.  USER is answered 331 either
way, but only an account that exists takes the client into its list, and only a client in some list
is found again when its next chunk comes.
-/

namespace YFtp

open Theory

namespace FtpServer

/-! ## What clients hear -/

/-- The connection that the texts of an event go to. -/
def addressee (σ : FtpServer) : Event Chunk → Option Handle
  | .receive s _ => some s
  | .worker i _ _ => σ.workers[i]?.map fun w ↦ (σ.nodes w.client).ctrlSocket
  | _ => none

/-- The texts that an event sends, and the server after it unless it is down. -/
def heard (build : Build) (σ : FtpServer) (e : Event Chunk) :
    (Option Handle × List WString) × Option FtpServer :=
  match σ.exec (onChunk build) e with
  | .ok (σ', effects) => ((σ.addressee e, sentTexts effects), some σ')
  | .error _ => ((none, []), none)

/-! ## Who names an account -/

/-- The command that the switch runs on when a chunk is received. -/
def chunkCommand (build : Build) (σ : FtpServer) (k : Connection) (chunk : Chunk) :
    Option Command :=
  commandTaken (σ.nodeFor k).isLogged chunk.garbage
    ((σ.parserFor k).lineTaken build.charSigned chunk.data)

/-- Nobody administers the server, and no client that has named `x` gives the password of `x`. -/
def Outside (build : Build) (x : UserRef) (σ : FtpServer) : Event Chunk → Prop
  | .receive s chunk => ∀ k ∈ σ.connections.find? (·.handle = s),
      ∀ cmd ∈ σ.chunkCommand build k chunk, cmd.id = .PASS → (σ.nodeFor k).user = some x →
        cmd.args ≠ (σ.userManager.users x).userPassword
  | .admin _ _ => False
  | _ => True

/-- The command may be given before login, is not USER, and its answer does not depend on what the
session has been told before. -/
@[mk_iff] structure Discreet (build : Build) (n : ClientNode) (cmd : Command) : Prop where
  gate : cmd.id ∈ RequestParser.beforeLogon
  user : cmd.id ≠ .USER
  pass : cmd.id = .PASS → n.isAnonymous = false
  prot : cmd.id = .PROT → cmd.args = ['C'] ∨ cmd.args = ['P'] → n.dataUseSsl = false
  site : cmd.id = .SITE → build.useExtraCmd = false

/-- The parser has nothing left over, and the command that the switch runs on is discreet. -/
@[mk_iff] structure Forgettable (build : Build) (n : ClientNode) (command : Option Command) : Prop where
  recvLineBuffer : n.requestParser.recvLineBuffer = []
  recvBuffer : n.requestParser.recvBuffer = []
  telnetSkip : n.requestParser.telnetSkip = false
  discreet : ∀ cmd ∈ command, Discreet build n cmd

/-- The client `c` names `x`: there is room, no worker runs for it, and it stands in no list but
that of the account it is logged in with. -/
@[mk_iff] structure Unbound (x : UserRef) (σ : FtpServer) (c : ClientRef) : Prop where
  room : UserManager.hasRoom (σ.userManager.users x) = true
  idle : ∀ w ∈ σ.workers, w.client ≠ c
  listed : ∀ u ∈ σ.userManager.ftpUserList, (σ.clientsOf u).count c ≤
    if (σ.nodes c).isLogged = true ∧ (σ.nodes c).user = some u then 1 else 0

/-- What is received leaves no trace of whether the account `x`, of this name, is there. -/
def Unnoticed (build : Build) (x : UserRef) (name : WString) (σ : FtpServer) : Event Chunk → Prop
  | .receive s chunk => ∀ k ∈ σ.connections.find? (·.handle = s),
      if (σ.clientFor k).2 ∈ σ.clientsOf x then
        Forgettable build (σ.nodeFor k) (σ.chunkCommand build k chunk)
      else ∀ cmd ∈ σ.chunkCommand build k chunk, cmd.id = .USER → cmd.args = name →
        (σ.userManager.users x).isEnable = true → Unbound x (σ.clientFor k).1 (σ.clientFor k).2
  | _ => True

instance (build : Build) (x : UserRef) (σ : FtpServer) : DecidablePred (Outside build x σ)
  | .receive s chunk => inferInstanceAs (Decidable (∀ k ∈ σ.connections.find? (·.handle = s),
      ∀ cmd ∈ σ.chunkCommand build k chunk, cmd.id = .PASS → (σ.nodeFor k).user = some x →
        cmd.args ≠ (σ.userManager.users x).userPassword))
  | .admin _ _ => .isFalse id
  | .connect _ | .close _ | .worker _ _ _ => .isTrue trivial

instance (build : Build) (n : ClientNode) : DecidablePred (Discreet build n) :=
  fun cmd ↦ decidable_of_iff' _ (discreet_iff build n cmd)

instance (build : Build) (n : ClientNode) : DecidablePred (Forgettable build n) :=
  fun command ↦ decidable_of_iff' _ (forgettable_iff build n command)

instance (x : UserRef) (σ : FtpServer) : DecidablePred (Unbound x σ) :=
  fun c ↦ decidable_of_iff' _ (unbound_iff x σ c)

instance (build : Build) (x : UserRef) (name : WString) (σ : FtpServer) :
    DecidablePred (Unnoticed build x name σ)
  | .receive s chunk => inferInstanceAs (Decidable (∀ k ∈ σ.connections.find? (·.handle = s),
      if (σ.clientFor k).2 ∈ σ.clientsOf x then
        Forgettable build (σ.nodeFor k) (σ.chunkCommand build k chunk)
      else ∀ cmd ∈ σ.chunkCommand build k chunk, cmd.id = .USER → cmd.args = name →
        (σ.userManager.users x).isEnable = true → Unbound x (σ.clientFor k).1 (σ.clientFor k).2))
  | .connect _ | .close _ | .worker _ _ _ | .admin _ _ => .isTrue trivial

section Lacks

variable {build : Build} {env : Env} {x : UserRef} {name : WString} {π : Equiv.Perm ClientRef}
  {S : ClientRef → Prop} {σ τ : FtpServer} {a b c : ClientRef} {cmd : Command}

/-! ## Naming the account -/

/-- A client node that stands in no list and that no worker runs for need not correspond to any. -/
theorem lacks_forget (h : Lacks x name π S σ τ) (hidle : ∀ w ∈ σ.workers, w.client ≠ c)
    (hfree : ∀ u, c ∉ σ.clientsOf u) : Lacks x name π (fun d ↦ S d ∧ d ≠ c) σ τ :=
  { h with
    listed := fun u hu d hd ↦ ⟨h.listed u hu d hd, fun heq ↦ hfree u (heq ▸ hd)⟩
    working := fun w hw ↦ ⟨h.working w hw, hidle w hw⟩
    nodes := fun d hd ↦ h.nodes d hd.1
    allocated := fun d hd ↦ h.allocated d hd.1
    elsewhere := fun d hd ↦ h.elsewhere d hd.1
    named := fun d hd ↦ ⟨fun hS ↦ (h.named d hd).1 hS.1, (h.named d hd).2⟩ }

/-- It enters the list of `x`. -/
theorem lacks_addClient_left {σ' : FtpServer} (h : Lacks x name π S σ τ) (hc : ¬ S c)
    (huser : (σ.nodes c).user = some x) (hlogged : (σ.nodes c).isLogged = false)
    (hfree : c ∉ σ.clientsOf x) (hadd : σ.addClient x c = some σ') : Lacks x name π S σ' τ := by
  cases (addClient_eq_some hadd).2
  exact { h with
    table := h.table.of_sameTable (sameTable_addClient hadd) ⟨rfl, fun _ ↦ rfl⟩
    clients := fun u hu ↦ by
      rw [addClient_clientsOf hadd, if_neg hu]
      exact h.clients u hu
    listed := fun u hu d hd ↦ by
      rw [addClient_clientsOf hadd, if_neg hu] at hd
      exact h.listed u hu d hd
    unlisted := unlisted_addClient hadd h.unlisted (findUser_mem h.table.found)
    named := fun d hd ↦ by
      rw [addClient_clientsOf hadd, if_pos rfl] at hd
      rcases List.mem_append.mp hd with hd | hd
      · exact h.named d hd
      · rw [List.mem_singleton.mp hd]
        exact ⟨hc, huser, hlogged⟩
    nodup := by
      rw [addClient_clientsOf hadd, if_pos rfl]
      exact List.concat_eq_append ▸ List.Nodup.concat hfree h.nodup }

/-- USER is answered alike, and afterwards the client is found in the one server only. -/
theorem bindUser_naming (h : Lacks x name π S σ τ) (hc : S c)
    (hname : name ≠ "anonymous".toList ∧ name ≠ "ftp".toList)
    (hlogged : (σ.nodes c).isLogged = false)
    (hunbound : (σ.userManager.users x).isEnable = true →
      UserManager.hasRoom (σ.userManager.users x) = true ∧ (∀ w ∈ σ.workers, w.client ≠ c) ∧
      ∀ u, c ∉ σ.clientsOf u) :
    ∃ S', Lacks x name π S' (σ.bindUser c name).1 (τ.bindUser (π c) name).1 ∧
      (τ.bindUser (π c) name).2 = (σ.bindUser c name).2 := by
  have hasks (ρ : FtpServer) : ρ.asksAnonymous name = false := by
    unfold asksAnonymous
    rw [decide_eq_false hname.1, decide_eq_false hname.2]
    exact Bool.and_false _
  have hunknown : τ.enabledUser name = none := by
    unfold enabledUser
    rw [h.table.unknown]
    rfl
  unfold bindUser
  rw [hasks, hasks, hunknown]
  split
  · exact ⟨S, h, rfl⟩
  · rw [if_neg Bool.false_ne_true, if_neg Bool.false_ne_true]
    dsimp only
    rw [setNode_self, setNode_self]
    dsimp only
    cases henabled : (σ.userManager.users x).isEnable with
    | false =>
      -- a disabled account is as good as none
      have hnone : σ.enabledUser name = none := by
        unfold enabledUser
        rw [h.table.found, Option.filter_some, henabled, if_neg Bool.false_ne_true]
      rw [hnone, h.nodes c hc]
      exact ⟨S, lacks_setNode h hc nofun, rfl⟩
    | true =>
      have hsome : σ.enabledUser name = some x := by
        unfold enabledUser
        rw [h.table.found, Option.filter_some, henabled, if_pos rfl]
      rcases hunbound henabled with ⟨hroom, hidle, hfree⟩
      rw [hsome]
      dsimp only
      cases hadd : addClient (σ.setNode c { σ.nodes c with user := some x }) x c with
      | none =>
        rw [addClient_eq_none, setNode_userManager, hroom] at hadd
        cases hadd
      | some σ' =>
        refine ⟨fun d ↦ S d ∧ d ≠ c, ?_, rfl⟩
        have hgone : ¬ (S c ∧ c ≠ c) := fun hS ↦ hS.2 rfl
        have hright := lacks_setNode_right (n := { τ.nodes (π c) with user := none })
          (lacks_forget h hidle hfree) fun d hd ↦ fun heq ↦ hd.2 (π.injective heq)
        have hleft := lacks_setNode_left (n := { σ.nodes c with user := some x }) hright hgone
          fun hmem ↦ absurd hmem (hfree x)
        apply lacks_addClient_left hleft hgone _ _ (hfree x) hadd
        · rw [setNode_self]
        · rw [setNode_self]
          exact hlogged

/-- Once it is logged out the client stands in no list. -/
theorem Unbound.logOut (h : Unbound x σ c)
    (hunlisted : ∀ u, u ∉ σ.userManager.ftpUserList → σ.clientsOf u = [])
    (hother : (σ.nodes c).user ≠ some x) {σ' : FtpServer} (hlogOut : σ.logOut c = .ok σ') :
    UserManager.hasRoom (σ'.userManager.users x) = true ∧ (∀ w ∈ σ'.workers, w.client ≠ c) ∧
      ∀ u, c ∉ σ'.clientsOf u := by
  have hcount (u : UserRef) : (σ.clientsOf u).count c ≤
      if (σ.nodes c).isLogged = true ∧ (σ.nodes c).user = some u then 1 else 0 := by
    by_cases hu : u ∈ σ.userManager.ftpUserList
    · exact h.listed u hu
    · rw [hunlisted u hu]
      exact Nat.zero_le _
  have hfree (u : UserRef) (hu : ¬((σ.nodes c).isLogged = true ∧ (σ.nodes c).user = some u)) :
      c ∉ σ.clientsOf u := by
    have hzero := hcount u
    rw [if_neg hu] at hzero
    exact List.count_eq_zero.mp (Nat.le_zero.mp hzero)
  rcases logOut_cases hlogOut with ⟨hlogged, rfl⟩ | ⟨hlogged, v, hv, rfl⟩
  · refine ⟨h.room, h.idle, fun u ↦ hfree u ?_⟩
    rw [hlogged]
    exact fun hu ↦ Bool.false_ne_true hu.1
  · have hvx : x ≠ v := fun heq ↦ hother (heq ▸ hv)
    refine ⟨?_, h.idle, fun u ↦ ?_⟩
    · have husers : ((σ.deleteClient v c).userManager.users x) = σ.userManager.users x :=
        UserManager.modify_users_of_ne σ.userManager
          (fun user ↦ { user with clientList := user.clientList.erase c }) hvx
      rw [setNode_userManager, husers]
      exact h.room
    · show c ∉ (σ.deleteClient v c).clientsOf u
      rw [deleteClient_clientsOf]
      split
      · -- the only entry there is has been taken out
        have hone := hcount v
        rw [if_pos ⟨hlogged, hv⟩] at hone
        rw [← List.count_eq_zero, List.count_erase_self]
        omega
      · rename_i huv
        exact hfree u fun hu ↦ huv (Option.some.inj (hu.2.symm.trans hv))

theorem runSwitch_naming (h : Lacks x name π S σ τ) (hc : S c)
    (hname : name ≠ "anonymous".toList ∧ name ≠ "ftp".toList) (hid : cmd.id = .USER)
    (harg : cmd.args = name)
    (hunbound : (σ.userManager.users x).isEnable = true → Unbound x σ c) :
    Agree (fun p q ↦ ∃ S', LacksAnswers x name π S' p q) (σ.runSwitch build env c cmd)
      (τ.runSwitch build env (π c) cmd) := by
  unfold runSwitch
  rw [hid, harg]
  dsimp only
  apply Agree.map (R := fun r r' ↦ ∃ S', Lacks x name π S' r.1 r'.1 ∧ r'.2 = r.2)
  · have hlogOut := logOut_lacks h hc
    unfold processUserCmd
    cases hσ : σ.logOut c with
    | error fault =>
      rw [hσ] at hlogOut
      rcases hlogOut.results with ⟨e, he, he'⟩ | ⟨_, _, hok, -⟩
      · cases he
        rw [he']
        exact Agree.error (ε := Fault) fault
      · cases hok
    | ok σ' =>
      rw [hσ] at hlogOut
      rcases hlogOut.results with ⟨_, herror, -⟩ | ⟨_, τ', hok, hτ, hlogged⟩
      · cases herror
      · cases hok
        rw [hτ]
        apply Agree.ok
        apply bindUser_naming hlogged hc hname
        · rcases logOut_cases hσ with ⟨hfalse, rfl⟩ | ⟨-, u, -, rfl⟩
          · exact hfalse
          · rw [setNode_self]
        · intro henabled
          rw [(logOut_frame hσ).isEnable] at henabled
          exact (hunbound henabled).logOut h.unlisted (h.elsewhere c hc) hσ
  · rintro ⟨σ', reply, ret⟩ ⟨τ', reply', ret'⟩ ⟨S', hserver, hsame⟩
    cases hsame
    exact ⟨S', hserver, rfl, rfl, rfl⟩

/-! ## A client that has named the account -/

theorem lacks_perform_named (h : Lacks x name π S σ τ)
    (hsocket : (τ.nodes b).ctrlSocket = (σ.nodes a).ctrlSocket) {effects : List Effect}
    (hjobs : ∀ f ∈ effects, jobOf f = none) :
    Lacks x name π S (effects.foldl (perform env a) σ) (effects.foldl (perform env b) τ) := by
  induction effects generalizing σ τ with
  | nil => exact h
  | cons f effects ih =>
    rcases List.forall_mem_cons.mp hjobs with ⟨hf, hjobs⟩
    apply ih _ _ hjobs
    · cases f with
      | startList cmd => cases hf
      | startRetrieve path => cases hf
      | startStore path => cases hf
      | handshake =>
        refine { h with connections := ?_ }
        show τ.connections.map _ = σ.connections.map _
        rw [h.connections, hsocket]
      | _ => exact h
    · rw [perform_nodes, perform_nodes, hsocket]

/-- The node `a` has named `x`, and `b` has just been made for the same connection. -/
structure Counterpart (x : UserRef) (π : Equiv.Perm ClientRef) (S : ClientRef → Prop)
    (σ τ : FtpServer) (a b : ClientRef) : Prop where
  named : a ∈ σ.clientsOf x
  fresh : ∀ c, S c → π c ≠ b
  ctrlSocket : (τ.nodes b).ctrlSocket = (σ.nodes a).ctrlSocket
  user : (τ.nodes b).user = none
  isAnonymous : (τ.nodes b).isAnonymous = false
  dataUseSsl : (τ.nodes b).dataUseSsl = false

theorem conclude_named (h : Lacks x name π S σ τ) (hab : Counterpart x π S σ τ a b)
    {o o' : Outcome} (hreply : o'.reply = o.reply) (heffects : o'.effects = o.effects)
    (hjobs : ∀ f ∈ o.effects, jobOf f = none) :
    LacksAnswers x name π S (σ.conclude env a o) (τ.conclude env b o') := by
  rcases h.named a hab.named with ⟨hS, huser, hlogged⟩
  refine ⟨?_, hreply, rfl, heffects⟩
  unfold conclude
  rw [heffects]
  apply lacks_perform_named _ _ hjobs
  · have hleft := lacks_setNode_left (n := { σ.nodes a with toSession := o.session }) h hS
      fun _ ↦ ⟨huser, hlogged⟩
    exact lacks_setNode_right hleft hab.fresh
  · unfold setSession
    rw [setNode_self, setNode_self]
    exact hab.ctrlSocket

theorem usesSsl_named (h : Lacks x name π S σ τ) (hab : Counterpart x π S σ τ a b) :
    τ.usesSsl b = σ.usesSsl a := by
  unfold usesSsl
  rw [h.connections, hab.ctrlSocket]

-- a wrong password takes the client out of the list, and the fresh one was in none
theorem processPasswordCmd_named (h : Lacks x name π S σ τ) (hab : Counterpart x π S σ τ a b)
    {password : WString} (hanonymous : (σ.nodes a).isAnonymous = false)
    (hpassword : password ≠ (σ.userManager.users x).userPassword) :
    Lacks x name π S (σ.processPasswordCmd a password).1 (τ.processPasswordCmd b password).1 ∧
      (τ.processPasswordCmd b password).2 = (σ.processPasswordCmd a password).2 := by
  rcases h.named a hab.named with ⟨hS, huser, hlogged⟩
  have hwrong : σ.passwordMatches a password = false := by
    unfold passwordMatches
    rw [huser]
    dsimp only
    rw [decide_eq_false hpassword, Bool.and_false]
  have hnobody : τ.passwordMatches b password = false := by
    unfold passwordMatches
    rw [hab.user]
  have hunbound : Lacks x name π S (σ.unbind a) (τ.unbind b) := by
    unfold unbind
    rw [huser, hab.user]
    dsimp only
    apply lacks_setNode_left (lacks_deleteClient_left h) hS
    intro hmem
    rw [deleteClient_clientsOf, if_pos rfl] at hmem
    exact absurd hmem (h.nodup.not_mem_erase)
  unfold processPasswordCmd
  rw [hanonymous, hab.isAnonymous, hwrong, hnobody]
  rw [if_neg Bool.false_ne_true, if_neg Bool.false_ne_true, if_neg Bool.false_ne_true,
    if_neg Bool.false_ne_true]
  split
  · exact ⟨hunbound, rfl⟩
  · exact ⟨hunbound, rfl⟩

theorem processAuthCmd_named (build : Build) (s t : Session) (sslContext useSsl : Bool)
    (arg : WString) :
    (t.processAuthCmd build sslContext useSsl arg).reply =
        (s.processAuthCmd build sslContext useSsl arg).reply ∧
      (t.processAuthCmd build sslContext useSsl arg).effects =
        (s.processAuthCmd build sslContext useSsl arg).effects ∧
      ∀ f ∈ (s.processAuthCmd build sslContext useSsl arg).effects, jobOf f = none := by
  have hanswer (code : Nat) (text : WString) :
      ∀ f ∈ (s.answer code text).effects, jobOf f = none := List.forall_mem_nil _
  unfold Session.processAuthCmd
  split
  · exact ⟨rfl, rfl, hanswer _ _⟩
  · split
    · split
      · exact ⟨rfl, rfl, hanswer _ _⟩
      · split
        · refine ⟨rfl, rfl, ?_⟩
          rw [List.forall_mem_cons, List.forall_mem_singleton]
          exact ⟨rfl, rfl⟩
        · exact ⟨rfl, rfl, hanswer _ _⟩
    · exact ⟨rfl, rfl, hanswer _ _⟩

/-- PROT answers by the level of protection that it finds. -/
theorem processProtCmd_named (build : Build) (useSsl : Bool) {s t : Session} {arg : WString}
    (hsame : arg = ['C'] ∨ arg = ['P'] → t.dataUseSsl = s.dataUseSsl) :
    (t.processProtCmd build useSsl arg).reply = (s.processProtCmd build useSsl arg).reply ∧
      (t.processProtCmd build useSsl arg).effects = [] ∧
      (s.processProtCmd build useSsl arg).effects = [] := by
  unfold Session.processProtCmd
  dsimp only
  split
  · exact ⟨rfl, rfl, rfl⟩
  · split
    · rename_i harg
      rw [hsame (.inl harg)]
      split
      · exact ⟨rfl, rfl, rfl⟩
      · exact ⟨rfl, rfl, rfl⟩
    · split
      · rename_i harg
        rw [hsame (.inr harg)]
        split
        · split
          · exact ⟨rfl, rfl, rfl⟩
          · split
            · exact ⟨rfl, rfl, rfl⟩
            · exact ⟨rfl, rfl, rfl⟩
        · exact ⟨rfl, rfl, rfl⟩
      · exact ⟨rfl, rfl, rfl⟩

/-- What a client that has named `x` may send is answered as a client is that has named nobody. -/
theorem runSwitch_named (h : Lacks x name π S σ τ) (hab : Counterpart x π S σ τ a b)
    (hdiscreet : Discreet build (σ.nodes a) cmd)
    (hpassword : cmd.id = .PASS → cmd.args ≠ (σ.userManager.users x).userPassword) :
    Agree (LacksAnswers x name π S) (σ.runSwitch build env a cmd)
      (τ.runSwitch build env b cmd) := by
  rcases hdiscreet with ⟨hgate, hnotUser, hpass, hprot, hsite⟩
  rcases cmd with ⟨id, args, hasArgs, validBeforeLogon⟩
  dsimp only at hgate hnotUser hpass hprot hsite hpassword
  have hplain (reply : Reply) : Agree (LacksAnswers x name π S)
      (.ok { server := σ, reply := reply }) (.ok { server := τ, reply := reply }) (ε := Fault) :=
    .ok ⟨h, rfl, rfl, rfl⟩
  cases id with
  | PASS =>
    rcases processPasswordCmd_named h hab (hpass rfl) (hpassword rfl) with ⟨hserver, hreply⟩
    exact .ok ⟨hserver, hreply, rfl, rfl⟩
  | AUTH =>
    show Agree _ (Except.ok (σ.conclude env a _)) (Except.ok (τ.conclude env b _))
    rw [h.sslContext, usesSsl_named h hab]
    have hauth := processAuthCmd_named build (σ.nodes a).toSession (τ.nodes b).toSession
      σ.sslContext (σ.usesSsl a) args
    exact .ok (conclude_named h hab hauth.1 hauth.2.1 hauth.2.2)
  | PROT =>
    show Agree _ (Except.ok (σ.conclude env a _)) (Except.ok (τ.conclude env b _))
    rw [usesSsl_named h hab]
    have hsame : args = ['C'] ∨ args = ['P'] →
        (τ.nodes b).toSession.dataUseSsl = (σ.nodes a).toSession.dataUseSsl :=
      fun harg ↦ hab.dataUseSsl.trans (hprot rfl harg).symm
    have hanswers := processProtCmd_named build (σ.usesSsl a) hsame
    apply Agree.ok
    apply conclude_named h hab hanswers.1 (hanswers.2.1.trans hanswers.2.2.symm)
    rw [hanswers.2.2]
    exact List.forall_mem_nil _
  | SITE =>
    unfold runSwitch sessionHandler
    dsimp only
    rw [hsite rfl, if_neg Bool.false_ne_true, if_neg Bool.false_ne_true]
    exact hplain _
  | QUIT | SYST | ADAT | PBSZ | FEAT | OPTS | HELP | CLNT => exact hplain _
  | USER => exact absurd rfl hnotUser
  | _ => exact absurd hgate (by decide)

/-! ## One event -/

/-- The command of a call that goes as far as the switch. -/
theorem parse_command {charSigned : Bool} {p q : RequestParser} {garbage cmd : Command}
    {data : List UInt8} {result : Tribool} {reply : Reply}
    (h : p.parse charSigned garbage data = .ok (q, result, cmd, reply))
    (htaken : ¬(result.ne .yes).taken = true) :
    commandTaken p.loggedon garbage (p.lineTaken charSigned data) = some cmd := by
  have hlogged : (p.receive charSigned data).loggedon = p.loggedon := by
    have hself : p = p.setStatus p.loggedon := rfl
    rw [hself, RequestParser.receive_setStatus]
    rfl
  unfold RequestParser.parse at h
  unfold RequestParser.lineTaken
  dsimp only at h
  cases hqueue : (p.receive charSigned data).recvLineBuffer with
  | nil =>
    rw [hqueue] at h
    cases h
    rfl
  | cons line lines =>
    rw [hqueue] at h
    dsimp only at h
    rw [hlogged] at h
    cases hcommand : RequestParser.getCommand p.loggedon line with
    | error fault =>
      rw [hcommand] at h
      cases h
    | ok r =>
      rcases r with ⟨cmd', reply'⟩
      rw [hcommand] at h
      dsimp only at h
      rw [List.head?_cons, commandTaken_some garbage hcommand]
      by_cases hid : cmd'.id = .invalid
      · rw [if_pos hid] at h
        cases h
        exact absurd rfl htaken
      · rw [if_neg hid] at h
        cases h
        exact if_neg hid

/-- A call of `process_command`, once the client node has been found or made. -/
def answerAt (build : Build) (chunk : Chunk) (ρ : FtpServer) (c : ClientRef) :
    Except Fault Answer :=
  match ((ρ.nodes c).requestParser.setStatus (ρ.nodes c).isLogged).parse build.charSigned
      chunk.garbage chunk.data with
  | .error fault => .error fault
  | .ok (parser, tribresult, cmd, ftpreply) =>
    if (tribresult.ne .yes).taken then .ok { server := ρ.setParser c parser, reply := ftpreply }
    else (ρ.setParser c parser).dispatch build chunk.env c cmd

theorem onChunk_eq (build : Build) (σ : FtpServer) (k : Connection) (chunk : Chunk) :
    onChunk build σ k chunk = answerAt build chunk (σ.clientFor k).1 (σ.clientFor k).2 := rfl

/-- Two answers, to a client that may have named `x` by then. -/
abbrev AnswersUnnoticed (x : UserRef) (name : WString) (p q : Answer) : Prop :=
  ∃ ϖ S', LacksAnswers x name ϖ S' p q

/-- The client is found, or made, in both servers. -/
theorem answerAt_both (h : Lacks x name π S σ τ) (hc : S c)
    (hname : name ≠ "anonymous".toList ∧ name ≠ "ftp".toList) {chunk : Chunk}
    (hunnoticed : ∀ cmd ∈ commandTaken (σ.nodes c).isLogged chunk.garbage
        (((σ.nodes c).requestParser.setStatus (σ.nodes c).isLogged).lineTaken build.charSigned
          chunk.data), cmd.id = .USER → cmd.args = name →
      (σ.userManager.users x).isEnable = true → Unbound x σ c) :
    Agree (AnswersUnnoticed x name) (answerAt build chunk σ c) (answerAt build chunk τ (π c)) := by
  unfold answerAt
  rw [h.nodes c hc]
  cases hparse : ((σ.nodes c).requestParser.setStatus (σ.nodes c).isLogged).parse build.charSigned
      chunk.garbage chunk.data with
  | error fault => exact .error fault
  | ok r =>
    rcases r with ⟨parser, result, cmd, reply⟩
    dsimp only
    have hstored : Lacks x name π S (σ.setParser c parser) (τ.setParser (π c) parser) := by
      unfold setParser
      rw [h.nodes c hc]
      exact lacks_setNode h hc (h.elsewhere c hc)
    by_cases htaken : (result.ne .yes).taken = true
    · rw [if_pos htaken, if_pos htaken]
      exact .ok ⟨π, S, hstored, rfl, rfl, rfl⟩
    · rw [if_neg htaken, if_neg htaken]
      have hcommand := parse_command hparse htaken
      by_cases hnames : cmd.id = .USER ∧ cmd.args = name
      · have hunbound : (σ.userManager.users x).isEnable = true →
            Unbound x (σ.setParser c parser) c := by
          intro henabled
          have hbefore := hunnoticed cmd hcommand hnames.1 hnames.2 henabled
          refine ⟨hbefore.room, hbefore.idle, fun u hu ↦ ?_⟩
          rw [setParser_nodes_self]
          exact hbefore.listed u hu
        apply (runSwitch_naming hstored hc hname hnames.1 hnames.2 hunbound).map
        rintro p q ⟨S', hanswers⟩
        exact ⟨π, S', { hanswers with
          effects := congrArg (Effect.switch cmd :: ·) hanswers.effects }⟩
      · have harg : cmd.id = .USER → cmd.args ≠ name := fun hid harg ↦ hnames ⟨hid, harg⟩
        exact (dispatch_lacks hstored hc hname.1 harg).mono fun hanswers ↦ ⟨π, S, hanswers⟩

/-- The client has named `x` and is made anew where there is no `x`. -/
theorem answerAt_named (h : Lacks x name π S σ τ) (hab : Counterpart x π S σ τ a b)
    (hparser : (τ.nodes b).requestParser = {}) (hlogged : (τ.nodes b).isLogged = false)
    {chunk : Chunk}
    (hforget : Forgettable build (σ.nodes a) (commandTaken (σ.nodes a).isLogged chunk.garbage
      (((σ.nodes a).requestParser.setStatus (σ.nodes a).isLogged).lineTaken build.charSigned
        chunk.data)))
    (hpassword : ∀ cmd ∈ commandTaken (σ.nodes a).isLogged chunk.garbage
        (((σ.nodes a).requestParser.setStatus (σ.nodes a).isLogged).lineTaken build.charSigned
          chunk.data), cmd.id = .PASS → cmd.args ≠ (σ.userManager.users x).userPassword) :
    Agree (LacksAnswers x name π S) (answerAt build chunk σ a) (answerAt build chunk τ b) := by
  rcases h.named a hab.named with ⟨hS, huser, hunlogged⟩
  have hempty : (σ.nodes a).requestParser.setStatus (σ.nodes a).isLogged =
      (τ.nodes b).requestParser.setStatus (τ.nodes b).isLogged := by
    rw [hparser, hlogged, hunlogged]
    unfold RequestParser.setStatus
    rw [hforget.recvLineBuffer, hforget.recvBuffer, hforget.telnetSkip]
  unfold answerAt
  rw [← hempty]
  cases hparse : ((σ.nodes a).requestParser.setStatus (σ.nodes a).isLogged).parse build.charSigned
      chunk.garbage chunk.data with
  | error fault => exact .error fault
  | ok r =>
    rcases r with ⟨parser, result, cmd, reply⟩
    dsimp only
    have hstored : Lacks x name π S (σ.setParser a parser) (τ.setParser b parser) := by
      have hleft := lacks_setNode_left (n := { σ.nodes a with requestParser := parser }) h hS
        fun _ ↦ ⟨huser, hunlogged⟩
      exact lacks_setNode_right hleft hab.fresh
    by_cases htaken : (result.ne .yes).taken = true
    · rw [if_pos htaken, if_pos htaken]
      exact .ok ⟨hstored, rfl, rfl, rfl⟩
    · rw [if_neg htaken, if_neg htaken]
      have hcommand := parse_command hparse htaken
      have hab' : Counterpart x π S (σ.setParser a parser) (τ.setParser b parser) a b := by
        refine ⟨hab.named, hab.fresh, ?_, ?_, ?_, ?_⟩
        all_goals rw [setParser_nodes_self]
        · rw [setParser_nodes_self]
          exact hab.ctrlSocket
        · exact hab.user
        · exact hab.isAnonymous
        · exact hab.dataUseSsl
      have hdiscreet : Discreet build ((σ.setParser a parser).nodes a) cmd := by
        rw [setParser_nodes_self]
        exact { hforget.discreet cmd hcommand with }
      apply (runSwitch_named hstored hab' hdiscreet (hpassword cmd hcommand)).map
      exact fun hanswers ↦ { hanswers with
        effects := congrArg (Effect.switch cmd :: ·) hanswers.effects }

theorem onChunk_unnoticed (h : Lacks x name π S σ τ) (hσ : Consistent σ) (hτ : Consistent τ)
    (hname : name ≠ "anonymous".toList ∧ name ≠ "ftp".toList) {s : Handle} {chunk : Chunk}
    (houtside : Outside build x σ (.receive s chunk))
    (hunnoticed : Unnoticed build x name σ (.receive s chunk)) {k : Connection}
    (hk : σ.connections.find? (·.handle = s) = some k) :
    Agree (AnswersUnnoticed x name) (onChunk build σ k chunk) (onChunk build τ k chunk) := by
  have hpassword := houtside k hk
  have hunnoticed := hunnoticed k hk
  rw [onChunk_eq, onChunk_eq]
  unfold chunkCommand parserFor nodeFor at hpassword hunnoticed
  cases findClient_lacks h hσ hτ k.handle with
  | @named a ha hfind hnone =>
    have hfor : σ.clientFor k = (σ, a) := by
      unfold clientFor
      rw [hfind]
    rw [hfor] at hpassword hunnoticed ⊢
    rw [if_pos ha] at hunnoticed
    rcases clientFor_cases τ k with ⟨c, hc, -⟩ | ⟨-, hfor'⟩
    · rw [hnone] at hc
      cases hc
    · have hnode : (τ.clientFor k).1.nodes (τ.clientFor k).2 = freshNode k := by
        rw [hfor']
        exact setNode_self ..
      have hremade : Lacks x name π S σ (τ.clientFor k).1 := by
        rw [hfor']
        exact lacks_freshRight h k
      have hab : Counterpart x π S σ (τ.clientFor k).1 a (τ.clientFor k).2 := by
        constructor
        case named => exact ha
        case fresh =>
          rw [hfor']
          exact fun c hc ↦ Nat.ne_of_lt (h.allocated c hc).2
        case ctrlSocket => rw [hnode, (findClient_eq_some hfind).2, freshNode]
        all_goals rw [hnode, freshNode]
      have hanswers := answerAt_named hremade hab (by rw [hnode, freshNode])
        (by rw [hnode, freshNode]) hunnoticed
        fun cmd hcmd hid ↦ hpassword cmd hcmd hid (h.named a ha).2.1
      exact hanswers.mono fun hanswers ↦ ⟨π, S, hanswers⟩
  | @both c hc hfind hfind' =>
    have hfor : σ.clientFor k = (σ, c) := by
      unfold clientFor
      rw [hfind]
    have hfor' : τ.clientFor k = (τ, π c) := by
      unfold clientFor
      rw [hfind']
    rw [hfor] at hunnoticed ⊢
    rw [if_neg fun hmem ↦ (h.named c hmem).1 hc] at hunnoticed
    rw [hfor']
    exact answerAt_both h hc hname hunnoticed
  | neither hnone hnone' =>
    rcases lacks_fresh h hσ k with ⟨ϖ, hϖ, hfresh⟩
    rcases clientFor_cases σ k with ⟨c, hc, -⟩ | ⟨-, hfor⟩
    · rw [hnone] at hc
      cases hc
    · rcases clientFor_cases τ k with ⟨c, hc, -⟩ | ⟨-, hfor'⟩
      · rw [hnone'] at hc
        cases hc
      · have hnew : σ.nextClient ∉ σ.clientsOf x := fun hmem ↦
          Nat.lt_irrefl _ (x_listed h hσ hmem)
        have hmade : (τ.clientFor k).2 = ϖ σ.nextClient := by rw [hfor', hϖ]
        rw [hfor] at hunnoticed ⊢
        rw [if_neg hnew] at hunnoticed
        rw [hmade, hfor']
        exact answerAt_both hfresh (.inr rfl) hname hunnoticed

theorem afterCommand_lacks {p q : Answer} (h : LacksAnswers x name π S p q)
    (hp : Consistent p.server) (hq : Consistent q.server) (k : Connection) :
    Agree (LacksAnswers x name π S) (afterCommand k p) (afterCommand k q) := by
  have hreply : replyEffects q = replyEffects p := by
    unfold replyEffects
    rw [h.reply]
  have heffects : q.effects ++ replyEffects q = p.effects ++ replyEffects p := by
    rw [h.effects, hreply]
  rw [afterCommand_eq, afterCommand_eq, h.ret]
  apply Agree.ite
  · exact fun _ ↦ .ok { h with ret := rfl, effects := heffects }
  · intro _
    apply (endWork_lacks h.server hp hq k.handle).map
    exact fun hended ↦ { h with
      server := lacks_closeConnection hended k.handle, ret := rfl, effects := heffects }

theorem exec_nowhere {s : Handle} {chunk : Chunk}
    (hk : σ.connections.find? (·.handle = s) = none) :
    σ.exec (onChunk build) (.receive s chunk) = .ok (σ, []) := by
  rw [exec]
  split
  · rfl
  · rename_i k hk'
    cases hk.symm.trans hk'

theorem exec_found {s : Handle} {chunk : Chunk} {k : Connection}
    (hk : σ.connections.find? (·.handle = s) = some k) :
    σ.exec (onChunk build) (.receive s chunk) =
      ((onChunk build σ k chunk).bind (afterCommand k)).map fun p ↦ (p.server, p.effects) := by
  rw [exec]
  split
  · rename_i hk'
    cases hk.symm.trans hk'
  · rename_i k' hk'
    cases hk.symm.trans hk'
    rfl

/-- One event leads to two such servers again, and has the same effects in both. -/
theorem exec_unnoticed (h : Lacks x name π S σ τ) (hσ : Consistent σ) (hτ : Consistent τ)
    (hname : name ≠ "anonymous".toList ∧ name ≠ "ftp".toList) {e : Event Chunk}
    (houtside : Outside build x σ e) (hunnoticed : Unnoticed build x name σ e) :
    Agree (fun r r' ↦ (∃ ϖ S', Lacks x name ϖ S' r.1 r'.1) ∧ r'.2 = r.2)
      (σ.exec (onChunk build) e) (τ.exec (onChunk build) e) := by
  cases e with
  | connect k =>
    unfold exec
    rw [h.connections]
    apply Agree.ite
    · exact fun _ ↦ .ok ⟨⟨π, S, h⟩, rfl⟩
    · intro _
      have hconnected : Lacks x name π S { σ with connections := k :: σ.connections }
          { τ with connections := k :: σ.connections } := { h with connections := rfl }
      exact .ok ⟨⟨π, S, hconnected⟩, rfl⟩
  | receive s chunk =>
    have hconnections : τ.connections.find? (·.handle = s) = σ.connections.find? (·.handle = s) :=
      congrArg (List.find? _) h.connections
    cases hk : σ.connections.find? (·.handle = s) with
    | none =>
      rw [exec_nowhere hk, exec_nowhere (hconnections.trans hk)]
      exact .ok ⟨⟨π, S, h⟩, rfl⟩
    | some k =>
      have hanswers := onChunk_unnoticed h hσ hτ hname houtside hunnoticed hk
      rw [exec_found hk, exec_found (hconnections.trans hk)]
      rcases hanswers.results with ⟨fault, hp, hq⟩ | ⟨p, q, hp, hq, ϖ, S', hpq⟩
      · rw [hp, hq]
        exact Agree.error (ε := Fault) fault
      · rcases onChunk_serving build hp with ⟨_, _, _, hhandled⟩
        rcases onChunk_serving build hq with ⟨_, _, _, hhandled'⟩
        have hafter := afterCommand_lacks hpq (hhandled.consistent hσ).1
          (hhandled'.consistent hτ).1 k
        rw [hp, hq]
        exact hafter.map fun hab ↦ ⟨⟨ϖ, S', hab.server⟩, hab.effects⟩
  | close s =>
    unfold exec
    rw [h.connections]
    apply Agree.ite
    · intro _
      apply (endWork_lacks h hσ hτ s).map
      intro σ' τ' hended
      have hclosed := lacks_closeConnection hended s
      exact ⟨⟨π, S, hclosed⟩, rfl⟩
    · exact fun _ ↦ .ok ⟨⟨π, S, h⟩, rfl⟩
  | worker i act env =>
    exact (runWorker_lacks h env i act).mono fun hresult ↦ ⟨⟨π, S, hresult.1⟩, hresult.2⟩
  | admin op env => exact houtside.elim

theorem addressee_lacks (h : Lacks x name π S σ τ) (e : Event Chunk) :
    τ.addressee e = σ.addressee e := by
  cases e with
  | worker i act env =>
    show τ.workers[i]?.map _ = σ.workers[i]?.map _
    rw [h.workers, List.getElem?_map, Option.map_map]
    cases hi : σ.workers[i]? with
    | none => rfl
    | some w =>
      have hw : S w.client := h.working w (List.mem_of_getElem? hi)
      show some (τ.nodes (π w.client)).ctrlSocket = some (σ.nodes w.client).ctrlSocket
      rw [h.nodes w.client hw]
  | _ => rfl

/-- The account `x` is in the one server only, and nobody has noticed. -/
structure Indistinct (x : UserRef) (name : WString) (σ τ : FtpServer) : Prop where
  lacks : ∃ π S, Lacks x name π S σ τ
  consistent : Consistent σ
  consistent' : Consistent τ

theorem heard_same (hname : name ≠ "anonymous".toList ∧ name ≠ "ftp".toList) (e : Event Chunk)
    (h : Indistinct x name σ τ) (hevent : Outside build x σ e ∧ Unnoticed build x name σ e) :
    SameStep (heard build) (Indistinct x name) σ τ e := by
  rcases h with ⟨⟨π, S, h⟩, hσ, hτ⟩
  have hresults := (exec_unnoticed h hσ hτ hname hevent.1 hevent.2).results
  rcases hresults with ⟨fault, hp, hq⟩ | ⟨p, q, hp, hq, hlacks, heffects⟩
  · have hdown {ρ : FtpServer} (hfault : ρ.exec (onChunk build) e = .error fault) :
        ρ.heard build e = ((none, []), none) := by
      unfold heard
      rw [hfault]
    exact .of_eq (hdown hp) (hdown hq) .none
  · have hgoesOn {ρ : FtpServer} {r : FtpServer × List Effect}
        (hok : ρ.exec (onChunk build) e = .ok r) :
        ρ.heard build e = ((ρ.addressee e, sentTexts r.2), some r.1) := by
      unfold heard
      rw [hok]
    have hheard := hgoesOn hq
    rw [addressee_lacks h, heffects] at hheard
    refine .of_eq (hgoesOn hp) hheard (.some ⟨hlacks, ?_, ?_⟩)
    · exact exec_consistent (onChunk_serving build) hσ hp
    · exact exec_consistent (onChunk_serving build) hτ hq

/-! ## Whole runs -/

/-- The same server, with the account `x` and without it. -/
theorem initial_indistinct {m : UserManager} (hσ : Initial σ)
    (hfound : σ.userManager.findUser name = some x) (hm : σ.userManager.deleteUser name = .ok m)
    (hunknown : m.findUser name = none) (hname : name ≠ "anonymous".toList) :
    Indistinct x name σ { σ with userManager := m } := by
  have hdeleted : m = { σ.userManager.deleteAllClient x with
      ftpUserList := σ.userManager.ftpUserList.erase x } := by
    unfold UserManager.deleteUser at hm
    rw [hfound] at hm
    exact (Except.ok.inj hm).symm
  have hlist : m.ftpUserList = σ.userManager.ftpUserList.erase x := by rw [hdeleted]
  have haccount (u : UserRef) : (m.users u).account = (σ.userManager.users u).account := by
    rw [hdeleted]
    exact modify_clientList_account σ.userManager x (fun _ ↦ []) u
  have hclients (u : UserRef) : (m.users u).clientList = [] := by
    let f : UserNode → UserNode := fun user ↦ { user with clientList := [] }
    rw [hdeleted]
    show ((σ.userManager.modify x f).users u).clientList = []
    by_cases hu : u = x
    · rw [hu, UserManager.modify_users_self]
    · rw [UserManager.modify_users_of_ne _ _ hu]
      exact hσ.noClients u
  have htable : σ.userManager.Lacks x name m := ⟨hlist, hσ.nodup, haccount, hfound, hunknown⟩
  have hinitial : Initial { σ with userManager := m } :=
    { hσ with
      noClients := hclients
      listed := fun u hu ↦ by
        have hnext : m.nextUser = σ.userManager.nextUser := by
          rw [hdeleted]
          rfl
        rw [hlist] at hu
        rw [hnext]
        exact hσ.listed u (List.mem_of_mem_erase hu)
      nodup := by
        rw [hlist]
        exact hσ.nodup.erase x
      anonymous := fun hallowed ↦ by
        rw [htable.findUser hname.symm]
        exact hσ.anonymous hallowed }
  refine ⟨⟨Equiv.refl _, fun _ ↦ False, ?_⟩, hσ.consistent, hinitial.consistent⟩
  have hnobody (u : UserRef) : σ.clientsOf u = [] := hσ.noClients u
  constructor
  case table => exact htable
  case clients =>
    intro u _
    rw [hnobody u]
    exact hclients u
  case listed =>
    intro u _ c hc
    rw [hnobody u] at hc
    cases hc
  case unlisted => exact fun u _ ↦ hnobody u
  case workers =>
    show σ.workers = _
    rw [hσ.noWorkers]
    rfl
  case working =>
    intro w hw
    rw [hσ.noWorkers] at hw
    cases hw
  case nodes => exact fun _ ↦ False.elim
  case allocated => exact fun _ ↦ False.elim
  case elsewhere => exact fun _ ↦ False.elim
  case named =>
    intro c hc
    rw [hnobody x] at hc
    cases hc
  case nodup =>
    rw [hnobody x]
    exact List.nodup_nil
  all_goals rfl

/-- From the start of the server on, the replies to any events are the same whether or not there is
an account `x`, as long as nobody gives its password and what is received leaves no trace. -/
theorem userNames_unprobed {m : UserManager} {events : List (Event Chunk)} (hσ : Initial σ)
    (hfound : σ.userManager.findUser name = some x) (hm : σ.userManager.deleteUser name = .ok m)
    (hunknown : m.findUser name = none)
    (hname : name ≠ "anonymous".toList ∧ name ≠ "ftp".toList)
    (hall : Along (heard build)
      (fun ρ e ↦ Outside build x ρ e ∧ Unnoticed build x name ρ e) σ events) :
    observe (heard build) σ events = observe (heard build) { σ with userManager := m } events :=
  observe_eq_of_related_along (fun e h hevent ↦ heard_same hname e h hevent)
    (initial_indistinct hσ hfound hm hunknown hname.1) hall

end Lacks

end FtpServer

namespace Sample

/-- The user table without bob. -/
def tableWithoutBob : UserManager :=
  { server.userManager.deleteAllClient 1 with ftpUserList := [0] }

/-- A user name and a wrong password, and then the same without a user. -/
def wrongPassword : List (Event Chunk) :=
  [.connect connection, chunk "USER bob\r\n", chunk "PASS x\r\n", chunk "PASS x\r\n"]

def twoLevels : List (Event Chunk) :=
  [.connect connection, chunk "USER bob\r\n", chunk "PROT P\r\n", chunk "PROT P\r\n"]

end Sample

namespace FtpServer

/-- A user name and a wrong password tell nothing about bob. -/
theorem userNames_unprobed_bob :
    observe (heard {}) Sample.server Sample.wrongPassword =
      observe (heard {}) { Sample.server with userManager := Sample.tableWithoutBob }
        Sample.wrongPassword := by
  have hfound : Sample.server.userManager.findUser "bob".toList = some 1 := by decide +kernel
  have hunknown : Sample.tableWithoutBob.findUser "bob".toList = none := by decide +kernel
  exact userNames_unprobed Sample.initial hfound rfl hunknown (by decide) (by decide +kernel)

/-- Nobody gives a password.  The second PROT is refused where there is a bob, since only there the
first one is remembered. -/
theorem userNames_probed : Initial Sample.server ∧
    Sample.server.userManager.findUser "bob".toList = some 1 ∧
    Sample.server.userManager.deleteUser "bob".toList = .ok Sample.tableWithoutBob ∧
    Sample.tableWithoutBob.findUser "bob".toList = none ∧
    Along (heard {}) (Outside {} 1) Sample.server Sample.twoLevels ∧
    observe (heard {}) Sample.server Sample.twoLevels ≠
      observe (heard {}) { Sample.server with userManager := Sample.tableWithoutBob }
        Sample.twoLevels := by
  refine ⟨Sample.initial, by decide +kernel, rfl, by decide +kernel, ?_, ?_⟩
  · decide +kernel
  · decide +kernel

end FtpServer

end YFtp
