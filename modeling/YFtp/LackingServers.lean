import Mathlib.Logic.Equiv.Basic
import YFtp.Theory.Agreement
import YFtp.Registry

/-!
# Servers with one account less

Two servers whose user tables differ in one account, which only one of them has.  The client nodes
of both correspond under a renaming of their addresses, except those that stand in the client list
of that account.  Every command of a client outside that list is answered alike by both and leaves
two such servers again.
-/

namespace YFtp

open Theory

/-! ## The user tables -/

/-- The second user table lacks the account `x`, whose name is `name`. -/
structure UserManager.Lacks (x : UserRef) (name : WString) (m m' : UserManager) : Prop where
  ftpUserList : m'.ftpUserList = m.ftpUserList.erase x
  nodup : m.ftpUserList.Nodup
  account : ∀ u, (m'.users u).account = (m.users u).account
  found : m.findUser name = some x
  unknown : m'.findUser name = none

namespace UserManager

variable {x : UserRef} {name : WString} {m m' m₁ m₁' : UserManager}

/-- The same users with the same accounts; their clients may be others. -/
structure SameTable (m m₁ : UserManager) : Prop where
  ftpUserList : m₁.ftpUserList = m.ftpUserList
  account : ∀ u, (m₁.users u).account = (m.users u).account

theorem userName_of_account {u v : UserNode} (h : u.account = v.account) : u.userName = v.userName := by
  have hname : u.account.userName = v.account.userName := congrArg UserNode.userName h
  exact hname

theorem SameTable.findUser (h : SameTable m m₁) (n : WString) :
    m₁.findUser n = m.findUser n := by
  unfold UserManager.findUser
  rw [h.ftpUserList]
  congr 1
  funext u
  rw [userName_of_account (h.account u)]

theorem Lacks.of_sameTable (h : Lacks x name m m') (hm : SameTable m m₁)
    (hm' : SameTable m' m₁') : Lacks x name m₁ m₁' where
  ftpUserList := by rw [hm.ftpUserList, hm'.ftpUserList, h.ftpUserList]
  nodup := by rw [hm.ftpUserList]; exact h.nodup
  account u := by rw [hm.account, hm'.account, h.account]
  found := by rw [hm.findUser]; exact h.found
  unknown := by rw [hm'.findUser]; exact h.unknown

theorem find?_erase {α : Type} [DecidableEq α] {p : α → Bool} {a : α} (ha : p a = false)
    (xs : List α) : (xs.erase a).find? p = xs.find? p := by
  induction xs with
  | nil => rfl
  | cons y ys ih =>
    by_cases hy : y = a
    · rw [hy, List.erase_cons_head, List.find?_cons_of_neg (by rw [ha]; exact Bool.false_ne_true)]
    · rw [List.erase_cons_tail (by simpa using hy), List.find?_cons, List.find?_cons, ih]

/-- Every other name is found alike. -/
theorem Lacks.findUser (h : Lacks x name m m') {n : WString} (hn : n ≠ name) :
    m'.findUser n = m.findUser n := by
  have hx : (m.users x).userName = name := FtpServer.findUser_name h.found
  unfold UserManager.findUser
  rw [h.ftpUserList, find?_erase (by rw [userName_of_account (h.account x), hx]; simpa using hn.symm)]
  congr 1
  funext u
  rw [userName_of_account (h.account u)]

theorem Lacks.findUser_ne (h : Lacks x name m m') {n : WString} (hn : n ≠ name) :
    m.findUser n ≠ some x := by
  intro hfound
  exact hn ((FtpServer.findUser_name hfound).symm.trans (FtpServer.findUser_name h.found))

end UserManager

/-! ## The servers -/

/-- `τ` goes through the same as `σ` but lacks the account `x`.  The client nodes in `S` correspond
to those that `π` maps them to; they are all that stand in other lists or that a worker runs for. -/
structure FtpServer.Lacks (x : UserRef) (name : WString) (π : Equiv.Perm ClientRef)
    (S : ClientRef → Prop) (σ τ : FtpServer) : Prop where
  table : σ.userManager.Lacks x name τ.userManager
  clients : ∀ u, u ≠ x → τ.clientsOf u = (σ.clientsOf u).map π
  listed : ∀ u, u ≠ x → ∀ c ∈ σ.clientsOf u, S c
  unlisted : ∀ u, u ∉ σ.userManager.ftpUserList → σ.clientsOf u = []
  workers : τ.workers = σ.workers.map fun w ↦ { w with client := π w.client }
  working : ∀ w ∈ σ.workers, S w.client
  nodes : ∀ c, S c → τ.nodes (π c) = σ.nodes c
  allocated : ∀ c, S c → c < σ.nextClient ∧ π c < τ.nextClient
  elsewhere : ∀ c, S c → (σ.nodes c).user ≠ some x
  named : ∀ c ∈ σ.clientsOf x, ¬ S c ∧ (σ.nodes c).user = some x ∧ (σ.nodes c).isLogged = false
  nodup : (σ.clientsOf x).Nodup
  isAllowAnonymous : τ.isAllowAnonymous = σ.isAllowAnonymous
  connections : τ.connections = σ.connections
  dataPorts : τ.dataPorts = σ.dataPorts
  sslContext : τ.sslContext = σ.sslContext

namespace FtpServer

section Lacks

variable {build : Build} {env : Env} {x u : UserRef} {name arg : WString}
  {π : Equiv.Perm ClientRef} {S : ClientRef → Prop} {σ τ : FtpServer} {c : ClientRef}
  {cmd : Command} {n : ClientNode}

theorem lacks_setNode (h : Lacks x name π S σ τ) (hc : S c) (hn : n.user ≠ some x) :
    Lacks x name π S (σ.setNode c n) (τ.setNode (π c) n) :=
  { h with
    nodes := fun d hd ↦ by
      by_cases hdc : d = c
      · rw [hdc, setNode_self, setNode_self]
      · rw [setNode_of_ne _ _ hdc, setNode_of_ne _ _ (fun heq ↦ hdc (π.injective heq)), h.nodes d hd]
    elsewhere := fun d hd ↦ by
      by_cases hdc : d = c
      · rw [hdc, setNode_self]
        exact hn
      · rw [setNode_of_ne _ _ hdc]
        exact h.elsewhere d hd
    named := fun d hd ↦ by
      have hnamed := h.named d hd
      have hdc : d ≠ c := fun heq ↦ hnamed.1 (heq ▸ hc)
      rw [setNode_of_ne _ _ hdc]
      exact hnamed }

theorem lacks_setSession (h : Lacks x name π S σ τ) (hc : S c) (s : Session) :
    Lacks x name π S (σ.setSession c s) (τ.setSession (π c) s) := by
  unfold setSession
  rw [h.nodes c hc]
  exact lacks_setNode h hc (h.elsewhere c hc)

theorem sameTable_deleteClient (σ : FtpServer) (u : UserRef) (c : ClientRef) :
    σ.userManager.SameTable (σ.deleteClient u c).userManager :=
  ⟨(deleteClient_frame σ u c).ftpUserList, (deleteClient_frame σ u c).account⟩

theorem sameTable_addClient {σ' : FtpServer} (h : σ.addClient u c = some σ') :
    σ.userManager.SameTable σ'.userManager :=
  ⟨(addClient_frame h).ftpUserList, (addClient_frame h).account⟩

theorem unlisted_deleteClient (h : ∀ u, u ∉ σ.userManager.ftpUserList → σ.clientsOf u = [])
    (v : UserRef) (hv : v ∉ (σ.deleteClient u c).userManager.ftpUserList) :
    (σ.deleteClient u c).clientsOf v = [] := by
  rw [deleteClient_clientsOf]
  split
  · rename_i hvu
    rw [← hvu, h v hv, List.erase_nil]
  · exact h v hv

theorem lacks_deleteClient (h : Lacks x name π S σ τ) (hu : u ≠ x) :
    Lacks x name π S (σ.deleteClient u c) (τ.deleteClient u (π c)) :=
  { h with
    table := h.table.of_sameTable (sameTable_deleteClient σ u c) (sameTable_deleteClient τ u (π c))
    clients := fun v hv ↦ by
      rw [deleteClient_clientsOf, deleteClient_clientsOf]
      split
      · rw [h.clients u hu, List.map_erase π.injective]
      · exact h.clients v hv
    listed := fun v hv d hd ↦ by
      rw [deleteClient_clientsOf] at hd
      split at hd
      · exact h.listed u hu d (List.mem_of_mem_erase hd)
      · exact h.listed v hv d hd
    unlisted := unlisted_deleteClient h.unlisted
    named := fun d hd ↦ by
      rw [deleteClient_clientsOf, if_neg hu.symm] at hd
      exact h.named d hd
    nodup := by
      rw [deleteClient_clientsOf, if_neg hu.symm]
      exact h.nodup }

theorem hasRoom_congr {u v : UserNode} (haccount : u.account = v.account)
    (hlength : u.clientList.length = v.clientList.length) :
    UserManager.hasRoom u = UserManager.hasRoom v := by
  have hmax : u.account.maxClientNum = v.account.maxClientNum :=
    congrArg UserNode.maxClientNum haccount
  have hmax : u.maxClientNum = v.maxClientNum := hmax
  unfold UserManager.hasRoom
  rw [hmax, hlength]

theorem unlisted_addClient {σ' : FtpServer} (hadd : σ.addClient u c = some σ')
    (h : ∀ u, u ∉ σ.userManager.ftpUserList → σ.clientsOf u = [])
    (hlisted : u ∈ σ.userManager.ftpUserList) (v : UserRef)
    (hv : v ∉ σ'.userManager.ftpUserList) : σ'.clientsOf v = [] := by
  rw [(addClient_frame hadd).ftpUserList] at hv
  have hvu : v ≠ u := fun heq ↦ hv (heq ▸ hlisted)
  rw [addClient_clientsOf hadd, if_neg hvu]
  exact h v hv

theorem lacks_addClient (h : Lacks x name π S σ τ) (hu : u ≠ x)
    (hlisted : u ∈ σ.userManager.ftpUserList) (hc : S c) :
    Option.Rel (Lacks x name π S) (σ.addClient u c) (τ.addClient u (π c)) := by
  have hroom : UserManager.hasRoom (τ.userManager.users u) =
      UserManager.hasRoom (σ.userManager.users u) := by
    apply hasRoom_congr (h.table.account u)
    have hlength := congrArg List.length (h.clients u hu)
    rw [List.length_map] at hlength
    exact hlength
  cases hσ : σ.addClient u c with
  | none =>
    have hτ : τ.addClient u (π c) = none := by
      rw [addClient_eq_none] at hσ ⊢
      rw [hroom, hσ]
    rw [hτ]
    exact .none
  | some σ' =>
    cases hτ : τ.addClient u (π c) with
    | none =>
      rw [addClient_eq_none, hroom, (addClient_eq_some hσ).1] at hτ
      cases hτ
    | some τ' =>
      apply Option.Rel.some
      cases (addClient_eq_some hσ).2
      cases (addClient_eq_some hτ).2
      exact { h with
        table := h.table.of_sameTable (sameTable_addClient hσ) (sameTable_addClient hτ)
        clients := fun v hv ↦ by
          rw [addClient_clientsOf hσ, addClient_clientsOf hτ]
          split
          · rw [h.clients u hu, List.map_append]
            rfl
          · exact h.clients v hv
        listed := fun v hv d hd ↦ by
          rw [addClient_clientsOf hσ] at hd
          split at hd
          · rcases List.mem_append.mp hd with hd | hd
            · exact h.listed u hu d hd
            · rw [List.mem_singleton.mp hd]
              exact hc
          · exact h.listed v hv d hd
        unlisted := unlisted_addClient hσ h.unlisted hlisted
        named := fun d hd ↦ by
          rw [addClient_clientsOf hσ, if_neg hu.symm] at hd
          exact h.named d hd
        nodup := by
          rw [addClient_clientsOf hσ, if_neg hu.symm]
          exact h.nodup }

/-! ## Commands -/

theorem lacks_perform (h : Lacks x name π S σ τ) (hc : S c) (effect : Effect) :
    Lacks x name π S (perform env c σ effect) (perform env (π c) τ effect) := by
  have hstarts (job : Job) : Lacks x name π S { σ with workers := σ.workers ++ [⟨c, job⟩] }
      { τ with workers := τ.workers ++ [⟨π c, job⟩] } := by
    refine { h with workers := ?_, working := ?_ }
    · show τ.workers ++ [Worker.mk (π c) job] = (σ.workers ++ [Worker.mk c job]).map _
      rw [List.map_append, h.workers]
      rfl
    · intro w hw
      rcases List.mem_append.mp hw with hw | hw
      · exact h.working w hw
      · rw [List.mem_singleton.mp hw]
        exact hc
  cases effect with
  | startList cmd => exact hstarts _
  | startRetrieve path => exact hstarts _
  | startStore path => exact hstarts _
  | handshake =>
    refine { h with connections := ?_ }
    show τ.connections.map _ = σ.connections.map _
    rw [h.connections, h.nodes c hc]
  | _ => exact h

theorem lacks_foldl_perform (h : Lacks x name π S σ τ) (hc : S c) (effects : List Effect) :
    Lacks x name π S (effects.foldl (perform env c) σ) (effects.foldl (perform env (π c)) τ) := by
  induction effects generalizing σ τ with
  | nil => exact h
  | cons effect effects ih => exact ih (lacks_perform h hc effect)

/-- Two answers to a command. -/
structure LacksAnswers (x : UserRef) (name : WString) (π : Equiv.Perm ClientRef)
    (S : ClientRef → Prop) (a b : Answer) : Prop where
  server : Lacks x name π S a.server b.server
  reply : b.reply = a.reply
  ret : b.ret = a.ret
  effects : b.effects = a.effects

theorem lacks_conclude (h : Lacks x name π S σ τ) (hc : S c) (o : Outcome) :
    LacksAnswers x name π S (σ.conclude env c o) (τ.conclude env (π c) o) :=
  ⟨lacks_foldl_perform (lacks_setSession h hc o.session) hc o.effects, rfl, rfl, rfl⟩

/-- No handler looks at the clients of the user. -/
theorem sessionHandler_account {σ' : FtpServer} {c' : ClientRef}
    (hsession : (σ'.nodes c').toSession = (σ.nodes c).toSession)
    (huser : ((σ'.nodes c').user.map σ'.userManager.users).map UserNode.account =
      ((σ.nodes c).user.map σ.userManager.users).map UserNode.account)
    (hssl : σ'.usesSsl c' = σ.usesSsl c) (hcontext : σ'.sslContext = σ.sslContext) :
    σ'.sessionHandler build env c' cmd = σ.sessionHandler build env c cmd := by
  unfold sessionHandler
  rw [hsession, hssl, hcontext]
  generalize (σ'.nodes c').user.map σ'.userManager.users = user' at huser ⊢
  generalize (σ.nodes c).user.map σ.userManager.users = user at huser ⊢
  cases user with
  | none =>
    cases user' with
    | none => rfl
    | some u' => cases huser
  | some u =>
    cases user' with
    | none => cases huser
    | some u' =>
      rcases u with ⟨userName, userPassword, isEnable, homeDirectory, privilege, max, extra, clients⟩
      rcases u' with ⟨_, _, _, _, _, _, _, clients'⟩
      cases huser
      cases cmd.id <;> rfl

theorem sessionHandler_lacks (h : Lacks x name π S σ τ) (hc : S c) :
    τ.sessionHandler build env (π c) cmd = σ.sessionHandler build env c cmd := by
  apply sessionHandler_account
  · rw [h.nodes c hc]
  · rw [h.nodes c hc]
    cases (σ.nodes c).user with
    | none => rfl
    | some u => exact congrArg some (h.table.account u)
  · unfold usesSsl
    rw [h.nodes c hc, h.connections]
  · exact h.sslContext

/-! ## Login -/

theorem logOut_lacks (h : Lacks x name π S σ τ) (hc : S c) :
    Agree (Lacks x name π S) (σ.logOut c) (τ.logOut (π c)) := by
  unfold logOut
  rw [h.nodes c hc]
  apply Agree.ite
  · intro _
    split
    · exact .error _
    · rename_i u huser
      have hu : u ≠ x := fun heq ↦ h.elsewhere c hc (heq ▸ huser)
      exact .ok (lacks_setNode (lacks_deleteClient h hu) hc nofun)
  · exact fun _ ↦ .ok h

theorem asksAnonymous_lacks (h : Lacks x name π S σ τ) (arg : WString) :
    τ.asksAnonymous arg = σ.asksAnonymous arg := by
  unfold asksAnonymous
  rw [h.isAllowAnonymous]

theorem isEnable_lacks (h : Lacks x name π S σ τ) (u : UserRef) :
    (τ.userManager.users u).isEnable = (σ.userManager.users u).isEnable := by
  have henabled : (τ.userManager.users u).account.isEnable =
      (σ.userManager.users u).account.isEnable := congrArg UserNode.isEnable (h.table.account u)
  exact henabled

theorem enabledUser_lacks (h : Lacks x name π S σ τ) (harg : arg ≠ name) :
    τ.enabledUser arg = σ.enabledUser arg := by
  unfold enabledUser
  rw [h.table.findUser harg]
  congr 1
  funext u
  rw [isEnable_lacks h u]

/-- Every account but `x` can be asked for. -/
theorem bindUser_lacks (h : Lacks x name π S σ τ) (hc : S c)
    (hname : name ≠ "anonymous".toList) (harg : arg ≠ name) :
    Lacks x name π S (σ.bindUser c arg).1 (τ.bindUser (π c) arg).1 ∧
      (τ.bindUser (π c) arg).2 = (σ.bindUser c arg).2 := by
  have henabled := enabledUser_lacks h harg
  have hanonymous := h.table.findUser hname.symm
  have hother (u : UserRef) (hu : σ.enabledUser arg = some u) : u ≠ x := fun heq ↦
    h.table.findUser_ne harg (heq ▸ (enabledUser_eq_some hu).1)
  unfold bindUser
  rw [asksAnonymous_lacks h arg, hanonymous, henabled, h.nodes c hc]
  split
  · exact ⟨h, rfl⟩
  · split
    · split
      · rename_i u hu
        have hux : u ≠ x := fun heq ↦ h.table.findUser_ne hname.symm (heq ▸ hu)
        have hadd := lacks_addClient h hux (findUser_mem hu) hc
        generalize σ.addClient u c = y at hadd ⊢
        generalize τ.addClient u (π c) = z at hadd ⊢
        cases hadd with
        | none => exact ⟨h, rfl⟩
        | some hadded =>
          have hbound : some u ≠ some x := fun heq ↦ hux (Option.some.inj heq)
          exact ⟨lacks_setNode hadded hc hbound, rfl⟩
      · exact ⟨h, rfl⟩
    · dsimp only
      rw [setNode_self, setNode_self]
      dsimp only
      have hbound := lacks_setNode (n := { σ.nodes c with user := σ.enabledUser arg }) h hc
        (fun heq ↦ hother x heq rfl)
      split
      · rename_i u hu
        have hadd := lacks_addClient hbound (hother u hu)
          (findUser_mem (enabledUser_eq_some hu).1) hc
        generalize addClient (σ.setNode c _) u c = y at hadd ⊢
        generalize addClient (τ.setNode (π c) _) u (π c) = z at hadd ⊢
        cases hadd with
        | none => exact ⟨hbound, rfl⟩
        | some hadded => exact ⟨hadded, rfl⟩
      · exact ⟨hbound, rfl⟩

theorem unbind_lacks (h : Lacks x name π S σ τ) (hc : S c) :
    Lacks x name π S (σ.unbind c) (τ.unbind (π c)) := by
  unfold unbind
  rw [h.nodes c hc]
  split
  · rename_i u huser
    have hu : u ≠ x := fun heq ↦ h.elsewhere c hc (heq ▸ huser)
    exact lacks_setNode (lacks_deleteClient h hu) hc nofun
  · exact h

theorem passwordMatches_lacks (h : Lacks x name π S σ τ) (hc : S c) (password : WString) :
    τ.passwordMatches (π c) password = σ.passwordMatches c password := by
  unfold passwordMatches
  rw [h.nodes c hc]
  split
  · rename_i u _
    have hpassword : (τ.userManager.users u).account.userPassword =
        (σ.userManager.users u).account.userPassword :=
      congrArg UserNode.userPassword (h.table.account u)
    have hpassword : (τ.userManager.users u).userPassword =
        (σ.userManager.users u).userPassword := hpassword
    rw [isEnable_lacks h u, hpassword]
  · rfl

theorem processPasswordCmd_lacks (h : Lacks x name π S σ τ) (hc : S c) (password : WString) :
    Lacks x name π S (σ.processPasswordCmd c password).1 (τ.processPasswordCmd (π c) password).1 ∧
      (τ.processPasswordCmd (π c) password).2 = (σ.processPasswordCmd c password).2 := by
  have hlogged := lacks_setNode (n := { σ.nodes c with isLogged := true }) h hc (h.elsewhere c hc)
  unfold processPasswordCmd
  rw [passwordMatches_lacks h hc, h.nodes c hc]
  split
  · exact ⟨hlogged, rfl⟩
  · split
    · split
      · exact ⟨hlogged, rfl⟩
      · exact ⟨unbind_lacks h hc, rfl⟩
    · exact ⟨unbind_lacks h hc, rfl⟩

theorem processReinCmd_lacks (h : Lacks x name π S σ τ) (hc : S c) :
    Lacks x name π S (σ.processReinCmd c).1 (τ.processReinCmd (π c)).1 ∧
      (τ.processReinCmd (π c)).2 = (σ.processReinCmd c).2 := by
  have hunbound := unbind_lacks h hc
  refine ⟨?_, rfl⟩
  unfold processReinCmd
  dsimp only
  rw [hunbound.nodes c hc]
  exact lacks_setNode hunbound hc (hunbound.elsewhere c hc)

/-- A command that does not ask for the account `x` is answered alike. -/
theorem runSwitch_lacks (h : Lacks x name π S σ τ) (hc : S c)
    (hname : name ≠ "anonymous".toList) (harg : cmd.id = .USER → cmd.args ≠ name) :
    Agree (LacksAnswers x name π S) (σ.runSwitch build env c cmd)
      (τ.runSwitch build env (π c) cmd) := by
  unfold runSwitch
  split
  · -- USER
    rename_i hid
    apply Agree.map (R := fun r r' ↦ Lacks x name π S r.1 r'.1 ∧ r'.2 = r.2)
    · apply (logOut_lacks h hc).bind
      exact fun hlogged ↦ .ok (bindUser_lacks hlogged hc hname (harg hid))
    · rintro ⟨σ', reply, ret⟩ ⟨τ', reply', ret'⟩ ⟨hserver, hsame⟩
      cases hsame
      exact ⟨hserver, rfl, rfl, rfl⟩
  · -- PASS
    rcases processPasswordCmd_lacks h hc cmd.args with ⟨hserver, hreply⟩
    exact .ok ⟨hserver, hreply, rfl, rfl⟩
  · -- REIN
    rcases processReinCmd_lacks h hc with ⟨hserver, hreply⟩
    exact .ok ⟨hserver, hreply, rfl, rfl⟩
  · -- PASV moves the cursor that all client nodes share
    dsimp only
    rw [h.nodes c hc, h.dataPorts]
    apply Agree.map (Agree.refl _)
    rintro ⟨o, ports⟩ _ rfl
    have hmoved : Lacks x name π S { σ with dataPorts := ports } { τ with dataPorts := ports } :=
      { h with dataPorts := rfl }
    exact lacks_conclude hmoved hc o
  · rw [sessionHandler_lacks h hc, h.nodes c hc]
    cases σ.sessionHandler build env c cmd with
    | none => exact .ok ⟨h, rfl, rfl, rfl⟩
    | some result =>
      apply Agree.map (Agree.refl _)
      rintro o _ rfl
      exact lacks_conclude h hc o

theorem dispatch_lacks (h : Lacks x name π S σ τ) (hc : S c)
    (hname : name ≠ "anonymous".toList) (harg : cmd.id = .USER → cmd.args ≠ name) :
    Agree (LacksAnswers x name π S) (σ.dispatch build env c cmd)
      (τ.dispatch build env (π c) cmd) := by
  apply (runSwitch_lacks h hc hname harg).map
  exact fun hanswers ↦ { hanswers with effects := congrArg (.switch cmd :: ·) hanswers.effects }

/-! ## The client node of a connection -/

theorem registered_lacks (h : Lacks x name π S σ τ) {d : ClientRef} :
    Registered τ d ↔ ∃ c, π c = d ∧ S c ∧ Registered σ c := by
  have hmem (u : UserRef) : u ∈ τ.userManager.ftpUserList ↔
      u ≠ x ∧ u ∈ σ.userManager.ftpUserList := by
    rw [h.table.ftpUserList]
    exact h.table.nodup.mem_erase_iff
  constructor
  · rintro ⟨u, hu, hd⟩
    rw [hmem] at hu
    rw [h.clients u hu.1] at hd
    rcases List.mem_map.mp hd with ⟨c, hc, rfl⟩
    exact ⟨c, rfl, h.listed u hu.1 c hc, u, hu.2, hc⟩
  · rintro ⟨c, rfl, hS, u, hu, hc⟩
    have hux : u ≠ x := fun heq ↦ (h.named c (heq ▸ hc)).1 hS
    refine ⟨u, (hmem u).mpr ⟨hux, hu⟩, ?_⟩
    rw [h.clients u hux]
    exact List.mem_map_of_mem hc

theorem findClient_of_registered (hσ : Consistent σ) {s : Handle} (hc : Registered σ c)
    (hsocket : (σ.nodes c).ctrlSocket = s) : σ.findClient s = some c := by
  cases hfind : σ.findClient s with
  | none => exact absurd hsocket (findClient_eq_none.mp hfind c hc)
  | some d =>
    rcases findClient_eq_some hfind with ⟨hd, hsocket'⟩
    rw [hσ.unique d c hd hc (hsocket'.trans hsocket.symm)]

/-- A connection is found in both servers, or it has named `x` and is found in the one only. -/
inductive LacksFound (x : UserRef) (π : Equiv.Perm ClientRef) (S : ClientRef → Prop)
    (σ τ : FtpServer) (s : Handle) : Prop
  | named {d : ClientRef} (hd : d ∈ σ.clientsOf x) (hσ : σ.findClient s = some d)
    (hτ : τ.findClient s = none)
  | both {d : ClientRef} (hd : S d) (hσ : σ.findClient s = some d)
    (hτ : τ.findClient s = some (π d))
  | neither (hσ : σ.findClient s = none) (hτ : τ.findClient s = none)

theorem findClient_lacks (h : Lacks x name π S σ τ) (hσ : Consistent σ) (hτ : Consistent τ)
    (s : Handle) : LacksFound x π S σ τ s := by
  cases hfind : σ.findClient s with
  | none =>
    refine .neither hfind (findClient_eq_none.mpr ?_)
    intro d hd
    rcases (registered_lacks h).mp hd with ⟨c, rfl, hS, hc⟩
    rw [h.nodes c hS]
    exact findClient_eq_none.mp hfind c hc
  | some c =>
    rcases findClient_eq_some hfind with ⟨hregistered, hsocket⟩
    by_cases hc : c ∈ σ.clientsOf x
    · refine .named hc hfind (findClient_eq_none.mpr ?_)
      intro d hd hsocket'
      rcases (registered_lacks h).mp hd with ⟨c', rfl, hS, hc'⟩
      rw [h.nodes c' hS] at hsocket'
      have hsame := hσ.unique c' c hc' hregistered (hsocket'.trans hsocket.symm)
      exact (h.named c hc).1 (hsame ▸ hS)
    · have hS : S c := by
        rcases hregistered with ⟨u, -, hu⟩
        exact h.listed u (fun heq ↦ hc (heq ▸ hu)) c hu
      have hfound : τ.findClient s = some (π c) := by
        apply findClient_of_registered hτ ((registered_lacks h).mpr ⟨c, rfl, hS, hregistered⟩)
        rw [h.nodes c hS, hsocket]
      exact .both hS hfind hfound

theorem x_listed (h : Lacks x name π S σ τ) (hσ : Consistent σ) (hc : c ∈ σ.clientsOf x) :
    c < σ.nextClient :=
  hσ.allocated c ⟨x, findUser_mem h.table.found, hc⟩

/-- A fresh client node in both servers: the renaming maps it to its counterpart. -/
theorem lacks_fresh (h : Lacks x name π S σ τ) (hσ : Consistent σ) (k : Connection) :
    ∃ ϖ : Equiv.Perm ClientRef, ϖ σ.nextClient = τ.nextClient ∧
      Lacks x name ϖ (fun c ↦ S c ∨ c = σ.nextClient)
        { σ.setNode σ.nextClient (freshNode k) with nextClient := σ.nextClient + 1 }
        { τ.setNode τ.nextClient (freshNode k) with nextClient := τ.nextClient + 1 } := by
  have hnew (c : ClientRef) (hc : S c) : c ≠ σ.nextClient ∧ π c ≠ τ.nextClient :=
    ⟨Nat.ne_of_lt (h.allocated c hc).1, Nat.ne_of_lt (h.allocated c hc).2⟩
  let ϖ : Equiv.Perm ClientRef := π.trans (Equiv.swap (π σ.nextClient) τ.nextClient)
  have hfresh : ϖ σ.nextClient = τ.nextClient := Equiv.swap_apply_left _ _
  have hold (c : ClientRef) (hc : S c) : ϖ c = π c :=
    Equiv.swap_apply_of_ne_of_ne (fun heq ↦ (hnew c hc).1 (π.injective heq)) (hnew c hc).2
  refine ⟨ϖ, hfresh, ?_⟩
  constructor
  case table => exact h.table
  case clients =>
    intro u hu
    show τ.clientsOf u = (σ.clientsOf u).map ϖ
    rw [h.clients u hu]
    exact List.map_congr_left fun c hc ↦ (hold c (h.listed u hu c hc)).symm
  case listed => exact fun u hu c hc ↦ .inl (h.listed u hu c hc)
  case unlisted => exact h.unlisted
  case workers =>
    show τ.workers = σ.workers.map _
    rw [h.workers]
    apply List.map_congr_left
    intro w hw
    rw [hold w.client (h.working w hw)]
  case working => exact fun w hw ↦ .inl (h.working w hw)
  case nodes =>
    rintro c (hc | rfl)
    · have hne : ϖ c ≠ τ.nextClient := by
        rw [hold c hc]
        exact (hnew c hc).2
      show (τ.setNode _ _).nodes (ϖ c) = (σ.setNode _ _).nodes c
      rw [setNode_of_ne _ _ (hnew c hc).1, setNode_of_ne _ _ hne, hold c hc, h.nodes c hc]
    · show (τ.setNode _ _).nodes (ϖ σ.nextClient) = (σ.setNode _ _).nodes σ.nextClient
      rw [hfresh, setNode_self, setNode_self]
  case allocated =>
    rintro c (hc | rfl)
    · rw [hold c hc]
      exact ⟨Nat.lt_succ_of_lt (h.allocated c hc).1, Nat.lt_succ_of_lt (h.allocated c hc).2⟩
    · rw [hfresh]
      exact ⟨Nat.lt_succ_self _, Nat.lt_succ_self _⟩
  case elsewhere =>
    rintro c (hc | rfl)
    · show ((σ.setNode _ _).nodes c).user ≠ _
      rw [setNode_of_ne _ _ (hnew c hc).1]
      exact h.elsewhere c hc
    · show ((σ.setNode _ _).nodes _).user ≠ _
      rw [setNode_self]
      exact nofun
  case named =>
    intro c hc
    have hc : c ∈ σ.clientsOf x := hc
    have hne : c ≠ σ.nextClient := Nat.ne_of_lt (x_listed h hσ hc)
    have hnamed := h.named c hc
    show _ ∧ ((σ.setNode _ _).nodes c).user = _ ∧ ((σ.setNode _ _).nodes c).isLogged = _
    rw [setNode_of_ne _ _ hne]
    exact ⟨not_or.mpr ⟨hnamed.1, hne⟩, hnamed.2⟩
  case nodup => exact h.nodup
  case isAllowAnonymous => exact h.isAllowAnonymous
  case connections => exact h.connections
  case dataPorts => exact h.dataPorts
  case sslContext => exact h.sslContext

/-- A fresh client node in the second server only. -/
theorem lacks_freshRight (h : Lacks x name π S σ τ) (k : Connection) :
    Lacks x name π S σ
      { τ.setNode τ.nextClient (freshNode k) with nextClient := τ.nextClient + 1 } :=
  { h with
    nodes := fun c hc ↦ by
      show (τ.setNode _ _).nodes (π c) = σ.nodes c
      rw [setNode_of_ne _ _ (Nat.ne_of_lt (h.allocated c hc).2), h.nodes c hc]
    allocated := fun c hc ↦ ⟨(h.allocated c hc).1, Nat.lt_succ_of_lt (h.allocated c hc).2⟩ }

/-! ## A client that has named `x` -/

theorem lacks_setNode_left (h : Lacks x name π S σ τ) (hc : ¬ S c)
    (hn : c ∈ σ.clientsOf x → n.user = some x ∧ n.isLogged = false) :
    Lacks x name π S (σ.setNode c n) τ := by
  have hne (d : ClientRef) (hd : S d) : d ≠ c := fun heq ↦ hc (heq ▸ hd)
  exact { h with
    nodes := fun d hd ↦ by
      rw [setNode_of_ne _ _ (hne d hd)]
      exact h.nodes d hd
    elsewhere := fun d hd ↦ by
      rw [setNode_of_ne _ _ (hne d hd)]
      exact h.elsewhere d hd
    named := fun d hd ↦ by
      by_cases hdc : d = c
      · rw [hdc, setNode_self]
        exact ⟨hc, hn (hdc ▸ hd)⟩
      · rw [setNode_of_ne _ _ hdc]
        exact h.named d hd }

theorem lacks_setNode_right (h : Lacks x name π S σ τ) {b : ClientRef}
    (hb : ∀ c, S c → π c ≠ b) : Lacks x name π S σ (τ.setNode b n) :=
  { h with
    nodes := fun c hc ↦ by
      rw [setNode_of_ne _ _ (hb c hc)]
      exact h.nodes c hc }

theorem lacks_deleteClient_left (h : Lacks x name π S σ τ) :
    Lacks x name π S (σ.deleteClient x c) τ :=
  { h with
    table := h.table.of_sameTable (sameTable_deleteClient σ x c) ⟨rfl, fun _ ↦ rfl⟩
    clients := fun u hu ↦ by
      rw [deleteClient_clientsOf, if_neg hu]
      exact h.clients u hu
    listed := fun u hu d hd ↦ by
      rw [deleteClient_clientsOf, if_neg hu] at hd
      exact h.listed u hu d hd
    unlisted := unlisted_deleteClient h.unlisted
    named := fun d hd ↦ by
      rw [deleteClient_clientsOf, if_pos rfl] at hd
      exact h.named d (List.mem_of_mem_erase hd)
    nodup := by
      rw [deleteClient_clientsOf, if_pos rfl]
      exact h.nodup.erase c }

/-! ## The end of a connection, and workers -/

theorem endClient_lacks (h : Lacks x name π S σ τ) (hc : S c) :
    Agree (Lacks x name π S) (σ.endClient c) (τ.endClient (π c)) := by
  have hclosed := lacks_setNode (n := { σ.nodes c with isCtrlCanalOpen := false }) h hc
    (h.elsewhere c hc)
  unfold endClient
  dsimp only
  rw [setNode_self, setNode_self, h.nodes c hc]
  dsimp only
  split
  · rename_i u huser
    have hu : u ≠ x := fun heq ↦ h.elsewhere c hc (heq ▸ huser)
    exact .ok (lacks_deleteClient hclosed hu)
  · exact .error _

theorem endWork_lacks (h : Lacks x name π S σ τ) (hσ : Consistent σ) (hτ : Consistent τ)
    (s : Handle) : Agree (Lacks x name π S) (σ.endWork s) (τ.endWork s) := by
  unfold endWork
  cases findClient_lacks h hσ hτ s with
  | @named c hc hfind hnone =>
    rw [hfind, hnone]
    rcases h.named c hc with ⟨hS, huser, hlogged⟩
    dsimp only
    unfold endClient
    dsimp only
    rw [setNode_self]
    dsimp only
    rw [huser]
    exact .ok (lacks_deleteClient_left (lacks_setNode_left h hS fun _ ↦ ⟨rfl, hlogged⟩))
  | both hc hfind hfind' =>
    rw [hfind, hfind']
    exact endClient_lacks h hc
  | neither hnone hnone' =>
    rw [hnone, hnone']
    exact .ok h

theorem lacks_closeConnection (h : Lacks x name π S σ τ) (s : Handle) :
    Lacks x name π S (σ.closeConnection s) (τ.closeConnection s) :=
  { h with connections := congrArg (List.filter _) h.connections }

theorem lacks_setWorker (h : Lacks x name π S σ τ) {i : Nat} {w : Worker} (hw : S w.client) :
    Lacks x name π S (σ.setWorker i w) (τ.setWorker i { w with client := π w.client }) := by
  refine { h with workers := ?_, working := ?_ }
  · show τ.workers.set i _ = (σ.workers.set i w).map _
    rw [h.workers, List.map_set]
  · intro w' hw'
    rcases List.mem_or_eq_of_mem_set hw' with hw' | rfl
    · exact h.working w' hw'
    · exact hw

theorem lacks_dropWorker (h : Lacks x name π S σ τ) (i : Nat) :
    Lacks x name π S (σ.dropWorker i) (τ.dropWorker i) := by
  refine { h with workers := ?_, working := ?_ }
  · show τ.workers.eraseIdx i = (σ.workers.eraseIdx i).map _
    rw [h.workers, List.eraseIdx_map]
  · exact fun w hw ↦ h.working w (List.mem_of_mem_eraseIdx hw)

/-- Two results of a step. -/
abbrev LacksResults (x : UserRef) (name : WString) (π : Equiv.Perm ClientRef)
    (S : ClientRef → Prop) (r r' : FtpServer × List Effect) : Prop :=
  Lacks x name π S r.1 r'.1 ∧ r'.2 = r.2

theorem finishWorker_lacks (h : Lacks x name π S σ τ) (hc : S c) (i : Nat) (job : Job)
    (complete : Bool) :
    Agree (LacksResults x name π S) (σ.finishWorker i c job complete)
      (τ.finishWorker i (π c) job complete) := by
  unfold finishWorker
  dsimp only
  rw [h.nodes c hc]
  apply Agree.bind_same
  exact fun s ↦ .ok ⟨lacks_dropWorker (lacks_setSession h hc s) i, rfl⟩

theorem runWorker_lacks (h : Lacks x name π S σ τ) (env : Env) (i : Nat) (act : WorkerStep) :
    Agree (LacksResults x name π S) (σ.runWorker env i act) (τ.runWorker env i act) := by
  have hworker : τ.workers[i]? = σ.workers[i]?.map fun w ↦ { w with client := π w.client } := by
    rw [h.workers, List.getElem?_map]
  unfold runWorker
  rw [hworker]
  cases hi : σ.workers[i]? with
  | none => exact .ok ⟨h, rfl⟩
  | some w =>
    rcases w with ⟨c, job⟩
    have hc : S c := h.working _ (List.mem_of_getElem? hi)
    dsimp only [Option.map_some]
    rw [h.nodes c hc]
    have hsame : Agree (LacksResults x name π S) (.ok (σ, [])) (.ok (τ, [])) (ε := Fault) :=
      .ok ⟨h, rfl⟩
    cases job with
    | list cmd begun =>
      cases begun with
      | false =>
        cases act with
        | begin =>
          have hset := lacks_setWorker h (i := i) (w := ⟨c, .list cmd true⟩) hc
          dsimp only
          apply Agree.ite
          · exact fun _ ↦ .ok ⟨hset, rfl⟩
          · exact fun _ ↦ .ok ⟨lacks_setSession hset hc _, rfl⟩
        | buildPath => exact hsame
        | finish complete => exact hsame
      | true =>
        cases act with
        | begin => exact hsame
        | buildPath =>
          dsimp only
          cases huser : (σ.nodes c).user with
          | none => exact .error _
          | some u =>
            have hhome : (τ.userManager.users u).account.homeDirectory =
                (σ.userManager.users u).account.homeDirectory :=
              congrArg UserNode.homeDirectory (h.table.account u)
            have hhome : (τ.userManager.users u).homeDirectory =
                (σ.userManager.users u).homeDirectory := hhome
            refine .ok ⟨h, ?_⟩
            unfold listPath
            rw [hhome]
        | finish complete =>
          dsimp only
          apply Agree.ite
          · exact fun _ ↦ .ok ⟨lacks_dropWorker h i, rfl⟩
          · exact fun _ ↦ finishWorker_lacks h hc i _ complete
    | retrieve =>
      cases act with
      | finish complete => exact finishWorker_lacks h hc i _ complete
      | begin => exact hsame
      | buildPath => exact hsame
    | store =>
      cases act with
      | finish complete => exact finishWorker_lacks h hc i _ complete
      | begin => exact hsame
      | buildPath => exact hsame

end Lacks

end FtpServer

end YFtp
