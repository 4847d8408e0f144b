import YFtp.AlikeSessions

/-!
# Servers that differ in one client node

Two servers that are the same but for one client node, and have two there that answer alike.  Every
command of that client is answered alike by both and leaves two such servers again.
-/

namespace YFtp

open Theory
open Session (Alike AnswersAlike AlikeOutcomes SameSocket)

/-- Two client nodes of one connection that answer alike.  While the data socket is `used` by a
thread, it is there in both or in neither. -/
structure AlikeNodes (build : Build) (used : Prop) (m n : ClientNode) : Prop where
  session : Alike build m.toSession n.toSession
  socket : used → SameSocket m.toSession n.toSession
  ctrlSocket : n.ctrlSocket = m.ctrlSocket
  serverIp : n.serverIp = m.serverIp
  user : n.user = m.user
  isLogged : n.isLogged = m.isLogged
  isAnonymous : n.isAnonymous = m.isAnonymous
  isCtrlCanalOpen : n.isCtrlCanalOpen = m.isCtrlCanalOpen

/-- Two servers with such nodes for the client `c`. -/
inductive AlikeServers (build : Build) (used : Prop) (c : ClientRef) : FtpServer → FtpServer → Prop
  | intro (ρ : FtpServer) {m n : ClientNode} (node : AlikeNodes build used m n) :
      AlikeServers build used c (ρ.setNode c m) (ρ.setNode c n)

namespace FtpServer

@[simp] theorem setNode_setNode (σ : FtpServer) (c : ClientRef) (m n : ClientNode) :
    (σ.setNode c m).setNode c n = σ.setNode c n := by
  simp [setNode]

theorem setNode_eq_self (σ : FtpServer) (c : ClientRef) : σ.setNode c (σ.nodes c) = σ := by
  simp [setNode]

section Alike

variable {build : Build} {env : Env} {used : Prop} {c : ClientRef} {σ τ : FtpServer} {cmd : Command}
  {m n : ClientNode}

theorem alike_node (h : AlikeServers build used c σ τ) :
    AlikeNodes build used (σ.nodes c) (τ.nodes c) := by
  cases h with
  | intro ρ hnode =>
    rw [setNode_self, setNode_self]
    exact hnode

theorem alike_setNode (h : AlikeServers build used c σ τ) (hnode : AlikeNodes build used m n) :
    AlikeServers build used c (σ.setNode c m) (τ.setNode c n) := by
  cases h with
  | intro ρ _ =>
    rw [setNode_setNode, setNode_setNode]
    exact .intro ρ hnode

theorem alike_setSession (h : AlikeServers build used c σ τ) {s t : Session}
    (hsession : Alike build s t) (hsocket : used → SameSocket s t) :
    AlikeServers build used c (σ.setSession c s) (τ.setSession c t) :=
  alike_setNode h { alike_node h with session := hsession, socket := hsocket }

/-- Two answers to a command. -/
structure AlikeAnswers (build : Build) (used : Prop) (c : ClientRef) (a b : Answer) : Prop where
  server : AlikeServers build used c a.server b.server
  reply : b.reply = a.reply
  ret : b.ret = a.ret
  effects : b.effects = a.effects

theorem alike_addClient (h : AlikeServers build used c σ τ) (u : UserRef) :
    Option.Rel (AlikeServers build used c) (σ.addClient u c) (τ.addClient u c) := by
  cases h with
  | @intro ρ m n hnode =>
    unfold addClient
    rw [setNode_userManager, setNode_userManager]
    cases ρ.userManager.addClient u c with
    | none => exact .none
    | some users => exact .some (.intro { ρ with userManager := users } hnode)

theorem alike_userManager (h : AlikeServers build used c σ τ) : τ.userManager = σ.userManager := by
  cases h
  rfl

theorem bindUser_alike (h : AlikeServers build used c σ τ) (name : WString) :
    AlikeServers build used c (σ.bindUser c name).1 (τ.bindUser c name).1 ∧
      (τ.bindUser c name).2 = (σ.bindUser c name).2 := by
  have hnode := alike_node h
  have hasks : τ.asksAnonymous name = σ.asksAnonymous name := by
    cases h
    rfl
  have henabled : τ.enabledUser name = σ.enabledUser name := by
    unfold enabledUser
    rw [alike_userManager h]
  unfold bindUser
  rw [hasks, alike_userManager h, henabled]
  split
  · exact ⟨h, rfl⟩
  · split
    · split
      · rename_i u _
        have hadd := alike_addClient h u
        generalize σ.addClient u c = x at hadd ⊢
        generalize τ.addClient u c = y at hadd ⊢
        cases hadd with
        | none => exact ⟨h, rfl⟩
        | some hadded =>
          exact ⟨alike_setNode hadded
            { hnode with isLogged := rfl, isAnonymous := rfl, user := rfl }, rfl⟩
      · exact ⟨h, rfl⟩
    · dsimp only
      have hbound := alike_setNode h (m := { σ.nodes c with user := σ.enabledUser name })
        (n := { τ.nodes c with user := σ.enabledUser name }) { hnode with user := rfl }
      rw [setNode_self, setNode_self]
      dsimp only
      split
      · rename_i u _
        have hadd := alike_addClient hbound u
        generalize addClient (σ.setNode c _) u c = x at hadd ⊢
        generalize addClient (τ.setNode c _) u c = y at hadd ⊢
        cases hadd with
        | none => exact ⟨hbound, rfl⟩
        | some hadded => exact ⟨hadded, rfl⟩
      · exact ⟨hbound, rfl⟩

end Alike

end FtpServer

end YFtp
