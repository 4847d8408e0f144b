import YFtp.Theory.Agreement
import YFtp.ConversationSteps

/-!
# Sessions that answer alike

Two sessions that differ only in what no handler looks at: the transfer type, the address of the
data connection, how far below zero a restart offset is, and the objects behind the pointers of a
data connection that is not in use.  Every handler answers alike in both and leaves two such
sessions again.
-/

namespace YFtp

open Theory

namespace Session

/-- The pointers to the data socket are both null or both set. -/
def SameSocket (s t : Session) : Prop := s.dataSocket = none ↔ t.dataSocket = none

/-- Closing a data socket goes through no null pointer, whatever PROT says by then. -/
def ClosesAnyway (build : Build) (s : Session) : Prop :=
  s.sslSocket ≠ none ∨ (build.serverApp = false ∧ s.dataUseSsl = false)

structure Alike (build : Build) (s t : Session) : Prop where
  sslSocket : t.sslSocket = s.sslSocket
  dataUseSsl : t.dataUseSsl = s.dataUseSsl
  curDataMode : t.curDataMode = s.curDataMode
  curStatus : t.curStatus = s.curStatus
  transferPath : t.transferPath = s.transferPath
  renameFromPath : t.renameFromPath = s.renameFromPath
  currentDirectory : t.currentDirectory = s.currentDirectory
  restartAt : t.restartAt = s.restartAt ∨ (s.restartAt ≤ 0 ∧ t.restartAt ≤ 0)
  dataAcceptor : s.curDataMode = .pasv → (s.dataAcceptor = none ↔ t.dataAcceptor = none)
  dataSocket : SameSocket s t ∨ (s.curStatus = .waiting ∧ ClosesAnyway build s)

/-- Two outcomes of a handler, in the sessions `s` and `t`. -/
structure AlikeOutcomes (build : Build) (s t : Session) (o o' : Outcome) : Prop where
  reply : o'.reply = o.reply
  effects : o'.effects = o.effects
  session : Alike build o.session o'.session
  kept : SameSocket s t → SameSocket o.session o'.session

/-- The handlers agree in the sessions `s` and `t`. -/
abbrev AnswersAlike (build : Build) (s t : Session) :
    Except Fault Outcome → Except Fault Outcome → Prop :=
  Agree (AlikeOutcomes build s t)

section Alike

variable {build : Build} {env : Env} {s t s' t' : Session} {user : Option UserNode} {arg : WString}
  {sslContext : Bool} {cmd : Command}

theorem Alike.answers (h : Alike build s t) {code : Nat} {text : WString} {effects : List Effect} :
    AnswersAlike build s t (.ok (s.answer code text effects)) (.ok (t.answer code text effects)) :=
  .ok ⟨rfl, rfl, h, id⟩

/-- What two uses of the data connection have in common. -/
structure AlikeUses (build : Build) (s t : Session) : Prop where
  session : Alike build s t
  socket : SameSocket s t

theorem secureData_alike (h : AlikeUses build s t) :
    AlikeUses build (s.secureData env sslContext).1 (t.secureData env sslContext).1 ∧
      (t.secureData env sslContext).2 = (s.secureData env sslContext).2 := by
  have hsecured : AlikeUses build { s with sslSocket := some env.handshake }
      { t with sslSocket := some env.handshake } :=
    ⟨{ h.session with sslSocket := rfl, dataSocket := .inl h.socket }, h.socket⟩
  have hnull : (s.sslSocket = none ∧ sslContext = false) ↔
      (t.sslSocket = none ∧ sslContext = false) := by
    rw [h.session.sslSocket]
  unfold secureData
  by_cases hssl : s.dataUseSsl = true
  · rw [if_pos hssl, if_pos (h.session.dataUseSsl.trans hssl)]
    by_cases hnone : s.sslSocket = none ∧ sslContext = false
    · rw [if_pos hnone, if_pos (hnull.mp hnone)]
      exact ⟨h, rfl⟩
    · rw [if_neg hnone, if_neg (mt hnull.mpr hnone)]
      dsimp only
      split
      · exact ⟨hsecured, rfl⟩
      · exact ⟨hsecured, rfl⟩
  · rw [if_neg hssl, if_neg (by rw [h.session.dataUseSsl]; exact hssl)]
    exact ⟨h, rfl⟩

/-- Two results of `open_data_connection`: what was opened, and whether, is the same. -/
structure AlikeOpened (build : Build) (s t : Session)
    (r r' : Session × Bool × List Effect) : Prop where
  result : r'.2 = r.2
  session : Alike build r.1 r'.1
  kept : SameSocket s t → SameSocket r.1 r'.1
  used : r.2.1 = true → SameSocket r.1 r'.1

theorem AlikeUses.opened (h : AlikeUses build s' t') (connected : Bool) (effects : List Effect) :
    AlikeOpened build s t (s', connected, effects) (t', connected, effects) :=
  ⟨rfl, h.session, fun _ ↦ h.socket, fun _ ↦ h.socket⟩

theorem AlikeUses.secured (h : AlikeUses build s' t') :
    AlikeOpened build s t (s'.secureData env sslContext) (t'.secureData env sslContext) := by
  rcases secureData_alike (s := s') (t := t') h with ⟨hsecured, hsame⟩
  exact ⟨hsame, hsecured.session, fun _ ↦ hsecured.socket, fun _ ↦ hsecured.socket⟩

end Alike

/-! ## Threads -/

/-- Two results of a step of a thread. -/
structure AlikeSteps (build : Build) (s t : Session) (r r' : StepResult) : Prop where
  result : r'.2 = r.2
  session : Alike build r.1 r'.1
  kept : SameSocket s t → SameSocket r.1 r'.1

section AlikeSteps

variable {build : Build} {a : Answers} {s t : Session} {user : Option UserNode} {cmd : Command}
  {next : Stage} {events : List ThreadEvent}

-- the thread leaves the session alone
theorem Alike.steps (h : Alike build s t) :
    Agree (ε := ThreadFault) (AlikeSteps build s t) (.ok (s, next, events))
      (.ok (t, next, events)) :=
  .ok ⟨rfl, h, id⟩

end AlikeSteps

end Session

end YFtp
