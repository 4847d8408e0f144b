import YFtp.Registry
import YFtp.Threads

/-!
# The server with its threads

The events of the server and the steps of the threads that its client nodes have created, in any
order.  A thread is bound to its client node by a pointer: what keeps the node alive is that a
client list holds it.
-/

namespace YFtp

open FtpServer (request jobOf)

/-- A thread and the client node it is bound to. -/
structure ClientThread where
  client : ClientRef
  stage : Stage

/-- The server with the threads that were created; those that have come to their end stay. -/
structure Service where
  server : FtpServer
  threads : List ClientThread := []

inductive Deed
  | event (e : Event Line)
  | thread (i : Nat) (answers : Answers)

/-- The thread has not come to its end. -/
def Stage.unfinished : Stage → Bool
  | .ended => false
  | _ => true

namespace Service

variable (v : Service)

/-- The threads that an event creates, given what it did. -/
def created (e : Event Line) (effects : List Effect) : List ClientThread :=
  match request v.server e with
  | some q => (effects.filterMap jobOf).map fun job ↦ ⟨q.client, job.stage⟩
  | none => []

/-- What `user_` of a client node points to. -/
def account (c : ClientRef) : Option UserNode :=
  (v.server.nodes c).user.map v.server.userManager.users

/-- One event, or one step of a thread with a record of what it did. -/
def exec (build : Build) : Deed → Except ThreadFault (Service × List ThreadEvent)
  -- the threads take the place of the workers of the server
  | .event (.worker ..) => .ok (v, [])
  | .event e =>
    (liftFault (v.server.exec (FtpServer.onLine build) e)).map fun (σ, effects) ↦
      ({ server := σ, threads := v.threads ++ v.created e effects }, [])
  | .thread i answers =>
    match v.threads[i]? with
    | none => .ok (v, [])
    | some t =>
      (t.stage.step answers (v.server.nodes t.client) (v.account t.client)).map
        fun (s, stage, events) ↦
          ({ server := v.server.setSession t.client s
             threads := v.threads.set i { t with stage := stage } }, events)

def Step (build : Build) (v : Service) (d : Deed) (v' : Service) : Prop :=
  ∃ events, v.exec build d = .ok (v', events)

end Service

abbrev ServiceRun (build : Build) := Theory.Run (Service.Step build)

/-- The server has not had a connection yet. -/
structure Service.Begins (v : Service) : Prop where
  server : FtpServer.Initial v.server
  threads : v.threads = []

namespace Service

variable {build : Build} {v v' : Service} {e : Event Line} {i : Nat} {answers : Answers}
  {events : List ThreadEvent}

/-- A thread that takes a step: it changes its session and goes on with another statement. -/
theorem exec_thread (h : v.exec build (.thread i answers) = .ok (v', events)) :
    (v' = v ∧ events = [] ∧ v.threads[i]? = none) ∨
    ∃ t s stage, v.threads[i]? = some t ∧
      t.stage.step answers (v.server.nodes t.client) (v.account t.client)
        = .ok (s, stage, events) ∧
      v' = { server := v.server.setSession t.client s
             threads := v.threads.set i { t with stage := stage } } := by
  rw [exec] at h
  cases ht : v.threads[i]? with
  | none =>
    rw [ht] at h
    cases h
    exact .inl ⟨rfl, rfl, rfl⟩
  | some t =>
    rw [ht] at h
    dsimp only at h
    cases hstep : t.stage.step answers (v.server.nodes t.client) (v.account t.client) with
    | error fault =>
      rw [hstep] at h
      cases h
    | ok r =>
      rcases r with ⟨s, stage, fx⟩
      rw [hstep] at h
      cases h
      exact .inr ⟨t, s, stage, rfl, hstep, rfl⟩

/-- A run found by executing a list of deeds, as long as each of them meets `C`. -/
theorem exists_run_while (C : Service → Deed → Bool) (build : Build) (start : Service)
    (ds : List Deed) (p : Service → Bool)
    (h : (Theory.execWhile (fun v d ↦ (exec v build d).toOption.map (·.1)) C start ds).any p
      = true) :
    ∃ trace v, ServiceRun build start trace v ∧ (∀ q ∈ trace, C q.1 q.2 = true) ∧ p v = true := by
  apply Theory.exists_run_of_execWhile _ start ds p h
  intro v d v' hnext
  cases hexec : v.exec build d with
  | error fault =>
    rw [hexec] at hnext
    cases hnext
  | ok r =>
    rw [hexec] at hnext
    cases hnext
    exact ⟨r.2, hexec⟩

end Service

namespace Sample

end Sample

end YFtp
