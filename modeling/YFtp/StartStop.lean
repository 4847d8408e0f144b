import YFtp.Listening
import YFtp.Theory.Pools

/-!
# Starting and stopping

`start_ftp_server` and `stop_ftp_server`, the threads of `YFtpServer::run` that the one creates and
the other waits for, and the user interface, which calls them in turn.
-/

namespace YFtp

open Theory

/-- Where a thread of `YFtpServer::run` is.  `running` tells how many threads of its pool it has
made, and how many of them are inside `io_service::run`. -/
inductive RunStage
  | created
  | begun
  | running (made inside : Nat)
  | ended
deriving DecidableEq, Repr

def RunStage.alive : RunStage → Bool
  | .ended => false
  | _ => true

/-- Between the two writes to `is_stopped`. -/
def RunStage.active : RunStage → Bool
  | .begun | .running _ _ => true
  | _ => false

/-- What the user interface shows, or where it is inside `stop_ftp_server`. -/
inductive Caller
  | shows (running : Bool)
  | polls (i : Nat)
  | leaves
deriving DecidableEq, Repr

structure YFtpServer where
  threadPoolSize : Nat
  listener : Listener := {}
  isStopped : Bool := true
  ioStopped : Bool := false
  runs : List RunStage := []
  caller : Caller := .shows false
deriving DecidableEq, Repr

namespace YFtpServer

/-- `start_ftp_server`, with the default arguments of `StartListening`. -/
def startFtpServer (s : YFtpServer) (closed bound : Bool) : YFtpServer × Bool :=
  let (listener, bret) := s.listener.startListening 0 0 closed bound
  ({ s with listener, runs := if bret then s.runs ++ [.created] else s.runs }, bret)

/-- `stop_ftp_server` up to its loop: `stop` stops the `io_service`. -/
def beginStop (s : YFtpServer) (closed : Bool) : YFtpServer × Bool :=
  let (listener, bret) := s.listener.stopListening closed
  ({ s with listener, ioStopped := bret || s.ioStopped }, bret)

/-- A statement of `run`. -/
def stepRun (s : YFtpServer) (i : Nat) : YFtpServer :=
  match s.runs[i]? with
  | some .created => { s with runs := s.runs.set i .begun, isStopped := false }
  -- `reset` also undoes a `stop` that has come before it
  | some .begun => { s with runs := s.runs.set i (.running 0 0), ioStopped := false }
  | some (.running made inside) =>
    if made < s.threadPoolSize then
      { s with runs := s.runs.set i (.running (made + 1) (inside + 1)) }
    else if inside = 0 then { s with runs := s.runs.set i .ended, isStopped := true }
    else s
  | _ => s

/-- A thread of the pool comes out of `io_service::run`. -/
def leavePool (s : YFtpServer) (i : Nat) (outOfWork : Bool) : YFtpServer :=
  match s.runs[i]? with
  | some (.running made (inside + 1)) =>
    if s.ioStopped || outOfWork then { s with runs := s.runs.set i (.running made inside) } else s
  | _ => s

/-- The next statement of the loop in `stop_ftp_server`, and the one behind it. -/
def poll (s : YFtpServer) : YFtpServer :=
  match s.caller with
  | .polls i =>
    if s.isStopped = false ∧ i < 10 then { s with caller := .polls (i + 1) }
    else { s with caller := .leaves }
  | .leaves => { s with caller := .shows (!s.isStopped) }
  | .shows _ => s

inductive Event
  | start (closed bound : Bool)
  | stop (closed : Bool)
  | poll
  | run (i : Nat)
  | leave (i : Nat) (outOfWork : Bool)
  | completes (i : Nat) (accepted : Bool)
  | delivered (i : Nat)
  | setListeningPort (port : UInt16)
  | signal  -- `handle_stop` runs for a signal
deriving DecidableEq, Repr

/-- What happens on one event.  An event that cannot occur changes nothing. -/
def exec (s : YFtpServer) : Event → YFtpServer
  | .start closed bound =>
    if s.caller = .shows false then
      let (s, bret) := s.startFtpServer closed bound
      { s with caller := .shows bret }
    else s
  | .stop closed =>
    if s.caller = .shows true then
      let (s, bret) := s.beginStop closed
      { s with caller := if bret then .polls 0 else .shows true }
    else s
  | .poll => s.poll
  | .run i => s.stepRun i
  | .leave i outOfWork => s.leavePool i outOfWork
  | .completes i accepted => { s with listener := s.listener.exec (.completes i accepted) }
  | .delivered i => { s with listener := s.listener.exec (.delivered i) }
  | .setListeningPort port => { s with listener := s.listener.exec (.setListeningPort port) }
  | .signal => { s with ioStopped := true }

/-- When `stop_ftp_server` is called, no thread of `run` has yet to begin. -/
def StopsBegun (s : YFtpServer) : Event → Prop
  | .stop _ => .created ∉ s.runs
  | _ => True

instance (s : YFtpServer) : DecidablePred s.StopsBegun
  | .stop _ => inferInstanceAs (Decidable (_ ∉ _))
  | .start .. | .poll | .run _ | .leave .. | .completes .. | .delivered _ | .setListeningPort _
  | .signal => inferInstanceAs (Decidable True)

/-! ## The invariant -/

/-- One thread of `run` at a time, `is_stopped` tells whether it is between its writes, and while
the user interface shows that the server is stopped, or waits for that, nobody listens. -/
structure Kept (s : YFtpServer) : Prop where
  alone : AtMostOne RunStage.alive s.runs
  isStopped : s.isStopped = true ↔ ∀ r ∈ s.runs, r.active = false
  shown : s.caller = .shows false →
    s.listener.bIsListening = false ∧ ∀ r ∈ s.runs, r.alive = false
  stopping : (∀ running, s.caller ≠ .shows running) →
    s.listener.bIsListening = false ∧ .created ∉ s.runs

section Kept

variable {s : YFtpServer} {i : Nat} {a b : RunStage}

theorem alive_of_active (h : a.active = true) : a.alive = true := by
  cases a <;> first | rfl | cases h

theorem active_of_alive (h : a.alive = true) (hcreated : a ≠ .created) : a.active = true := by
  cases a with
  | created => exact absurd rfl hcreated
  | begun | running => rfl
  | ended => cases h

theorem startListening_snd {s : Listener} (h : s.bIsListening = false) (ulAddr : UInt32)
    (usPort : UInt16) (closed bound : Bool) :
    (s.startListening ulAddr usPort closed bound).2
      = (s.startListening ulAddr usPort closed bound).1.bIsListening := by
  unfold Listener.startListening Listener.isListening
  dsimp only
  rw [h]
  split
  · exact h.symm
  · simp only [Bool.false_eq_true, if_false, Bool.not_true]
    split <;> rfl

theorem stopListening_snd (s : Listener) (closed : Bool) :
    (s.stopListening closed).2 = !(s.stopListening closed).1.bIsListening := rfl

theorem exec_bIsListening (s : Listener) {e : Listener.Event}
    (hstart : ∀ a p c b, e ≠ .startListening a p c b) (hstop : ∀ c, e ≠ .stopListening c) :
    (s.exec e).bIsListening = s.bIsListening := by
  cases e with
  | startListening a p c b => exact absurd rfl (hstart a p c b)
  | stopListening c => exact absurd rfl (hstop c)
  | setListeningPort => rfl
  | completes i accepted =>
    rw [Listener.exec]
    split <;> rfl
  | delivered i =>
    rw [Listener.exec]
    split
    · rename_i e _
      cases e <;> rfl
    · rfl

-- nothing but the listener or `ioStopped` changes, and listening does not
theorem Kept.listener (h : Kept s) {l : Listener} {io : Bool}
    (hl : l.bIsListening = s.listener.bIsListening) :
    Kept { s with listener := l, ioStopped := io } := by
  refine ⟨h.alone, h.isStopped, fun hshown ↦ ?_, fun hstopping ↦ ?_⟩
  · exact ⟨hl.trans (h.shown hshown).1, (h.shown hshown).2⟩
  · exact ⟨hl.trans (h.stopping hstopping).1, (h.stopping hstopping).2⟩

/-- While a thread of `run` is alive, the user interface does not show that the server is
stopped. -/
theorem Kept.not_shown (h : Kept s) (hi : s.runs[i]? = some a) (ha : a.alive = true) :
    s.caller ≠ .shows false := by
  intro hshown
  rw [(h.shown hshown).2 a (List.mem_of_getElem? hi)] at ha
  cases ha

theorem Kept.created_set (h : Kept s) (hb : b ≠ .created)
    (hstopping : ∀ running, s.caller ≠ .shows running) : .created ∉ s.runs.set i b := by
  intro hmem
  rcases List.mem_or_eq_of_mem_set hmem with hmem | heq
  · exact (h.stopping hstopping).2 hmem
  · exact hb heq.symm

/-- A thread of `run` goes on between its writes to `is_stopped`. -/
theorem Kept.goesOn (h : Kept s) (hi : s.runs[i]? = some a) (ha : a.active = true)
    (hb : b.active = true) {io : Bool} :
    Kept { s with runs := s.runs.set i b, ioStopped := io } := by
  have hlt := (List.getElem?_eq_some_iff.mp hi).1
  refine ⟨h.alone.set hi fun _ ↦ alive_of_active ha, ?_, ?_, ?_⟩
  · refine h.isStopped.trans (iff_of_false ?_ ?_)
    · intro hall
      rw [hall a (List.mem_of_getElem? hi)] at ha
      cases ha
    · intro hall
      rw [hall b (List.mem_set hlt b)] at hb
      cases hb
  · exact fun hshown ↦ absurd hshown (h.not_shown hi (alive_of_active ha))
  · intro hstopping
    refine ⟨(h.stopping hstopping).1, h.created_set ?_ hstopping⟩
    rintro rfl
    cases hb

theorem Kept.stepRun (h : Kept s) (i : Nat) : Kept (s.stepRun i) := by
  unfold YFtpServer.stepRun
  split
  · rename_i hi
    have hlt := (List.getElem?_eq_some_iff.mp hi).1
    refine ⟨h.alone.set hi fun _ ↦ rfl, iff_of_false Bool.false_ne_true ?_, ?_, ?_⟩
    · intro hall
      cases hall .begun (List.mem_set hlt _)
    · exact fun hshown ↦ absurd hshown (h.not_shown hi rfl)
    · intro hstopping
      exact ⟨(h.stopping hstopping).1, h.created_set nofun hstopping⟩
  · rename_i hi
    exact h.goesOn hi rfl rfl
  · rename_i made inside hi
    split
    · exact h.goesOn hi rfl rfl
    · split
      · refine ⟨h.alone.set hi nofun, iff_of_true rfl ?_, ?_, ?_⟩
        · -- the other threads of `run` are not even alive
          refine forall_mem_set (fun j r hij hr ↦ ?_) rfl
          rw [← Bool.not_eq_true]
          intro hactive
          have hdead := h.alone.others hi rfl hij hr
          rw [alive_of_active hactive] at hdead
          cases hdead
        · exact fun hshown ↦ absurd hshown (h.not_shown hi rfl)
        · intro hstopping
          exact ⟨(h.stopping hstopping).1, h.created_set nofun hstopping⟩
      · exact h
  · exact h

theorem Kept.leavePool (h : Kept s) (i : Nat) (outOfWork : Bool) :
    Kept (s.leavePool i outOfWork) := by
  unfold YFtpServer.leavePool
  split
  · rename_i hi
    split
    · exact h.goesOn hi rfl rfl
    · exact h
  · exact h

theorem Kept.poll (h : Kept s) : Kept s.poll := by
  unfold YFtpServer.poll
  split
  · rename_i i hcaller
    have hstopping := h.stopping (by rw [hcaller]; exact nofun)
    split
    · exact ⟨h.alone, h.isStopped, nofun, fun _ ↦ hstopping⟩
    · exact ⟨h.alone, h.isStopped, nofun, fun _ ↦ hstopping⟩
  · rename_i hcaller
    have hstopping := h.stopping (by rw [hcaller]; exact nofun)
    refine ⟨h.alone, h.isStopped, fun hshown ↦ ⟨hstopping.1, ?_⟩, fun hother ↦ ?_⟩
    · -- `is_stopped` was found set, and every thread of `run` has begun
      intro r hr
      have hstopped : s.isStopped = true := by simpa using hshown
      rw [← Bool.not_eq_true]
      intro halive
      have hactive := active_of_alive halive fun heq ↦ hstopping.2 (heq ▸ hr)
      rw [h.isStopped.mp hstopped r hr] at hactive
      cases hactive
    · exact absurd rfl (hother _)
  · exact h

theorem Kept.start (h : Kept s) (closed bound : Bool) : Kept (exec s (.start closed bound)) := by
  rw [exec]
  split
  · rename_i hcaller
    rcases h.shown hcaller with ⟨hlistening, hdead⟩
    have hsnd := startListening_snd hlistening 0 0 closed bound
    unfold startFtpServer
    dsimp only
    cases hbret : (s.listener.startListening 0 0 closed bound).2 with
    | false =>
      rw [hbret] at hsnd
      exact ⟨h.alone, h.isStopped, fun _ ↦ ⟨hsnd.symm, hdead⟩, fun hother ↦ absurd rfl (hother _)⟩
    | true =>
      refine ⟨.append_new hdead (Nat.le_refl 1), h.isStopped.trans ?_, nofun,
        fun hother ↦ absurd rfl (hother _)⟩
      rw [if_pos rfl, List.forall_mem_append]
      exact ⟨fun hall ↦ ⟨hall, by decide⟩, And.left⟩
  · exact h

theorem Kept.stop (h : Kept s) (closed : Bool) (hbegun : .created ∉ s.runs) :
    Kept (exec s (.stop closed)) := by
  rw [exec]
  split
  · have hsnd := stopListening_snd s.listener closed
    unfold beginStop
    dsimp only
    cases hbret : (s.listener.stopListening closed).2 with
    | false =>
      exact ⟨h.alone, h.isStopped, nofun, fun hother ↦ absurd rfl (hother _)⟩
    | true =>
      refine ⟨h.alone, h.isStopped, nofun, fun _ ↦ ⟨?_, hbegun⟩⟩
      rw [hbret] at hsnd
      simpa using hsnd.symm
  · exact h

theorem Kept.exec {e : Event} (h : Kept s) (hbegun : s.StopsBegun e) :
    Kept (YFtpServer.exec s e) := by
  cases e with
  | start closed bound => exact h.start closed bound
  | stop closed => exact h.stop closed hbegun
  | poll => exact h.poll
  | run i => exact h.stepRun i
  | leave i outOfWork => exact h.leavePool i outOfWork
  | completes | delivered | setListeningPort => exact h.listener (exec_bIsListening _ nofun nofun)
  | signal => exact h.listener rfl

end Kept

variable {s : YFtpServer} {threadPoolSize : Nat} {trace : List (YFtpServer × Event)}

-- a thread that has yet to begin is not waited for
example : ([.start true true, .stop true, .poll, .poll].foldl exec { threadPoolSize := 1 }).caller
    = .shows false ∧
    ([.start true true, .stop true, .poll, .poll].foldl exec { threadPoolSize := 1 }).runs
      = [.created] := by
  decide

end YFtpServer

end YFtp
