import Mathlib.Data.List.Perm.Basic
import YFtp.Theory.Runs

/-!
# The listening socket

`StartListening` and `StopListening` of the server, and the asynchronous accepts that they arm and
cancel.  Every accept has a completion handler that runs once, possibly long after its acceptor was
closed and opened again.
-/

namespace YFtp

/-! ## Acceptor and completions -/

inductive Completion
  | success
  | failed  -- a transient error, or a closed acceptor
  | aborted
  deriving DecidableEq, Repr

/-- An asynchronous accept whose handler has not run yet. -/
structure Accept where
  conn : Nat  -- the connection object that the accepted socket is put into
  epoch : Nat  -- how often the acceptor had been opened
  result : Option Completion
  deriving DecidableEq, Repr

/-- What closing the acceptor does to an accept: one that waits is aborted. -/
def Accept.abort (a : Accept) : Accept :=
  if a.result = none then { a with result := some .aborted } else a

/-- What of an accept no completion changes. -/
def Accept.key (a : Accept) : Nat × Nat := (a.conn, a.epoch)

structure Listener where
  isOpen : Bool := false
  bIsListening : Bool := false
  usPort_ : UInt16 := 21
  newConnection : Option Nat := none
  -- how many connection objects there have been, and how often the acceptor was opened
  made : Nat := 0
  epoch : Nat := 0
  accepts : List Accept := []
  -- the connection objects started, newest first
  started : List (Option Nat) := []
  deriving DecidableEq, Repr

/-- `INADDR_NONE` -/
def inaddrNone : UInt32 := 0xffffffff

namespace Listener

def isListening (s : Listener) : Bool := s.bIsListening

/-- The accepts of the acceptor as it is open now whose handler has yet to run. -/
def pending (s : Listener) : Nat := s.accepts.countP (·.epoch = s.epoch)

def startAccept (s : Listener) : Listener :=
  { s with
    newConnection := some s.made
    made := s.made + 1
    -- an accept on a closed acceptor completes with `bad_descriptor`
    accepts := s.accepts ++
      [⟨s.made, s.epoch, if s.isOpen then none else some .failed⟩] }

def handleAccept (s : Listener) : Completion → Listener
  | .success => { s with started := s.newConnection :: s.started }.startAccept
  | _ => s

/-- `acceptor_.cancel` and `acceptor_.close` -/
def closeAcceptor (s : Listener) : Listener :=
  { s with isOpen := false, accepts := s.accepts.map Accept.abort }

/-- `closed`: whether `close` reports success.  The descriptor is gone in either case. -/
def stopListening (s : Listener) (closed : Bool) : Listener × Bool :=
  let s :=
    if s.isListening then
      { s.closeAcceptor with bIsListening := !closed }
    else s
  (s, !s.bIsListening)

/-- The arguments that `StartListening` turns down at once. -/
def Refused (s : Listener) (ulAddr : UInt32) (usPort : UInt16) : Prop :=
  ulAddr = inaddrNone ∨ usPort = 0 ∧ s.usPort_ = 0

instance (s : Listener) (ulAddr : UInt32) (usPort : UInt16) : Decidable (s.Refused ulAddr usPort) :=
  inferInstanceAs (Decidable (_ ∨ _))

/-- `bound`: whether `open`, `bind` and `listen` succeed on an acceptor that is closed. -/
def startListening (s : Listener) (ulAddr : UInt32) (usPort : UInt16) (closed bound : Bool) :
    Listener × Bool :=
  if s.Refused ulAddr usPort then (s, false)
  else
    let (s, stopped) := if s.isListening then s.stopListening closed else (s, true)
    if !stopped then (s, false)
    else if s.isOpen || !bound then
      -- `open`, `bind` or `listen` throws
      let s := if s.isOpen then s.closeAcceptor else s
      (s, s.bIsListening)
    else
      let s := { s with
        isOpen := true
        epoch := s.epoch + 1
        usPort_ := if usPort ≠ 0 then usPort else s.usPort_
        bIsListening := true }.startAccept
      (s, s.bIsListening)

def setListeningPort (s : Listener) (port : UInt16) : Listener := { s with usPort_ := port }

/-! ## Runs -/

inductive Event
  | startListening (ulAddr : UInt32) (usPort : UInt16) (closed bound : Bool)
  | stopListening (closed : Bool)
  | setListeningPort (port : UInt16)
  | completes (i : Nat) (accepted : Bool)  -- a client arrived, or the accept failed
  | delivered (i : Nat)  -- the handler of a completed accept runs
  deriving DecidableEq, Repr

/-- What happens on one event.  An event that cannot occur changes nothing. -/
def exec (s : Listener) : Event → Listener
  | .startListening ulAddr usPort closed bound => (s.startListening ulAddr usPort closed bound).1
  | .stopListening closed => (s.stopListening closed).1
  | .setListeningPort port => s.setListeningPort port
  | .completes i accepted =>
    match s.accepts[i]? with
    | some ⟨conn, epoch, none⟩ =>
      let e := if accepted then Completion.success else .failed
      { s with accepts := s.accepts.set i ⟨conn, epoch, some e⟩ }
    | _ => s
  | .delivered i =>
    match s.accepts[i]? with
    | some ⟨_, _, some e⟩ => { s with accepts := s.accepts.eraseIdx i }.handleAccept e
    | _ => s

def Step (s : Listener) (e : Event) (t : Listener) : Prop := t = s.exec e

/-- The two constructors: one opens the acceptor itself and leaves `bIsListening` alone. -/
def constructed (opens : Bool) : Listener :=
  if opens then { isOpen := true, epoch := 1 : Listener }.startAccept else {}

/-- Listening means accepting. -/
def Accepting (s : Listener) : Prop :=
  s.isListening = true ↔ s.isOpen = true ∧ s.pending = 1

instance (s : Listener) : Decidable s.Accepting := inferInstanceAs (Decidable (_ ↔ _))

/-- A successful completion starts the connection object that was accepted. -/
def StartsAccepted (s : Listener) (e : Event) : Prop :=
  ∀ i a, e = .delivered i → s.accepts[i]? = some a → a.result = some .success →
    (s.exec e).started = some a.conn :: s.started

/-- A listening acceptor is only closed without an error, and while it listens no handler of its own
reports an error.  A success is reported before the acceptor is opened again. -/
def InOrder (s : Listener) : Event → Prop
  | .startListening ulAddr usPort closed _ =>
    s.Refused ulAddr usPort ∨ s.isListening = false ∨ closed = true
  | .stopListening closed => s.isListening = false ∨ closed = true
  | .setListeningPort _ | .completes _ _ => True
  | .delivered i =>
    match s.accepts[i]? with
    | some ⟨_, epoch, some .success⟩ => epoch = s.epoch
    | some ⟨_, epoch, some _⟩ => s.isListening = true → epoch ≠ s.epoch
    | _ => True

instance (s : Listener) : DecidablePred s.InOrder
  | .startListening .. | .stopListening _ => inferInstanceAs (Decidable (_ ∨ _))
  | .setListeningPort _ | .completes .. => inferInstanceAs (Decidable True)
  | .delivered i => by
    dsimp only [InOrder]
    split <;> infer_instance

/-! ## What an operation does to the accepts -/

theorem keys_closeAcceptor (s : Listener) :
    s.closeAcceptor.accepts.map Accept.key = s.accepts.map Accept.key := by
  show (s.accepts.map Accept.abort).map Accept.key = _
  rw [List.map_map]
  apply List.map_congr_left
  intro a _
  show Accept.key a.abort = Accept.key a
  unfold Accept.abort
  split <;> rfl

theorem keys_set {as : List Accept} {i : Nat} {a b : Accept} (ha : as[i]? = some a)
    (hkey : b.key = a.key) : (as.set i b).map Accept.key = as.map Accept.key := by
  rcases List.getElem?_eq_some_iff.mp ha with ⟨hi, rfl⟩
  rw [List.map_set, hkey, ← List.getElem_map Accept.key (h := by simpa using hi)]
  exact List.set_getElem_self _

theorem pending_of_keys {s : Listener} {as : List Accept}
    (hkeys : as.map Accept.key = s.accepts.map Accept.key) :
    { s with accepts := as }.pending = s.pending := by
  have hcount : ∀ l : List Accept, l.countP (·.epoch = s.epoch)
      = (l.map Accept.key).countP (·.2 = s.epoch) := by
    intro l
    rw [List.countP_map]
    rfl
  show as.countP (·.epoch = s.epoch) = s.accepts.countP (·.epoch = s.epoch)
  rw [hcount, hcount, hkeys]

theorem pending_startAccept (s : Listener) : s.startAccept.pending = s.pending + 1 := by
  unfold startAccept pending
  simp

/-- The accepts without the one whose handler runs. -/
theorem pending_eraseIdx {s : Listener} {i : Nat} {a : Accept} (ha : s.accepts[i]? = some a) :
    { s with accepts := s.accepts.eraseIdx i }.pending + (if a.epoch = s.epoch then 1 else 0)
      = s.pending := by
  rcases List.getElem?_eq_some_iff.mp ha with ⟨hi, rfl⟩
  have hperm := (List.getElem_cons_eraseIdx_perm hi).countP_eq (·.epoch = s.epoch)
  rw [List.countP_cons] at hperm
  simpa [pending] using hperm

/-! ## The invariant -/

/-- The accepts of earlier openings of the acceptor are known by their connection objects. -/
structure Ordered (s : Listener) : Prop where
  past : ∀ a ∈ s.accepts, a.epoch ≤ s.epoch
  made : ∀ a ∈ s.accepts, a.conn < s.made
  latest : ∀ a ∈ s.accepts, s.newConnection = some a.conn ↔ a.epoch = s.epoch

/-- What holds of a server that listens or has stopped in order. -/
structure Armed (s : Listener) : Prop extends Ordered s where
  isOpen : s.isOpen = s.bIsListening
  atMost : s.pending ≤ 1
  listening : s.bIsListening = true → s.pending = 1

theorem Armed.accepting {s : Listener} (h : s.Armed) : s.Accepting := by
  unfold Accepting isListening
  rw [h.isOpen]
  exact ⟨fun hlistening ↦ ⟨hlistening, h.listening hlistening⟩, fun hopen ↦ hopen.1⟩

theorem ordered_of_keys {s : Listener} {as : List Accept}
    (hkeys : as.map Accept.key = s.accepts.map Accept.key) (h : s.Ordered) :
    { s with accepts := as }.Ordered := by
  have hsame : ∀ a ∈ as, ∃ b ∈ s.accepts, b.conn = a.conn ∧ b.epoch = a.epoch := by
    intro a ha
    have hkey := List.mem_map_of_mem (f := Accept.key) ha
    rw [hkeys] at hkey
    rcases List.mem_map.mp hkey with ⟨b, hb, heq⟩
    exact ⟨b, hb, congrArg Prod.fst heq, congrArg Prod.snd heq⟩
  refine ⟨?_, ?_, ?_⟩
  · intro a ha
    rcases hsame a ha with ⟨b, hb, hconn, hepoch⟩
    exact hepoch ▸ h.past b hb
  · intro a ha
    rcases hsame a ha with ⟨b, hb, hconn, hepoch⟩
    exact hconn ▸ h.made b hb
  · intro a ha
    rcases hsame a ha with ⟨b, hb, hconn, hepoch⟩
    show s.newConnection = some a.conn ↔ a.epoch = s.epoch
    rw [← hconn, ← hepoch]
    exact h.latest b hb

/-- An accept may be armed when none of this opening is left. -/
theorem armed_startAccept {s : Listener} (hpast : ∀ a ∈ s.accepts, a.epoch ≤ s.epoch)
    (hmade : ∀ a ∈ s.accepts, a.conn < s.made) (hopen : s.isOpen = s.bIsListening)
    (hnone : s.pending = 0) : s.startAccept.Armed := by
  have hone : s.startAccept.pending = 1 := by rw [pending_startAccept, hnone]
  refine ⟨⟨?_, ?_, ?_⟩, hopen, Nat.le_of_eq hone, fun _ ↦ hone⟩
  · intro a ha
    rcases List.mem_append.mp ha with ha | ha
    · exact hpast a ha
    · rw [List.mem_singleton.mp ha]
      exact Nat.le_refl s.epoch
  · intro a ha
    rcases List.mem_append.mp ha with ha | ha
    · exact Nat.lt_succ_of_lt (hmade a ha)
    · rw [List.mem_singleton.mp ha]
      exact Nat.lt_succ_self s.made
  · intro a ha
    rcases List.mem_append.mp ha with ha | ha
    · -- an older accept has neither the new connection object nor this opening
      have hconn := hmade a ha
      have hepoch := List.countP_eq_zero.mp hnone a ha
      apply iff_of_false
      · intro heq
        have heq : s.made = a.conn := Option.some_inj.mp heq
        omega
      · exact of_decide_eq_false (Bool.eq_false_iff.mpr hepoch)
    · rw [List.mem_singleton.mp ha]
      exact ⟨fun _ ↦ rfl, fun _ ↦ rfl⟩

theorem armed_stopListening {s : Listener} {closed : Bool} (h : s.Armed)
    (horder : s.isListening = false ∨ closed = true) :
    (s.stopListening closed).1.Armed ∧ (s.stopListening closed).1.bIsListening = false := by
  unfold stopListening
  by_cases hlistening : s.isListening = true
  · rw [if_pos hlistening]
    rcases horder with horder | rfl
    · rw [horder] at hlistening
      cases hlistening
    · have hold := ordered_of_keys (keys_closeAcceptor s) h.toOrdered
      refine ⟨⟨⟨hold.past, hold.made, hold.latest⟩, rfl, ?_, fun hfalse ↦ ?_⟩, rfl⟩
      · have hle := h.atMost
        rw [← pending_of_keys (keys_closeAcceptor s)] at hle
        exact hle
      · cases hfalse
  · rw [if_neg hlistening]
    exact ⟨h, Bool.eq_false_iff.mpr hlistening⟩

theorem armed_startListening {s : Listener} {ulAddr : UInt32} {usPort : UInt16}
    {closed bound : Bool} (h : s.Armed)
    (horder : s.Refused ulAddr usPort ∨ s.isListening = false ∨ closed = true) :
    (s.startListening ulAddr usPort closed bound).1.Armed := by
  unfold startListening
  by_cases hrefused : s.Refused ulAddr usPort
  · rw [if_pos hrefused]
    exact h
  · rw [if_neg hrefused]
    have horder := horder.resolve_left hrefused
    -- whether it listened or not, the acceptor is closed now
    obtain ⟨s', hs', harmed, hstopped⟩ : ∃ s',
        (if s.isListening = true then s.stopListening closed else (s, true)) = (s', true) ∧
          s'.Armed ∧ s'.bIsListening = false := by
      have hstop := armed_stopListening h horder
      split
      · refine ⟨_, Prod.ext rfl ?_, hstop⟩
        show (!(s.stopListening closed).1.bIsListening) = true
        rw [hstop.2]
        rfl
      · rename_i hlistening
        exact ⟨s, rfl, h, Bool.eq_false_iff.mpr hlistening⟩
    rw [hs']
    have hclosed : s'.isOpen = false := harmed.isOpen.trans hstopped
    simp only [hclosed, Bool.not_true, Bool.false_or, Bool.false_eq_true, if_false]
    cases bound with
    | false => exact harmed
    | true =>
      apply armed_startAccept
      · exact fun a ha ↦ Nat.le_succ_of_le (harmed.past a ha)
      · exact harmed.made
      · rfl
      · -- every accept is of an earlier opening
        apply List.countP_eq_zero.mpr
        intro a ha
        have hle := harmed.past a ha
        simp only [decide_eq_true_eq]
        show a.epoch ≠ s'.epoch + 1
        omega

theorem armed_completes {s : Listener} (h : s.Armed) (i : Nat) (accepted : Bool) :
    (s.exec (.completes i accepted)).Armed := by
  show Armed (match s.accepts[i]? with
    | some ⟨conn, epoch, none⟩ =>
      let e := if accepted then Completion.success else .failed
      { s with accepts := s.accepts.set i ⟨conn, epoch, some e⟩ }
    | _ => s)
  split
  · rename_i conn epoch hi
    let done : Accept := ⟨conn, epoch, some (if accepted then .success else .failed)⟩
    have hkeys := keys_set (b := done) hi rfl
    have hpending := pending_of_keys hkeys
    exact ⟨ordered_of_keys hkeys h.toOrdered, h.isOpen, hpending ▸ h.atMost,
      fun hlistening ↦ hpending ▸ h.listening hlistening⟩
  · exact h

section Delivered

variable {s : Listener} {i conn epoch : Nat} {e : Completion}

theorem exec_delivered (ha : s.accepts[i]? = some ⟨conn, epoch, some e⟩) :
    s.exec (.delivered i) = { s with accepts := s.accepts.eraseIdx i }.handleAccept e := by
  show (match s.accepts[i]? with
    | some ⟨_, _, some e⟩ => { s with accepts := s.accepts.eraseIdx i }.handleAccept e
    | _ => s) = _
  rw [ha]

theorem exec_failure (ha : s.accepts[i]? = some ⟨conn, epoch, some e⟩) (hfailed : e ≠ .success) :
    s.exec (.delivered i) = { s with accepts := s.accepts.eraseIdx i } := by
  rw [exec_delivered ha]
  cases e with
  | success => exact absurd rfl hfailed
  | failed | aborted => rfl

theorem started_delivered (ha : s.accepts[i]? = some ⟨conn, epoch, some .success⟩) :
    (s.exec (.delivered i)).started = s.newConnection :: s.started := by
  rw [exec_delivered ha]
  rfl

/-- The handler of the accept that was armed last arms the next one. -/
theorem armed_success (h : s.Armed) (ha : s.accepts[i]? = some ⟨conn, epoch, some .success⟩)
    (hepoch : epoch = s.epoch) : (s.exec (.delivered i)).Armed := by
  have hsub : ∀ a ∈ s.accepts.eraseIdx i, a ∈ s.accepts := fun a ↦ List.mem_of_mem_eraseIdx
  have hcount := pending_eraseIdx ha
  have hle := h.atMost
  rw [if_pos hepoch] at hcount
  rw [exec_delivered ha]
  apply armed_startAccept
  · exact fun a hmem ↦ h.past a (hsub a hmem)
  · exact fun a hmem ↦ h.made a (hsub a hmem)
  · exact h.isOpen
  · show { s with accepts := s.accepts.eraseIdx i }.pending = 0
    omega

theorem armed_failure (h : s.Armed) (ha : s.accepts[i]? = some ⟨conn, epoch, some e⟩)
    (hfailed : e ≠ .success) (hold : s.isListening = true → epoch ≠ s.epoch) :
    (s.exec (.delivered i)).Armed := by
  have hsub : ∀ a ∈ s.accepts.eraseIdx i, a ∈ s.accepts := fun a ↦ List.mem_of_mem_eraseIdx
  have hcount := pending_eraseIdx ha
  rw [exec_failure ha hfailed]
  refine ⟨⟨?_, ?_, ?_⟩, h.isOpen, ?_, fun hlistening ↦ ?_⟩
  · exact fun a hmem ↦ h.past a (hsub a hmem)
  · exact fun a hmem ↦ h.made a (hsub a hmem)
  · exact fun a hmem ↦ h.latest a (hsub a hmem)
  · have hle := h.atMost
    omega
  · rw [if_neg (hold hlistening)] at hcount
    have hone := h.listening hlistening
    omega

end Delivered

theorem armed_exec {s : Listener} {e : Event} (h : s.Armed) (horder : s.InOrder e) :
    (s.exec e).Armed := by
  cases e with
  | startListening ulAddr usPort closed bound => exact armed_startListening h horder
  | stopListening closed => exact (armed_stopListening h horder).1
  | setListeningPort port => exact ⟨⟨h.past, h.made, h.latest⟩, h.isOpen, h.atMost, h.listening⟩
  | completes i accepted => exact armed_completes h i accepted
  | delivered i =>
    dsimp only [InOrder] at horder
    split at horder
    · rename_i ha
      exact armed_success h ha horder
    · rename_i e hsuccess ha
      exact armed_failure h ha hsuccess horder
    · rename_i hother
      -- there is no completion to deliver
      dsimp only [exec]
      split
      · rename_i conn epoch e ha
        exact (hother conn epoch e ha).elim
      · exact h

/-- A close that reports an error leaves a server that says it listens. -/
theorem not_accepting_stopListening {s : Listener} (hlistening : s.isListening = true) :
    ¬ (s.stopListening false).1.Accepting := by
  unfold stopListening
  rw [if_pos hlistening]
  intro h
  have hopen := (h.mp rfl).1
  cases hopen

theorem startListening_of_error {s : Listener} {ulAddr : UInt32} {usPort : UInt16}
    (hrefused : ¬ s.Refused ulAddr usPort) (hlistening : s.isListening = true) (bound : Bool) :
    (s.startListening ulAddr usPort false bound).1 = (s.stopListening false).1 := by
  unfold startListening
  rw [if_neg hrefused, if_pos hlistening]
  have hstopped : (s.stopListening false).2 = false := by
    unfold stopListening
    rw [if_pos hlistening]
    rfl
  simp only [hstopped, Bool.not_false, if_true]

/-- Accepting is kept, and the right object started, by the events in order and by no others. -/
theorem accepting_exec_iff {s : Listener} {e : Event} (h : s.Armed) :
    ((s.exec e).Accepting ∧ s.StartsAccepted e) ↔ s.InOrder e := by
  constructor
  · rintro ⟨haccepting, hstarts⟩
    cases e with
    | startListening ulAddr usPort closed bound =>
      by_contra horder
      simp only [InOrder, not_or, Bool.not_eq_false, Bool.not_eq_true] at horder
      obtain ⟨hrefused, hlistening, rfl⟩ := horder
      apply not_accepting_stopListening hlistening
      rw [← startListening_of_error hrefused hlistening bound]
      exact haccepting
    | stopListening closed =>
      by_contra horder
      simp only [InOrder, not_or, Bool.not_eq_false, Bool.not_eq_true] at horder
      obtain ⟨hlistening, rfl⟩ := horder
      exact not_accepting_stopListening hlistening haccepting
    | setListeningPort port => trivial
    | completes i accepted => trivial
    | delivered i =>
      dsimp only [InOrder]
      split
      · rename_i conn epoch ha
        have hstarted := hstarts i _ rfl ha rfl
        rw [started_delivered ha] at hstarted
        exact (h.latest _ (List.mem_of_getElem? ha)).mp (List.cons.inj hstarted).1
      · rename_i conn epoch e hsuccess ha
        intro hlistening hepoch
        have hcount := pending_eraseIdx ha
        rw [if_pos hepoch, h.listening hlistening] at hcount
        -- no handler is left that would arm the next accept
        rw [exec_failure ha hsuccess] at haccepting
        have hone := (haccepting.mp hlistening).2
        omega
      · trivial
  · intro horder
    refine ⟨(armed_exec h horder).accepting, ?_⟩
    rintro i ⟨conn, epoch, result⟩ rfl ha rfl
    have hepoch : epoch = s.epoch := by
      dsimp only [InOrder] at horder
      rw [ha] at horder
      exact horder
    rw [started_delivered ha]
    exact congrArg (· :: s.started) ((h.latest _ (List.mem_of_getElem? ha)).mpr hepoch)

theorem armed_new : (constructed false).Armed :=
  ⟨⟨fun _ h ↦ absurd h List.not_mem_nil, fun _ h ↦ absurd h List.not_mem_nil,
    fun _ h ↦ absurd h List.not_mem_nil⟩, rfl, by decide, by decide⟩

/-- The server listens exactly while it accepts, and starts what it accepted, in the runs of a
server constructed without an address whose events are all in order, and in no others. -/
theorem listens_iff_accepts {opens : Bool} {trace : List (Listener × Event)} {s : Listener}
    (run : Theory.Run Step (constructed opens) trace s) :
    (s.Accepting ∧ ∀ p ∈ trace, p.1.Accepting ∧ p.1.StartsAccepted p.2) ↔
      opens = false ∧ ∀ p ∈ trace, p.1.InOrder p.2 := by
  cases opens with
  | false =>
    rw [and_iff_right rfl]
    apply run.holds_along_iff_of_invariant armed_new Armed.accepting
    · rintro s e t harmed rfl
      exact accepting_exec_iff harmed
    · rintro s e t harmed horder rfl
      exact armed_exec harmed horder
  | true =>
    -- this constructor opens the acceptor without setting `bIsListening`
    have hfails : ¬ (constructed true).Accepting := by decide
    apply iff_of_false
    · rintro ⟨hlast, hall⟩
      rcases run.start_recorded with hstart | ⟨e, hmem⟩
      · rw [← hstart] at hlast
        exact hfails hlast
      · exact hfails (hall _ hmem).1
    · rintro ⟨hopens, -⟩
      cases hopens

/-- A run of events that meet `C`, to a state with a decidable property. -/
theorem exists_events (C : Listener → Event → Bool) (events : List Event) (p : Listener → Bool)
    (h : (Theory.execWhile (fun s e ↦ some (s.exec e)) C (constructed false) events).any p = true) :
    ∃ trace s, Theory.Run Step (constructed false) trace s ∧
      (∀ q ∈ trace, C q.1 q.2 = true) ∧ p s = true := by
  apply Theory.exists_run_of_execWhile _ (constructed false) events p h
  intro s e t hnext
  exact (Option.some_inj.mp hnext).symm

/-- A client is accepted, the server is started again on another port, the handler of the aborted
accept comes late, and a second client is accepted. -/
theorem listens_iff_accepts_restart : ∃ trace s, Theory.Run Step (constructed false) trace s ∧
    s.started = [some 2, some 0] ∧
    (s.Accepting ∧ ∀ p ∈ trace, p.1.Accepting ∧ p.1.StartsAccepted p.2) := by
  have h := exists_events (fun s e ↦ decide (s.InOrder e))
    [.startListening 0 21 true true, .completes 0 true, .delivered 0,
      .startListening 0 2121 true true, .delivered 0, .completes 0 true, .delivered 0]
    (fun s ↦ s.started = [some 2, some 0]) (by decide +kernel)
  rcases h with ⟨trace, s, run, hsteps, hstarted⟩
  exact ⟨trace, s, run, of_decide_eq_true hstarted,
    (listens_iff_accepts run).mpr ⟨rfl, fun p hp ↦ of_decide_eq_true (hsteps p hp)⟩⟩

/-- After one accept that failed the server says that it listens, and accepts nobody. -/
theorem listens_without_accepting : ∃ trace s, Theory.Run Step (constructed false) trace s ∧
    s.isListening = true ∧ s.pending = 0 ∧ ¬ s.Accepting := by
  have h := exists_events (fun _ _ ↦ true)
    [.startListening 0 21 true true, .completes 0 false, .delivered 0]
    (fun s ↦ s.isListening = true ∧ s.pending = 0 ∧ ¬ s.Accepting) (by decide +kernel)
  rcases h with ⟨trace, s, run, -, hs⟩
  exact ⟨trace, s, run, of_decide_eq_true hs⟩

end Listener

end YFtp
