import YFtp.FinalReplies

/-!
# File contents

What `retrieve_thread` sends of a file, and what `store_thread` leaves in one.  As for the final
replies, a thread is taken alone, with whatever the system answers at each of its steps.
-/

namespace YFtp

open Theory

/-! ## `retrieve_thread` -/

/-- A block that is passed to `send_data`. -/
def ThreadEvent.passed : ThreadEvent → Option (List UInt8)
  | .block bytes _ => some bytes
  | _ => none

/-- The blocks passed to `send_data`, whether or not they were sent. -/
def blocksPassed (log : List ThreadEvent) : List (List UInt8) := log.filterMap ThreadEvent.passed

@[simp] theorem blocksPassed_append (log fx : List ThreadEvent) :
    blocksPassed (log ++ fx) = blocksPassed log ++ blocksPassed fx :=
  List.filterMap_append

/-- Events that record a send or a read or a `seekg` that failed. -/
def ThreadEvent.fails : ThreadEvent → Bool
  | .block _ false | .readFailed _ | .seek _ false => true
  | _ => false

/-- Every send, every read of the file and `seekg` succeeded. -/
def Unfailing (log : List ThreadEvent) : Prop := ∀ e ∈ log, e.fails = false

theorem Unfailing.left {log fx : List ThreadEvent} (h : Unfailing (log ++ fx)) : Unfailing log :=
  fun e he ↦ h e (List.mem_append_left fx he)

/-- The blocks passed on are blocks of the buffer, and with this rest they make up the file behind
the restart offset. -/
structure Passed (content : List UInt8) (n : Nat) (log : List ThreadEvent) (rest : List UInt8) :
    Prop where
  blocks : ∀ b ∈ blocksPassed log, b ≠ [] ∧ b.length ≤ transferBufferSize
  bytes : (blocksPassed log).flatten ++ rest = content.drop n

/-- What holds of the record at each stage of `retrieve_thread`. -/
def Reads (content : List UInt8) (n : Nat) (log : List ThreadEvent) : Stage → Prop
  | .retrieve .openFile => log = []
  | .retrieve (.seek ins) => ins = { content := content } ∧ Passed content 0 log content
  | .retrieve (.read ins) => ins.content = content ∧ Passed content n log ins.rest
  | .retrieve (.send ins block) => ins.content = content ∧
    Passed content n log (block ++ ins.rest) ∧ block ≠ [] ∧ block.length ≤ transferBufferSize ∧
    (ins.good = false → Unfailing log → ins.rest = [])
  | .retrieve (.close _ _) | .shutDown _ _ | .closeSocket _ _ | .finish _ _ | .ended =>
    ∃ rest, Passed content n log rest ∧ (Unfailing log → rest = [])
  | .list _ _ | .store _ => False

section Retrieve

variable {content block : List UInt8} {n : Nat} {log fx : List ThreadEvent} {rest : List UInt8}
  {ins : InStream UInt8} {v : View}

-- an event that passes no block
theorem Passed.append (h : Passed content n log rest) (hfx : blocksPassed fx = []) :
    Passed content n (log ++ fx) rest := by
  constructor
  · rw [blocksPassed_append, hfx, List.append_nil]
    exact h.blocks
  · rw [blocksPassed_append, hfx, List.append_nil]
    exact h.bytes

theorem Passed.append_block (h : Passed content n log (block ++ rest)) (hblock : block ≠ [])
    (hfits : block.length ≤ transferBufferSize) (sent : Bool) :
    Passed content n (log ++ [.block block sent]) rest := by
  have hpassed : blocksPassed [.block block sent] = [block] := rfl
  constructor
  · intro b hb
    rw [blocksPassed_append, hpassed] at hb
    rcases List.mem_append.mp hb with hb | hb
    · exact h.blocks b hb
    · cases List.mem_singleton.mp hb
      exact ⟨hblock, hfits⟩
  · rw [blocksPassed_append, hpassed, List.flatten_append, List.flatten_singleton,
      List.append_assoc]
    exact h.bytes

theorem Passed.startsRest (h : Passed content n log rest) :
    (blocksPassed log).flatten <+: content.drop n := by
  rw [← h.bytes]
  exact List.prefix_append _ _

-- nothing was passed on before `seekg`
theorem Passed.seek (h : Passed content 0 log content) (hfx : blocksPassed fx = []) :
    Passed content n (log ++ fx) (content.drop n) := by
  have hnone : (blocksPassed log).flatten = [] := List.append_left_eq_self.mp h.bytes
  constructor
  · exact (h.append hfx).blocks
  · rw [blocksPassed_append, hfx, List.append_nil, hnone, List.nil_append]

theorem Passed.of_unfailing (h : Passed content n log rest) (hrest : Unfailing log → rest = [])
    (hlog : Unfailing log) : (blocksPassed log).flatten = content.drop n := by
  rw [← h.bytes, hrest hlog, List.append_nil]

theorem reads_openFile (hopened : v.answers.opened = some content) {r : StepResult}
    (h : RetrieveStage.openFile.step v.answers v.node.toSession = .ok r) :
    Reads content n r.2.2 r.2.1 := by
  rw [RetrieveStage.step, hopened] at h
  cases h
  refine ⟨rfl, List.forall_mem_nil _, rfl⟩

theorem reads_seek {log : List ThreadEvent} (hpassed : Passed content 0 log content)
    (hoffset : v.node.restartAt.toNat = n) {r : StepResult}
    (h : (RetrieveStage.seek { content := content }).step v.answers v.node.toSession = .ok r) :
    Reads content n (log ++ r.2.2) r.2.1 := by
  rw [RetrieveStage.step, hoffset] at h
  split at h
  · cases h
    have hseek : Passed content n (log ++ [.seek v.node.restartAt v.answers.seek])
        (content.drop n) := hpassed.seek rfl
    cases hok : v.answers.seek with
    | true =>
      rw [hok] at hseek
      exact ⟨rfl, hseek⟩
    | false =>
      rw [hok] at hseek
      refine ⟨_, hseek, ?_⟩
      intro hlog
      cases hlog (.seek _ false) (List.mem_append_right _ (List.mem_singleton_self _))
  · rename_i hzero
    cases h
    have hn : n = 0 := by omega
    rw [hn, List.append_nil]
    exact ⟨rfl, hpassed⟩

theorem reads_read (hcontent : ins.content = content) (hpassed : Passed content n log ins.rest)
    {r : StepResult} (h : (RetrieveStage.read ins).step v.answers v.node.toSession = .ok r) :
    Reads content n (log ++ r.2.2) r.2.1 := by
  rw [RetrieveStage.step] at h
  dsimp only at h
  have hall := InStream.read_append_rest transferBufferSize v.answers.reading ins
  have hfits : (ins.read transferBufferSize v.answers.reading).1.length ≤ transferBufferSize :=
    InStream.length_read_le
  have hsame : (ins.read transferBufferSize v.answers.reading).2.content = content :=
    InStream.read_content.trans hcontent
  have hshort : (ins.read transferBufferSize v.answers.reading).2.bad = false →
      (ins.read transferBufferSize v.answers.reading).1.length < transferBufferSize →
      (ins.read transferBufferSize v.answers.reading).2.rest = [] :=
    InStream.rest_eq_nil_of_short
  have hgood : (ins.read transferBufferSize v.answers.reading).2.good = false →
      (ins.read transferBufferSize v.answers.reading).1.length < transferBufferSize :=
    InStream.read_short
  generalize ins.read transferBufferSize v.answers.reading = out at h hall hfits hsame hshort hgood
  rcases out with ⟨block, ins'⟩
  cases h
  dsimp only at *
  have hpasses : Passed content n (log ++ if ins'.bad then [.readFailed ins'.rest.length] else [])
      (block ++ ins'.rest) := by
    rw [hall]
    apply hpassed.append
    split <;> rfl
  -- where no read failed, a short block is the last one
  have hends : block.length < transferBufferSize →
      Unfailing (log ++ if ins'.bad then [.readFailed ins'.rest.length] else []) →
      ins'.rest = [] := by
    intro hlength hlog
    apply hshort _ hlength
    cases hbad : ins'.bad with
    | false => rfl
    | true =>
      rw [hbad, if_pos rfl] at hlog
      cases hlog _ (List.mem_append_right _ (List.mem_singleton_self _))
  by_cases hblock : block = []
  · rw [if_pos hblock]
    rw [hblock] at hpasses hends
    exact ⟨_, hpasses, hends (by decide)⟩
  · rw [if_neg hblock]
    exact ⟨hsame, hpasses, hblock, hfits, fun hshort ↦ hends (hgood hshort)⟩

theorem reads_send (hcontent : ins.content = content)
    (hpassed : Passed content n log (block ++ ins.rest)) (hblock : block ≠ [])
    (hfits : block.length ≤ transferBufferSize)
    (hends : ins.good = false → Unfailing log → ins.rest = []) {r : StepResult}
    (h : (RetrieveStage.send ins block).step v.answers v.node.toSession = .ok r) :
    Reads content n (log ++ r.2.2) r.2.1 := by
  rw [RetrieveStage.step] at h
  rcases eq_ok_of_liftFault_bind h with ⟨-, -, h⟩
  cases h
  have hpasses := hpassed.append_block hblock hfits v.answers.sent
  dsimp only
  split
  · rename_i hfailed
    refine ⟨_, hpasses, ?_⟩
    intro hlog
    rw [hfailed] at hlog
    cases hlog _ (List.mem_append_right _ (List.mem_singleton_self _))
  · split
    · exact ⟨hcontent, hpasses⟩
    · rename_i hgood
      exact ⟨_, hpasses, fun hlog ↦ hends (Bool.eq_false_iff.mpr hgood) hlog.left⟩

-- the final block and what leads to it pass no block on
theorem reads_finished (hp : ∃ rest, Passed content n log rest ∧ (Unfailing log → rest = []))
    (hfx : blocksPassed fx = []) :
    ∃ rest, Passed content n (log ++ fx) rest ∧ (Unfailing (log ++ fx) → rest = []) := by
  rcases hp with ⟨rest, hpassed, hends⟩
  exact ⟨rest, hpassed.append hfx, fun hlog ↦ hends hlog.left⟩

-- the file matters when it is opened, and the restart offset at `seekg`
theorem advances_reads_at {p q : Progress} (hp : Reads content n p.log p.stage)
    (hopened : p.stage = .retrieve .openFile → v.answers.opened = some content)
    (hoffset : ∀ ins, p.stage = .retrieve (.seek ins) → v.node.restartAt.toNat = n)
    (h : Advances p v q) : Reads content n q.log q.stage := by
  rcases h with ⟨s, fx, h, hlog⟩
  rw [hlog]
  rcases p with ⟨stage, log⟩
  generalize q.stage = next at h
  cases stage with
  | list cmd stage => cases hp
  | store stage => cases hp
  | retrieve stage =>
    cases stage with
    | openFile =>
      have hstart : log = [] := hp
      rw [hstart, List.nil_append]
      exact reads_openFile (hopened rfl) h
    | seek ins =>
      rcases hp with ⟨rfl, hpassed⟩
      exact reads_seek hpassed (hoffset _ rfl) h
    | read ins => exact reads_read hp.1 hp.2 h
    | send ins block =>
      rcases hp with ⟨hcontent, hpassed, hblock, hfits, hends⟩
      exact reads_send hcontent hpassed hblock hfits hends h
    | close ins len =>
      cases h
      exact reads_finished hp rfl
  | shutDown job complete =>
    rcases eq_ok_of_liftFault_bind h with ⟨t, -, h⟩
    cases h
    exact reads_finished hp rfl
  | closeSocket job complete =>
    rcases eq_ok_of_liftFault_bind h with ⟨t, -, h⟩
    cases h
    exact reads_finished hp rfl
  | finish job complete =>
    rw [Stage.step] at h
    split at h
    · cases h
      exact reads_finished hp rfl
    · cases h
      exact reads_finished hp rfl
  | ended =>
    cases h
    exact reads_finished hp rfl

theorem advances_reads {p q : Progress} (hp : Reads content n p.log p.stage)
    (hopened : v.answers.opened = some content) (hoffset : v.node.restartAt = n)
    (h : Advances p v q) : Reads content n q.log q.stage := by
  apply advances_reads_at hp (fun _ ↦ hopened) _ h
  intro ins _
  rw [hoffset, Int.toNat_natCast]

/-- What bounds the number of steps that are left: each turn of the loop takes a byte off the file at
least, and is two steps. -/
def Stage.stepsLeft (content : List UInt8) : Stage → Nat
  | .retrieve .openFile => 2 * content.length + 8
  | .retrieve (.seek _) => 2 * content.length + 7
  | .retrieve (.read ins) => 2 * ins.rest.length + 6
  | .retrieve (.send ins _) => 2 * ins.rest.length + 7
  | .retrieve (.close _ _) => 4
  | .shutDown _ _ => 3
  | .closeSocket _ _ => 2
  | .finish _ _ => 1
  | .list _ _ | .store _ | .ended => 0

theorem stepsLeft_seek (ins : InStream UInt8) (n : Nat) (ok : Bool)
    (h : ins = { content := content }) :
    (ins.seek n ok).rest.length ≤ content.length := by
  unfold InStream.rest
  rw [InStream.seek_content, h, List.length_drop]
  exact Nat.sub_le _ _

theorem advances_stepsLeft {p q : Progress} (hp : Reads content n p.log p.stage)
    (hopened : v.answers.opened = some content) (h : Advances p v q) (hstage : p.stage ≠ .ended) :
    q.stage.stepsLeft content < p.stage.stepsLeft content := by
  rcases h with ⟨s, fx, h, -⟩
  rcases p with ⟨stage, log⟩
  generalize q.stage = next at h
  cases stage with
  | list cmd stage => cases hp
  | store stage => cases hp
  | retrieve stage =>
    cases stage with
    | openFile =>
      dsimp only at h
      rw [Stage.step, RetrieveStage.step, hopened] at h
      cases h
      exact Nat.lt_succ_self _
    | seek ins =>
      dsimp only at h
      rw [Stage.step, RetrieveStage.step] at h
      split at h
      · have hrest := stepsLeft_seek ins v.node.restartAt.toNat v.answers.seek hp.1
        cases h
        dsimp only
        split
        · simp only [Stage.stepsLeft]
          omega
        · simp only [Stage.stepsLeft]
          omega
      · cases h
        simp only [Stage.stepsLeft, hp.1, InStream.rest, List.drop_zero]
        omega
    | read ins =>
      dsimp only at h
      rw [Stage.step, RetrieveStage.step] at h
      dsimp only at h
      have hall := InStream.read_append_rest transferBufferSize v.answers.reading ins
      generalize ins.read transferBufferSize v.answers.reading = out at h hall
      rcases out with ⟨block, ins'⟩
      have hlength : block.length + ins'.rest.length = ins.rest.length := by
        rw [← hall, List.length_append]
      cases h
      dsimp only
      split
      · simp only [Stage.stepsLeft]
        omega
      · rename_i hblock
        have hpos := List.length_pos_iff.mpr hblock
        simp only [Stage.stepsLeft]
        omega
    | send ins block =>
      dsimp only at h
      rw [Stage.step, RetrieveStage.step] at h
      rcases eq_ok_of_liftFault_bind h with ⟨-, -, h⟩
      cases h
      dsimp only
      split
      · simp only [Stage.stepsLeft]
        omega
      · split
        · simp only [Stage.stepsLeft]
          omega
        · simp only [Stage.stepsLeft]
          omega
    | close ins len =>
      cases h
      simp only [Stage.stepsLeft]
      omega
  | shutDown job complete =>
    rcases eq_ok_of_liftFault_bind h with ⟨t, -, h⟩
    cases h
    simp only [Stage.stepsLeft]
    omega
  | closeSocket job complete =>
    rcases eq_ok_of_liftFault_bind h with ⟨t, -, h⟩
    cases h
    simp only [Stage.stepsLeft]
    omega
  | finish job complete =>
    dsimp only at h
    rw [Stage.step] at h
    split at h
    · cases h
      exact Nat.zero_lt_one
    · cases h
      exact Nat.zero_lt_one
  | ended => exact absurd rfl hstage

theorem shutDownDataSocket_of_use {s : Session} (h : s.useDataSocket = .ok ()) :
    s.shutDownDataSocket = .ok s := by
  unfold Session.useDataSocket at h
  unfold Session.shutDownDataSocket
  grind

theorem closeDataSocket_of_use {s : Session} (h : s.useDataSocket = .ok ()) :
    s.closeDataSocket = .ok { s with dataSocket := some .closed } := by
  unfold Session.useDataSocket at h
  unfold Session.closeDataSocket
  grind

theorem exists_advances {p : Progress} (hp : Reads content n p.log p.stage)
    (hsocket : v.node.useDataSocket = .ok ()) : ∃ q, Advances p v q := by
  have hstep : ∃ r, p.stage.step v.answers v.node v.user = .ok r := by
    rcases p with ⟨stage, log⟩
    cases stage with
    | list cmd stage => cases hp
    | store stage => cases hp
    | retrieve stage =>
      cases stage with
      | openFile =>
        dsimp only
        rw [Stage.step, RetrieveStage.step]
        split
        · exact ⟨_, rfl⟩
        · exact ⟨_, rfl⟩
      | seek ins =>
        dsimp only
        rw [Stage.step, RetrieveStage.step]
        split
        · exact ⟨_, rfl⟩
        · exact ⟨_, rfl⟩
      | read ins => exact ⟨_, rfl⟩
      | send ins block =>
        dsimp only
        rw [Stage.step, RetrieveStage.step, hsocket]
        exact ⟨_, rfl⟩
      | close ins len => exact ⟨_, rfl⟩
    | shutDown job complete =>
      dsimp only
      rw [Stage.step, shutDownDataSocket_of_use hsocket]
      exact ⟨_, rfl⟩
    | closeSocket job complete =>
      dsimp only
      rw [Stage.step, closeDataSocket_of_use hsocket]
      exact ⟨_, rfl⟩
    | finish job complete =>
      dsimp only
      rw [Stage.step]
      split
      · exact ⟨_, rfl⟩
      · exact ⟨_, rfl⟩
    | ended => exact ⟨_, rfl⟩
  rcases hstep with ⟨⟨s, stage, fx⟩, hstep⟩
  exact ⟨⟨stage, p.log ++ fx⟩, s, fx, hstep, rfl⟩

theorem reads_passed {stage : Stage} (h : Reads content n log stage) :
    (∀ b ∈ blocksPassed log, b ≠ [] ∧ b.length ≤ transferBufferSize) ∧
    (blocksPassed log).flatten <+: content.drop n := by
  cases stage with
  | list cmd stage => cases h
  | store stage => cases h
  | retrieve stage =>
    cases stage with
    | openFile =>
      have hstart : log = [] := h
      rw [hstart]
      exact ⟨List.forall_mem_nil _, _, rfl⟩
    | seek ins =>
      have hnone : (blocksPassed log).flatten = [] := List.append_left_eq_self.mp h.2.bytes
      rw [hnone]
      exact ⟨h.2.blocks, _, rfl⟩
    | read ins => exact ⟨h.2.blocks, h.2.startsRest⟩
    | send ins block => exact ⟨h.2.1.blocks, h.2.1.startsRest⟩
    | close ins len =>
      rcases h with ⟨rest, hpassed, -⟩
      exact ⟨hpassed.blocks, hpassed.startsRest⟩
  | shutDown job complete | closeSocket job complete | finish job complete | ended =>
    rcases h with ⟨rest, hpassed, -⟩
    exact ⟨hpassed.blocks, hpassed.startsRest⟩

/-- `retrieve_thread` passes on the file behind the restart offset in blocks of the buffer, as far as
it gets, and all of it where nothing fails.  Its loop comes to an end, whatever the size of the
file is: as long as the thread has not ended, its next step is possible, and it has not taken more
steps than there are bytes to account for them. -/
theorem retrieve_passes_rest {content : List UInt8} {n : Nat} {trace : List (Progress × View)}
    {p : Progress} (run : ThreadRun ⟨Job.retrieve.stage, []⟩ trace p)
    (hopened : ∀ q ∈ trace, q.2.answers.opened = some content)
    (hoffset : ∀ q ∈ trace, q.2.node.restartAt = n) :
    (∀ b ∈ blocksPassed p.log, b ≠ [] ∧ b.length ≤ transferBufferSize) ∧
    (blocksPassed p.log).flatten <+: content.drop n ∧
    (p.stage = .ended → Unfailing p.log → (blocksPassed p.log).flatten = content.drop n) ∧
    (p.stage ≠ .ended → trace.length < 2 * content.length + 8 ∧
      ∀ v, v.node.useDataSocket = .ok () → ∃ q, Advances p v q) := by
  -- the bound on the steps goes along with what the record says
  have hinv : Reads content n p.log p.stage ∧
      (p.stage = .ended ∨ trace.length + p.stage.stepsLeft content ≤ 2 * content.length + 8) := by
    apply run.invariant_of_trace
      (P := fun trace p ↦ Reads content n p.log p.stage ∧
        (p.stage = .ended ∨ trace.length + p.stage.stepsLeft content ≤ 2 * content.length + 8))
      (C := fun _ (v : View) ↦ v.answers.opened = some content ∧ v.node.restartAt = (n : Int))
    · refine ⟨rfl, .inr ?_⟩
      rw [List.length_nil, Nat.zero_add]
      exact Nat.le_refl _
    · rintro trace p v q ⟨hreads, hsteps⟩ ⟨hopened, hoffset⟩ hadvances
      refine ⟨advances_reads hreads hopened hoffset hadvances, ?_⟩
      by_cases hended : p.stage = .ended
      · rcases hadvances with ⟨s, fx, h, -⟩
        rw [hended] at h
        cases hq : q.stage <;> rw [hq] at h <;> cases h
        exact .inl rfl
      · have hless := advances_stepsLeft hreads hopened hadvances hended
        have hbound := hsteps.resolve_left hended
        rw [List.length_cons]
        omega
    · exact fun q hq ↦ ⟨hopened q hq, hoffset q hq⟩
  rcases hinv with ⟨hreads, hsteps⟩
  refine ⟨(reads_passed hreads).1, (reads_passed hreads).2, ?_, ?_⟩
  · intro hended hlog
    rw [hended] at hreads
    rcases hreads with ⟨rest, hpassed, hends⟩
    exact hpassed.of_unfailing hends hlog
  · intro hended
    have hbound := hsteps.resolve_left hended
    refine ⟨?_, fun v hsocket ↦ exists_advances hreads hsocket⟩
    have hpos : 0 < p.stage.stepsLeft content := by
      generalize p.stage = stage at hreads hended
      cases stage with
      | list cmd stage => cases hreads
      | store stage => cases hreads
      | retrieve stage => cases stage <;> simp [Stage.stepsLeft]
      | ended => exact absurd rfl hended
      | _ => simp [Stage.stepsLeft]
    omega

end Retrieve

namespace Sample

/-- A transfer under way, with a restart offset and a file of this content. -/
def fileView (restartAt : Int) (content : List UInt8) : View :=
  ⟨{ transferring with restartAt := restartAt }, some bob, { env, opened := some content }⟩

end Sample

-- a download that goes on behind the first byte
theorem retrieve_passes_rest_download : ∃ trace log,
    ThreadRun ⟨Job.retrieve.stage, []⟩ trace ⟨.ended, log⟩ ∧
    (blocksPassed log).flatten = [2, 3] := by
  have hadvance : Progress.advance ⟨Job.retrieve.stage, []⟩
      (List.replicate 8 (Sample.fileView 1 [1, 2, 3])) =
      .ok ⟨.ended, [.openRead "/srv/bob/notes" (some [1, 2, 3]), .seek 1 true, .block [2, 3] true,
        .finalBlock true, .reply (.create 226 "Transfer complete.")]⟩ := rfl
  rcases exists_threadRun _ hadvance with ⟨trace, run, hviews⟩
  have hview : ∀ x ∈ trace, x.2 = Sample.fileView 1 [1, 2, 3] :=
    fun x hx ↦ List.eq_of_mem_replicate (hviews x hx)
  have hpasses := retrieve_passes_rest (n := 1) run
    (fun x hx ↦ by rw [hview x hx]; rfl) (fun x hx ↦ by rw [hview x hx]; rfl)
  exact ⟨trace, _, run, hpasses.2.2.1 rfl (by unfold Unfailing; decide)⟩

/-! ## `store_thread` -/

/-- What the system answers to `store_thread` with the restart offset `n`, as long as it has its
data connection: the file held `old`, and neither `seekp` nor a write fails. -/
structure View.Stores (n : Nat) (old : List UInt8) (v : View) : Prop where
  restartAt : v.node.restartAt = n
  socket : v.node.useDataSocket = .ok ()
  opened : v.answers.opened = some old
  seek : v.answers.seek = true
  written : v.answers.written = true

/-- What the thread finds from its loop on: these blocks, each received and written, then the clean
close of the peer, and three more statements before the final block. -/
inductive Receives : List Block → List View → Prop
  | ended {v close shutDown closeSocket} (h : v.answers.received = .ended) :
    Receives [] [v, close, shutDown, closeSocket]
  | data {v w b bs vs} (h : v.answers.received = .data b) (later : Receives bs vs) :
    Receives (b :: bs) (v :: w :: vs)

/-- What the thread finds from its first statement on. -/
inductive Uploads (n : Nat) (old : List UInt8) (blocks : List Block) : List View → Prop
  | intro {mode openFile seek vs} (loop : Receives blocks vs)
    (stores : ∀ v ∈ mode :: openFile :: seek :: vs, v.Stores n old) :
    Uploads n old blocks (mode :: openFile :: seek :: vs)

/-- The bytes received. -/
def blockBytes (blocks : List Block) : List UInt8 := blocks.flatMap Block.bytes

/-- The file holds the data from the offset on, and before it what was there; it holds nothing else
where the offset is 0, and the old content followed by the data where the offset is its length. -/
structure StoredAt (n : Nat) (old data final : List UInt8) : Prop where
  inside : (final.drop n).take data.length = data
  before : final.take n = old.take n
  whole : n = 0 → final = data
  appended : n = old.length → final = old ++ data

section Store

variable {n : Nat} {old data content final : List UInt8} {blocks : List Block} {vs : List View}
  {last : View} {ofs : OutStream UInt8} {log : List ThreadEvent}

-- a file opened with `app` grows at its end
theorem storedAt_append_iff (hn : n ≤ old.length) (hpos : 0 < n) :
    StoredAt n old data (old ++ data) ↔ data <+: old.drop n ++ data := by
  rw [List.prefix_iff_eq_take, ← List.drop_append_of_le_length hn]
  constructor
  · exact fun h ↦ h.inside.symm
  · intro h
    refine ⟨h.symm, List.take_append_of_le_length hn, ?_, fun _ ↦ rfl⟩
    intro hzero
    omega

theorem storedAt_zero : StoredAt 0 old data data := by
  refine ⟨?_, rfl, fun _ ↦ rfl, ?_⟩
  · rw [List.drop_zero, List.take_length]
  · intro hlength
    rw [List.length_eq_zero_iff.mp hlength.symm, List.nil_append]

theorem Progress.advance_cons {p : Progress} {v : View} {s : Session} {stage : Stage}
    {fx : List ThreadEvent} (h : p.stage.step v.answers v.node v.user = .ok (s, stage, fx)) :
    p.advance (v :: vs) = Progress.advance ⟨stage, p.log ++ fx⟩ vs := by
  rw [Progress.advance, h]

/-- The thread comes to its end, and closes the file once on the way, with this outcome. -/
def Finishes (p : Progress) (vs : List View) (out : List UInt8 × Bool) : Prop :=
  ∃ fx, p.advance vs = .ok ⟨.ended, p.log ++ fx⟩ ∧
    ∀ final complete, .closed final complete ∈ fx ↔ (final, complete) = out

theorem Finishes.step {p : Progress} {v : View} {s : Session} {stage : Stage}
    {fx : List ThreadEvent} {out : List UInt8 × Bool}
    (hfx : ∀ final complete, .closed final complete ∉ fx)
    (hstep : p.stage.step v.answers v.node v.user = .ok (s, stage, fx))
    (h : Finishes ⟨stage, p.log ++ fx⟩ vs out) : Finishes p (v :: vs) out := by
  rcases h with ⟨later, hadvance, hclosed⟩
  refine ⟨fx ++ later, ?_, ?_⟩
  · rw [Progress.advance_cons hstep, hadvance, List.append_assoc]
  · intro final complete
    rw [List.mem_append, hclosed, or_iff_right (hfx final complete)]

-- the end of the thread, from its `close` on
theorem finishes_close {close shutDown closeSocket : View} (hbad : ofs.bad = false)
    (hshut : shutDown.node.useDataSocket = .ok ())
    (hclose : closeSocket.node.useDataSocket = .ok ()) :
    Finishes ⟨.store (.close ofs 0), log⟩ [close, shutDown, closeSocket, last]
      (ofs.close close.answers.flushed) := by
  have hstep : (Stage.store (.close ofs 0)).step close.answers close.node close.user =
      .ok (close.node.toSession, .shutDown .store true,
        [.closed (ofs.close close.answers.flushed).1 (ofs.close close.answers.flushed).2]) := by
    rw [Stage.step, StoreStage.step, hbad]
    rfl
  have hshutStep : (Stage.shutDown .store true).step shutDown.answers shutDown.node shutDown.user =
      .ok (shutDown.node.toSession, .closeSocket .store true, []) := by
    rw [Stage.step, shutDownDataSocket_of_use hshut]
    rfl
  have hcloseStep : (Stage.closeSocket .store true).step closeSocket.answers closeSocket.node
      closeSocket.user = .ok ({ closeSocket.node.toSession with dataSocket := some .closed },
        .finish .store true, []) := by
    rw [Stage.step, closeDataSocket_of_use hclose]
    rfl
  have hfinish : ∃ s fx, (Stage.finish .store true).step last.answers last.node last.user =
      .ok (s, .ended, fx) ∧ ∀ final complete, .closed final complete ∉ fx := by
    rw [Stage.step]
    split
    · exact ⟨_, _, rfl, by simp⟩
    · exact ⟨_, _, rfl, by simp⟩
  rcases hfinish with ⟨s, fx, hfinish, hfx⟩
  refine ⟨[.closed (ofs.close close.answers.flushed).1 (ofs.close close.answers.flushed).2] ++ fx,
    ?_, ?_⟩
  · rw [Progress.advance_cons hstep, Progress.advance_cons hshutStep,
      Progress.advance_cons hcloseStep, Progress.advance_cons hfinish, Progress.advance]
    simp only [List.append_nil, List.append_assoc]
  · intro final complete
    rw [List.mem_append, or_iff_left (hfx final complete), List.mem_singleton,
      ThreadEvent.closed.injEq, Prod.ext_iff]

/-- The loop writes every block behind what the stream holds. -/
theorem finishes_receive {gap : Nat} (h : Receives blocks vs) (hstores : ∀ v ∈ vs, v.Stores n old)
    (hbad : ofs.bad = false) (hgood : ofs.good = true) (hholds : ofs.Holds content gap data) :
    ∃ out, Finishes ⟨.store (.receive ofs), log⟩ (vs ++ [last]) out ∧
      (out.2 = true → out.1 = extend content gap (data ++ blockBytes blocks)) := by
  induction h generalizing ofs data log with
  | @ended v close shutDown closeSocket hreceived =>
    have hsocket := (hstores v List.mem_cons_self).socket
    have hstep : (Stage.store (.receive ofs)).step v.answers v.node v.user =
        .ok (v.node.toSession, .store (.close ofs 0), [.peerEnded]) := by
      rw [Stage.step, StoreStage.step, hsocket, hreceived]
      rfl
    refine ⟨ofs.close close.answers.flushed, ?_, ?_⟩
    · apply Finishes.step (by simp) hstep
      exact finishes_close hbad (hstores shutDown (by simp)).socket
        (hstores closeSocket (by simp)).socket
    · intro hcomplete
      have hnone : blockBytes [] = [] := rfl
      rw [hnone, List.append_nil]
      exact OutStream.close_complete hholds hcomplete
  | @data v w b bs vs hreceived later ih =>
    have hsocket := (hstores v List.mem_cons_self).socket
    have hwritten := (hstores w (by simp)).written
    have hreceive : (Stage.store (.receive ofs)).step v.answers v.node v.user =
        .ok (v.node.toSession, .store (.write ofs b), [.received b.bytes]) := by
      rw [Stage.step, StoreStage.step, hsocket, hreceived]
      rfl
    have hstream : (ofs.write b.bytes w.answers.flushed true).good = true ∧
        (ofs.write b.bytes w.answers.flushed true).bad = false := ⟨hgood, hbad⟩
    have hwrite : (Stage.store (.write ofs b)).step w.answers w.node w.user =
        .ok (w.node.toSession, .store (.receive (ofs.write b.bytes w.answers.flushed true)),
          [.written true]) := by
      rw [Stage.step, StoreStage.step, hwritten, if_pos hstream.1]
    have hlater := OutStream.write_holds hholds b.bytes w.answers.flushed true
    rcases ih (fun v hv ↦ hstores v (by simp [hv])) hstream.2 hstream.1 hlater with
      ⟨out, hfinishes, hout⟩
    refine ⟨out, ?_, ?_⟩
    · apply Finishes.step (by simp) hreceive
      exact Finishes.step (by simp) hwrite hfinishes
    · intro hcomplete
      rw [hout hcomplete, List.append_assoc]
      rfl

/-- The stream before the loop is at the end of what the file held, or on an empty file. -/
theorem finishes_upload (h : Uploads n old blocks vs) :
    ∃ out, Finishes ⟨Job.store.stage, []⟩ (vs ++ [last]) out ∧
      (out.2 = true → out.1 = if 0 < n then old ++ blockBytes blocks else blockBytes blocks) := by
  rcases h with @⟨mode, openFile, seek, vs, hloop, hstores⟩
  have hmode := (hstores mode (by simp)).restartAt
  have hopen := (hstores openFile (by simp)).opened
  have hseek := hstores seek (by simp)
  have hmodeStep : Job.store.stage.step mode.answers mode.node mode.user =
      .ok (mode.node.toSession, .store (.openFile (0 < n)), []) := by
    rw [Job.stage, Stage.step, StoreStage.step, hmode]
    simp
  have hopenStep : (Stage.store (.openFile (0 < n))).step openFile.answers openFile.node
      openFile.user = .ok (openFile.node.toSession,
        .store (.seek (0 < n) { content := if 0 < n then old else [] }),
        [.openWrite openFile.node.transferPath (0 < n) (some old)]) := by
    rw [Stage.step, StoreStage.step, hopen]
    simp
  have hseekStep : ∃ fx, (Stage.store (.seek (0 < n) { content := if 0 < n then old else [] })).step
      seek.answers seek.node seek.user = .ok (seek.node.toSession,
        .store (.receive { content := if 0 < n then old else [] }), fx) ∧
      ∀ final complete, .closed final complete ∉ fx := by
    rw [Stage.step, StoreStage.step, hseek.restartAt, hseek.seek]
    split
    · rename_i hpos
      rw [if_pos (by omega : 0 < n), decide_eq_true (by omega : 0 < n)]
      exact ⟨_, rfl, by simp⟩
    · exact ⟨_, rfl, by simp⟩
  rcases hseekStep with ⟨fx, hseekStep, hfx⟩
  have hholds : OutStream.Holds (if 0 < n then old else []) 0 []
      { content := if 0 < n then old else [] } := fun more ↦ rfl
  rcases finishes_receive hloop (fun v hv ↦ hstores v (by simp [hv])) rfl rfl hholds with
    ⟨out, hfinishes, hout⟩
  refine ⟨out, ?_, ?_⟩
  · apply Finishes.step (by simp) hmodeStep
    apply Finishes.step (by simp) hopenStep
    exact Finishes.step hfx hseekStep hfinishes
  · intro hcomplete
    rw [hout hcomplete, List.nil_append, extend, List.replicate_zero, List.append_nil]
    split
    · rename_i hnone
      rw [hnone, List.append_nil]
    · split
      · rfl
      · rfl

/-- Where every write succeeds, the last one at `close` included, the received bytes end up in the
file where the restart offset says if and only if the offset is 0, or what the file held from the
offset on, followed by them, begins with them. -/
theorem store_storesAt_iff (h : Uploads n old blocks vs) (last : View) (hn : n ≤ old.length) :
    ∃ log, Progress.advance ⟨Job.store.stage, []⟩ (vs ++ [last]) = .ok ⟨.ended, log⟩ ∧
      (∃ final complete, .closed final complete ∈ log) ∧
      ∀ final, .closed final true ∈ log → (StoredAt n old (blockBytes blocks) final ↔
        n = 0 ∨ blockBytes blocks <+: old.drop n ++ blockBytes blocks) := by
  rcases finishes_upload h with ⟨out, ⟨fx, hadvance, hclosed⟩, hout⟩
  refine ⟨fx, hadvance, ⟨out.1, out.2, (hclosed _ _).mpr rfl⟩, ?_⟩
  intro final hfinal
  have heq := (hclosed final true).mp hfinal
  rw [← heq] at hout
  have hfile : final = if 0 < n then old ++ blockBytes blocks else blockBytes blocks := hout rfl
  rw [hfile]
  by_cases hzero : n = 0
  · rw [hzero, if_neg (Nat.lt_irrefl 0)]
    exact iff_of_true storedAt_zero (.inl rfl)
  · have hpos : 0 < n := Nat.pos_of_ne_zero hzero
    rw [if_pos hpos, storedAt_append_iff hn hpos, or_iff_right hzero]

end Store

namespace Sample

/-- An upload of one block to a file of three bytes. -/
def resuming (restartAt : Int) : List View :=
  let v := fileView restartAt [7, 8, 9]
  [v, v, v, { v with answers := { v.answers with received := .data block } }, v, v,
    { v with answers := { v.answers with flushed := 3 } }, v, v]

/-- Its record. -/
def resumingLog (restartAt : Int) : List ThreadEvent :=
  [.openWrite "/srv/bob/notes" true (some [7, 8, 9]), .seek restartAt true, .received [1, 2, 3],
    .written true, .peerEnded, .closed [7, 8, 9, 1, 2, 3] true, .finalBlock true,
    .reply (.create 226 "Transfer complete.")]

theorem resuming_uploads (n : Nat) : Uploads n [7, 8, 9] [block] (resuming n) := by
  apply Uploads.intro
  · exact .data rfl (.ended rfl)
  · intro v hv
    simp only [List.mem_cons, List.not_mem_nil, or_false] at hv
    rcases hv with rfl | rfl | rfl | rfl | rfl | rfl | rfl | rfl | rfl <;>
      exact ⟨rfl, rfl, rfl, rfl, rfl⟩

end Sample

-- the upload goes on at the end of the file
theorem store_storesAt_end : ∃ log,
    Progress.advance ⟨Job.store.stage, []⟩ (Sample.resuming 3 ++ [Sample.fileView 3 []]) =
      .ok ⟨.ended, log⟩ ∧
    .closed [7, 8, 9, 1, 2, 3] true ∈ log ∧ StoredAt 3 [7, 8, 9] [1, 2, 3] [7, 8, 9, 1, 2, 3] := by
  rcases store_storesAt_iff (Sample.resuming_uploads 3) (Sample.fileView 3 []) (by decide) with
    ⟨log, hadvance, -, hstored⟩
  have heq : Progress.advance ⟨Job.store.stage, []⟩ (Sample.resuming 3 ++ [Sample.fileView 3 []]) =
      .ok ⟨.ended, Sample.resumingLog 3⟩ := rfl
  have hlog : .closed [7, 8, 9, 1, 2, 3] true ∈ log := by
    cases hadvance.symm.trans heq
    decide
  exact ⟨log, hadvance, hlog, (hstored _ hlog).mpr (.inr (by decide))⟩

/-- An upload that is to go on at the second byte of a file goes to its end. -/
theorem store_storesAt_fails : ∃ log,
    Uploads 1 [7, 8, 9] [Sample.block] (Sample.resuming 1) ∧
    Progress.advance ⟨Job.store.stage, []⟩ (Sample.resuming 1 ++ [Sample.fileView 1 []]) =
      .ok ⟨.ended, log⟩ ∧
    .closed [7, 8, 9, 1, 2, 3] true ∈ log ∧ ¬StoredAt 1 [7, 8, 9] [1, 2, 3] [7, 8, 9, 1, 2, 3] := by
  refine ⟨Sample.resumingLog 1, Sample.resuming_uploads 1, rfl, by decide, ?_⟩
  intro hstored
  exact absurd hstored.inside (by decide)

end YFtp
