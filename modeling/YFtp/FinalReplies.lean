import YFtp.System
import YFtp.ThreadSteps

/-!
# Final replies

Whether the reply that a thread ends with says what has become of the transfer.  A thread is taken
alone here: at each of its steps the client node, the account and the answers of the system are
whatever they are, and its record says how each read, write and send went.
-/

namespace YFtp

open Theory

/-- What a thread finds at one of its steps. -/
structure View where
  node : ClientNode
  user : Option UserNode
  answers : Answers

/-- A thread and the record of what it has done, oldest first. -/
structure Progress where
  stage : Stage
  log : List ThreadEvent

/-- One step of a thread by itself. -/
def Advances (p : Progress) (v : View) (q : Progress) : Prop :=
  ∃ s fx, p.stage.step v.answers v.node v.user = .ok (s, q.stage, fx) ∧ q.log = p.log ++ fx

abbrev ThreadRun := Theory.Run Advances

/-! ## Reading the record -/

def ThreadEvent.fileRead : ThreadEvent → Option (Option (List UInt8))
  | .openRead _ content => some content
  | _ => none

def ThreadEvent.fileWritten : ThreadEvent → Option (Bool × Option (List UInt8))
  | .openWrite _ app content => some (app, content)
  | _ => none

def ThreadEvent.position : ThreadEvent → Option Nat
  | .seek pos _ => some pos.toNat
  | _ => none

def ThreadEvent.sentBytes : ThreadEvent → List UInt8
  | .block bytes true => bytes
  | _ => []

def ThreadEvent.receivedBytes : ThreadEvent → List UInt8
  | .received bytes => bytes
  | _ => []

/-- The files that were opened for reading, with their content. -/
def filesRead (log : List ThreadEvent) : List (Option (List UInt8)) :=
  log.filterMap ThreadEvent.fileRead

/-- The files that were opened for writing, with the content found and whether it was kept. -/
def filesWritten (log : List ThreadEvent) : List (Bool × Option (List UInt8)) :=
  log.filterMap ThreadEvent.fileWritten

/-- The restart offset: where a file was positioned, its beginning if it was not. -/
def offset (log : List ThreadEvent) : Nat := (log.filterMap ThreadEvent.position).headD 0

/-- The bytes of a file that went through to the peer. -/
def sentBytes (log : List ThreadEvent) : List UInt8 := log.flatMap ThreadEvent.sentBytes

/-- The bytes that came from the peer. -/
def receivedBytes (log : List ThreadEvent) : List UInt8 := log.flatMap ThreadEvent.receivedBytes

section Append

variable (log fx : List ThreadEvent)

@[simp] theorem filesRead_append : filesRead (log ++ fx) = filesRead log ++ filesRead fx :=
  List.filterMap_append

@[simp] theorem filesWritten_append :
    filesWritten (log ++ fx) = filesWritten log ++ filesWritten fx :=
  List.filterMap_append

@[simp] theorem sentBytes_append : sentBytes (log ++ fx) = sentBytes log ++ sentBytes fx :=
  List.flatMap_append

@[simp] theorem receivedBytes_append :
    receivedBytes (log ++ fx) = receivedBytes log ++ receivedBytes fx :=
  List.flatMap_append

theorem offset_append (h : fx.filterMap ThreadEvent.position = []) :
    offset (log ++ fx) = offset log := by
  unfold offset
  rw [List.filterMap_append, h, List.append_nil]

end Append

/-- The file with all the data in it: behind what it held, or behind the restart offset. -/
def storedFile (app : Bool) (content : List UInt8) (offset : Nat) (data : List UInt8) :
    List UInt8 :=
  extend (if app then content else []) (if app then 0 else offset) data

/-- Everything was transferred: every line of the listing was sent; or every byte of the file from
the restart offset on was sent; or the peer ended the stream and every byte received is in the file
after it is closed. -/
def Everything (job : Job) (log : List ThreadEvent) : Prop :=
  match job with
  | .list _ _ => ∀ text sent, .line text sent ∈ log → sent = true
  | .retrieve =>
    ∃ content, filesRead log = [some content] ∧ sentBytes log = content.drop (offset log)
  | .store => .peerEnded ∈ log ∧ ∃ app content final complete,
    filesWritten log = [(app, some content)] ∧ .closed final complete ∈ log ∧
    final = storedFile app content (offset log) (receivedBytes log)

/-- Reply 226 only if everything was transferred, and a 4xx or 5xx reply in every other case. -/
def TellsTruth (job : Job) (log : List ThreadEvent) : Prop :=
  (∀ r, .reply r ∈ log → r.code = 226 → Everything job log) ∧
  (¬Everything job log → ∃ r, .reply r ∈ log ∧ 400 ≤ r.code ∧ r.code < 600)

/-- A failure that the thread does not look at: a line of a listing that could not be sent; a
`seekg` that failed although the file has bytes at the restart offset; a `close` that could not
write out the rest of the buffer after the peer had ended the stream. -/
def Unnoticed (job : Job) (log : List ThreadEvent) : Prop :=
  match job with
  | .list _ _ => ∃ text, .line text false ∈ log
  | .retrieve => ∃ content pos, some content ∈ filesRead log ∧ .seek pos false ∈ log ∧
    pos.toNat < content.length
  | .store => .peerEnded ∈ log ∧ ∃ final, .closed final false ∈ log

/-- A failure of any kind through which something is lost. -/
def Lost (job : Job) (log : List ThreadEvent) : Prop :=
  match job with
  | .list _ _ => ∃ text, .line text false ∈ log
  | .retrieve => none ∈ filesRead log ∨ Unnoticed .retrieve log ∨
    (∃ unread, .readFailed (unread + 1) ∈ log) ∨ ∃ bytes, .block bytes false ∈ log
  | .store => (∃ app, (app, none) ∈ filesWritten log) ∨ (∃ pos, .seek pos false ∈ log) ∨
    .receiveFailed ∈ log ∨ .written false ∈ log ∨ ∃ final, .closed final false ∈ log

/-! ## What holds at each stage -/

/-- The thread has not given its final reply. -/
structure Quiet (log : List ThreadEvent) : Prop where
  replies : ∀ r, .reply r ∈ log → r.code < 200
  running : ∀ isOpen, .finalBlock isOpen ∉ log

/-- The transfer is over, and `complete` is what the thread takes it for. -/
structure Settled (job : Job) (complete : Bool) (log : List ThreadEvent) : Prop extends
    Quiet log where
  everything_iff : Everything job log ↔ ¬Lost job log
  of_complete : complete = true → (Everything job log ↔ ¬Unnoticed job log)
  of_incomplete : complete = false → ¬Unnoticed job log

/-- `retrieve_thread` in its loop: what was sent, the block at hand and the rest of the file make up
the file from the restart offset on. -/
structure Sending (log : List ThreadEvent) (ins : InStream UInt8) (block : List UInt8) : Prop extends
    Quiet log where
  file : filesRead log = [some ins.content]
  seeks : ∀ pos, .seek pos false ∉ log
  blocks : ∀ bytes, .block bytes false ∉ log
  failed : ∀ unread, .readFailed unread ∈ log ↔ ins.bad = true ∧ unread = ins.rest.length
  bytes : sentBytes log ++ block ++ ins.rest = ins.content.drop (offset log)
  sound : ins.good = true → ins.bad = false
  short : ins.good = false → ins.bad = false → ins.rest = []

/-- `store_thread` in its loop: the stream holds what was received before the block at hand. -/
structure Storing (log : List ThreadEvent) (ofs : OutStream UInt8) (block : List UInt8) : Prop
    extends Quiet log where
  file : ∃ app content written, filesWritten log = [(app, some content)] ∧
    receivedBytes log = written ++ block ∧
    ofs.Holds (if app then content else []) (if app then 0 else offset log) written
  good : ofs.good = true
  bad : ofs.bad = false
  seeks : ∀ pos, .seek pos false ∉ log
  received : .receiveFailed ∉ log
  writes : .written false ∉ log
  closed : ∀ final complete, .closed final complete ∉ log
  peerEnded : .peerEnded ∉ log

/-- `store_thread` at its `close`, with the value of `len`: the peer has ended the stream, or there
was a failure before. -/
structure Closing (log : List ThreadEvent) (ofs : OutStream UInt8) (len : Int) : Prop extends
    Quiet log where
  file : ∃ app content, filesWritten log = [(app, some content)] ∧
    (.peerEnded ∈ log →
      ofs.Holds (if app then content else []) (if app then 0 else offset log) (receivedBytes log))
  closed : ∀ final complete, .closed final complete ∉ log
  ended : .peerEnded ∈ log ↔ len = 0
  failed : .peerEnded ∉ log ↔
    (∃ pos, .seek pos false ∈ log) ∨ .receiveFailed ∈ log ∨ .written false ∈ log

/-- The record of a thread at each of its stages. -/
def Recorded (job : Job) (log : List ThreadEvent) : Stage → Prop
  | .list cmd stage => job = .list cmd true ∧ cmd.id ≠ .STAT ∧ stage ≠ .endOfStatus ∧ Quiet log
  | .retrieve .openFile => job = .retrieve ∧ log = []
  | .retrieve (.seek ins) => job = .retrieve ∧ ins = { content := ins.content } ∧
    ∃ path, log = [.openRead path (some ins.content)]
  | .retrieve (.read ins) => job = .retrieve ∧ Sending log ins [] ∧ ins.good = true
  | .retrieve (.send ins block) => job = .retrieve ∧ Sending log ins block ∧ block ≠ []
  | .retrieve (.close ins len) =>
    job = .retrieve ∧ Settled .retrieve (0 ≤ if ins.bad then -1 else len) log
  | .store .mode => job = .store ∧ log = []
  | .store (.openFile _) => job = .store ∧ log = []
  | .store (.seek app ofs) => job = .store ∧ ∃ path content,
    log = [.openWrite path app (some content)] ∧ ofs = { content := if app then content else [] }
  | .store (.receive ofs) => job = .store ∧ Storing log ofs []
  | .store (.write ofs block) => job = .store ∧ Storing log ofs block.bytes
  | .store (.close ofs len) => job = .store ∧ Closing log ofs (if ofs.bad then -1 else len)
  | .shutDown job' complete | .closeSocket job' complete | .finish job' complete =>
    job' = job ∧ Settled job complete log
  | .ended => TellsTruth job log ↔
    if .finalBlock true ∈ log then ¬Unnoticed job log else ¬Lost job log

/-! ## One step -/

section Steps

variable {a : Answers} {n : ClientNode} {user : Option UserNode} {log : List ThreadEvent}
  {r : StepResult}

theorem Quiet.nil : Quiet [] := by
  constructor
  · intro r hr
    cases hr
  · intro isOpen h
    cases h

-- a thread stays quiet with everything but a reply and the final block
theorem Quiet.append {fx : List ThreadEvent} (h : Quiet log) (hfx : Quiet fx) :
    Quiet (log ++ fx) := by
  constructor
  · intro r hr
    rcases List.mem_append.mp hr with hr | hr
    · exact h.replies r hr
    · exact hfx.replies r hr
  · intro isOpen hmem
    rcases List.mem_append.mp hmem with hmem | hmem
    · exact h.running isOpen hmem
    · exact hfx.running isOpen hmem

/-- Events that are neither a reply nor the final block. -/
def ThreadEvent.silent : ThreadEvent → Bool
  | .reply _ | .finalBlock _ => false
  | _ => true

theorem Quiet.of_silent {fx : List ThreadEvent} (h : fx.all ThreadEvent.silent = true) :
    Quiet fx := by
  rw [List.all_eq_true] at h
  constructor
  · intro r hr
    cases h _ hr
  · intro isOpen hmem
    cases h _ hmem

theorem Quiet.append_silent {fx : List ThreadEvent} (h : Quiet log)
    (hfx : fx.all ThreadEvent.silent = true) : Quiet (log ++ fx) :=
  h.append (.of_silent hfx)

/-! ### `retrieve_thread` -/

-- the loop is left with nothing at hand, at the end of the file or after an error of the device
theorem Sending.settled {ins : InStream UInt8} (h : Sending log ins [])
    (hend : ins.bad = false → ins.rest = []) :
    Settled .retrieve (0 ≤ if ins.bad then -1 else 0) log := by
  have hnoseek : ¬Unnoticed .retrieve log := by
    rintro ⟨content, pos, -, hseek, -⟩
    exact h.seeks pos hseek
  have hbytes := h.bytes
  rw [List.append_nil] at hbytes
  have heverything : Everything .retrieve log ↔ ins.rest = [] := by
    constructor
    · rintro ⟨content, hfile, hsent⟩
      cases h.file.symm.trans hfile
      rw [hsent, List.append_right_eq_self] at hbytes
      exact hbytes
    · intro hrest
      rw [hrest, List.append_nil] at hbytes
      exact ⟨ins.content, h.file, hbytes⟩
  have hlost : Lost .retrieve log ↔ ins.bad = true ∧ ins.rest ≠ [] := by
    constructor
    · rintro (hnone | hunnoticed | ⟨unread, hfailed⟩ | ⟨bytes, hblock⟩)
      · rw [h.file] at hnone
        cases List.mem_singleton.mp hnone
      · exact absurd hunnoticed hnoseek
      · have hbad := (h.failed _).mp hfailed
        refine ⟨hbad.1, ?_⟩
        intro hnil
        rw [hnil] at hbad
        exact absurd hbad.2 (Nat.succ_ne_zero unread)
      · exact absurd hblock (h.blocks bytes)
    · rintro ⟨hbad, hrest⟩
      have hpos := List.length_pos_iff.mpr hrest
      refine .inr (.inr (.inl ⟨ins.rest.length - 1, (h.failed _).mpr ⟨hbad, ?_⟩⟩))
      omega
  refine ⟨h.toQuiet, ?_, ?_, fun _ ↦ hnoseek⟩
  · rw [heverything, hlost, not_and, not_not]
    constructor
    · exact fun hrest _ ↦ hrest
    · intro himp
      cases hbad : ins.bad with
      | false => exact hend hbad
      | true => exact himp hbad
  · intro hcomplete
    have hbad : ins.bad = false := by
      by_contra hbad
      rw [Bool.not_eq_false] at hbad
      rw [hbad] at hcomplete
      exact absurd hcomplete (by decide)
    exact iff_of_true (heverything.mpr (hend hbad)) hnoseek

theorem openFile_recorded (h : RetrieveStage.openFile.step a n.toSession = .ok r) :
    Recorded .retrieve r.2.2 r.2.1 := by
  rw [RetrieveStage.step] at h
  split at h
  · cases h
    have hfile : filesRead [.openRead n.transferPath none] = [none] := rfl
    have hnosome : ¬Unnoticed .retrieve [.openRead n.transferPath none] := by
      rintro ⟨content, pos, hcontent, -, -⟩
      cases List.mem_singleton.mp hcontent
    refine ⟨rfl, .of_silent rfl, ?_, ?_, fun _ ↦ hnosome⟩
    · apply iff_of_false
      · rintro ⟨content, hcontent, -⟩
        cases hfile.symm.trans hcontent
      · exact not_not.mpr (.inl (List.mem_singleton_self _))
    · exact fun h ↦ absurd h Bool.false_ne_true
  · cases h
    exact ⟨rfl, rfl, _, rfl⟩

theorem seek_recorded {ins : InStream UInt8} {path : WString}
    (hins : ins = { content := ins.content })
    (h : (RetrieveStage.seek ins).step a n.toSession = .ok r) :
    Recorded .retrieve (.openRead path (some ins.content) :: r.2.2) r.2.1 := by
  rw [RetrieveStage.step] at h
  split at h
  · cases h
    have hquiet : Quiet [.openRead path (some ins.content), .seek n.restartAt a.seek] :=
      .of_silent rfl
    cases hseek : a.seek with
    | false =>
      rw [hseek] at hquiet
      have hunnoticed : Unnoticed .retrieve
          [.openRead path (some ins.content), .seek n.restartAt false] ↔
          n.restartAt.toNat < ins.content.length := by
        constructor
        · rintro ⟨content, pos, hcontent, hpos, hlt⟩
          cases List.mem_singleton.mp hcontent
          simp only [List.mem_cons, reduceCtorEq, ThreadEvent.seek.injEq, and_true, List.not_mem_nil,
            or_false, false_or] at hpos
          rwa [hpos] at hlt
        · exact fun hlt ↦ ⟨ins.content, n.restartAt, List.mem_singleton_self _, by simp, hlt⟩
      have heverything : Everything .retrieve
          [.openRead path (some ins.content), .seek n.restartAt false] ↔
          ins.content.length ≤ n.restartAt.toNat := by
        constructor
        · rintro ⟨content, hcontent, hsent⟩
          cases hcontent
          exact List.drop_eq_nil_iff.mp hsent.symm
        · exact fun hle ↦ ⟨ins.content, rfl, (List.drop_eq_nil_iff.mpr hle).symm⟩
      have hlost : Lost .retrieve
          [.openRead path (some ins.content), .seek n.restartAt false] ↔
          n.restartAt.toNat < ins.content.length := by
        rw [← hunnoticed]
        constructor
        · rintro (hnone | hunnoticed | ⟨unread, hfailed⟩ | ⟨bytes, hblock⟩)
          · cases List.mem_singleton.mp hnone
          · exact hunnoticed
          · simp at hfailed
          · simp at hblock
        · exact fun h ↦ .inr (.inl h)
      rw [hins]
      refine ⟨rfl, hquiet, ?_, ?_, ?_⟩
      · rw [heverything, hlost, Nat.not_lt]
      · intro _
        rw [heverything, hunnoticed, Nat.not_lt]
      · intro h
        have h : true = false := h
        cases h
    | true =>
      rw [hseek] at hquiet
      rw [hins]
      refine ⟨rfl, ⟨hquiet, rfl, ?_, ?_, ?_, rfl, fun _ ↦ rfl, ?_⟩, rfl⟩
      · simp
      · simp
      · intro unread
        apply iff_of_false
        · simp
        · exact fun h ↦ absurd h.1 Bool.false_ne_true
      · intro h
        cases h
  · cases h
    rw [hins]
    refine ⟨rfl, ⟨.of_silent rfl, rfl, ?_, ?_, ?_, rfl, fun _ ↦ rfl, ?_⟩, rfl⟩
    · simp
    · simp
    · intro unread
      apply iff_of_false
      · simp
      · exact fun h ↦ absurd h.1 Bool.false_ne_true
    · intro h
      cases h

theorem read_recorded {ins : InStream UInt8} (hsending : Sending log ins []) (hgood : ins.good = true)
    (h : (RetrieveStage.read ins).step a n.toSession = .ok r) :
    Recorded .retrieve (log ++ r.2.2) r.2.1 := by
  rw [RetrieveStage.step] at h
  have hcontent : (ins.read transferBufferSize a.reading).2.content = ins.content :=
    InStream.read_content
  have hbytes := InStream.read_append_rest transferBufferSize a.reading ins
  have hsound : (ins.read transferBufferSize a.reading).2.good = true →
      (ins.read transferBufferSize a.reading).2.bad = false :=
    InStream.read_sound (hsending.sound hgood)
  have hshort : (ins.read transferBufferSize a.reading).2.bad = false →
      (ins.read transferBufferSize a.reading).1.length < transferBufferSize →
      (ins.read transferBufferSize a.reading).2.rest = [] := InStream.rest_eq_nil_of_short
  have hgoodlt : (ins.read transferBufferSize a.reading).2.good = false →
      (ins.read transferBufferSize a.reading).1.length < transferBufferSize := InStream.read_short
  rcases hread : ins.read transferBufferSize a.reading with ⟨block, ins'⟩
  rw [hread] at h hcontent hbytes hsound hshort hgoodlt
  dsimp only at h hcontent hbytes hsound hshort hgoodlt
  cases h
  dsimp only
  -- the record says how much an error of the device has left unread
  have hsending' : Sending (log ++ if ins'.bad then [.readFailed ins'.rest.length] else []) ins'
      block := by
    have hold : ∀ unread, .readFailed unread ∉ log := by
      intro unread hmem
      have hbad := ((hsending.failed unread).mp hmem).1
      rw [hsending.sound hgood] at hbad
      cases hbad
    have hsame : ∀ (fx : List ThreadEvent), sentBytes fx = [] →
        fx.filterMap ThreadEvent.position = [] →
        sentBytes (log ++ fx) ++ block ++ ins'.rest = ins'.content.drop (offset (log ++ fx)) := by
      intro fx hsent hposition
      have hall := hsending.bytes
      rw [sentBytes_append, hsent, List.append_nil, offset_append log fx hposition, hcontent, ← hall,
        List.append_assoc, hbytes, List.append_nil]
    cases hbad : ins'.bad with
    | false =>
      rw [if_neg Bool.false_ne_true, List.append_nil]
      have hsame := hsame [] rfl rfl
      rw [List.append_nil] at hsame
      refine ⟨hsending.toQuiet, hcontent ▸ hsending.file, hsending.seeks, hsending.blocks, ?_, hsame,
        hsound, fun hend _ ↦ hshort hbad (hgoodlt hend)⟩
      intro unread
      apply iff_of_false (hold unread)
      exact fun hset ↦ absurd (hbad.symm.trans hset.1) Bool.false_ne_true
    | true =>
      rw [if_pos rfl]
      refine ⟨hsending.append_silent rfl, ?_, ?_, ?_, ?_, hsame _ rfl rfl, hsound, ?_⟩
      · rw [filesRead_append, hsending.file, hcontent]
        rfl
      · simpa using hsending.seeks
      · simpa using hsending.blocks
      · intro unread
        simp [hold, hbad]
      · exact fun _ hclear ↦ absurd (hbad.symm.trans hclear) (by decide)
  by_cases hblock : block = []
  · rw [if_pos hblock]
    subst hblock
    exact ⟨rfl, hsending'.settled fun hbad ↦ hshort hbad (by decide)⟩
  · rw [if_neg hblock]
    exact ⟨rfl, hsending', hblock⟩

theorem send_recorded {ins : InStream UInt8} {block : List UInt8} (hsending : Sending log ins block)
    (hblock : block ≠ []) (h : (RetrieveStage.send ins block).step a n.toSession = .ok r) :
    Recorded .retrieve (log ++ r.2.2) r.2.1 := by
  rw [RetrieveStage.step] at h
  rcases eq_ok_of_liftFault_bind h with ⟨-, -, h⟩
  cases h
  dsimp only
  have hquiet : Quiet (log ++ [.block block a.sent]) := hsending.append_silent rfl
  have hoffset := offset_append log [.block block a.sent] rfl
  have hfile : filesRead (log ++ [.block block a.sent]) = [some ins.content] := by
    rw [filesRead_append, hsending.file]
    rfl
  cases hsent : a.sent with
  | false =>
    rw [if_pos rfl]
    rw [hsent] at hquiet hoffset hfile
    have hnoseek : ¬Unnoticed .retrieve (log ++ [.block block false]) := by
      rintro ⟨content, pos, -, hseek, -⟩
      rcases List.mem_append.mp hseek with hseek | hseek
      · exact hsending.seeks pos hseek
      · cases List.mem_singleton.mp hseek
    refine ⟨rfl, hquiet, ?_, ?_, fun _ ↦ hnoseek⟩
    · apply iff_of_false
      · rintro ⟨content, hcontent, hall⟩
        cases hfile.symm.trans hcontent
        -- the block is missing
        have hbytes := hsending.bytes
        have hnone : sentBytes [.block block false] = [] := rfl
        rw [hoffset, ← hbytes, sentBytes_append, hnone, List.append_assoc, List.append_right_inj,
          eq_comm, List.append_eq_nil_iff] at hall
        exact hblock hall.1
      · exact not_not.mpr (.inr (.inr (.inr ⟨block, by simp⟩)))
    · intro hcomplete
      split at hcomplete
      · exact absurd hcomplete (by decide)
      · exact absurd hcomplete (by decide)
  | true =>
    rw [if_neg (by decide)]
    rw [hsent] at hquiet hoffset hfile
    have hsending' : Sending (log ++ [.block block true]) ins [] := by
      refine ⟨hquiet, hfile, ?_, ?_, ?_, ?_, hsending.sound, hsending.short⟩
      · simpa using hsending.seeks
      · simpa using hsending.blocks
      · simpa using hsending.failed
      · have hone : sentBytes [.block block true] = block := by simp [sentBytes, ThreadEvent.sentBytes]
        rw [hoffset, sentBytes_append, hone, List.append_nil]
        exact hsending.bytes
    cases hgood : ins.good with
    | true =>
      rw [if_pos rfl]
      exact ⟨rfl, hsending', hgood⟩
    | false =>
      rw [if_neg Bool.false_ne_true]
      exact ⟨rfl, hsending'.settled (hsending.short hgood)⟩

/-! ### `store_thread` -/

theorem openFile_store_recorded {app : Bool}
    (h : (StoreStage.openFile app).step a n.toSession = .ok r) :
    Recorded .store r.2.2 r.2.1 := by
  rw [StoreStage.step] at h
  split at h
  · cases h
    have hnever : .peerEnded ∉ [ThreadEvent.openWrite n.transferPath app none] := by simp
    refine ⟨rfl, .of_silent rfl, ?_, ?_, ?_⟩
    · apply iff_of_false
      · exact fun h ↦ hnever h.1
      · exact not_not.mpr (.inl ⟨app, List.mem_singleton_self _⟩)
    · exact fun h ↦ absurd h Bool.false_ne_true
    · exact fun _ h ↦ hnever h.1
  · cases h
    exact ⟨rfl, _, _, rfl, rfl⟩

theorem seek_store_recorded {app : Bool} {ofs : OutStream UInt8} {path : WString}
    {content : List UInt8} (hofs : ofs = { content := if app then content else [] })
    (h : (StoreStage.seek app ofs).step a n.toSession = .ok r) :
    Recorded .store (.openWrite path app (some content) :: r.2.2) r.2.1 := by
  rw [StoreStage.step] at h
  split at h
  · cases h
    cases hseek : a.seek with
    | false =>
      rw [hofs]
      refine ⟨rfl, .of_silent rfl, ⟨app, content, rfl, ?_⟩, ?_, ?_, ?_⟩
      · simp
      · simp
      · apply iff_of_false
        · simp
        · show ¬(-1 : Int) = 0
          decide
      · apply iff_of_true
        · simp
        · exact .inl ⟨n.restartAt, by simp⟩
    | true =>
      rw [hofs]
      refine ⟨rfl, .of_silent rfl, ⟨app, content, [], rfl, rfl, ?_⟩, rfl, rfl, ?_, ?_, ?_, ?_, ?_⟩
      · intro more
        cases app <;> rfl
      all_goals simp
  · cases h
    rw [hofs]
    refine ⟨rfl, .of_silent rfl, ⟨app, content, [], rfl, rfl, ?_⟩, rfl, rfl, ?_, ?_, ?_, ?_, ?_⟩
    · intro more
      cases app <;> rfl
    all_goals simp

theorem receive_recorded {ofs : OutStream UInt8} (hstoring : Storing log ofs [])
    (h : (StoreStage.receive ofs).step a n.toSession = .ok r) :
    Recorded .store (log ++ r.2.2) r.2.1 := by
  rw [StoreStage.step] at h
  rcases eq_ok_of_liftFault_bind h with ⟨-, -, h⟩
  rcases hstoring.file with ⟨app, content, written, hfile, hreceived, hholds⟩
  rw [List.append_nil] at hreceived
  -- what is appended opens no file and moves to no place
  have hkeeps : ∀ {f : ThreadEvent}, f.fileWritten = none → f.position = none →
      filesWritten (log ++ [f]) = [(app, some content)] ∧ offset (log ++ [f]) = offset log := by
    intro f hf hposition
    constructor
    · rw [filesWritten_append, hfile]
      simp [filesWritten, hf]
    · exact offset_append log [f] (by simp [hposition])
  split at h
  · rename_i block _
    cases h
    rcases hkeeps (f := .received block.bytes) rfl rfl with ⟨hfile', hoffset⟩
    refine ⟨rfl, hstoring.append_silent rfl, ⟨app, content, written, hfile', ?_, ?_⟩, hstoring.good,
      hstoring.bad, ?_, ?_, ?_, ?_, ?_⟩
    · rw [receivedBytes_append, hreceived]
      simp [receivedBytes, ThreadEvent.receivedBytes]
    · rw [hoffset]
      exact hholds
    · simpa using hstoring.seeks
    · simpa using hstoring.received
    · simpa using hstoring.writes
    · simpa using hstoring.closed
    · simpa using hstoring.peerEnded
  · cases h
    rcases hkeeps (f := .peerEnded) rfl rfl with ⟨hfile', hoffset⟩
    rw [Recorded, hstoring.bad]
    refine ⟨rfl, hstoring.append_silent rfl, ⟨app, content, hfile', fun _ ↦ ?_⟩, ?_, ?_, ?_⟩
    · rw [hoffset, receivedBytes_append, hreceived]
      exact (List.append_nil written).symm ▸ hholds
    · simpa using hstoring.closed
    · simp
    · apply iff_of_false
      · simp
      · simp [hstoring.seeks, hstoring.received, hstoring.writes]
  · cases h
    rcases hkeeps (f := .receiveFailed) rfl rfl with ⟨hfile', -⟩
    have hnever : .peerEnded ∉ log ++ [ThreadEvent.receiveFailed] := by
      simpa using hstoring.peerEnded
    rw [Recorded, hstoring.bad]
    refine ⟨rfl, hstoring.append_silent rfl, ⟨app, content, hfile', fun h ↦ absurd h hnever⟩,
      ?_, ?_, ?_⟩
    · simpa using hstoring.closed
    · exact iff_of_false hnever (by decide)
    · exact iff_of_true hnever (by simp)

theorem write_recorded {ofs : OutStream UInt8} {block : Block} (hstoring : Storing log ofs block.bytes)
    (h : (StoreStage.write ofs block).step a n.toSession = .ok r) :
    Recorded .store (log ++ r.2.2) r.2.1 := by
  rw [StoreStage.step] at h
  rcases hstoring.file with ⟨app, content, written, hfile, hreceived, hholds⟩
  have hfile' : filesWritten (log ++ [.written a.written]) = [(app, some content)] := by
    rw [filesWritten_append, hfile]
    rfl
  have hoffset := offset_append log [.written a.written] rfl
  have hbytes : receivedBytes (log ++ [.written a.written]) = written ++ block.bytes := by
    rw [receivedBytes_append, hreceived]
    exact List.append_nil _
  have hholds' := OutStream.write_holds hholds block.bytes a.flushed a.written
  cases h
  dsimp only
  cases hwritten : a.written with
  | true =>
    rw [hwritten] at hfile' hoffset hbytes hholds'
    have hgood : (ofs.write block.bytes a.flushed true).good = true := hstoring.good
    rw [hgood, if_pos rfl]
    refine ⟨rfl, hstoring.append_silent rfl, ⟨app, content, written ++ block.bytes, hfile', ?_, ?_⟩,
      hstoring.good, hstoring.bad, ?_, ?_, ?_, ?_, ?_⟩
    · rw [hbytes, List.append_nil]
    · rw [hoffset]
      exact hholds'
    · simpa using hstoring.seeks
    · simpa using hstoring.received
    · simpa using hstoring.writes
    · simpa using hstoring.closed
    · simpa using hstoring.peerEnded
  | false =>
    rw [hwritten] at hfile'
    have hgood : (ofs.write block.bytes a.flushed false).good = false := rfl
    have hbad : (ofs.write block.bytes a.flushed false).bad = true := rfl
    have hnever : .peerEnded ∉ log ++ [ThreadEvent.written false] := by
      simpa using hstoring.peerEnded
    rw [hgood, if_neg Bool.false_ne_true, Recorded, hbad, if_pos rfl]
    refine ⟨rfl, hstoring.append_silent rfl, ⟨app, content, hfile', fun h ↦ absurd h hnever⟩,
      ?_, ?_, ?_⟩
    · simpa using hstoring.closed
    · exact iff_of_false hnever (by decide)
    · exact iff_of_true hnever (by simp)

theorem close_recorded {ofs : OutStream UInt8} {len : Int}
    (hclosing : Closing log ofs (if ofs.bad then -1 else len))
    (h : (StoreStage.close ofs len).step a n.toSession = .ok r) :
    Recorded .store (log ++ r.2.2) r.2.1 := by
  rw [StoreStage.step] at h
  rcases hclosing.file with ⟨app, content, hfile, hholds⟩
  rcases hclose : ofs.close a.flushed with ⟨final, complete⟩
  rw [hclose] at h
  cases h
  dsimp only
  have hfile' : filesWritten (log ++ [.closed final complete]) = [(app, some content)] := by
    rw [filesWritten_append, hfile]
    rfl
  have hoffset := offset_append log [.closed final complete] rfl
  have hbytes : receivedBytes (log ++ [.closed final complete]) = receivedBytes log := by
    rw [receivedBytes_append]
    exact List.append_nil _
  have hended : .peerEnded ∈ log ++ [.closed final complete] ↔ .peerEnded ∈ log := by simp
  have hclosed : ∀ file flushed, .closed file flushed ∈ log ++ [.closed final complete] ↔
      file = final ∧ flushed = complete := by
    intro file flushed
    simp [hclosing.closed]
  have hunnoticed : Unnoticed .store (log ++ [.closed final complete]) ↔
      .peerEnded ∈ log ∧ complete = false := by
    constructor
    · rintro ⟨hpeer, file, hmem⟩
      exact ⟨hended.mp hpeer, ((hclosed _ _).mp hmem).2.symm⟩
    · rintro ⟨hpeer, hcomplete⟩
      exact ⟨hended.mpr hpeer, final, (hclosed _ _).mpr ⟨rfl, hcomplete.symm⟩⟩
  -- the file holds what was received if and only if the buffer was written out
  have heverything : Everything .store (log ++ [.closed final complete]) ↔
      .peerEnded ∈ log ∧ complete = true := by
    have hfinal : .peerEnded ∈ log → (complete = true ↔
        final = storedFile app content (offset log) (receivedBytes log)) := by
      intro hpeer
      have hstored := hholds hpeer
      cases complete with
      | true =>
        have hall := OutStream.close_complete hstored (congrArg Prod.snd hclose)
        rw [hclose] at hall
        exact iff_of_true rfl hall
      | false =>
        have hmissing := OutStream.close_incomplete hstored (congrArg Prod.snd hclose)
        rw [hclose] at hmissing
        exact iff_of_false Bool.false_ne_true hmissing
    constructor
    · rintro ⟨hpeer, app', content', file, flushed, hcontent, hmem, hall⟩
      cases hfile'.symm.trans hcontent
      rw [((hclosed _ _).mp hmem).1, hoffset, hbytes] at hall
      exact ⟨hended.mp hpeer, (hfinal (hended.mp hpeer)).mpr hall⟩
    · rintro ⟨hpeer, hcomplete⟩
      refine ⟨hended.mpr hpeer, app, content, final, complete, hfile', (hclosed _ _).mpr ⟨rfl, rfl⟩, ?_⟩
      rw [hoffset, hbytes]
      exact (hfinal hpeer).mp hcomplete
  have hlost : Lost .store (log ++ [.closed final complete]) ↔
      .peerEnded ∉ log ∨ complete = false := by
    rw [hclosing.failed]
    constructor
    · rintro (⟨app', hnone⟩ | ⟨pos, hseek⟩ | hreceive | hwrite | ⟨file, hmem⟩)
      · rw [hfile'] at hnone
        cases List.mem_singleton.mp hnone
      · exact .inl (.inl ⟨pos, by simpa using hseek⟩)
      · exact .inl (.inr (.inl (by simpa using hreceive)))
      · exact .inl (.inr (.inr (by simpa using hwrite)))
      · exact .inr ((hclosed _ _).mp hmem).2.symm
    · rintro ((⟨pos, hseek⟩ | hreceive | hwrite) | hcomplete)
      · exact .inr (.inl ⟨pos, List.mem_append_left _ hseek⟩)
      · exact .inr (.inr (.inl (List.mem_append_left _ hreceive)))
      · exact .inr (.inr (.inr (.inl (List.mem_append_left _ hwrite))))
      · exact .inr (.inr (.inr (.inr ⟨final, (hclosed _ _).mpr ⟨rfl, hcomplete.symm⟩⟩)))
  refine ⟨rfl, hclosing.append_silent rfl, ?_, ?_, ?_⟩
  · rw [heverything, hlost, not_or, not_not, Bool.not_eq_false]
  · intro hlen
    have hpeer := hclosing.ended.mpr (of_decide_eq_true hlen)
    rw [heverything, hunnoticed, and_iff_right hpeer, and_iff_right hpeer, Bool.not_eq_false]
  · intro hlen
    have hpeer := mt hclosing.ended.mp (of_decide_eq_false hlen)
    rw [hunnoticed]
    exact fun h ↦ hpeer h.1

/-! ### `list_thread` -/

-- the record of a listing holds no reply but the 150 of its first lines
theorem listing_recorded {cmd : Command} {stage : ListStage} (hid : cmd.id ≠ .STAT)
    (hstage : stage ≠ .endOfStatus) (hquiet : Quiet log) (h : stage.step a n.toSession user cmd = .ok r) :
    Recorded (.list cmd true) (log ++ r.2.2) r.2.1 := by
  have hafter : ∀ {fx : List ThreadEvent}, Quiet (log ++ fx) →
      Recorded (.list cmd true) (log ++ fx) (afterListing cmd) := by
    intro fx hfx
    unfold afterListing
    rw [if_neg hid]
    have hiff : Everything (.list cmd true) (log ++ fx) ↔
        ¬Unnoticed (.list cmd true) (log ++ fx) := by
      constructor
      · rintro hall ⟨text, hmem⟩
        cases hall text false hmem
      · intro hnone text sent hmem
        cases sent with
        | true => rfl
        | false => exact absurd ⟨text, hmem⟩ hnone
    exact ⟨rfl, hfx, hiff, fun _ ↦ hiff, fun h ↦ by cases h⟩
  have hgoes : ∀ {fx : List ThreadEvent} {next : ListStage}, next ≠ .endOfStatus →
      Quiet (log ++ fx) → Recorded (.list cmd true) (log ++ fx) (.list cmd next) := by
    intro fx next hnext hfx
    exact ⟨rfl, hid, hnext, hfx⟩
  have hsame : Quiet (log ++ []) := hquiet.append_silent rfl
  have hlisted := (list_listed h).2
  generalize r.2.1 = next, r.2.2 = fx at hlisted
  cases hlisted with
  | announces => exact hgoes (by simp) hsame
  | begins hstat => exact absurd hstat hid
  | announced =>
    refine hgoes (by simp) (hquiet.append ⟨?_, ?_⟩)
    · intro r hr
      cases List.mem_singleton.mp hr
      decide
    · intro isOpen hmem
      cases List.mem_singleton.mp hmem
  | shows | enters => exact hgoes (by simp) (hquiet.append_silent rfl)
  | misses =>
    apply hafter
    split
    · exact hsame
    · exact hquiet.append_silent rfl
  | single | skips | entry => exact hgoes (by simp) hsame
  | exhausted => exact hafter hsame
  | line hnext =>
    rw [if_neg hid]
    rcases hnext with rfl | ⟨path, -, rfl⟩
    · exact hafter (hquiet.append_silent rfl)
    · exact hgoes (by simp) (hquiet.append_silent rfl)
  | ends => exact absurd rfl hstage

/-! ### The end of a thread -/

section Ends

variable {fx : List ThreadEvent} (hfx : ∀ f ∈ fx, f.silent = false)

include hfx

theorem mem_append_ends {f : ThreadEvent} (hf : f.silent = true) : f ∈ log ++ fx ↔ f ∈ log := by
  rw [List.mem_append, or_iff_left]
  intro hmem
  rw [hfx f hmem] at hf
  cases hf

theorem filesRead_ends : filesRead (log ++ fx) = filesRead log := by
  have hnone : filesRead fx = [] := by
    apply List.filterMap_eq_nil_iff.mpr
    intro f hf
    cases f <;> first | rfl | cases hfx _ hf
  rw [filesRead_append, hnone, List.append_nil]

theorem filesWritten_ends : filesWritten (log ++ fx) = filesWritten log := by
  have hnone : filesWritten fx = [] := by
    apply List.filterMap_eq_nil_iff.mpr
    intro f hf
    cases f <;> first | rfl | cases hfx _ hf
  rw [filesWritten_append, hnone, List.append_nil]

theorem offset_ends : offset (log ++ fx) = offset log := by
  apply offset_append
  apply List.filterMap_eq_nil_iff.mpr
  intro f hf
  cases f <;> first | rfl | cases hfx _ hf

theorem sentBytes_ends : sentBytes (log ++ fx) = sentBytes log := by
  have hnone : sentBytes fx = [] := by
    apply List.flatMap_eq_nil_iff.mpr
    intro f hf
    cases f <;> first | rfl | cases hfx _ hf
  rw [sentBytes_append, hnone, List.append_nil]

theorem receivedBytes_ends : receivedBytes (log ++ fx) = receivedBytes log := by
  have hnone : receivedBytes fx = [] := by
    apply List.flatMap_eq_nil_iff.mpr
    intro f hf
    cases f <;> first | rfl | cases hfx _ hf
  rw [receivedBytes_append, hnone, List.append_nil]

-- the final block transfers nothing and loses nothing
theorem everything_ends (job : Job) : Everything job (log ++ fx) ↔ Everything job log := by
  have hmem : ∀ {f : ThreadEvent}, f.silent = true → (f ∈ log ++ fx ↔ f ∈ log) :=
    fun hf ↦ mem_append_ends hfx hf
  cases job with
  | list cmd begun =>
    unfold Everything
    apply forall_congr'
    intro text
    apply forall_congr'
    intro sent
    rw [hmem rfl]
  | retrieve =>
    unfold Everything
    rw [filesRead_ends hfx, sentBytes_ends hfx, offset_ends hfx]
  | store =>
    unfold Everything
    rw [hmem rfl, filesWritten_ends hfx, receivedBytes_ends hfx, offset_ends hfx]
    simp only [hmem (f := .closed _ _) rfl]

theorem unnoticed_ends (job : Job) : Unnoticed job (log ++ fx) ↔ Unnoticed job log := by
  have hmem : ∀ {f : ThreadEvent}, f.silent = true → (f ∈ log ++ fx ↔ f ∈ log) :=
    fun hf ↦ mem_append_ends hfx hf
  cases job with
  | list cmd begun =>
    unfold Unnoticed
    simp only [hmem (f := .line _ _) rfl]
  | retrieve =>
    unfold Unnoticed
    rw [filesRead_ends hfx]
    simp only [hmem (f := .seek _ _) rfl]
  | store =>
    unfold Unnoticed
    rw [hmem rfl]
    simp only [hmem (f := .closed _ _) rfl]

theorem lost_ends (job : Job) : Lost job (log ++ fx) ↔ Lost job log := by
  have hmem : ∀ {f : ThreadEvent}, f.silent = true → (f ∈ log ++ fx ↔ f ∈ log) :=
    fun hf ↦ mem_append_ends hfx hf
  cases job with
  | list cmd begun => exact unnoticed_ends hfx (.list cmd begun)
  | retrieve =>
    unfold Lost
    rw [filesRead_ends hfx, unnoticed_ends hfx]
    simp only [hmem (f := .readFailed _) rfl, hmem (f := .block _ _) rfl]
  | store =>
    unfold Lost
    rw [filesWritten_ends hfx, hmem (f := .receiveFailed) rfl, hmem (f := .written _) rfl]
    simp only [hmem (f := .seek _ _) rfl, hmem (f := .closed _ _) rfl]

end Ends

-- a thread that takes its transfer for complete answers 226, and 550 otherwise
theorem finalReply_code (job : Job) (complete : Bool) :
    (finalReply job complete).code = 226 ∧ (complete = true ∨ ∃ cmd begun, job = .list cmd begun) ∨
    (finalReply job complete).code = 550 ∧ complete = false := by
  cases job with
  | list cmd begun => exact .inl ⟨rfl, .inr ⟨cmd, begun, rfl⟩⟩
  | retrieve =>
    cases complete with
    | true => exact .inl ⟨rfl, .inl rfl⟩
    | false => exact .inr ⟨rfl, rfl⟩
  | store =>
    cases complete with
    | true => exact .inl ⟨rfl, .inl rfl⟩
    | false => exact .inr ⟨rfl, rfl⟩

theorem finish_recorded {job : Job} {complete : Bool} (hsettled : Settled job complete log)
    (h : (Stage.finish job complete).step a n user = .ok r) :
    Recorded job (log ++ r.2.2) r.2.1 := by
  rw [Stage.step] at h
  split at h
  · cases h
    have hends : ∀ f ∈ [ThreadEvent.finalBlock true, .reply (finalReply job complete)],
        f.silent = false := by
      intro f hf
      simp only [List.mem_cons, List.not_mem_nil, or_false] at hf
      rcases hf with rfl | rfl
      · rfl
      · rfl
    have hreplies : ∀ r, .reply r ∈ log ++ [.finalBlock true, .reply (finalReply job complete)] →
        r.code < 200 ∨ r = finalReply job complete := by
      intro r hr
      rcases List.mem_append.mp hr with hr | hr
      · exact .inl (hsettled.replies r hr)
      · exact .inr (by simpa using hr)
    have hlast : .reply (finalReply job complete) ∈
        log ++ [.finalBlock true, .reply (finalReply job complete)] := by simp
    show TellsTruth job _ ↔ _
    rw [if_pos (by simp), unnoticed_ends hends]
    unfold TellsTruth
    rw [everything_ends hends]
    rcases finalReply_code job complete with ⟨hcode, hwhole⟩ | ⟨hcode, hincomplete⟩
    · have hiff : Everything job log ↔ ¬Unnoticed job log := by
        rcases hwhole with hcomplete | ⟨cmd, begun, rfl⟩
        · exact hsettled.of_complete hcomplete
        · exact hsettled.everything_iff
      rw [← hiff]
      constructor
      · exact fun htruth ↦ htruth.1 _ hlast hcode
      · exact fun hall ↦ ⟨fun _ _ _ ↦ hall, fun hnot ↦ absurd hall hnot⟩
    · refine iff_of_true ⟨?_, fun _ ↦ ⟨_, hlast, ?_⟩⟩ (hsettled.of_incomplete hincomplete)
      · intro r hr hr226
        rcases hreplies r hr with hlt | rfl
        · omega
        · rw [hcode] at hr226
          cases hr226
      · rw [hcode]
        decide
  · cases h
    have hends : ∀ f ∈ [ThreadEvent.finalBlock false], f.silent = false := by
      intro f hf
      cases List.mem_singleton.mp hf
      rfl
    have hreplies : ∀ r, .reply r ∈ log ++ [.finalBlock false] → r.code < 200 := by
      intro r hr
      exact hsettled.replies r (by simpa using hr)
    have hclosed : .finalBlock true ∉ log ++ [.finalBlock false] := by
      simpa using hsettled.running true
    show TellsTruth job _ ↔ _
    rw [if_neg hclosed, lost_ends hends, ← hsettled.everything_iff]
    unfold TellsTruth
    rw [everything_ends hends]
    -- nothing is answered, so everything has to be there
    constructor
    · intro htruth
      by_contra hnot
      rcases htruth.2 hnot with ⟨r, hr, hle, -⟩
      have hlt := hreplies r hr
      omega
    · intro hall
      refine ⟨?_, fun hnot ↦ absurd hall hnot⟩
      intro r hr hcode
      have hlt := hreplies r hr
      omega

end Steps

/-! ## Whole runs -/

-- the step lemma
theorem advances_recorded {job : Job} {p q : Progress} {v : View} (hp : Recorded job p.log p.stage)
    (h : Advances p v q) : Recorded job q.log q.stage := by
  rcases p with ⟨stage, log⟩
  rcases q with ⟨next, newer⟩
  rcases h with ⟨s, fx, h, hlog⟩
  dsimp only at hp h hlog ⊢
  subst hlog
  cases stage with
  | list cmd stage =>
    rcases hp with ⟨rfl, hid, hstage, hquiet⟩
    exact listing_recorded hid hstage hquiet h
  | retrieve stage =>
    cases stage with
    | openFile =>
      rcases hp with ⟨rfl, rfl⟩
      exact openFile_recorded h
    | seek ins =>
      rcases hp with ⟨rfl, hins, path, rfl⟩
      exact seek_recorded hins h
    | read ins =>
      rcases hp with ⟨rfl, hsending, hgood⟩
      exact read_recorded hsending hgood h
    | send ins block =>
      rcases hp with ⟨rfl, hsending, hblock⟩
      exact send_recorded hsending hblock h
    | close ins len =>
      rcases hp with ⟨rfl, hsettled⟩
      cases h
      rw [List.append_nil]
      exact ⟨rfl, hsettled⟩
  | store stage =>
    cases stage with
    | mode =>
      rcases hp with ⟨rfl, rfl⟩
      cases h
      exact ⟨rfl, rfl⟩
    | openFile app =>
      rcases hp with ⟨rfl, rfl⟩
      exact openFile_store_recorded h
    | seek app ofs =>
      rcases hp with ⟨rfl, path, content, rfl, hofs⟩
      exact seek_store_recorded hofs h
    | receive ofs =>
      rcases hp with ⟨rfl, hstoring⟩
      exact receive_recorded hstoring h
    | write ofs block =>
      rcases hp with ⟨rfl, hstoring⟩
      exact write_recorded hstoring h
    | close ofs len =>
      rcases hp with ⟨rfl, hclosing⟩
      exact close_recorded hclosing h
  | shutDown job' complete =>
    rcases hp with ⟨rfl, hsettled⟩
    rcases eq_ok_of_liftFault_bind h with ⟨t, -, h⟩
    cases h
    rw [List.append_nil]
    exact ⟨rfl, hsettled⟩
  | closeSocket job' complete =>
    rcases hp with ⟨rfl, hsettled⟩
    rcases eq_ok_of_liftFault_bind h with ⟨t, -, h⟩
    cases h
    rw [List.append_nil]
    exact ⟨rfl, hsettled⟩
  | finish job' complete =>
    rcases hp with ⟨rfl, hsettled⟩
    exact finish_recorded hsettled h
  | ended =>
    cases h
    rw [List.append_nil]
    exact hp

/-- A thread that finds these views one after the other. -/
def Progress.advance : Progress → List View → Except ThreadFault Progress
  | p, [] => .ok p
  | p, v :: vs =>
    match p.stage.step v.answers v.node v.user with
    | .error fault => .error fault
    | .ok (_, stage, fx) => advance ⟨stage, p.log ++ fx⟩ vs

theorem exists_threadRun {p q : Progress} (vs : List View) (h : p.advance vs = .ok q) :
    ∃ trace, ThreadRun p trace q ∧ ∀ x ∈ trace, x.2 ∈ vs := by
  -- by induction on the views, for every run that leads to the first of them
  have hlater : ∀ (later : List View) (start p : Progress) (trace : List (Progress × View)),
      ThreadRun start trace p → (∀ x ∈ trace, x.2 ∈ vs) → (∀ v ∈ later, v ∈ vs) →
      p.advance later = .ok q → ∃ trace, ThreadRun start trace q ∧ ∀ x ∈ trace, x.2 ∈ vs := by
    intro later
    induction later with
    | nil =>
      intro start p trace run hbefore _ h
      cases h
      exact ⟨trace, run, hbefore⟩
    | cons v later ih =>
      intro start p trace run hbefore hlater h
      rw [Progress.advance] at h
      split at h
      · cases h
      · rename_i s stage fx hstep
        apply ih start _ _ (run.snoc ⟨s, fx, hstep, rfl⟩) _
          (fun v hv ↦ hlater v (List.mem_cons_of_mem _ hv)) h
        intro x hx
        rcases List.mem_cons.mp hx with rfl | hx
        · exact hlater v List.mem_cons_self
        · exact hbefore x hx
  exact hlater vs p p [] .refl (List.forall_mem_nil _) (fun _ hv ↦ hv) h

/-- A transfer: any job but that of STAT, which uses no data connection. -/
def Job.transfers : Job → Bool
  | .list cmd _ => cmd.id ≠ .STAT
  | .store | .retrieve => true

/-- A thread that has come to its end has told the truth if and only if it met no failure that it
does not look at, or, where the control connection was closed before it could reply, no failure at
all. -/
theorem tellsTruth_iff {job : Job} {trace : List (Progress × View)} {log : List ThreadEvent}
    (hjob : job.transfers = true) (run : ThreadRun ⟨job.stage, []⟩ trace ⟨.ended, log⟩) :
    TellsTruth job log ↔
      if .finalBlock true ∈ log then ¬Unnoticed job log else ¬Lost job log := by
  have hrun : ∀ j : Job, Recorded j [] job.stage → Recorded j log .ended := by
    intro j hstart
    apply run.invariant (P := fun p ↦ Recorded j p.log p.stage) hstart
    exact fun hp h ↦ advances_recorded hp h
  cases job with
  | list cmd begun =>
    have hid : cmd.id ≠ .STAT := by simpa [Job.transfers] using hjob
    have hend := hrun (.list cmd true) ⟨rfl, hid, by simp, .nil⟩
    exact hend
  | store => exact hrun .store ⟨rfl, rfl⟩
  | retrieve => exact hrun .retrieve ⟨rfl, rfl⟩

namespace Sample

/-- The client node of a transfer that is under way. -/
def transferring : ClientNode where
  ctrlSocket := 7
  dataSocket := some .connected
  transferPath := "/srv/bob/notes"
  user := some 1
  isLogged := true
  isCtrlCanalOpen := true

def view (answers : Answers) : View := ⟨transferring, some bob, answers⟩

/-- Three bytes from the peer. -/
def block : Block := ⟨[1, 2, 3], by decide, by decide⟩

/-- An upload of three bytes to a new file, of which so many reach it at `close`. -/
def upload (flushed : Nat) : List View :=
  [view { env }, view { env }, view { env }, view { env, received := .data block }, view { env },
    view { env }, view { env, flushed }, view { env }, view { env }, view { env }]

/-- Its record, with what the file holds afterwards. -/
def uploadLog (content : List UInt8) (complete : Bool) : List ThreadEvent :=
  [.openWrite "/srv/bob/notes" false (some []), .received [1, 2, 3], .written true, .peerEnded,
    .closed content complete, .finalBlock true, .reply (.create 226 "Transfer complete.")]

end Sample

/-- The whole block reaches the file. -/
theorem tellsTruth_upload : TellsTruth .store (Sample.uploadLog [1, 2, 3] true) := by
  have hadvance : Progress.advance ⟨Job.store.stage, []⟩ (Sample.upload 3) =
      .ok ⟨.ended, Sample.uploadLog [1, 2, 3] true⟩ := rfl
  rcases exists_threadRun _ hadvance with ⟨trace, run, -⟩
  rw [tellsTruth_iff rfl run, if_pos (by decide)]
  rintro ⟨-, final, hfinal⟩
  simp [Sample.uploadLog] at hfinal

/-- An upload is answered 226 although `close` could not write a byte of it. -/
theorem tellsTruth_fails : ∃ trace log, ThreadRun ⟨Job.store.stage, []⟩ trace ⟨.ended, log⟩ ∧
    .reply (Reply.create 226 "Transfer complete.") ∈ log ∧ ¬TellsTruth .store log := by
  have hadvance : Progress.advance ⟨Job.store.stage, []⟩ (Sample.upload 0) =
      .ok ⟨.ended, Sample.uploadLog [] false⟩ := rfl
  rcases exists_threadRun _ hadvance with ⟨trace, run, -⟩
  refine ⟨trace, _, run, by decide, ?_⟩
  intro htruth
  rcases htruth.1 (.create 226 "Transfer complete.") (by decide) rfl with
    ⟨-, app, content, final, complete, hfile, hclosed, hstored⟩
  cases hfile
  have hempty : final = [] := by
    simp only [Sample.uploadLog, List.mem_cons, reduceCtorEq, ThreadEvent.closed.injEq,
      List.not_mem_nil, or_false, false_or] at hclosed
    exact hclosed.1
  rw [hempty] at hstored
  exact absurd hstored (by decide)

end YFtp
