import YFtp.Theory.BatchQueue
import YFtp.ParserState

/-!
# Chunking

A chunk may end any number of lines, and each call of `process_command` takes one of them, so the
lines of a stream stand in a queue that is served once for each chunk.  Cutting the stream elsewhere
changes which lines are waiting at the end.
-/

namespace YFtp

open Theory (serve)

namespace RequestParser

variable {charSigned : Bool}

/-- The lines that a chunk ends. -/
def newLines (charSigned : Bool) (p : RequestParser) (data : List UInt8) : List (List UInt8) :=
  (({ p with recvLineBuffer := [] } : RequestParser).receive charSigned data).recvLineBuffer

/-- The lines that the chunks of a stream end, chunk by chunk. -/
def batches (charSigned : Bool) : RequestParser → List (List UInt8) → List (List (List UInt8))
  | _, [] => []
  | p, data :: rest =>
    newLines charSigned p data :: batches charSigned (p.receive charSigned data) rest

/-- Receiving only adds to the end of the queue. -/
theorem receiveByte_queue (p : RequestParser) (queue : List (List UInt8)) (b : UInt8) :
    ({ p with recvLineBuffer := queue ++ p.recvLineBuffer } : RequestParser).receiveByte charSigned b
      = { p.receiveByte charSigned b with
          recvLineBuffer := queue ++ (p.receiveByte charSigned b).recvLineBuffer } := by
  have hstore : ∀ q : RequestParser,
      ({ q with recvLineBuffer := queue ++ q.recvLineBuffer } : RequestParser).store b
        = { q.store b with recvLineBuffer := queue ++ (q.store b).recvLineBuffer } := by
    intro q
    unfold store
    split
    · split
      · rfl
      · simp only [List.append_assoc]
    · split <;> rfl
  unfold receiveByte
  dsimp only
  split
  · split
    · split
      · exact hstore { p with telnetSkip := false }
      · rfl
    · split
      · rfl
      · exact hstore p
  · exact hstore p

theorem receive_behind (p : RequestParser) (queue : List (List UInt8)) (data : List UInt8) :
    ({ p with recvLineBuffer := queue ++ p.recvLineBuffer } : RequestParser).receive charSigned data
      = { p.receive charSigned data with
          recvLineBuffer := queue ++ (p.receive charSigned data).recvLineBuffer } := by
  induction data generalizing p with
  | nil => rfl
  | cons b data ih => rw [receive_cons, receive_cons, receiveByte_queue, ih]

/-- Which lines a chunk ends does not depend on the lines that are waiting. -/
theorem receive_queue (p : RequestParser) (queue : List (List UInt8)) (data : List UInt8) :
    ({ p with recvLineBuffer := queue } : RequestParser).receive charSigned data
      = { p.receive charSigned data with recvLineBuffer := queue ++ newLines charSigned p data } := by
  have hbehind : ∀ q, ({ p with recvLineBuffer := q } : RequestParser).receive charSigned data
      = { ({ p with recvLineBuffer := [] } : RequestParser).receive charSigned data with
          recvLineBuffer := q ++ newLines charSigned p data } := by
    intro q
    have h : RequestParser.receive charSigned { p with recvLineBuffer := q ++ [] } data = _ :=
      receive_behind { p with recvLineBuffer := [] } q data
    rwa [List.append_nil] at h
  have hsame := hbehind p.recvLineBuffer
  rw [hbehind queue]
  change p.receive charSigned data = _ at hsame
  rw [hsame]

theorem receive_recvLineBuffer (p : RequestParser) (data : List UInt8) :
    (p.receive charSigned data).recvLineBuffer = p.recvLineBuffer ++ newLines charSigned p data :=
  congrArg recvLineBuffer (receive_queue p p.recvLineBuffer data)

@[simp] theorem length_batches (p : RequestParser) (chunks : List (List UInt8)) :
    (batches charSigned p chunks).length = chunks.length := by
  induction chunks generalizing p with
  | nil => rfl
  | cons data rest ih => rw [batches, List.length_cons, List.length_cons, ih]

theorem batches_take (p : RequestParser) (chunks : List (List UInt8)) (i : Nat) :
    batches charSigned p (chunks.take i) = (batches charSigned p chunks).take i := by
  induction chunks generalizing p i with
  | nil => rw [List.take_nil, batches, List.take_nil]
  | cons data rest ih =>
    cases i with
    | zero => rfl
    | succ i => rw [List.take_succ_cons, batches, batches, List.take_succ_cons, ih]

theorem batches_append (p : RequestParser) (chunks later : List (List UInt8)) :
    batches charSigned p (chunks ++ later)
      = batches charSigned p chunks
        ++ batches charSigned (p.receive charSigned chunks.flatten) later := by
  induction chunks generalizing p with
  | nil => rfl
  | cons data rest ih =>
    rw [List.cons_append, batches, batches, ih, List.flatten_cons, receive_append, List.cons_append]

/-- However the stream is cut, the same lines arrive. -/
theorem receive_flatten (p : RequestParser) (chunks : List (List UInt8)) :
    (p.receive charSigned chunks.flatten).recvLineBuffer
      = p.recvLineBuffer ++ (batches charSigned p chunks).flatten := by
  induction chunks generalizing p with
  | nil => simp [receive, batches]
  | cons data rest ih =>
    rw [List.flatten_cons, receive_append, ih, receive_recvLineBuffer, batches, List.flatten_cons,
      List.append_assoc]

end RequestParser

namespace FtpServer

/-- The parser of the client node that is registered for the handle, or of a fresh one. -/
def parserOf (σ : FtpServer) (s : Handle) : RequestParser :=
  match σ.findClient s with
  | some c => (σ.nodes c).requestParser
  | none => {}

/-- The chunks that a run receives on the handle, in order. -/
def chunksOf (s : Handle) : List (FtpServer × Event Chunk) → List (List UInt8)
  | [] => []
  | (_, .receive h chunk) :: trace =>
    if h = s then chunksOf s trace ++ [chunk.data] else chunksOf s trace
  | _ :: trace => chunksOf s trace

/-- The line that each chunk of a run hands to the command dispatcher; `none` where the dispatcher
runs without a line. -/
def handedOf (build : Build) (s : Handle) :
    List (FtpServer × Event Chunk) → List (Option (List UInt8))
  | [] => []
  | (σ, .receive h chunk) :: trace =>
    if h = s then handedOf build s trace
      ++ [((σ.parserOf s).receive build.charSigned chunk.data).recvLineBuffer.head?]
    else handedOf build s trace
  | _ :: trace => handedOf build s trace

/-- The chunk is received on an open connection whose client node is registered. -/
def Attended (s : Handle) (p : FtpServer × Event Chunk) : Prop :=
  ∀ chunk, p.2 = .receive s chunk →
    (p.1.connections.find? (·.handle = s)).isSome = true ∧ p.1.findClient s ≠ none

/-- The complete lines of the first `i` chunks, after those that were waiting before. -/
def linesOf (build : Build) (s : Handle) (ρ : FtpServer) (chunks : List (List UInt8)) (i : Nat) :
    List (List UInt8) :=
  ((ρ.parserOf s).receive build.charSigned (chunks.take i).flatten).recvLineBuffer

/-- How many lines are complete with the first `i` chunks. -/
def lineCountOf (build : Build) (s : Handle) (ρ : FtpServer) (chunks : List (List UInt8)) (i : Nat) :
    Nat :=
  (ρ.parserOf s).recvLineBuffer.length + RequestParser.lineCount build.charSigned
    ((ρ.parserOf s).recvBuffer ≠ []) (ρ.parserOf s).telnetSkip (chunks.take i).flatten

/-- Every complete line has been handed to the dispatcher, in order, and no line is waiting. -/
structure LinesHanded (build : Build) (s : Handle) (ρ : FtpServer)
    (trace : List (FtpServer × Event Chunk)) (τ : FtpServer) : Prop where
  handed : (handedOf build s trace).filterMap id
    = linesOf build s ρ (chunksOf s trace) (chunksOf s trace).length
  waiting : ∀ c, τ.findClient s = some c → (τ.nodes c).requestParser.recvLineBuffer = []

/-- Besides the complete lines nothing has been dispatched. -/
structure OnlyLinesHanded (build : Build) (s : Handle) (ρ : FtpServer)
    (trace : List (FtpServer × Event Chunk)) (τ : FtpServer) : Prop extends
    LinesHanded build s ρ trace τ where
  only : none ∉ handedOf build s trace

/-- The lines come in time to be taken: at no point are more of them still to come than chunks, and
there are no more of them than chunks. -/
def LinesInTime (build : Build) (s : Handle) (ρ : FtpServer) (chunks : List (List UInt8)) : Prop :=
  lineCountOf build s ρ chunks chunks.length ≤ chunks.length ∧
    ∀ i ≤ chunks.length, lineCountOf build s ρ chunks chunks.length + i
      ≤ lineCountOf build s ρ chunks i + chunks.length

/-- Each chunk finds one line: in the end as many lines are complete as chunks have come, and never
fewer on the way. -/
def OneLineEach (build : Build) (s : Handle) (ρ : FtpServer) (chunks : List (List UInt8)) : Prop :=
  lineCountOf build s ρ chunks chunks.length = chunks.length ∧
    ∀ i ≤ chunks.length, i ≤ lineCountOf build s ρ chunks i

section Stream

variable {build : Build} {σ ρ τ : FtpServer} {s : Handle} {k : Connection}
  {older trace : List (FtpServer × Event Chunk)} {line data : List UInt8} {garbage : Command}
  {env : Env} {lines : List (List UInt8)}

theorem startParser_eq (σ : FtpServer) (k : Connection) :
    σ.startParser k = σ.parserOf k.handle := by
  unfold parserOf
  cases hfind : σ.findClient k.handle with
  | none => exact startParser_of_unregistered hfind
  | some c => exact startParser_of_registered hfind

/-- A line that is handed over is processed. -/
theorem processCommand_handed
    (h : ((σ.parserOf k.handle).receive build.charSigned data).recvLineBuffer = line :: lines) :
    σ.processCommand build env garbage k data = σ.processLine build env k line
      { (σ.parserOf k.handle).receive build.charSigned data with recvLineBuffer := lines } := by
  rw [← startParser_eq] at h ⊢
  exact processCommand_line h

theorem linesOf_eq (build : Build) (s : Handle) (ρ : FtpServer) (chunks : List (List UInt8))
    (i : Nat) : linesOf build s ρ chunks i = (ρ.parserOf s).recvLineBuffer
      ++ ((RequestParser.batches build.charSigned (ρ.parserOf s) chunks).take i).flatten := by
  rw [linesOf, RequestParser.receive_flatten, RequestParser.batches_take]

theorem other_event (build : Build) (σ : FtpServer) (trace : List (FtpServer × Event Chunk))
    {e : Event Chunk} (h : ∀ input, e ≠ .receive s input) :
    chunksOf s ((σ, e) :: trace) = chunksOf s trace ∧
      handedOf build s ((σ, e) :: trace) = handedOf build s trace := by
  cases e with
  | receive g chunk =>
    have hne : g ≠ s := fun heq ↦ h chunk (heq ▸ rfl)
    exact ⟨if_neg hne, if_neg hne⟩
  | connect | close | worker | admin => exact ⟨rfl, rfl⟩

/-- One call: the parser goes on with what the queue has left, and hands over its first line. -/
theorem held_chunk (build : Build) {p q : RequestParser} {left : List (List UInt8)}
    (h : p.held = RequestParser.held { q with recvLineBuffer := left }) (data : List UInt8) :
    (p.receive build.charSigned data).held = RequestParser.held
      { q.receive build.charSigned data with
        recvLineBuffer := left ++ q.newLines build.charSigned data } := by
  rw [RequestParser.held_receive, h, ← RequestParser.held_receive, RequestParser.receive_queue]

/-- The run lemma: what has been handed over is what the queue has served, and what it has left is
waiting in the parser of the client node. -/
theorem run_serves (hρ : Consistent ρ) (run : ChunkRun build ρ trace τ)
    (hattended : ∀ p ∈ trace, Attended s p) :
    handedOf build s trace = (serve (ρ.parserOf s).recvLineBuffer
      (RequestParser.batches build.charSigned (ρ.parserOf s) (chunksOf s trace))).1 ∧
    ∀ c, τ.findClient s = some c → ((τ.nodes c).requestParser).held
      = RequestParser.held
        { (ρ.parserOf s).receive build.charSigned (chunksOf s trace).flatten with
          recvLineBuffer := (serve (ρ.parserOf s).recvLineBuffer
            (RequestParser.batches build.charSigned (ρ.parserOf s) (chunksOf s trace))).2 } := by
  induction run with
  | refl =>
    refine ⟨rfl, fun c hc ↦ ?_⟩
    unfold parserOf
    rw [hc]
    rfl
  | @snoc trace σ e τ before last ih =>
    rcases ih (fun p hp ↦ hattended p (List.mem_cons_of_mem _ hp)) with ⟨hhanded, hleft⟩
    have hσ : Consistent σ := before.invariant hρ
      fun ht ⟨_, hstep⟩ ↦ exec_consistent (onChunk_serving build) ht hstep
    by_cases hother : ∀ input, e ≠ .receive s input
    · rcases other_event build σ trace hother with ⟨hchunks, hsame⟩
      rw [hchunks, hsame]
      refine ⟨hhanded, fun c hc ↦ ?_⟩
      rcases run_between hσ (.snoc .refl last) (by simpa using hother) hc with ⟨hc, hparser⟩
      rw [hparser]
      exact hleft c hc
    · push Not at hother
      rcases hother with ⟨chunk, rfl⟩
      rcases hattended _ List.mem_cons_self chunk rfl with ⟨hopen, hregistered⟩
      rcases Option.isSome_iff_exists.mp hopen with ⟨k, hk⟩
      rcases Option.ne_none_iff_exists'.mp hregistered with ⟨c, hc⟩
      have hsocket : k.handle = s := by simpa using List.find?_some hk
      have hstart : σ.parserOf s = (σ.nodes c).requestParser := by
        unfold parserOf
        rw [hc]
      rcases last with ⟨fs, hstep⟩
      rcases exec_chunk hσ hk hstep with ⟨hparser, honly⟩
      have hheld := held_chunk build (hstart ▸ hleft c hc) chunk.data
      have hqueue := congrArg RequestParser.recvLineBuffer hheld
      rw [RequestParser.held_recvLineBuffer, RequestParser.held_recvLineBuffer] at hqueue
      have hchunks : chunksOf s ((σ, .receive s chunk) :: trace)
          = chunksOf s trace ++ [chunk.data] := if_pos rfl
      rw [hchunks, RequestParser.batches_append, Theory.serve_append]
      constructor
      · rw [handedOf, if_pos rfl, hhanded, hqueue]
        rfl
      · intro d hd
        rw [honly d hd, hparser, startParser_eq, hsocket, RequestParser.held_popLine, hheld,
          List.flatten_append, RequestParser.receive_append, List.flatten_singleton]
        rfl

theorem length_linesOf (chunks : List (List UInt8)) (i : Nat) :
    (linesOf build s ρ chunks i).length = lineCountOf build s ρ chunks i :=
  RequestParser.length_receive _

theorem linesOf_all (chunks : List (List UInt8)) :
    linesOf build s ρ chunks chunks.length = (ρ.parserOf s).recvLineBuffer
      ++ (RequestParser.batches build.charSigned (ρ.parserOf s) chunks).flatten := by
  rw [linesOf_eq, List.take_of_length_le (by simp)]

/-- The lines that come with the chunks after the first `i`. -/
theorem length_later (build : Build) (s : Handle) (ρ : FtpServer) (chunks : List (List UInt8))
    (i : Nat) :
    lineCountOf build s ρ chunks chunks.length = lineCountOf build s ρ chunks i
      + ((RequestParser.batches build.charSigned (ρ.parserOf s) chunks).drop i).flatten.length := by
  rw [← length_linesOf, ← length_linesOf, linesOf_all, linesOf_eq, ← List.length_append,
    List.append_assoc, ← List.flatten_append, List.take_append_drop]

/-- All lines have been handed over exactly if the queue has nothing left. -/
theorem linesHanded_iff_left (hρ : Consistent ρ) (run : ChunkRun build ρ trace τ)
    (hattended : ∀ p ∈ trace, Attended s p) :
    LinesHanded build s ρ trace τ ↔ (serve (ρ.parserOf s).recvLineBuffer
      (RequestParser.batches build.charSigned (ρ.parserOf s) (chunksOf s trace))).2 = [] := by
  rcases run_serves hρ run hattended with ⟨hhanded, hheld⟩
  rw [Theory.left_eq_nil_iff_served, ← linesOf_all, ← hhanded]
  refine ⟨LinesHanded.handed, fun h ↦ ⟨h, fun c hc ↦ ?_⟩⟩
  rw [hhanded, linesOf_all, ← Theory.left_eq_nil_iff_served] at h
  rw [← RequestParser.held_recvLineBuffer, hheld c hc, h]
  rfl

/-- In every run in which the chunks are received on a registered connection, all complete lines
have been handed over, and none is waiting, exactly if they came in time; and nothing else has been
dispatched exactly if each chunk found one line. -/
theorem linesHanded_iff (hσ : Initial σ) (first : ChunkRun build σ older ρ)
    (run : ChunkRun build ρ trace τ) (hattended : ∀ p ∈ trace, Attended s p) :
    (LinesHanded build s ρ trace τ ↔ LinesInTime build s ρ (chunksOf s trace)) ∧
    (OnlyLinesHanded build s ρ trace τ ↔ OneLineEach build s ρ (chunksOf s trace)) := by
  have hρ := chunkRun_consistent hσ first
  have hhanded := (run_serves hρ run hattended).1
  have hleft := linesHanded_iff_left hρ run hattended
  constructor
  · rw [hleft, Theory.left_eq_nil_iff, ← linesOf_all, length_linesOf, RequestParser.length_batches]
    refine and_congr_right fun _ ↦ forall₂_congr fun i hi ↦ ?_
    have hlater := length_later build s ρ (chunksOf s trace) i
    omega
  · have hserved := Theory.served_eq_all_iff (ρ.parserOf s).recvLineBuffer
      (RequestParser.batches build.charSigned (ρ.parserOf s) (chunksOf s trace))
    simp only [← linesOf_all, ← linesOf_eq, length_linesOf, RequestParser.length_batches]
      at hserved
    rw [OneLineEach, ← hserved, ← hhanded]
    constructor
    · rintro ⟨hlines, honly⟩
      rw [← hlines.handed]
      exact (Theory.map_some_filterMap honly).symm
    · intro h
      refine ⟨hleft.mpr ?_, ?_⟩
      · rw [Theory.left_eq_nil_iff_served, ← hhanded, ← linesOf_all, h, Theory.filterMap_map_some]
      · rw [h]
        simp

end Stream

instance (build : Build) (s : Handle) (ρ : FtpServer) (chunks : List (List UInt8)) :
    Decidable (OneLineEach build s ρ chunks) :=
  inferInstanceAs (Decidable (_ ∧ _))

/-- Two commands, each in a chunk of its own, are both handed over. -/
theorem linesHanded_login : ∃ older ρ trace τ, ChunkRun {} Sample.server older ρ ∧
    ChunkRun {} ρ trace τ ∧
    trace.map (·.2) = [Sample.chunk "NOOP\r\n", Sample.chunk "PASS pw\r\n"] ∧
    OnlyLinesHanded {} 7 ρ trace τ := by
  rcases exists_chunkRun_of {} Sample.server
      [.connect Sample.connection, Sample.chunk "USER bob\r\n"]
      (fun r ↦ (execAll (onChunk {}) [] r.2
        [Sample.chunk "PASS pw\r\n", Sample.chunk "NOOP\r\n"]).toOption.any fun q ↦
          q.1.all (fun p ↦ (p.1.connections.find? (·.handle = 7)).isSome &&
            (p.1.findClient 7).isSome) &&
          OneLineEach {} 7 r.2 (chunksOf 7 q.1))
      (by decide +kernel) with ⟨older, ρ, first, -, h⟩
  rcases exists_chunkRun_of {} ρ _ _ h with ⟨trace, τ, run, hevents, h⟩
  simp only [Bool.and_eq_true, List.all_eq_true, decide_eq_true_eq] at h
  refine ⟨older, ρ, trace, τ, first, run, hevents,
    (linesHanded_iff Sample.initial first run fun p hp _ _ ↦ ?_).2.mpr h.2⟩
  exact ⟨(h.1 p hp).1, Option.ne_none_iff_isSome.mpr (h.1 p hp).2⟩

/-- The same two commands in one chunk: the second waits in the queue. -/
theorem linesHanded_fails : Initial Sample.server ∧
    ∃ older ρ trace τ, ChunkRun {} Sample.server older ρ ∧ ChunkRun {} ρ trace τ ∧
      trace.map (·.2) = [Sample.chunk "PASS pw\r\nNOOP\r\n"] ∧
      (∀ p ∈ trace, Attended 7 p) ∧
      handedOf {} 7 trace = [some "PASS pw".toUTF8.toList] ∧
      (∃ c, τ.findClient 7 = some c ∧
        (τ.nodes c).requestParser.recvLineBuffer = ["NOOP".toUTF8.toList]) ∧
      ¬LinesHanded {} 7 ρ trace τ := by
  refine ⟨Sample.initial, ?_⟩
  rcases exists_chunkRun_of {} Sample.server
      [.connect Sample.connection, Sample.chunk "USER bob\r\n"]
      (fun r ↦ (execAll (onChunk {}) [] r.2
        [Sample.chunk "PASS pw\r\nNOOP\r\n"]).toOption.any fun q ↦
          q.1.all (fun p ↦ (p.1.connections.find? (·.handle = 7)).isSome &&
            (p.1.findClient 7).isSome) &&
          handedOf {} 7 q.1 = [some "PASS pw".toUTF8.toList] &&
          (q.2.findClient 7).any fun c ↦
            (q.2.nodes c).requestParser.recvLineBuffer = ["NOOP".toUTF8.toList])
      (by decide +kernel) with ⟨older, ρ, first, -, h⟩
  rcases exists_chunkRun_of {} ρ _ _ h with ⟨trace, τ, run, hevents, h⟩
  simp only [Bool.and_eq_true, List.all_eq_true, decide_eq_true_eq, Option.any_eq_true] at h
  rcases h with ⟨⟨hattended, hhanded⟩, c, hc, hqueue⟩
  refine ⟨older, ρ, trace, τ, first, run, hevents, fun p hp _ _ ↦ ?_, hhanded, ⟨c, hc, hqueue⟩,
    fun h ↦ ?_⟩
  · exact ⟨(hattended p hp).1, Option.ne_none_iff_isSome.mpr (hattended p hp).2⟩
  · rw [h.waiting c hc] at hqueue
    cases hqueue

end FtpServer

end YFtp
