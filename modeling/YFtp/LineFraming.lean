import YFtp.Chunking
import YFtp.Theory.Framing

/-!
# Line framing

What one parser makes of a byte stream, however it is cut: the lines it queues, the line it has not
come to the end of, and the lines that `GetCommand` gets.
-/

namespace YFtp

open Theory (framed unframed Framer)

namespace RequestParser

/-- A call from the session to its parser. -/
inductive Call
  | parse (data : List UInt8)
  | setStatus (blogon : Bool)

/-- The bytes that the calls bring, one after the other. -/
def streamOf (calls : List Call) : List UInt8 :=
  calls.flatMap fun
    | .parse data => data
    | .setStatus _ => []

/-- What a list of calls has done: the lines pushed to the queue, those that were handed to
`GetCommand`, and the parser at the end. -/
structure Served where
  pushed : List (List UInt8)
  handed : List (List UInt8)
  parser : RequestParser

def serveCalls (charSigned : Bool) (p : RequestParser) : List Call → Served
  | [] => ⟨[], [], p⟩
  | .setStatus blogon :: calls => serveCalls charSigned (p.setStatus blogon) calls
  | .parse data :: calls =>
    let q := p.receive charSigned data
    let later := serveCalls charSigned q.popLine calls
    ⟨p.newLines charSigned data ++ later.pushed, q.recvLineBuffer.head?.toList ++ later.handed,
      later.parser⟩

/-- No line begins with a telnet command. -/
def NoTelnet (stream : List UInt8) : Prop := ∀ run ∈ stream.splitOnP isLineEnd, run.head? ≠ some 255

instance (stream : List UInt8) : Decidable (NoTelnet stream) :=
  inferInstanceAs (Decidable (∀ run ∈ _, _))

section Framing

variable {charSigned : Bool} {p : RequestParser}

/-- The parser as a framer. -/
def framer (p : RequestParser) : Framer UInt8 := ⟨p.recvLineBuffer, p.recvBuffer⟩

theorem store_framer (b : UInt8) : (p.store b).framer = p.framer.push isLineEnd 2000 b := by
  unfold store Framer.push framer
  split
  · split <;> rfl
  · split <;> rfl

theorem store_telnetSkip (b : UInt8) : (p.store b).telnetSkip = p.telnetSkip := by
  unfold store
  split
  · split <;> rfl
  · split <;> rfl

theorem charValue_ne {b : UInt8} (h : b ≠ 255) : charValue charSigned b ≠ 255 := by
  unfold charValue
  split
  · have hlt := b.toNat_lt
    omega
  · intro heq
    apply h
    apply UInt8.toNat_inj.mp
    have hvalue : b.toNat = 255 := by exact_mod_cast heq
    exact hvalue

-- a byte that is not taken for a telnet command is stored
theorem receiveByte_store {b : UInt8} (hskip : p.telnetSkip = false)
    (hb : p.recvBuffer = [] → b ≠ 255) : p.receiveByte charSigned b = p.store b := by
  unfold receiveByte
  split
  · rename_i hbuffer
    rw [hskip, if_neg (by decide), if_neg (charValue_ne (hb hbuffer))]
  · rfl

theorem receive_framer {begun stream : List UInt8} (hskip : p.telnetSkip = false)
    (hbuffer : p.recvBuffer = begun.take 2000)
    (htelnet : ∀ run ∈ Theory.runsFrom isLineEnd begun stream, run.head? ≠ some 255) :
    (p.receive charSigned stream).framer = stream.foldl (Framer.push isLineEnd 2000) p.framer ∧
    (p.receive charSigned stream).telnetSkip = false := by
  induction stream generalizing p begun with
  | nil => exact ⟨rfl, hskip⟩
  | cons b stream ih =>
    rw [receive_cons, List.foldl_cons]
    cases hb : isLineEnd b with
    | true =>
      rw [Theory.runsFrom_end hb] at htelnet
      have hne : b ≠ 255 := by
        rintro rfl
        cases hb
      have hstored : p.receiveByte charSigned b = p.store b := receiveByte_store hskip fun _ ↦ hne
      have hempty : (p.store b).recvBuffer = List.take 2000 [] := by
        show (p.store b).framer.buffer = []
        rw [store_framer, Theory.push_buffer_end hb]
      rw [hstored, ← store_framer]
      exact ih ((store_telnetSkip b).trans hskip) hempty
        fun run hrun ↦ htelnet run (List.mem_cons_of_mem _ hrun)
    | false =>
      rw [Theory.runsFrom_cons hb] at htelnet
      have hstored : p.receiveByte charSigned b = p.store b := by
        apply receiveByte_store hskip
        rintro hnone rfl
        rw [hnone, eq_comm, List.take_eq_nil_iff, or_iff_right (by decide)] at hbuffer
        have hfirst : ∃ more, begun ++ [255] ++ more ∈
            Theory.runsFrom isLineEnd (begun ++ [255]) stream := Theory.exists_mem_runsFrom _ _
        rcases hfirst with ⟨more, hmore⟩
        rw [hbuffer] at hmore htelnet
        exact htelnet _ hmore rfl
      have hlonger : (p.store b).recvBuffer = (begun ++ [b]).take 2000 := by
        show (p.store b).framer.buffer = _
        rw [store_framer, Theory.push_buffer_cons hb hbuffer]
      rw [hstored, ← store_framer]
      exact ih ((store_telnetSkip b).trans hskip) hlonger htelnet

/-- The buffer never holds more than 2000 bytes, so that the terminating NUL has its place. -/
theorem receive_bounded (hp : p.recvBuffer.length ≤ 2000) (data : List UInt8) :
    (p.receive charSigned data).recvBuffer.length ≤ 2000 := by
  induction data generalizing p with
  | nil => exact hp
  | cons b data ih =>
    rw [receive_cons]
    apply ih
    have hstore : ∀ q : RequestParser, q.recvBuffer.length ≤ 2000 →
        (q.store b).recvBuffer.length ≤ 2000 := by
      intro q hq
      unfold store
      split
      · split
        · exact hq
        · exact Nat.zero_le _
      · split
        · rw [List.length_append, List.length_singleton]
          omega
        · exact hq
    unfold receiveByte
    split
    · split
      · split
        · exact hstore _ hp
        · exact hp
      · split
        · exact hp
        · exact hstore _ hp
    · exact hstore _ hp

-- what is handed over and what still waits is what was there and what was pushed
theorem serveCalls_queue (calls : List Call) :
    (serveCalls charSigned p calls).handed ++ (serveCalls charSigned p calls).parser.recvLineBuffer =
      p.recvLineBuffer ++ (serveCalls charSigned p calls).pushed := by
  induction calls generalizing p with
  | nil =>
    show [] ++ p.recvLineBuffer = p.recvLineBuffer ++ []
    rw [List.nil_append, List.append_nil]
  | cons call calls ih =>
    cases call with
    | setStatus blogon => exact ih
    | parse data =>
      have hq : (p.receive charSigned data).recvLineBuffer =
          p.recvLineBuffer ++ p.newLines charSigned data := receive_recvLineBuffer p data
      have hlater := ih (p := (p.receive charSigned data).popLine)
      have htail : (p.receive charSigned data).popLine.recvLineBuffer =
          (p.receive charSigned data).recvLineBuffer.tail := rfl
      rw [serveCalls]
      dsimp only
      rw [List.append_assoc, hlater, htail, ← List.append_assoc, ← List.append_assoc, ← hq]
      cases (p.receive charSigned data).recvLineBuffer <;> rfl

theorem newLines_append (p : RequestParser) (xs ys : List UInt8) :
    p.newLines charSigned (xs ++ ys) =
      p.newLines charSigned xs ++ (p.receive charSigned xs).newLines charSigned ys := by
  apply (List.append_right_inj p.recvLineBuffer).mp
  rw [← receive_recvLineBuffer, receive_append, receive_recvLineBuffer, receive_recvLineBuffer,
    List.append_assoc]

theorem newLines_setStatus (p : RequestParser) (blogon : Bool) (data : List UInt8) :
    (p.setStatus blogon).newLines charSigned data = p.newLines charSigned data := by
  unfold newLines
  have hsame : ({ p.setStatus blogon with recvLineBuffer := [] } : RequestParser) =
      ({ p with recvLineBuffer := [] } : RequestParser).setStatus blogon := rfl
  rw [hsame, receive_setStatus]
  rfl

/-- What is pushed and what stays in the buffer depends on the stream alone. -/
theorem serveCalls_stream (calls : List Call) :
    (serveCalls charSigned p calls).parser.recvBuffer =
      (p.receive charSigned (streamOf calls)).recvBuffer ∧
    (serveCalls charSigned p calls).pushed = p.newLines charSigned (streamOf calls) := by
  induction calls generalizing p with
  | nil => exact ⟨rfl, rfl⟩
  | cons call calls ih =>
    cases call with
    | setStatus blogon =>
      have hstream : streamOf (.setStatus blogon :: calls) = streamOf calls := rfl
      have hlater := ih (p := p.setStatus blogon)
      rw [receive_setStatus, newLines_setStatus] at hlater
      rw [hstream]
      exact hlater
    | parse data =>
      have hstream : streamOf (.parse data :: calls) = data ++ streamOf calls := rfl
      have hlater := ih (p := (p.receive charSigned data).popLine)
      have hpop : (p.receive charSigned data).popLine.receive charSigned (streamOf calls) =
          { (p.receive charSigned data).receive charSigned (streamOf calls) with
            recvLineBuffer := (p.receive charSigned data).recvLineBuffer.tail ++
              (p.receive charSigned data).newLines charSigned (streamOf calls) } :=
        receive_queue _ _ _
      rw [hpop] at hlater
      rw [hstream, receive_append, newLines_append]
      exact ⟨hlater.1, congrArg _ hlater.2⟩

/-- What a parser that has just been made pushes: the lines of the stream, each cut to 2000 bytes,
as long as none begins with a telnet command. -/
theorem receive_fresh (blogon : Bool) {stream : List UInt8} (h : NoTelnet stream) :
    ((setStatus {} blogon).receive charSigned stream).recvLineBuffer = framed isLineEnd 2000 stream ∧
    ((setStatus {} blogon).receive charSigned stream).recvBuffer =
      unframed isLineEnd 2000 stream := by
  have htelnet : ∀ run ∈ Theory.runsFrom isLineEnd [] stream, run.head? ≠ some 255 := by
    rw [Theory.runsFrom_nil]
    exact h
  have hfold : stream.foldl (Framer.push isLineEnd 2000) {} = _ :=
    Theory.foldl_push_nil stream (by decide)
  have hall : ((setStatus {} blogon).receive charSigned stream).framer = _ :=
    (receive_framer rfl rfl htelnet).1.trans hfold
  exact ⟨congrArg Framer.lines hall, congrArg Framer.buffer hall⟩

/-- However a stream is cut, and whatever is told to the parser in between, it pushes the lines of
the stream and keeps the beginning of the rest; its buffer never overflows; and `GetCommand` gets
the lines in their order, up to those that wait in the queue. -/
theorem serveCalls_framed (charSigned blogon : Bool) (calls : List Call)
    (h : NoTelnet (streamOf calls)) :
    let out := serveCalls charSigned (setStatus {} blogon) calls
    out.pushed = framed isLineEnd 2000 (streamOf calls) ∧
    out.parser.recvBuffer = unframed isLineEnd 2000 (streamOf calls) ∧
    (∀ data, (out.parser.receive charSigned data).recvBuffer.length ≤ 2000) ∧
    out.handed ++ out.parser.recvLineBuffer = framed isLineEnd 2000 (streamOf calls) := by
  dsimp only
  have hfresh : _ ∧ ((setStatus {} blogon).receive charSigned _).recvBuffer = _ :=
    receive_fresh blogon h
  have hstream : (serveCalls charSigned (setStatus {} blogon) calls).parser.recvBuffer = _ ∧ _ :=
    serveCalls_stream calls
  have hqueue : (serveCalls charSigned (setStatus {} blogon) calls).handed ++ _ = _ :=
    serveCalls_queue calls
  have hpushed : (serveCalls charSigned (setStatus {} blogon) calls).pushed =
      framed isLineEnd 2000 (streamOf calls) := by
    rw [hstream.2, ← hfresh.1, receive_recvLineBuffer]
    rfl
  refine ⟨hpushed, hstream.1.trans hfresh.2, ?_, ?_⟩
  · intro data
    apply receive_bounded
    rw [hstream.1]
    exact receive_bounded (Nat.zero_le _) _
  · rw [hqueue, hpushed]
    rfl

-- a call of `parse` that returns leaves the parser that is left here
theorem parse_serveCalls {p q : RequestParser} {garbage cmd : Command} {data : List UInt8}
    {result : Tribool} {reply : Reply}
    (h : p.parse charSigned garbage data = .ok (q, result, cmd, reply)) :
    (serveCalls charSigned p [.parse data]).parser = q := (parse_takes h).symm

end Framing

end RequestParser

namespace Sample

/-- Two commands in three pieces, the second one not complete. -/
def calls : List RequestParser.Call :=
  [.parse "USER bo".toUTF8.toList, .setStatus true, .parse "b\r\nPA".toUTF8.toList,
    .parse "SS".toUTF8.toList]

end Sample

theorem serveCalls_framed_calls :
    let out := RequestParser.serveCalls true {} Sample.calls
    out.pushed = ["USER bob".toUTF8.toList] ∧ out.handed = ["USER bob".toUTF8.toList] ∧
      out.parser.recvBuffer = "PASS".toUTF8.toList := by
  have hframed := RequestParser.serveCalls_framed true false Sample.calls (by decide +kernel)
  have hlines : framed isLineEnd 2000 (RequestParser.streamOf Sample.calls) =
      ["USER bob".toUTF8.toList] := by decide +kernel
  have hrest : unframed isLineEnd 2000 (RequestParser.streamOf Sample.calls) =
      "PASS".toUTF8.toList := by decide +kernel
  exact ⟨hframed.1.trans hlines, by decide +kernel, hframed.2.1.trans hrest⟩

end YFtp
