import YFtp.LineFraming

/-!
# Telnet codes

The parser skips telnet codes in front of a command where a plain `char` is unsigned.  Where it is
signed no byte is 255 and every byte is below 240, and the codes become part of the line.
-/

namespace YFtp

open Theory (framed Framer)

namespace RequestParser

/-- One call of `parse` for each chunk. -/
def serveChunks (charSigned : Bool) (p : RequestParser) (chunks : List (List UInt8)) : Served :=
  serveCalls charSigned p (chunks.map .parse)

/-- The parser apart from its queue. -/
def emptied (p : RequestParser) : RequestParser := { p with recvLineBuffer := [] }

/-- The same lines, queued or handed over already, and the same state of the parser. -/
structure Served.Same (out out' : Served) : Prop where
  pushed : out.pushed = out'.pushed
  lines : out.handed ++ out.parser.recvLineBuffer = out'.handed ++ out'.parser.recvLineBuffer
  parser : out.parser.emptied = out'.parser.emptied

section Codes

variable {charSigned : Bool} {p q : RequestParser} {codes line data : List UInt8} {b : UInt8}

theorem streamOf_parse (chunks : List (List UInt8)) :
    streamOf (chunks.map .parse) = chunks.flatten := by
  induction chunks with
  | nil => rfl
  | cons data chunks ih =>
    rw [List.flatten_cons, ← ih]
    rfl

theorem receive_emptied (h : p.emptied = q.emptied) (data : List UInt8) :
    (p.receive charSigned data).emptied = (q.receive charSigned data).emptied := by
  have hempty : ∀ r : RequestParser,
      (r.emptied.receive charSigned data).emptied = (r.receive charSigned data).emptied := by
    intro r
    have hqueue : r.emptied.receive charSigned data = _ := receive_queue r [] data
    rw [hqueue]
    rfl
  rw [← hempty p, h, hempty q]

theorem serveChunks_emptied (p : RequestParser) (chunks : List (List UInt8)) :
    (serveChunks charSigned p chunks).parser.emptied =
      (p.receive charSigned chunks.flatten).emptied := by
  induction chunks generalizing p with
  | nil => rfl
  | cons data chunks ih =>
    rw [List.flatten_cons, receive_append]
    show (serveChunks charSigned (p.receive charSigned data).popLine chunks).parser.emptied = _
    rw [ih]
    apply receive_emptied
    rfl

/-- However the streams are cut: the same lines and the same state when their bytes leave the same
lines and state. -/
theorem serveChunks_same {chunks alone : List (List UInt8)} :
    (serveChunks charSigned p chunks).Same (serveChunks charSigned p alone) ↔
      p.receive charSigned chunks.flatten = p.receive charSigned alone.flatten := by
  have hpushed : ∀ chunks, (serveChunks charSigned p chunks).pushed =
      p.newLines charSigned chunks.flatten := by
    intro chunks
    rw [← streamOf_parse]
    exact (serveCalls_stream _).2
  have hlines : ∀ chunks, (serveChunks charSigned p chunks).handed ++
      (serveChunks charSigned p chunks).parser.recvLineBuffer =
      (p.receive charSigned chunks.flatten).recvLineBuffer := by
    intro chunks
    rw [receive_recvLineBuffer, ← hpushed]
    exact serveCalls_queue _
  constructor
  · rintro ⟨-, hqueue, hparser⟩
    rw [hlines, hlines] at hqueue
    rw [serveChunks_emptied, serveChunks_emptied] at hparser
    have hall : ∀ r : RequestParser, r = { r.emptied with recvLineBuffer := r.recvLineBuffer } :=
      fun _ ↦ rfl
    rw [hall (p.receive _ _), hparser, hqueue, ← hall]
  · intro h
    have hnew : p.newLines charSigned chunks.flatten = p.newLines charSigned alone.flatten := by
      apply (List.append_right_inj p.recvLineBuffer).mp
      rw [← receive_recvLineBuffer, ← receive_recvLineBuffer, h]
    refine ⟨?_, ?_, ?_⟩
    · rw [hpushed, hpushed, hnew]
    · rw [hlines, hlines, h]
    · rw [serveChunks_emptied, serveChunks_emptied, h]

/-! ## Unsigned characters -/

theorem receive_skipped (hbuffer : p.recvBuffer = []) (hskip : p.telnetSkip = true)
    (hcodes : ∀ b ∈ codes, 240 ≤ b) : p.receive false codes = p := by
  induction codes with
  | nil => rfl
  | cons b codes ih =>
    rw [List.forall_mem_cons] at hcodes
    have hb : 240 ≤ b.toNat := UInt8.le_iff_toNat_le.mp hcodes.1
    have hbyte : p.receiveByte false b = p := by
      unfold receiveByte
      rw [if_pos hbuffer, hskip, if_pos rfl, if_neg]
      show ¬ (b.toNat : Int) < 240
      omega
    rw [receive_cons, hbyte, ih hcodes.2]

theorem receive_codes (hbuffer : p.recvBuffer = []) (hhead : codes.head? = some 255)
    (hcodes : ∀ b ∈ codes, 240 ≤ b) : p.receive false codes = { p with telnetSkip := true } := by
  rcases List.head?_eq_some_iff.mp hhead with ⟨rest, rfl⟩
  rw [List.forall_mem_cons] at hcodes
  have hbyte : p.receiveByte false 255 = { p with telnetSkip := true } := by
    unfold receiveByte
    rw [if_pos hbuffer]
    cases hskip : p.telnetSkip with
    | true =>
      rw [if_pos rfl, if_neg (by decide), ← hskip]
    | false =>
      rw [if_neg Bool.false_ne_true, if_pos (by decide)]
  rw [receive_cons, hbyte]
  exact receive_skipped hbuffer rfl hcodes.2

-- the first byte of a command ends the skipping
theorem receive_command (hbuffer : p.recvBuffer = []) (hb : b < 240) :
    ({ p with telnetSkip := true } : RequestParser).receive false (b :: data) =
      p.receive false (b :: data) := by
  have hvalue : charValue false b < 240 := by
    have hlt := UInt8.lt_iff_toNat_lt.mp hb
    show (b.toNat : Int) < 240
    have hbound : (240 : UInt8).toNat = 240 := rfl
    omega
  have hbyte : ({ p with telnetSkip := true } : RequestParser).receiveByte false b =
      p.receiveByte false b := by
    unfold receiveByte
    dsimp only
    rw [if_pos hbuffer, if_pos hbuffer, if_pos rfl, if_pos hvalue]
    cases hskip : p.telnetSkip with
    | true => rw [if_pos rfl, if_pos hvalue]
    | false => rw [if_neg Bool.false_ne_true, if_neg (by omega), ← hskip]
  rw [receive_cons, receive_cons, hbyte]

/-! ## Signed characters -/

theorem charValue_signed (b : UInt8) : charValue true b < 240 := by
  have hlt := b.toNat_lt
  unfold charValue
  split
  · omega
  · rename_i h
    rw [Bool.true_and, decide_eq_true_iff, UInt8.le_iff_toNat_le] at h
    have hbound : (128 : UInt8).toNat = 128 := rfl
    omega

theorem receiveByte_signed (p : RequestParser) (b : UInt8) :
    (p.receiveByte true b).framer = p.framer.push isLineEnd 2000 b := by
  have hvalue := charValue_signed b
  unfold receiveByte
  rw [if_pos hvalue]
  split
  · split
    · rw [store_framer]
      rfl
    · rw [if_neg (by omega), store_framer]
  · rw [store_framer]

theorem receive_signed (p : RequestParser) (data : List UInt8) :
    (p.receive true data).framer = data.foldl (Framer.push isLineEnd 2000) p.framer := by
  induction data generalizing p with
  | nil => rfl
  | cons b data ih => rw [receive_cons, List.foldl_cons, ih, receiveByte_signed]

theorem isLineEnd_of_code (hb : 240 ≤ b) : isLineEnd b = false := by
  have hle := UInt8.le_iff_toNat_le.mp hb
  unfold isLineEnd
  simp only [Bool.or_eq_false_iff, decide_eq_false_iff_not]
  refine ⟨⟨?_, ?_⟩, ?_⟩
  all_goals
    rintro rfl
    exact absurd hle (by decide)

theorem runsFrom_codes (begun : List UInt8) (hcodes : ∀ b ∈ codes, 240 ≤ b) (data : List UInt8) :
    Theory.runsFrom isLineEnd begun (codes ++ data) =
      Theory.runsFrom isLineEnd (begun ++ codes) data := by
  induction codes generalizing begun with
  | nil => rw [List.append_nil, List.nil_append]
  | cons b codes ih =>
    rw [List.forall_mem_cons] at hcodes
    rw [List.cons_append, Theory.runsFrom_cons (isLineEnd_of_code hcodes.1), ih _ hcodes.2,
      List.append_assoc, List.singleton_append]

-- the first run of a stream begins as the stream does
theorem head?_run {runs : List (List UInt8)} {run : List UInt8}
    (h : line.splitOnP isLineEnd = run :: runs) (b : UInt8) (hb : run.head? = some b) :
    line.head? = some b := by
  cases line with
  | nil =>
    cases h
    cases hb
  | cons c line =>
    rw [List.splitOnP_cons_eq_if_modifyHead] at h
    split at h
    · cases h
      cases hb
    · cases hruns : line.splitOnP isLineEnd with
      | nil => exact absurd hruns (List.splitOnP_ne_nil isLineEnd line)
      | cons more runs =>
        rw [hruns] at h
        cases h
        exact hb

/-- The lines that the bytes push from an empty buffer. -/
theorem receive_lines (hbuffer : p.recvBuffer = []) (data : List UInt8) :
    (p.receive true data).recvLineBuffer = p.recvLineBuffer ++ framed isLineEnd 2000 data := by
  have hfold : data.foldl (Framer.push isLineEnd 2000) ⟨p.recvLineBuffer, [].take 2000⟩ = _ :=
    Theory.foldl_push data [] p.recvLineBuffer (by decide)
  have hframer : p.framer = ⟨p.recvLineBuffer, [].take 2000⟩ := congrArg (Framer.mk _) hbuffer
  rw [← hframer, ← receive_signed, Theory.runsFrom_nil] at hfold
  exact congrArg Framer.lines hfold

theorem framed_codes (hhead : codes.head? = some 255) (hcodes : ∀ b ∈ codes, 240 ≤ b)
    (hline : line.head? ≠ some 255) :
    framed isLineEnd 2000 (codes ++ (line ++ [13, 10])) ≠
      framed isLineEnd 2000 (line ++ [13, 10]) := by
  have hruns : (line ++ [13, 10]).splitOnP isLineEnd = line.splitOnP isLineEnd ++ [[], []] :=
    List.splitOnP_append_cons line [10] rfl
  have hbegun : (codes ++ (line ++ [13, 10])).splitOnP isLineEnd =
      ((line ++ [13, 10]).splitOnP isLineEnd).modifyHead (codes ++ ·) := by
    rw [← Theory.runsFrom_nil, runsFrom_codes [] hcodes]
    rfl
  unfold framed
  rw [hbegun, hruns]
  cases hsplit : line.splitOnP isLineEnd with
  | nil => exact absurd hsplit (List.splitOnP_ne_nil isLineEnd line)
  | cons run runs =>
    rcases List.head?_eq_some_iff.mp hhead with ⟨rest, rfl⟩
    rw [List.cons_append, List.modifyHead_cons, List.dropLast_cons_of_ne_nil (by simp),
      List.dropLast_cons_of_ne_nil (by simp), List.filter_cons_of_pos (by simp), List.map_cons]
    intro h
    by_cases hrun : run = []
    · -- the codes alone are one line more
      rw [hrun, List.filter_cons_of_neg (by simp)] at h
      have hlength := congrArg List.length h
      rw [List.length_cons] at hlength
      omega
    · rw [List.filter_cons_of_pos (by simpa using hrun), List.map_cons, List.cons_eq_cons] at h
      have hfirst := congrArg List.head? h.1
      rw [List.cons_append, List.take_succ_cons, List.head?_cons, List.head?_take] at hfirst
      exact hline (head?_run hsplit 255 hfirst.symm)

/-! ## Codes in front of a command -/

/-- The codes are ignored exactly where characters are unsigned. -/
theorem ignores_codes {chunks alone : List (List UInt8)} (hbuffer : p.recvBuffer = [])
    (hhead : codes.head? = some 255) (hcodes : ∀ b ∈ codes, 240 ≤ b)
    (hline : ∀ b ∈ line.head?, b < 240) (hchunks : chunks.flatten = codes ++ (line ++ [13, 10]))
    (halone : alone.flatten = line ++ [13, 10]) :
    (serveChunks charSigned p chunks).Same (serveChunks charSigned p alone) ↔
      charSigned = false := by
  rw [serveChunks_same, hchunks, halone]
  cases charSigned with
  | false =>
    apply iff_of_true _ rfl
    rw [receive_append, receive_codes hbuffer hhead hcodes]
    cases line with
    | nil => exact receive_command hbuffer (by decide)
    | cons b line => exact receive_command hbuffer (hline b rfl)
  | true =>
    apply iff_of_false _ (by decide)
    intro h
    have hlines := congrArg recvLineBuffer h
    rw [receive_lines hbuffer, receive_lines hbuffer, List.append_right_inj] at hlines
    refine framed_codes hhead hcodes (fun hfirst ↦ ?_) hlines
    exact absurd (hline 255 hfirst) (by decide)

end Codes

end RequestParser

namespace Sample

/-- IAC IP IAC DM, as a client sends them before ABOR. -/
def codes : List UInt8 := [255, 244, 255, 242]

def abor : List UInt8 := "ABOR".toUTF8.toList

/-- The codes and the command in three pieces. -/
def interrupted : List (List UInt8) := [[255, 244, 255], [242, 65, 66], [79, 82, 13, 10]]

end Sample

open RequestParser (serveChunks)

theorem ignores_codes_unsigned : (serveChunks false {} Sample.interrupted).Same
    (serveChunks false {} [Sample.abor ++ [13, 10]]) := by
  have hcut : Sample.interrupted.flatten = Sample.codes ++ (Sample.abor ++ [13, 10]) := by
    decide +kernel
  have halone : [Sample.abor ++ [13, 10]].flatten = Sample.abor ++ [13, 10] := by decide +kernel
  exact (RequestParser.ignores_codes rfl rfl (by decide +kernel) (by decide +kernel) hcut halone).mpr
    rfl

/-- Where characters are signed, the command is the codes and ABOR together. -/
theorem ignores_codes_fails :
    Sample.codes.head? = some 255 ∧ (∀ b ∈ Sample.codes, 240 ≤ b) ∧
    Sample.interrupted.flatten = Sample.codes ++ (Sample.abor ++ [13, 10]) ∧
    ¬ (serveChunks true {} Sample.interrupted).Same
      (serveChunks true {} [Sample.abor ++ [13, 10]]) := by
  refine ⟨rfl, by decide +kernel, by decide +kernel, fun h ↦ ?_⟩
  exact absurd h.pushed (by decide +kernel)

end YFtp
