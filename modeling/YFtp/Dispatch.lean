import YFtp.Steps

/-!
# Dispatch

What one call of `process_command` hands to the command switch.  While a line is waiting, the call
does what is done for that line.  Otherwise `parse` returns indeterminate, `tribresult != true` is
indeterminate too, and the switch runs on the uninitialised `cmd`.
-/

namespace YFtp

namespace RequestParser

/-- How many lines with some text the bytes end.  `started` tells whether text of the first line has
come before, and `skip` whether telnet characters are being skipped. -/
def lineCount (charSigned : Bool) : Bool → Bool → List UInt8 → Nat
  | _, _, [] => 0
  | started, skip, b :: data =>
    if !started && skip && !(charValue charSigned b < 240) then lineCount charSigned false true data
    else if !started && !skip && charValue charSigned b = 255 then
      lineCount charSigned false true data
    else if isLineEnd b then started.toNat + lineCount charSigned false (skip && started) data
    else lineCount charSigned true (skip && started) data

/-- A line is waiting in the queue, or the chunk ends one. -/
def LineWaiting (charSigned : Bool) (p : RequestParser) (data : List UInt8) : Prop :=
  p.recvLineBuffer ≠ [] ∨ 0 < lineCount charSigned (p.recvBuffer ≠ []) p.telnetSkip data

instance (charSigned : Bool) (p : RequestParser) (data : List UInt8) :
    Decidable (LineWaiting charSigned p data) :=
  inferInstanceAs (Decidable (_ ∨ _))

variable {charSigned : Bool} {p : RequestParser}

theorem lineCount_cons (started skip : Bool) (b : UInt8) (data : List UInt8) :
    lineCount charSigned started skip (b :: data)
      = if !started && skip && !(charValue charSigned b < 240) then
          lineCount charSigned false true data
        else if !started && !skip && charValue charSigned b = 255 then
          lineCount charSigned false true data
        else if isLineEnd b then started.toNat + lineCount charSigned false (skip && started) data
        else lineCount charSigned true (skip && started) data := rfl

theorem receive_cons (b : UInt8) (data : List UInt8) :
    p.receive charSigned (b :: data) = (p.receiveByte charSigned b).receive charSigned data := rfl

theorem receive_append (xs ys : List UInt8) :
    p.receive charSigned (xs ++ ys) = (p.receive charSigned xs).receive charSigned ys :=
  List.foldl_append ..

/-- The queue grows by the lines that the chunk ends. -/
theorem length_receive (data : List UInt8) :
    (p.receive charSigned data).recvLineBuffer.length
      = p.recvLineBuffer.length + lineCount charSigned (p.recvBuffer ≠ []) p.telnetSkip data := by
  induction data generalizing p with
  | nil => simp [receive, lineCount]
  | cons b data ih =>
    rw [receive_cons, ih]
    rcases p with ⟨queue, buffer, skip, loggedon⟩
    unfold receiveByte store
    rw [lineCount_cons]
    by_cases hbuffer : buffer = []
    · -- at the beginning of a line telnet characters are left out
      subst hbuffer
      cases skip with
      | true =>
        by_cases hb : charValue charSigned b < 240
        · by_cases hend : isLineEnd b = true <;> simp [hb, hend]
        · simp [hb]
      | false =>
        by_cases hb : charValue charSigned b = 255
        · simp [hb]
        · by_cases hend : isLineEnd b = true <;> simp [hb, hend]
    · by_cases hend : isLineEnd b = true
      · simp [hbuffer, hend, Nat.add_assoc]
      · by_cases hlength : buffer.length < 2000 <;> simp [hbuffer, hend, hlength]

/-- The queue is not empty once the chunk is received exactly when a line is waiting. -/
theorem receive_ne_nil (data : List UInt8) :
    (p.receive charSigned data).recvLineBuffer ≠ [] ↔ LineWaiting charSigned p data := by
  unfold LineWaiting
  rw [← List.length_pos_iff, ← List.length_pos_iff, length_receive]
  omega

theorem receiveByte_setStatus (b : UInt8) (blogon : Bool) :
    (p.setStatus blogon).receiveByte charSigned b
      = (p.receiveByte charSigned b).setStatus blogon := by
  have hstore : ∀ q : RequestParser, (q.setStatus blogon).store b = (q.store b).setStatus blogon := by
    intro q
    unfold store setStatus
    split
    · split <;> rfl
    · split <;> rfl
  unfold receiveByte
  split
  · rename_i hbuffer
    rw [if_pos (show p.recvBuffer = [] from hbuffer)]
    split
    · rename_i hskip
      rw [if_pos (show p.telnetSkip = true from hskip)]
      split
      · rw [← hstore]
        rfl
      · rfl
    · rename_i hskip
      rw [if_neg (show ¬p.telnetSkip = true from hskip)]
      split
      · rfl
      · exact hstore p
  · rename_i hbuffer
    rw [if_neg (show ¬p.recvBuffer = [] from hbuffer)]
    exact hstore p

/-- `parse` is indeterminate exactly when it finds no line. -/
theorem parse_cases (charSigned : Bool) (p : RequestParser) (garbage : Command)
    (data : List UInt8) :
    ((p.receive charSigned data).recvLineBuffer = [] ∧ p.parse charSigned garbage data
      = .ok (p.receive charSigned data, .indeterminate, garbage, {})) ∨
    ((p.receive charSigned data).recvLineBuffer ≠ [] ∧
      ((∃ fault, p.parse charSigned garbage data = .error fault) ∨
       ∃ q result cmd reply, p.parse charSigned garbage data = .ok (q, result, cmd, reply) ∧
        (result = .yes ∨ result = .no))) := by
  unfold parse
  dsimp only
  cases (p.receive charSigned data).recvLineBuffer with
  | nil => exact .inl ⟨rfl, rfl⟩
  | cons line lines =>
    refine .inr ⟨nofun, ?_⟩
    dsimp only
    split
    · exact .inl ⟨_, rfl⟩
    · split
      · exact .inr ⟨_, _, _, _, rfl, .inr rfl⟩
      · exact .inr ⟨_, _, _, _, rfl, .inl rfl⟩

/-- The login state plays no part in receiving. -/
theorem receive_setStatus (blogon : Bool) (data : List UInt8) :
    (p.setStatus blogon).receive charSigned data
      = (p.receive charSigned data).setStatus blogon := by
  induction data generalizing p with
  | nil => rfl
  | cons b data ih => rw [receive_cons, receive_cons, receiveByte_setStatus, ih]

end RequestParser

namespace FtpServer

variable {build : Build} {env : Env} {garbage : Command} {σ : FtpServer} {k : Connection}
  {data line : List UInt8} {lines : List (List UInt8)}

/-- The parser with which a call of `process_command` on the connection starts. -/
def startParser (σ : FtpServer) (k : Connection) : RequestParser :=
  ((σ.clientFor k).1.nodes (σ.clientFor k).2).requestParser

/-- The call takes the first waiting line out of the queue and processes it. -/
theorem processCommand_line
    (h : ((σ.startParser k).receive build.charSigned data).recvLineBuffer = line :: lines) :
    σ.processCommand build env garbage k data = σ.processLine build env k line
      { (σ.startParser k).receive build.charSigned data with recvLineBuffer := lines } := by
  unfold startParser at h ⊢
  unfold processCommand processLine
  generalize hfor : σ.clientFor k = found at h ⊢
  rcases found with ⟨σ', c⟩
  dsimp only at h ⊢
  rw [RequestParser.parse, RequestParser.receive_setStatus]
  simp only [RequestParser.setStatus, h]
  cases hcommand : RequestParser.getCommand (σ'.nodes c).isLogged line with
  | error fault => rfl
  | ok r =>
    rcases r with ⟨cmd, reply⟩
    dsimp only
    by_cases hid : cmd.id = .invalid
    · rw [if_pos hid, if_pos hid]
      rfl
    · rw [if_neg hid, if_neg hid]
      rfl

/-- Without a waiting line the switch runs on what `cmd` happens to hold. -/
theorem processCommand_garbage
    (h : ((σ.startParser k).receive build.charSigned data).recvLineBuffer = []) :
    σ.processCommand build env garbage k data
      = ((σ.clientFor k).1.setParser (σ.clientFor k).2
          (((σ.startParser k).receive build.charSigned data).setStatus
            ((σ.clientFor k).1.nodes (σ.clientFor k).2).isLogged)).dispatch build env
          (σ.clientFor k).2 garbage := by
  unfold startParser at h ⊢
  unfold processCommand
  generalize hfor : σ.clientFor k = found at h ⊢
  rcases found with ⟨σ', c⟩
  dsimp only at h ⊢
  rw [RequestParser.parse, RequestParser.receive_setStatus]
  simp only [RequestParser.setStatus, h]
  rfl

/-- The call dispatches the command of a complete line and nothing else: the switch runs on what
`parse` has produced with a definite answer, and without one nothing happens but that the parser
keeps what it has received. -/
def DispatchesComplete (build : Build) (env : Env) (garbage : Command) (σ : FtpServer)
    (k : Connection) (data : List UInt8) : Prop :=
  let (σ', c) := σ.clientFor k
  let n := σ'.nodes c
  match (n.requestParser.setStatus n.isLogged).parse build.charSigned garbage data with
  | .error fault => σ.processCommand build env garbage k data = .error fault
  | .ok (parser, .yes, cmd, _) =>
    σ.processCommand build env garbage k data = (σ'.setParser c parser).dispatch build env c cmd
  | .ok (parser, .no, _, ftpreply) =>
    σ.processCommand build env garbage k data
      = .ok { server := σ'.setParser c parser, reply := ftpreply }
  | .ok (parser, .indeterminate, _, _) =>
    σ.processCommand build env garbage k data = .ok { server := σ'.setParser c parser }

/-- The switch leaves a trace of the command it ran on. -/
theorem dispatch_ne_quiet {c : ClientRef} {cmd : Command} {a : Answer} (ha : a.effects = []) :
    σ.dispatch build env c cmd ≠ .ok a := by
  intro h
  rcases eq_ok_of_map h with ⟨b, -, rfl⟩
  cases ha

/-- Where no line is waiting, the switch runs all the same. -/
theorem not_dispatchesComplete
    (h : ((σ.startParser k).receive build.charSigned data).recvLineBuffer = []) :
    ¬DispatchesComplete build env garbage σ k data := by
  unfold DispatchesComplete
  rw [processCommand_garbage h]
  unfold startParser at h
  generalize hfor : σ.clientFor k = found at h ⊢
  rcases found with ⟨σ', c⟩
  dsimp only at h ⊢
  rcases RequestParser.parse_cases build.charSigned
      ((σ'.nodes c).requestParser.setStatus (σ'.nodes c).isLogged) garbage data with
    ⟨-, hparse⟩ | ⟨hline, -⟩
  · rw [hparse]
    exact dispatch_ne_quiet rfl
  · rw [RequestParser.receive_setStatus] at hline
    exact absurd h hline

theorem dispatchesComplete_of_line
    (h : ((σ.startParser k).receive build.charSigned data).recvLineBuffer ≠ []) :
    DispatchesComplete build env garbage σ k data := by
  unfold startParser at h
  unfold DispatchesComplete processCommand
  generalize hfor : σ.clientFor k = found at h ⊢
  rcases found with ⟨σ', c⟩
  dsimp only at h ⊢
  rcases RequestParser.parse_cases build.charSigned
      ((σ'.nodes c).requestParser.setStatus (σ'.nodes c).isLogged) garbage data with
    ⟨hnone, -⟩ | ⟨-, ⟨fault, hparse⟩ | ⟨q, result, cmd, reply, hparse, hresult⟩⟩
  · rw [RequestParser.receive_setStatus] at hnone
    exact absurd hnone h
  · rw [hparse]
  · rw [hparse]
    rcases hresult with rfl | rfl <;> rfl

/-- Nothing but the command of a complete line is dispatched, exactly as long as a line is
waiting. -/
theorem dispatchesComplete_iff (build : Build) (env : Env) (garbage : Command) (σ : FtpServer)
    (k : Connection) (data : List UInt8) :
    DispatchesComplete build env garbage σ k data ↔
      (σ.startParser k).LineWaiting build.charSigned data := by
  rw [← RequestParser.receive_ne_nil]
  exact ⟨fun h hnone ↦ not_dispatchesComplete hnone h, dispatchesComplete_of_line⟩

/-- The first two letters of a command, with a zeroed `cmd`, are answered as an unknown command. -/
theorem dispatchesComplete_fails : Initial Sample.server ∧
    ¬DispatchesComplete {} Sample.env .none Sample.server Sample.connection
      "NO".toUTF8.toList ∧
    ∃ a, Sample.server.processCommand {} Sample.env .none Sample.connection "NO".toUTF8.toList
        = .ok a ∧
      a.effects = [.switch .none] ∧ a.reply = .create 500 "Command not understood." := by
  refine ⟨Sample.initial, not_dispatchesComplete (by decide +kernel), ?_⟩
  have h : (Sample.server.processCommand {} Sample.env .none Sample.connection
      "NO".toUTF8.toList).toOption.any (fun a ↦ a.effects = [.switch .none] ∧
        a.reply = .create 500 "Command not understood.") = true := by decide +kernel
  rw [Option.any_eq_true] at h
  rcases h with ⟨a, ha, h⟩
  exact ⟨a, eq_ok_of_toOption ha, of_decide_eq_true h⟩

end FtpServer

end YFtp
