import YFtp.Wide

/-!
# The request parser

`request_parser.cpp`: received bytes are cut into lines, queued, and taken out of the queue one for
each call of `parse`.
-/

namespace YFtp

/-- `commands`. -/
inductive Commands
  | invalid | USER | PASS | QUIT | CWD | PWD | PORT | PASV | TYPE | LIST | REST | CDUP | RETR | STOR
  | SIZE | DELE | RMD | MKD | RNFR | RNTO | ABOR | SYST | NOOP | APPE | NLST | MDTM | NOP | EPSV
  | EPRT | AUTH | ADAT | PBSZ | PROT | FEAT | MODE | OPTS | HELP | ALLO | MLST | MLSD | SITE
  | PASVSMC | STRU | CLNT | MFMT | HASH | REIN | STAT | STOU
deriving DecidableEq, Repr

/-- `t_command`. -/
structure Command where
  id : Commands
  args : WString
  hasArgs : Bool
  validBeforeLogon : Bool
deriving DecidableEq, Repr

/-- The value `{ commands::invalid, L"", false, false }`. -/
def Command.none : Command := ⟨.invalid, [], false, false⟩

/-- `boost::tribool`. -/
inductive Tribool
  | yes
  | no
  | indeterminate
deriving DecidableEq, Repr

/-- `operator!=` on `tribool`: indeterminate as soon as one side is. -/
def Tribool.ne : Tribool → Tribool → Tribool
  | .indeterminate, _ => .indeterminate
  | _, .indeterminate => .indeterminate
  | a, b => if a = b then .no else .yes

/-- An `if` whose condition is a `tribool` is taken only when it is definitely true. -/
def Tribool.taken : Tribool → Bool
  | .yes => true
  | _ => false

def commandEntry (name : String) (id : Commands) (hasArgs validBeforeLogon : Bool) :
    WString × Command :=
  (name, ⟨id, [], hasArgs, validBeforeLogon⟩)

/-- `command_map`. -/
def commandMap : List (WString × Command) := [
  commandEntry "USER" .USER true true,
  commandEntry "PASS" .PASS false true,
  commandEntry "QUIT" .QUIT false true,
  commandEntry "CWD" .CWD false false,
  commandEntry "PWD" .PWD false false,
  commandEntry "PORT" .PORT true false,
  commandEntry "PASV" .PASV false false,
  commandEntry "TYPE" .TYPE true false,
  commandEntry "LIST" .LIST false false,
  commandEntry "REST" .REST true false,
  commandEntry "CDUP" .CDUP false false,
  commandEntry "RETR" .RETR true false,
  commandEntry "STOR" .STOR true false,
  commandEntry "STOU" .STOU true false,
  commandEntry "SIZE" .SIZE true false,
  commandEntry "DELE" .DELE true false,
  commandEntry "RMD" .RMD true false,
  commandEntry "MKD" .MKD true false,
  commandEntry "RNFR" .RNFR true false,
  commandEntry "RNTO" .RNTO true false,
  commandEntry "ABOR" .ABOR false false,
  commandEntry "SYST" .SYST false true,
  commandEntry "NOOP" .NOOP false false,
  commandEntry "APPE" .APPE true false,
  commandEntry "NLST" .NLST false false,
  commandEntry "MDTM" .MDTM true false,
  commandEntry "XPWD" .PWD false false,
  commandEntry "XCUP" .CDUP false false,
  commandEntry "XMKD" .MKD true false,
  commandEntry "XRMD" .RMD true false,
  commandEntry "XCWD" .CWD true false,
  commandEntry "NOP" .NOP false false,
  commandEntry "EPSV" .EPSV false false,
  commandEntry "EPRT" .EPRT true false,
  commandEntry "AUTH" .AUTH true true,
  commandEntry "ADAT" .ADAT true true,
  commandEntry "PBSZ" .PBSZ true true,
  commandEntry "PROT" .PROT true true,
  commandEntry "FEAT" .FEAT false true,
  commandEntry "MODE" .MODE true false,
  commandEntry "OPTS" .OPTS true true,
  commandEntry "HELP" .HELP false true,
  commandEntry "ALLO" .ALLO false false,
  commandEntry "MLST" .MLST false false,
  commandEntry "MLSD" .MLSD false false,
  commandEntry "SITE" .SITE true true,
  commandEntry "P@SW" .PASVSMC false false,
  commandEntry "STRU" .STRU true false,
  commandEntry "CLNT" .CLNT true true,
  commandEntry "MFMT" .MFMT true false,
  commandEntry "HASH" .HASH true false,
  commandEntry "REIN" .REIN false false,
  commandEntry "STAT" .STAT false false]

/-- `request_parser`, less its time stamps.  `recvBuffer` holds the first `m_nRecvBufferPos` bytes
of `m_RecvBuffer`. -/
structure RequestParser where
  recvLineBuffer : List (List UInt8) := []
  recvBuffer : List UInt8 := []
  telnetSkip : Bool := false
  loggedon : Bool := false
deriving DecidableEq, Repr

/-- The value of a plain `char`, which is signed on some targets. -/
def charValue (charSigned : Bool) (b : UInt8) : Int :=
  if charSigned && 128 ≤ b then (b.toNat : Int) - 256 else b.toNat

/-- `'\r'`, `'\n'` and NUL end a line. -/
def isLineEnd (b : UInt8) : Bool := b = 13 || b = 0 || b = 10

namespace RequestParser

def setStatus (p : RequestParser) (blogon : Bool) : RequestParser := { p with loggedon := blogon }

/-- The part of the loop body of `parse` below the removal of telnet characters. -/
def store (p : RequestParser) (b : UInt8) : RequestParser :=
  if isLineEnd b then
    if p.recvBuffer = [] then p
    else { p with recvLineBuffer := p.recvLineBuffer ++ [p.recvBuffer], recvBuffer := [] }
  -- a longer line is cut off: what does not fit is dropped
  else if p.recvBuffer.length < 2000 then { p with recvBuffer := p.recvBuffer ++ [b] }
  else p

/-- The loop body of `parse`. -/
def receiveByte (charSigned : Bool) (p : RequestParser) (b : UInt8) : RequestParser :=
  if p.recvBuffer = [] then
    if p.telnetSkip then
      if charValue charSigned b < 240 then { p with telnetSkip := false }.store b else p
    -- with signed characters no byte is 255, and every byte is below 240
    else if charValue charSigned b = 255 then { p with telnetSkip := true }
    else p.store b
  else p.store b

/-- The loop of `parse` over the received bytes. -/
def receive (charSigned : Bool) (p : RequestParser) (data : List UInt8) : RequestParser :=
  data.foldl (receiveByte charSigned) p

/-- `MapCommand`. -/
def mapCommand (loggedon : Bool) (command args : WString) : Command × Reply :=
  match commandMap.lookup command with
  | some entry =>
    if entry.hasArgs && args = [] then (.none, .create 501 "Syntax error.")
    else if !loggedon && !entry.validBeforeLogon then
      (.none, .create 530 "Please log in with USER and PASS first.")
    else ({ entry with args := args }, {})
  | none => (.none, .create 500 "Syntax error, command unrecognized.")

/-- `GetCommand` once it has taken `line` out of the queue. -/
def getCommand (loggedon : Bool) (line : List UInt8) : Except Fault (Command × Reply) :=
  match utf82ws line with
  | none => .error .rangeError
  | some str2 =>
    let command := str2.takeWhile (· != ' ')
    let upper := command.map Char.toUpper
    match str2.dropWhile (· != ' ') with
    | [] | [_] => if command = [] then .ok (.none, {}) else .ok (mapCommand loggedon upper [])
    | _ :: args =>
      -- a blank at the very end counts as no argument, so this is never taken
      if args = [] then .ok (.none, .create 501 "Syntax error, failed to decode string.")
      else if command = [] then .ok (.none, {})
      else .ok (mapCommand loggedon upper args)

/-- `request_parser::parse`.  The output parameter `cmd` is written only when a line was waiting. -/
def parse (charSigned : Bool) (p : RequestParser) (cmd : Command) (data : List UInt8) :
    Except Fault (RequestParser × Tribool × Command × Reply) :=
  let p := p.receive charSigned data
  match p.recvLineBuffer with
  | [] => .ok (p, .indeterminate, cmd, {})
  | line :: lines =>
    let p := { p with recvLineBuffer := lines }
    match getCommand p.loggedon line with
    | .error fault => .error fault
    | .ok (cmd, result) =>
      if cmd.id = .invalid then .ok (p, .no, cmd, result) else .ok (p, .yes, cmd, result)

/-- A command that `MapCommand` accepts is an entry of the table with the arguments put in. -/
theorem mapCommand_accepts {loggedon : Bool} {command args : WString} {cmd : Command} {r : Reply}
    (h : mapCommand loggedon command args = (cmd, r)) (hid : cmd.id ≠ .invalid) :
    ∃ entry, (command, entry) ∈ commandMap ∧ cmd = { entry with args := args } ∧
      (entry.hasArgs = true → args ≠ []) ∧ (loggedon = true ∨ entry.validBeforeLogon = true) := by
  unfold mapCommand at h
  split at h
  · rename_i entry hentry
    split at h
    · cases h
      exact absurd rfl hid
    · rename_i hargs
      split at h
      · cases h
        exact absurd rfl hid
      · rename_i hgate
        cases h
        rcases List.lookup_eq_some_iff.mp hentry with ⟨l₁, l₂, hmap, -⟩
        refine ⟨entry, by rw [hmap]; simp, rfl, ?_, ?_⟩
        · intro hhas hnil
          simp [hhas, hnil] at hargs
        · cases loggedon <;> simp_all
  · cases h
    exact absurd rfl hid

theorem getCommand_accepts {loggedon : Bool} {line : List UInt8} {cmd : Command} {r : Reply}
    (h : getCommand loggedon line = .ok (cmd, r)) (hid : cmd.id ≠ .invalid) :
    ∃ name entry, (name, entry) ∈ commandMap ∧ cmd = { entry with args := cmd.args } ∧
      (entry.hasArgs = true → cmd.args ≠ []) ∧
      (loggedon = true ∨ entry.validBeforeLogon = true) := by
  have hmap : ∀ {command args : WString}, mapCommand loggedon command args = (cmd, r) →
      ∃ name entry, (name, entry) ∈ commandMap ∧ cmd = { entry with args := cmd.args } ∧
        (entry.hasArgs = true → cmd.args ≠ []) ∧
        (loggedon = true ∨ entry.validBeforeLogon = true) := by
    intro command args h
    rcases mapCommand_accepts h hid with ⟨entry, hentry, rfl, hargs, hgate⟩
    exact ⟨command, entry, hentry, rfl, hargs, hgate⟩
  have hnone : ∀ {x : Reply}, Except.ok (Command.none, x) = Except.ok (ε := Fault) (cmd, r) →
      False := by
    intro x h
    cases h
    exact hid rfl
  unfold getCommand at h
  split at h
  · cases h
  · dsimp only at h
    split at h
    · split at h
      · exact (hnone h).elim
      · exact hmap (Except.ok.inj h)
    · split at h
      · exact (hnone h).elim
      · exact hmap (Except.ok.inj h)
    · split at h
      · exact (hnone h).elim
      · split at h
        · exact (hnone h).elim
        · exact hmap (Except.ok.inj h)

/-- The commands that `command_map` lets through before login. -/
def beforeLogon : List Commands :=
  [.USER, .PASS, .QUIT, .SYST, .AUTH, .ADAT, .PBSZ, .PROT, .FEAT, .OPTS, .HELP, .SITE, .CLNT]

/-- The login gate of the parser. -/
theorem getCommand_gate {loggedon : Bool} {line : List UInt8} {cmd : Command} {r : Reply}
    (h : getCommand loggedon line = .ok (cmd, r)) (hid : cmd.id ≠ .invalid) :
    loggedon = true ∨ cmd.id ∈ beforeLogon := by
  have htable : ∀ e ∈ commandMap, e.2.validBeforeLogon = true → e.2.id ∈ beforeLogon := by decide
  rcases getCommand_accepts h hid with ⟨name, entry, hentry, hcmd, -, hgate⟩
  rcases hgate with hgate | hgate
  · exact .inl hgate
  · rw [hcmd]
    exact .inr (htable _ hentry hgate)

/-- USER comes with an argument. -/
theorem getCommand_user {loggedon : Bool} {line : List UInt8} {cmd : Command} {r : Reply}
    (h : getCommand loggedon line = .ok (cmd, r)) (hid : cmd.id = .USER) : cmd.args ≠ [] := by
  have htable : ∀ e ∈ commandMap, e.2.id = .USER → e.2.hasArgs = true := by decide
  have hne : cmd.id ≠ .invalid := by rw [hid]; decide
  rcases getCommand_accepts h hne with ⟨name, entry, hentry, hcmd, hargs, -⟩
  exact hargs (htable _ hentry (by rw [← hid, hcmd]))

end RequestParser

end YFtp
