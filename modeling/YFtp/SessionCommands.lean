import YFtp.Session

/-!
# Handlers that set up a session

The handlers of `client_node.cpp` for TYPE, PORT, PASV, CWD, CDUP, ABOR, REST, PROT and AUTH.
-/

namespace YFtp

/-- `std::wstring::rfind` of one character. -/
def rfind (c : Char) : WString → Option Nat
  | [] => none
  | x :: xs =>
    match rfind c xs with
    | some pos => some (pos + 1)
    | none => if x = c then some 0 else none

/-- The loop of CDUP that pops slashes from the end. -/
def popSlashes (path : WString) : WString := (path.reverse.dropWhile (· = '/')).reverse

/-- The ports for passive data connections: `data_port_range_` and the static `cur_end_port` of
`process_pasv_cmd`, which is `none` until its first use. -/
structure DataPorts where
  start : UInt16 := 0
  num : Int := 0
  curEndPort : Option UInt16 := none
deriving DecidableEq, Repr

namespace Session

/-- `process_type_cmd`. -/
def processTypeCmd (cmdArg : WString) (s : Session) : Outcome :=
  if cmdArg ≠ [] then
    if cmdArg = "A".toList then
      { s with binaryMode := false }.answer 200 "ASCII transfer mode active."
    else if cmdArg = "I".toList then
      { s with binaryMode := true }.answer 200 "Binary transfer mode active."
    else s.answer 550 "Error - unknown binary mode."
  else s.answer 501 "Invalid number of arguments."

/-- The six numbers that `process_port_cmd` accepts. -/
def portNumbers (cmdArg : WString) : Option (Nat × Nat × Nat × Nat × Nat × Nat) :=
  match scanUnsignedList 6 cmdArg with
  | some [ip1, ip2, ip3, ip4, port1, port2] =>
    if ip1 ≤ 255 ∧ ip2 ≤ 255 ∧ ip3 ≤ 255 ∧ ip4 ≤ 255 ∧ port1 ≤ 255 ∧ port2 ≤ 255
        ∧ (ip1 ||| ip2 ||| ip3 ||| ip4) ≠ 0 ∧ (port1 ||| port2) ≠ 0 then
      some (ip1, ip2, ip3, ip4, port1, port2)
    else none
  | _ => none

/-- `process_port_cmd`. -/
def processPortCmd (cmdArg : WString) (s : Session) : Except Fault Outcome :=
  if s.curStatus ≠ .waiting then .ok (s.answer 425 "You're already connected.")
  else match portNumbers cmdArg with
    | some (ip1, ip2, ip3, ip4, port1, port2) => do
      let s ← s.resetDataMode
      let s := { s with
        dataSocket := s.dataSocket.or (some .closed)
        curDataMode := .port
        dataIp := ip1 * 2 ^ 24 + ip2 * 2 ^ 16 + ip3 * 2 ^ 8 + ip4
        dataPort := (port1 * 256 + port2) % 2 ^ 16 }
      .ok (s.answer 200 "PORT command successful.")
    | none => .ok (s.answer 501 "Syntax error in arguments.")

/-- The loop of `process_pasv_cmd` over the configured ports: the port bound, if any, the last port
tried and the cursor. -/
def searchPort (env : Env) (start : UInt16) (num : Int) :
    Nat → Nat → UInt16 → UInt16 → Bool × UInt16 × UInt16
  | 0, _, port, cur => (false, port, cur)
  | left + 1, tried, _, cur =>
    let port := cur
    let cur := cur + 1
    -- the cursor moves on whether or not the port can be bound
    let cur := if (cur.toNat : Int) > start.toNat + num then start else cur
    if env.bindAndListen tried port.toNat then (true, port, cur)
    else searchPort env start num left (tried + 1) port cur

/-- `process_pasv_cmd`. -/
def processPasvCmd (env : Env) (serverIp : Nat) (ports : DataPorts) (s : Session) :
    Except Fault (Outcome × DataPorts) :=
  if s.curStatus ≠ .waiting then .ok (s.answer 425 "You're already connected.", ports)
  else do
    let s ← s.resetDataMode
    if env.openSocket = false then
      .ok ({ s with dataAcceptor := s.dataAcceptor.or (some .closed) }.answer 451
        "451 Internal error - open socket fail.", ports)
    else
      let entering (s : Session) : Outcome :=
        let port2 := s.dataPort % 256
        let port1 := (s.dataPort - port2) / 256
        let comma : WString := [',']
        { s with dataAcceptor := some .listening, curDataMode := .pasv }.answer 227
          ("Entering Passive Mode (".toList ++ decimal (serverIp / 2 ^ 24 % 256) ++ comma
            ++ decimal (serverIp / 2 ^ 16 % 256) ++ comma ++ decimal (serverIp / 2 ^ 8 % 256)
            ++ comma ++ decimal (serverIp % 256) ++ comma ++ decimal port1 ++ comma
            ++ decimal port2 ++ ").".toList)
      if ports.num = 0 then
        if env.bindAndListen 0 0 then .ok (entering { s with dataPort := env.localPort }, ports)
        else .ok ({ s with dataPort := 0, dataAcceptor := some .closed }.answer 451
          "Internal error - Binding Or Listening failed.", ports)
      else
        let first := ports.curEndPort.getD ports.start
        let (found, port, cur) := searchPort env ports.start ports.num 10 0 0 first
        let s := { s with dataPort := port.toNat }
        let ports := { ports with curEndPort := some cur }
        if found then .ok (entering s, ports)
        else .ok ({ s with dataAcceptor := some .closed }.answer 451
          "Internal error - No more data port available.", ports)

/-- The directory that CWD stores: the resolved path less the length of the home directory. -/
def directoryBelow (home path : WString) : WString :=
  let dir :=
    -- a path no longer than the home directory counts as the root
    if path.length ≤ home.length then ['/']
    else path.drop (if home.getLast? = some '/' then home.length - 1 else home.length)
  if dir = [] then ['/'] else dir

/-- `process_cwd_cmd`. -/
def processCwdCmd (env : Env) (user : Option UserNode) (cmdArg : WString) (s : Session) :
    Except Fault Outcome :=
  if cmdArg ≠ [] then do
    let user ← deref user
    let path := buildPath env.canonical user.homeDirectory s.currentDirectory cmdArg
    if (statusOf env path).any isDirectory then
      .ok ({ s with currentDirectory := directoryBelow user.homeDirectory path }.answer 250
        "CWD command successful." (statusEffects path))
    else .ok (s.answer 550 "No such file or directory." (statusEffects path))
  else .ok (s.answer 501 "Invalid number of arguments.")

/-- The directory that CDUP goes to. -/
def parentDirectory (dir : WString) : WString :=
  if dir ≠ ['/'] then
    let dir := popSlashes dir
    match rfind '/' dir with
    | some pos => if pos ≠ 0 then dir.take pos else ['/']
    | none => ['/']
  else dir

/-- `process_cdup_cmd`. -/
def processCdupCmd (s : Session) : Outcome :=
  { s with currentDirectory := parentDirectory s.currentDirectory }.answer 250
    "CDUP command successful."

/-- `process_abor_cmd`. -/
def processAborCmd (s : Session) : Except Fault Outcome :=
  if s.curStatus ≠ .waiting then do
    let s ← s.closeDataSocket
    .ok ({ s with curStatus := .waiting, curDataMode := .none }.answer 226
      "ABOR command successful."
      [.send (Reply.create 426 "Previous command has been finished abnormally.").content])
  else .ok (s.answer 226 "ABOR command successful.")

/-- `process_rest_cmd`. -/
def processRestCmd (cmdArg : WString) (s : Session) : Outcome :=
  if cmdArg ≠ [] ∧ s.curStatus = .waiting then
    { s with restartAt := wcstoll cmdArg }.answer 350 "REST command successful."
  else s.answer 501 "Syntax error in arguments."

/-- `process_prot_cmd`; `useSsl` is `i_is_use_ssl()` of the control socket. -/
def processProtCmd (build : Build) (useSsl : Bool) (cmdArg : WString) (s : Session) : Outcome :=
  let setTo := "DATA CHANNEL PROTECTION LEVEL set to ".toList ++ cmdArg
  let notSupported :=
    "DATA CHANNEL PROTECTION LEVEL ".toList ++ cmdArg ++ " is not support".toList
  if cmdArg = [] then s.answer 501 "Syntax error in arguments."
  else if cmdArg = "C".toList then
    if s.dataUseSsl = false then
      s.answer 431 "DATA CHANNEL PROTECTION LEVEL is already set to C"
    else { s with dataUseSsl := false }.answer 200 setTo
  else if cmdArg = "P".toList then
    if build.serverApp then
      -- PROT is valid before login, but the flag is kept in the client node
      if s.dataUseSsl then s.answer 431 "DATA CHANNEL PROTECTION LEVEL is already set to P"
      else if useSsl then { s with dataUseSsl := true }.answer 200 setTo
      else s.answer 534 notSupported
    else s.answer 534 notSupported
  else s.answer 534 notSupported

/-- `process_auth_cmd`. -/
def processAuthCmd (build : Build) (sslContext useSsl : Bool) (cmdArg : WString) (s : Session) :
    Outcome :=
  if cmdArg = [] then s.answer 501 "Syntax error in arguments."
  else if build.serverApp ∧ sslContext then
    if useSsl then s.answer 534 "Authentication type already set to SSL"
    else if cmdArg = "SSL".toList ∨ cmdArg = "TLS".toList then
      let ftpreply := Reply.create 234 "Using authentication type TLS"
      { session := s, reply := ftpreply.clear, effects := [.send ftpreply.content, .handshake] }
    else s.answer 504 "Auth type not supported"
  else s.answer 502 "Cmd not supported"

end Session

end YFtp
