import YFtp.Theory.Streams
import YFtp.Workers

/-!
# Threads

The three thread functions of `client_node.cpp`, `list_thread`, `store_thread` and
`retrieve_thread`, statement by statement.  A step of a thread reads the client node as it finds it
and the answers of the system, and leaves a session, the statement it goes on with and a record of
what it did.
-/

namespace YFtp

open Theory

/-- What ends a thread other than by returning: a fault it shares with the handlers, or the
`std::out_of_range` of `substr`. -/
inductive ThreadFault
  | fault (fault : Fault)
  | outOfRange
deriving DecidableEq, Repr

/-- `CFTPSERVER_TRANSFER_BUFFER_SIZE`. -/
def transferBufferSize : Nat := 8 * 1024

/-- A block that `read_data` has put into the buffer. -/
structure Block where
  bytes : List UInt8
  nonempty : bytes ≠ []
  fits : bytes.length ≤ transferBufferSize

/-- What `read_data` comes back with. -/
inductive Received
  | data (block : Block)
  | ended
  | failed

/-- A directory entry, with what the system says about it. -/
structure DirectoryEntry where
  name : WString
  status : Option FileStatus
  fileSize : Option Nat
  lastWriteTime : Option Int

/-- What the system answers to one step of a thread. -/
structure Answers where
  env : Env
  /-- `time(nullptr)`. -/
  now : Int := 0
  /-- The next entry of the directory, `none` at its end and after an error. -/
  nextEntry : Option DirectoryEntry := none
  /-- Whether a write to a connection goes through. -/
  sent : Bool := true
  received : Received := .ended
  /-- The content of the file that is opened. -/
  opened : Option (List UInt8) := some []
  seek : Bool := true
  reading : Reading := .complete
  /-- How much of the buffer of the file reaches it. -/
  flushed : Nat := 0
  written : Bool := true

/-- What a thread does outside its session, with how it went. -/
inductive ThreadEvent
  | reply (r : Reply)
  | status (path : WString)
  | line (text : WString) (sent : Bool)
  | openRead (path : WString) (content : Option (List UInt8))
  | openWrite (path : WString) (app : Bool) (content : Option (List UInt8))
  | seek (pos : Int) (ok : Bool)
  | readFailed (unread : Nat)
  | block (bytes : List UInt8) (sent : Bool)
  | received (bytes : List UInt8)
  | peerEnded
  | receiveFailed
  | written (ok : Bool)
  | closed (content : List UInt8) (complete : Bool)
  | finalBlock (isCtrlCanalOpen : Bool)
deriving DecidableEq, Repr

/-! ## Lines of a listing -/

/-- `std::wstring::substr`. -/
def substr (s : WString) (pos : Nat) : Except ThreadFault WString :=
  if s.length < pos then .error .outOfRange else .ok (s.drop pos)

/-- `%wd`. -/
def spacedDecimal (w : Nat) (i : Int) : WString :=
  let digits := if i < 0 then '-' :: decimal i.natAbs else decimal i.natAbs
  List.replicate (w - digits.length) ' ' ++ digits

/-- `month_string`. -/
def monthString : List WString :=
  ["Jan", "Feb", "Mar", "Apr", "May", "Jun", "Jul", "Aug", "Sep", "Oct", "Nov", "Dec"]

/-- `szYearOrHour`: the year of a file that is older than 180 days, and the hour of a newer one. -/
def yearOrHour (now last : Int) : WString :=
  let t := gmtime last
  if now - last > 180 * 24 * 60 * 60 then spacedDecimal 5 t.year
  else paddedDecimal 2 t.hour ++ ':' :: paddedDecimal 2 t.min

/-- The letter of a permission bit. -/
def permissionLetter (permissions bit : Nat) (letter : Char) : Char :=
  if permissions &&& bit = bit then letter else '-'

def typeLetter (st : FileStatus) : Char := if isDirectory st then 'd' else '-'

/-- The permissions of the owner, by bit. -/
def ownerLetters (permissions : Nat) : WString :=
  [permissionLetter permissions 0o400 'r', permissionLetter permissions 0o200 'w',
    permissionLetter permissions 0o100 'x']

/-- The permissions of the group and of the others. -/
def otherLetters (permissions : Nat) : WString :=
  [permissionLetter permissions 0o40 'r', permissionLetter permissions 0o20 'w',
    permissionLetter permissions 0o10 'x', permissionLetter permissions 0o4 'r',
    permissionLetter permissions 0o2 'w', permissionLetter permissions 0o1 'x']

/-- A line of `list_thread`, with the letters it begins with and the name it ends with. -/
def listLine (letters : WString) (size : Nat) (now last : Int) (name : WString) : WString :=
  let t := gmtime last
  letters ++ " 1 user group ".toList ++ spacedDecimal 14 size ++ ' ' :: monthString.getD t.mon []
    ++ ' ' :: spacedDecimal 2 t.mday ++ ' ' :: yearOrHour now last ++ ' ' :: name ++ ['\r', '\n']

/-- The line of an argument that is no directory, or that is listed with the option `d`. -/
def singleLine (a : Answers) (opts : ListOptions) (path : WString) (st : FileStatus)
    (name : WString) : WString :=
  listLine (typeLetter st :: ownerLetters st.permissions ++ "------".toList)
    ((a.env.fileSize path).getD 0) a.now ((a.env.lastWriteTime path).getD (-1))
    (name ++ if opts.F then ['/'] else [])

/-- The line of an entry of a directory. -/
def entryLine (a : Answers) (opts : ListOptions) (e : DirectoryEntry) (st : FileStatus) : WString :=
  listLine (typeLetter st :: ownerLetters st.permissions ++ otherLetters st.permissions)
    (if isRegularFile st then e.fileSize.getD 0 else 0) a.now (e.lastWriteTime.getD 0)
    (e.name ++ if opts.F && isDirectory st then ['/'] else [])

/-! ## Stages -/

/-- Where `list_thread` stands. -/
inductive ListStage
  | begin
  | announce
  | build
  | single (path : WString) (st : FileStatus)
  | next (path : WString)
  /-- A line to be sent; the listing goes on in the directory `more`. -/
  | line (text : WString) (more : Option WString)
  | endOfStatus
deriving DecidableEq, Repr

/-- Where `store_thread` stands, with the values of its local variables. -/
inductive StoreStage
  | mode
  | openFile (app : Bool)
  | seek (app : Bool) (ofs : OutStream UInt8)
  | receive (ofs : OutStream UInt8)
  | write (ofs : OutStream UInt8) (block : Block)
  | close (ofs : OutStream UInt8) (len : Int)

/-- Where `retrieve_thread` stands, with the values of its local variables. -/
inductive RetrieveStage
  | openFile
  | seek (ins : InStream UInt8)
  | read (ins : InStream UInt8)
  | send (ins : InStream UInt8) (block : List UInt8)
  | close (ins : InStream UInt8) (len : Int)

/-- Where a thread stands.  The ends of the three functions are alike: the data socket is shut down
and closed, and the final block follows. -/
inductive Stage
  | list (cmd : Command) (stage : ListStage)
  | store (stage : StoreStage)
  | retrieve (stage : RetrieveStage)
  | shutDown (job : Job) (complete : Bool)
  | closeSocket (job : Job) (complete : Bool)
  | finish (job : Job) (complete : Bool)
  | ended

/-- The first statement of a thread. -/
def Job.stage : Job → Stage
  | .list cmd _ => .list cmd .begin
  | .store => .store .mode
  | .retrieve => .retrieve .openFile

/-- What a step leaves. -/
abbrev StepResult := Session × Stage × List ThreadEvent

namespace Session

variable (s : Session)

/-- The pointer that `read_data` and `send_data` go through. -/
def useDataSocket : Except Fault Unit :=
  if s.dataUseSsl then if s.sslSocket = none then .error .nullSslSocket else .ok ()
  else if s.dataSocket = none then .error .nullDataSocket else .ok ()

/-- The final block, while the control connection is open. -/
def settle (job : Job) : Session :=
  match job with
  | .list _ _ => { s with curDataMode := .none, curStatus := .waiting }
  | _ => { s with curDataMode := .none, curStatus := .waiting, restartAt := 0, transferPath := [] }

end Session

def liftFault {α : Type} (x : Except Fault α) : Except ThreadFault α := x.mapError .fault

theorem eq_ok_of_liftFault_bind {α β : Type} {x : Except Fault α} {f : α → Except ThreadFault β}
    {b : β} (h : (liftFault x).bind f = .ok b) : ∃ a, x = .ok a ∧ f a = .ok b := by
  cases x with
  | error fault => cases h
  | ok a => exact ⟨a, rfl, h⟩

/-- The stage of `list_thread` after its listing. -/
def afterListing (cmd : Command) : Stage :=
  if cmd.id = .STAT then .list cmd .endOfStatus else .shutDown (.list cmd true) true

/-- One step of `list_thread`; `user` is what `user_` points to. -/
def ListStage.step (a : Answers) (s : Session) (user : Option UserNode) (cmd : Command) :
    ListStage → Except ThreadFault StepResult
  | .begin =>
    if cmd.id ≠ .STAT then .ok ({ s with curStatus := .listing }, .list cmd .announce, [])
    else .ok (s, .list cmd .build, [.reply { content := "213-Status follows:".toList }])
  | .announce =>
    .ok (s, .list cmd .build,
      [.reply (.create 150 "Opening data connection for directory list.")])
  | .build => do
    -- `user_` is read when the thread gets here, not when it was created
    let user ← liftFault (deref user)
    let path := listPath a.env user s.currentDirectory cmd
    match statusOf a.env path with
    | some st =>
      if (listArguments cmd.args).1.d || isDirectory st = false then
        .ok (s, .list cmd (.single path st), [.status path])
      else .ok (s, .list cmd (.next path), [.status path])
    | none => .ok (s, afterListing cmd, (if path = [] then [] else [.status path]))
  | .single path st => do
    let name ←
      if cmd.id = .STAT then do
        let user ← liftFault (deref user)
        substr path user.homeDirectory.length
      else .ok ['.']
    .ok (s, .list cmd (.line (singleLine a (listArguments cmd.args).1 path st name) none), [])
  | .next path =>
    match a.nextEntry with
    | none => .ok (s, afterListing cmd, [])
    | some e => do
      let full := pathAppend path e.name
      if cmd.id = .NLST then
        let user ← liftFault (deref user)
        let name ← substr full user.homeDirectory.length
        .ok (s, .list cmd (.line (name ++ ['\r', '\n']) (some path)), [])
      -- the first character of the whole path is tested, not that of the name
      else if full.head? ≠ some '.' ∨ (listArguments cmd.args).1.a then
        match e.status with
        | none => .ok (s, .list cmd (.next path), [])
        | some st =>
          let text := entryLine a (listArguments cmd.args).1 e st
          .ok (s, .list cmd (.line text (some path)), [])
      else .ok (s, .list cmd (.next path), [])
  | .line text more => do
    let event ←
      if cmd.id = .STAT then .ok (.reply { content := text })
      else do
        liftFault s.useDataSocket
        .ok (.line text a.sent)
    match more with
    | none => .ok (s, afterListing cmd, [event])
    | some path =>
      -- NLST goes on whether or not the line was sent
      if cmd.id ≠ .NLST ∧ a.sent = false then .ok (s, afterListing cmd, [event])
      else .ok (s, .list cmd (.next path), [event])
  | .endOfStatus => .ok (s, .ended, [.reply (.create 213 "End of status.")])

/-- One step of `store_thread`. -/
def StoreStage.step (a : Answers) (s : Session) : StoreStage → Except ThreadFault StepResult
  | .mode => .ok (s, .store (.openFile (0 < s.restartAt)), [])
  | .openFile app =>
    match a.opened with
    | none => .ok (s, .shutDown .store false, [.openWrite s.transferPath app none])
    | some content =>
      -- `trunc` empties the file
      .ok (s, .store (.seek app { content := if app then content else [] }),
        [.openWrite s.transferPath app (some content)])
  | .seek app ofs =>
    if 0 < s.restartAt then
      -- a file opened with `app` is written at its end wherever `seekp` goes
      let ofs := ofs.seek (if app then 0 else s.restartAt.toNat) a.seek
      .ok (s, .store (if ofs.good then .receive ofs else .close ofs (-1)),
        [.seek s.restartAt a.seek])
    else .ok (s, .store (.receive ofs), [])
  | .receive ofs => do
    liftFault s.useDataSocket
    match a.received with
    | .data block => .ok (s, .store (.write ofs block), [.received block.bytes])
    | .ended => .ok (s, .store (.close ofs 0), [.peerEnded])
    | .failed => .ok (s, .store (.close ofs (-1)), [.receiveFailed])
  | .write ofs block =>
    let ofs := ofs.write block.bytes a.flushed a.written
    .ok (s, .store (if ofs.good then .receive ofs else .close ofs block.bytes.length),
      [.written a.written])
  | .close ofs len =>
    let len := if ofs.bad then -1 else len
    let (content, complete) := ofs.close a.flushed
    -- the result of the flush in `close` is not looked at
    .ok (s, .shutDown .store (len = 0), [.closed content complete])

/-- One step of `retrieve_thread`. -/
def RetrieveStage.step (a : Answers) (s : Session) : RetrieveStage → Except ThreadFault StepResult
  | .openFile =>
    match a.opened with
    | none => .ok (s, .shutDown .retrieve false, [.openRead s.transferPath none])
    | some content =>
      .ok (s, .retrieve (.seek { content }), [.openRead s.transferPath (some content)])
  | .seek ins =>
    if 0 < s.restartAt then
      let ins := ins.seek s.restartAt.toNat a.seek
      .ok (s, .retrieve (if ins.good then .read ins else .close ins 0),
        [.seek s.restartAt a.seek])
    else .ok (s, .retrieve (.read ins), [])
  | .read ins =>
    let (block, ins) := ins.read transferBufferSize a.reading
    let events := if ins.bad then [.readFailed ins.rest.length] else []
    .ok (s, .retrieve (if block = [] then .close ins 0 else .send ins block), events)
  | .send ins block => do
    liftFault s.useDataSocket
    let next : RetrieveStage :=
      if a.sent = false then .close ins (-1) else if ins.good then .read ins else .close ins 0
    .ok (s, .retrieve next, [.block block a.sent])
  | .close ins len =>
    let len := if ins.bad then -1 else len
    .ok (s, .shutDown .retrieve (0 ≤ len), [])

/-- One step of a thread bound to the client node `n`. -/
def Stage.step (a : Answers) (n : ClientNode) (user : Option UserNode) :
    Stage → Except ThreadFault StepResult
  | .list cmd stage => stage.step a n.toSession user cmd
  | .store stage => stage.step a n.toSession
  | .retrieve stage => stage.step a n.toSession
  | .shutDown job complete => do
    let s ← liftFault n.shutDownDataSocket
    .ok (s, .closeSocket job complete, [])
  | .closeSocket job complete => do
    let s ← liftFault n.closeDataSocket
    .ok (s, .finish job complete, [])
  | .finish job complete =>
    if n.isCtrlCanalOpen then
      .ok (n.settle job, .ended, [.finalBlock true, .reply (finalReply job complete)])
    else .ok (n.toSession, .ended, [.finalBlock false])
  | .ended => .ok (n.toSession, .ended, [])

end YFtp
