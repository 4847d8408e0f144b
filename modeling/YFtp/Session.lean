import YFtp.Paths
import YFtp.RequestParser

/-!
# Sessions and accounts

The fields of `client_node` that the command handlers of a logged-in session read and write, the
fields of `user_node`, and the data connection.  The handlers of a session take its `Session`
record, so that by their types they can change neither the login state nor the registry.
-/

namespace YFtp

/-- The native handle of a control socket. -/
abbrev Handle := Nat

/-- The address of a `client_node`. -/
abbrev ClientRef := Nat

/-- The address of a `user_node`. -/
abbrev UserRef := Nat

/-- The compilation options that the modelled functions depend on. -/
structure Build where
  serverApp : Bool := true
  useExtraCmd : Bool := false
  charSigned : Bool := true

/-- `user_privilege`. -/
inductive UserPrivilege
  | readFile | writeFile | deleteFile | listDir | createDir | deleteDir
deriving DecidableEq, Repr

def UserPrivilege.bit : UserPrivilege → UInt8
  | .readFile => 0x1
  | .writeFile => 0x2
  | .deleteFile => 0x4
  | .listDir => 0x8
  | .createDir => 0x10
  | .deleteDir => 0x20

/-- `ftp_extra_cmd::extracmd_exec`. -/
def extracmdExec : UInt8 := 0x1

def maxClientNumPerUser : Int := 10

/-- `FTP_USER_PRIV_READ`. -/
def ftpUserPrivRead : UInt8 := UserPrivilege.readFile.bit ||| UserPrivilege.listDir.bit

/-- `user_node`; `clientList` is the list inside its `client_manager`. -/
structure UserNode where
  userName : WString := []
  userPassword : WString := []
  isEnable : Bool := true
  homeDirectory : WString := []
  userPrivilege : UInt8 := ftpUserPrivRead
  maxClientNum : Int := maxClientNumPerUser
  extraCmd : UInt8 := 0
  clientList : List ClientRef := []
deriving DecidableEq, Repr

/-- `user_->get_user_privilege() & privilege`. -/
def UserNode.holds (u : UserNode) (privilege : UserPrivilege) : Bool :=
  u.userPrivilege &&& privilege.bit ≠ 0

inductive DataMode
  | none | pasv | port
deriving DecidableEq, Repr

inductive ClientStatus
  | waiting | listing | uploading | downloading
deriving DecidableEq, Repr

inductive SocketState
  | closed | opened | connected
deriving DecidableEq, Repr

inductive AcceptorState
  | closed | opened | listening
deriving DecidableEq, Repr

/-- The part of `client_node` that its command handlers and workers work on.  The sockets are
`none` while the pointers to them are null; `sslSocket` says whether its handshake succeeded. -/
structure Session where
  dataSocket : Option SocketState := none
  dataAcceptor : Option AcceptorState := none
  sslSocket : Option Bool := none
  dataUseSsl : Bool := false
  binaryMode : Bool := true
  restartAt : Int := 0
  transferPath : WString := []
  curDataMode : DataMode := .none
  curStatus : ClientStatus := .waiting
  dataIp : Nat := 0
  dataPort : Nat := 0
  renameFromPath : WString := []
  currentDirectory : WString := ['/']
deriving DecidableEq, Repr

/-- What a handler or a worker does outside its session. -/
inductive Effect
  /-- The switch of `process_command` runs on this command. -/
  | switch (cmd : Command)
  | send (text : WString)
  | status (path : WString)
  | fileSize (path : WString)
  | lastWriteTime (path : WString)
  | removeFile (path : WString)
  | removeDirectory (path : WString)
  | rename (source target : WString)
  | createDirectory (path : WString)
  | system (cmd : WString)
  /-- A data connection is ready for the transfer, over TLS or in the clear. -/
  | openData (tls : Bool)
  /-- The TLS handshake on the control connection. -/
  | handshake
  | startList (cmd : Command)
  | startRetrieve (path : WString)
  | startStore (path : WString)
deriving DecidableEq, Repr

/-- A handler's result: the session and the reply it leaves and what it did. -/
structure Outcome where
  session : Session
  reply : Reply := {}
  effects : List Effect := []

/-- The handler answers and does no more. -/
def Session.answer (s : Session) (code : Nat) (text : WString) (effects : List Effect := []) :
    Outcome :=
  { session := s, reply := .create code text, effects := effects }

/-- Reading through `user_`. -/
def deref (user : Option UserNode) : Except Fault UserNode :=
  match user with
  | some u => .ok u
  | none => .error .nullUser

/-- `tmp_path.empty() == false && get_file_status(tmp_path, st) == true`. -/
def statusOf (env : Env) (path : WString) : Option FileStatus :=
  if path = [] then none else env.getFileStatus path

def statusEffects (path : WString) : List Effect := if path = [] then [] else [.status path]

/-! ## The data connection -/

namespace Session

/-- `shut_down_data_socket`: only the pointers matter, shutting down changes no state kept here. -/
def shutDownDataSocket (s : Session) : Except Fault Session :=
  if s.dataUseSsl then if s.sslSocket = none then .error .nullSslSocket else .ok s
  else if s.dataSocket = none then .error .nullDataSocket else .ok s

/-- `close_data_socket`.  The TLS stream wraps the object behind `data_socket_`. -/
def closeDataSocket (s : Session) : Except Fault Session :=
  if s.dataUseSsl then
    if s.sslSocket = none then .error .nullSslSocket
    else .ok { s with dataSocket := some .closed }
  else if s.dataSocket = none then .error .nullDataSocket
  else .ok { s with dataSocket := some .closed }

/-- The end of `open_data_connection` once the peer is connected. -/
def secureData (env : Env) (sslContext : Bool) (s : Session) : Session × Bool × List Effect :=
  if s.dataUseSsl then
    -- a TLS stream made for an earlier data connection is used again
    if s.sslSocket = none ∧ sslContext = false then (s, false, [])
    else
      let s := { s with sslSocket := some env.handshake }
      if env.handshake then (s, true, [.openData true]) else (s, false, [])
  else (s, true, [.openData false])

/-- `open_data_connection`. -/
def openDataConnection (env : Env) (sslContext : Bool) (s : Session) :
    Except Fault (Session × Bool × List Effect) :=
  match s.curDataMode with
  | .none => .ok (s, false, [])
  | .pasv =>
    if s.dataAcceptor = none then .error .nullDataAcceptor
    else
      let s := { s with
        -- the socket object is made before `accept` is called, and stays when it fails
        dataSocket := if env.accept then some .connected else s.dataSocket.or (some .closed)
        dataAcceptor := some .closed }
      if env.accept then .ok (s.secureData env sslContext) else .ok (s, false, [])
  | .port =>
    if env.openSocket = false then
      .ok ({ s with dataSocket := s.dataSocket.or (some .closed) }, false, [])
    else if env.connect = false then .ok ({ s with dataSocket := some .opened }, false, [])
    else .ok ({ s with dataSocket := some .connected }.secureData env sslContext)

/-- The part shared by PORT and PASV: a data mode chosen before is given up. -/
def resetDataMode (s : Session) : Except Fault Session :=
  if s.curDataMode ≠ .none then do
    let s := { s with dataAcceptor := s.dataAcceptor.map fun _ ↦ .closed }
    let s ← if s.dataSocket ≠ none then s.closeDataSocket else .ok s
    .ok { s with curDataMode := .none }
  else .ok s

end Session

end YFtp
