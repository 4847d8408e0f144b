import YFtp.UserManager
import YFtp.SessionCommands

/-!
# The server state

`client_node` with its login state, the memory the client nodes live in, and the registry that
finds them: a client node is reachable only through the client lists of the users in
`ftp_user_list_`, where `find_client` looks for it by the native handle of its control socket.
-/

namespace YFtp

/-- `client_node`.  `ctrlSocket` is the native handle behind `ctrl_socket_`. -/
structure ClientNode extends Session where
  requestParser : RequestParser := {}
  ctrlSocket : Handle
  serverIp : Nat := 0
  clientIp : Nat := 0
  user : Option UserRef := none
  isLogged : Bool := false
  isAnonymous : Bool := false
  isCtrlCanalOpen : Bool := false

/-- An open control connection; `useSsl` is `i_is_use_ssl()`. -/
structure Connection where
  handle : Handle
  useSsl : Bool
  serverIp : Nat
  clientIp : Nat
deriving DecidableEq, Repr

/-- What a worker thread runs.  `begun` tells whether `list_thread` has passed its first lines. -/
inductive Job
  | list (cmd : Command) (begun : Bool)
  | retrieve
  | store
deriving DecidableEq, Repr

/-- A worker thread and the client node it is bound to. -/
structure Worker where
  client : ClientRef
  job : Job
deriving DecidableEq, Repr

/-- `ftp_server`, with the client nodes, the open connections and the running workers. -/
structure FtpServer where
  userManager : UserManager
  isAllowAnonymous : Bool
  nodes : ClientRef → ClientNode
  nextClient : ClientRef
  connections : List Connection
  workers : List Worker
  dataPorts : DataPorts
  sslContext : Bool

namespace FtpServer

def setNode (σ : FtpServer) (c : ClientRef) (n : ClientNode) : FtpServer :=
  { σ with nodes := Function.update σ.nodes c n }

@[simp] theorem setNode_self (σ : FtpServer) (c : ClientRef) (n : ClientNode) :
    (σ.setNode c n).nodes c = n := by
  simp [setNode]

theorem setNode_of_ne (σ : FtpServer) {c d : ClientRef} (n : ClientNode) (h : d ≠ c) :
    (σ.setNode c n).nodes d = σ.nodes d := by
  simp [setNode, h]

@[simp] theorem setNode_userManager (σ : FtpServer) (c : ClientRef) (n : ClientNode) :
    (σ.setNode c n).userManager = σ.userManager := rfl

@[simp] theorem setNode_workers (σ : FtpServer) (c : ClientRef) (n : ClientNode) :
    (σ.setNode c n).workers = σ.workers := rfl

def setSession (σ : FtpServer) (c : ClientRef) (s : Session) : FtpServer :=
  σ.setNode c { σ.nodes c with toSession := s }

/-- `user_->get_client_manager().delete_client(shared_from_this())`. -/
def deleteClient (σ : FtpServer) (u : UserRef) (c : ClientRef) : FtpServer :=
  { σ with userManager := σ.userManager.deleteClient u c }

/-- `user_node::add_client`. -/
def addClient (σ : FtpServer) (u : UserRef) (c : ClientRef) : Option FtpServer :=
  (σ.userManager.addClient u c).map fun m ↦ { σ with userManager := m }

/-- `client_manager::find_client` of one user. -/
def findClientOf (σ : FtpServer) (h : Handle) (u : UserRef) : Option ClientRef :=
  (σ.userManager.users u).clientList.find? fun c ↦ (σ.nodes c).ctrlSocket = h

/-- `user_manager::find_client`. -/
def findClient (σ : FtpServer) (h : Handle) : Option ClientRef :=
  σ.userManager.ftpUserList.findSome? (σ.findClientOf h)

/-- The constructor of `client_node` and `client_node::start`. -/
def freshNode (k : Connection) : ClientNode :=
  { ctrlSocket := k.handle, serverIp := k.serverIp, clientIp := k.clientIp
    isCtrlCanalOpen := true }

/-- The first lines of `process_command`: the client node of the connection, made anew when none is
registered for its handle. -/
def clientFor (σ : FtpServer) (k : Connection) : FtpServer × ClientRef :=
  match σ.findClient k.handle with
  | some c => (σ, c)
  -- the fresh node is in no client list, so the next chunk finds it only if USER enters it in one
  | none => ({ σ.setNode σ.nextClient (freshNode k) with nextClient := σ.nextClient + 1 },
      σ.nextClient)

/-- `client_node::end`. -/
def endClient (σ : FtpServer) (c : ClientRef) : Except Fault FtpServer :=
  let σ := σ.setNode c { σ.nodes c with isCtrlCanalOpen := false }
  match (σ.nodes c).user with
  | some u => .ok (σ.deleteClient u c)
  -- `user_` is dereferenced without a test
  | none => .error .nullUser

/-- `ftp_server::end_work`. -/
def endWork (σ : FtpServer) (h : Handle) : Except Fault FtpServer :=
  match σ.findClient h with
  | some c => σ.endClient c
  | none => .ok σ

end FtpServer

end YFtp
