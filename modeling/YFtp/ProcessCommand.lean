import YFtp.Login
import YFtp.FileCommands
import YFtp.TransferCommands

/-!
# Processing a command

`ftp_server::process_command` and its callers.  A received chunk goes to the parser of the
connection's client node and at most one command comes out and is dispatched.
-/

namespace YFtp

/-- What `process_command` leaves: the server, the reply to be sent, its return value, and the
effects so far. -/
structure Answer where
  server : FtpServer
  reply : Reply := {}
  ret : Bool := true
  effects : List Effect := []

namespace FtpServer

/-- The consequences of a handler's effects for the rest of the server: workers it created and the
handshake on its control connection. -/
def perform (env : Env) (c : ClientRef) (σ : FtpServer) : Effect → FtpServer
  | .startList cmd => { σ with workers := σ.workers ++ [⟨c, .list cmd false⟩] }
  | .startRetrieve _ => { σ with workers := σ.workers ++ [⟨c, .retrieve⟩] }
  | .startStore _ => { σ with workers := σ.workers ++ [⟨c, .store⟩] }
  | .handshake =>
    { σ with connections := σ.connections.map fun k ↦
        if k.handle = (σ.nodes c).ctrlSocket then { k with useSsl := env.ctrlHandshake } else k }
  | _ => σ

/-- A session handler's outcome, put back into the server. -/
def conclude (env : Env) (σ : FtpServer) (c : ClientRef) (o : Outcome) : Answer :=
  { server := o.effects.foldl (perform env c) (σ.setSession c o.session)
    reply := o.reply
    effects := o.effects }

/-- `i_is_use_ssl()` of the control socket of a client node. -/
def usesSsl (σ : FtpServer) (c : ClientRef) : Bool :=
  (σ.connections.find? fun k ↦ k.handle = (σ.nodes c).ctrlSocket).any (·.useSsl)

/-- The reply to STRU. -/
def struReply (cmdArg : WString) : Reply :=
  if cmdArg ≠ [] then
    if cmdArg.map Char.toUpper = "F".toList then .create 200 "STRU Command Successful."
    else .create 504 "STRU failled. Parametre not implemented."
  else .create 501 "Invalid number of arguments."

/-- The reply to MODE. -/
def modeReply (cmdArg : WString) : Reply :=
  if cmdArg ≠ [] then
    let mode := cmdArg.map Char.toUpper
    if mode = "S".toList then .create 200 "Mode set to S."
    else if mode = "C".toList then .create 502 "MODE non-implemented."
    else .create 504 ('"' :: mode ++ "\": Unsupported transfer MODE.".toList)
  else .create 501 "Invalid number of arguments."

/-- The reply to OPTS. -/
def optsReply (cmdArg : WString) : Reply :=
  if cmdArg = "UTF8 ON".toList ∨ cmdArg = "UTF-8 ON".toList then
    .create 202 "UTF8 mode is always enabled. No need to send this command."
  else if cmdArg = "UTF8 OFF".toList ∨ cmdArg = "UTF-8 OFF".toList then
    .create 504 "UTF8 mode cannot be disabled."
  else .create 501 "Option not understood"

def featText : WString :=
  "211-Features:\r\n MDTM\r\n SIZE\r\n UTF8\r\n AUTH TLS\r\n PBSZ\r\n PROT\r\n211 End\r\n"

/-- The handlers that get no further than the session, by command.  `none` stands for the commands
that the switch does not answer in this way. -/
def sessionHandler (build : Build) (env : Env) (σ : FtpServer) (c : ClientRef) (cmd : Command) :
    Option (Except Fault Outcome) :=
  let s := (σ.nodes c).toSession
  let user := (σ.nodes c).user.map σ.userManager.users
  match cmd.id with
  | .SITE => if build.useExtraCmd then some (s.processSiteCmd user cmd.args) else none
  | .TYPE => some (.ok (s.processTypeCmd cmd.args))
  | .PORT => some (s.processPortCmd cmd.args)
  | .LIST | .NLST | .MLSD => some (s.processListCmd env σ.sslContext user cmd)
  | .CWD => some (s.processCwdCmd env user cmd.args)
  | .PROT => some (.ok (s.processProtCmd build (σ.usesSsl c) cmd.args))
  | .AUTH => some (.ok (s.processAuthCmd build σ.sslContext (σ.usesSsl c) cmd.args))
  | .MDTM => some (s.processMdtmCmd env user cmd.args)
  | .CDUP => some (.ok s.processCdupCmd)
  | .STAT =>
    if cmd.args ≠ [] then some (s.processListCmd env σ.sslContext user cmd) else none
  | .ABOR => some s.processAborCmd
  | .REST => some (.ok (s.processRestCmd cmd.args))
  | .RETR => some (s.processRetrCmd env σ.sslContext user cmd.args)
  | .STOR | .APPE | .STOU => some (s.processStorCmd env σ.sslContext user cmd)
  | .SIZE => some (s.processSizeCmd env user cmd.args)
  | .DELE => some (s.processDelCmd env user cmd.args)
  | .RNFR => some (s.processRnfrCmd env user cmd.args)
  | .RNTO => some (s.processRntoCmd env user cmd.args)
  | .MKD => some (s.processMkdCmd env user cmd.args)
  | .RMD => some (s.processRmdCmd env user cmd.args)
  | _ => none

/-- The replies the switch of `process_command` makes on the spot. -/
def plainReply (currentDirectory : WString) (cmd : Command) : Reply :=
  match cmd.id with
  | .QUIT => .create 221 "Goodbye."
  | .NOOP | .ALLO => .create 200 "NOOP Command Successful."
  | .HELP => .create 500 "No Help Available."
  | .SYST => .create 215 "UNIX Type: L8"
  | .STRU => struReply cmd.args
  | .MODE => modeReply cmd.args
  | .FEAT => .create 0 featText
  | .PBSZ =>
    if cmd.args = [] then .create 501 "Syntax error in arguments."
    else .create 200 ("PROTECTION BUFFER SIZE set to ".toList ++ cmd.args)
  | .PWD => .create 257 ('"' :: currentDirectory ++ "\" is current directory.".toList)
  | .STAT => .create 211 ":: ftp_server / Browser FTP Server:: yyt_hac@163.com"
  | .OPTS => optsReply cmd.args
  | _ => .create 500 "Command not understood."

/-- The switch of `process_command`. -/
def runSwitch (build : Build) (env : Env) (σ : FtpServer) (c : ClientRef) (cmd : Command) :
    Except Fault Answer :=
  match cmd.id with
  | .USER =>
    (σ.processUserCmd c cmd.args).map fun (σ, reply, ret) ↦ { server := σ, reply, ret }
  | .PASS =>
    let (σ, reply) := σ.processPasswordCmd c cmd.args
    .ok { server := σ, reply }
  | .REIN =>
    let (σ, reply) := σ.processReinCmd c
    .ok { server := σ, reply }
  | .PASV =>
    let n := σ.nodes c
    (n.processPasvCmd env n.serverIp σ.dataPorts).map fun (o, ports) ↦
      -- the cursor over the ports is static, shared by all client nodes
      { σ with dataPorts := ports }.conclude env c o
  | _ =>
    match σ.sessionHandler build env c cmd with
    | some result => result.map (σ.conclude env c)
    | none => .ok { server := σ, reply := plainReply (σ.nodes c).currentDirectory cmd }

/-- The switch, with a record of the command it ran on. -/
def dispatch (build : Build) (env : Env) (σ : FtpServer) (c : ClientRef) (cmd : Command) :
    Except Fault Answer :=
  (σ.runSwitch build env c cmd).map fun a ↦ { a with effects := .switch cmd :: a.effects }

def setParser (σ : FtpServer) (c : ClientRef) (p : RequestParser) : FtpServer :=
  σ.setNode c { σ.nodes c with requestParser := p }

/-- `process_command`.  `garbage` is what the uninitialised local `cmd` holds. -/
def processCommand (build : Build) (env : Env) (garbage : Command) (σ : FtpServer) (k : Connection)
    (data : List UInt8) : Except Fault Answer :=
  let (σ, c) := σ.clientFor k
  let n := σ.nodes c
  let parser := n.requestParser.setStatus n.isLogged
  match parser.parse build.charSigned garbage data with
  | .error fault => .error fault
  | .ok (parser, tribresult, cmd, ftpreply) =>
    let σ := σ.setParser c parser
    -- an indeterminate result makes `tribresult != true` indeterminate: the `if` is not taken
    if (tribresult.ne .yes).taken then .ok { server := σ, reply := ftpreply }
    else σ.dispatch build env c cmd

/-- `process_command` from the point on where a complete line has been taken out of the parser,
which is left in the state `parser`. -/
def processLine (build : Build) (env : Env) (σ : FtpServer) (k : Connection)
    (line : List UInt8) (parser : RequestParser) : Except Fault Answer :=
  let (σ, c) := σ.clientFor k
  let n := σ.nodes c
  match RequestParser.getCommand n.isLogged line with
  | .error fault => .error fault
  | .ok (cmd, ftpreply) =>
    let σ := σ.setParser c (parser.setStatus n.isLogged)
    if cmd.id = .invalid then .ok { server := σ, reply := ftpreply }
    else σ.dispatch build env c cmd

/-- The callers of `process_command`, `FtpServerApp::on_process_data` and
`connection::handle_read`: the reply is sent and, when `process_command` returned `false`, the work
for the connection ends and it is closed. -/
def afterCommand (k : Connection) (a : Answer) : Except Fault Answer :=
  let a := if a.reply.empty then a else { a with effects := a.effects ++ [.send a.reply.content] }
  if a.ret then .ok a
  else (a.server.endWork k.handle).map fun σ ↦
    { a with server := { σ with
        connections := σ.connections.filter fun k' ↦ k'.handle ≠ k.handle } }

end FtpServer

end YFtp
