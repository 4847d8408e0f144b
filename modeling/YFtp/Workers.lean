import YFtp.ProcessCommand

/-!
# Worker threads

The threads that LIST, RETR and STOR create, as far as they share the client node with the command
handlers: the first lines of `list_thread`, the path it builds from the session it finds, and the
closing block of each worker.
-/

namespace YFtp

/-! ## The options of LIST -/

/-- `opt_a`, `opt_d`, `opt_F` and `opt_l` of `list_thread`. -/
structure ListOptions where
  a : Bool := false
  d : Bool := false
  F : Bool := false
  l : Bool := false
deriving DecidableEq, Repr

/-- The switch inside the option loop. -/
def ListOptions.set (o : ListOptions) (c : Char) : ListOptions :=
  if c = 'a' then { o with a := true }
  else if c = 'd' then { o with d := true }
  else if c = 'F' then { o with F := true }
  else if c = 'l' then { o with l := true }
  else o

/-- The loop over the letters after a hyphen. -/
def scanLetters : WString → ListOptions → ListOptions × WString
  | c :: rest, o => if c.isAlphanum then scanLetters rest (o.set c) else (o, c :: rest)
  | [], o => (o, [])

/-- The outer option loop, with a bound on its number of rounds. -/
def scanOptions : Nat → WString → ListOptions → ListOptions × WString
  | rounds + 1, '-' :: rest, o =>
    let (o, rest) := scanLetters rest o
    scanOptions rounds (rest.dropWhile iswspace) o
  | _, arg, o => (o, arg)

/-- The options and the rest of the argument.  Each round takes a hyphen, so there are no more
rounds than characters. -/
def listArguments (args : WString) : ListOptions × WString := scanOptions args.length args {}

/-! ## Steps of a worker -/

/-- The steps of a worker that this model tells apart; `finish` carries whether the transfer was
complete. -/
inductive WorkerStep
  | begin
  | buildPath
  | finish (complete : Bool)
deriving DecidableEq, Repr

/-- The path that `list_thread` builds. -/
def listPath (env : Env) (user : UserNode) (currentDirectory : WString) (cmd : Command) : WString :=
  buildPath env.canonical user.homeDirectory currentDirectory (listArguments cmd.args).2

/-- The closing block of a worker: the data socket is closed and, while the control connection is
open, the session becomes ready for the next transfer. -/
def finishSession (isCtrlCanalOpen : Bool) (job : Job) (s : Session) : Except Fault Session := do
  let s ← s.shutDownDataSocket
  let s ← s.closeDataSocket
  if isCtrlCanalOpen then
    let s := { s with curDataMode := .none, curStatus := .waiting }
    match job with
    | .list _ _ => .ok s
    | _ => .ok { s with restartAt := 0, transferPath := [] }
  else .ok s

/-- The reply at the end of a worker. -/
def finalReply (job : Job) (complete : Bool) : Reply :=
  match job, complete with
  | .retrieve, false => .create 550 "550 Can 't Send File."
  | .store, false => .create 550 "Can 't receive file."
  | _, _ => .create 226 "Transfer complete."

namespace FtpServer

def setWorker (σ : FtpServer) (i : Nat) (w : Worker) : FtpServer :=
  { σ with workers := σ.workers.set i w }

def dropWorker (σ : FtpServer) (i : Nat) : FtpServer :=
  { σ with workers := σ.workers.eraseIdx i }

/-- The final step of worker `i`, bound to the client node `c`. -/
def finishWorker (σ : FtpServer) (i : Nat) (c : ClientRef) (job : Job) (complete : Bool) :
    Except Fault (FtpServer × List Effect) := do
  let n := σ.nodes c
  let s ← finishSession n.isCtrlCanalOpen job n.toSession
  .ok ((σ.setSession c s).dropWorker i,
    if n.isCtrlCanalOpen then [.send (finalReply job complete).content] else [])

/-- One step of the `i`-th running worker.  A step that the worker cannot take changes nothing. -/
def runWorker (env : Env) (σ : FtpServer) (i : Nat) (act : WorkerStep) :
    Except Fault (FtpServer × List Effect) :=
  match σ.workers[i]? with
  | none => .ok (σ, [])
  | some w =>
    let n := σ.nodes w.client
    match w.job, act with
    | .list cmd false, .begin =>
      let σ := σ.setWorker i { w with job := .list cmd true }
      -- STAT lists over the control connection and has no data connection to announce
      if cmd.id = .STAT then .ok (σ, [.send "213-Status follows:"])
      else .ok (σ.setSession w.client { n.toSession with curStatus := .listing },
        [.send (Reply.create 150 "Opening data connection for directory list.").content])
    | .list cmd true, .buildPath => do
      -- `user_` is read when the worker gets here, not when it was created
      let user ← deref (n.user.map σ.userManager.users)
      .ok (σ, statusEffects (listPath env user n.currentDirectory cmd))
    | .list cmd true, .finish complete =>
      if cmd.id = .STAT then
        .ok (σ.dropWorker i, [.send (Reply.create 213 "End of status.").content])
      else σ.finishWorker i w.client w.job complete
    | .retrieve, .finish complete => σ.finishWorker i w.client w.job complete
    | .store, .finish complete => σ.finishWorker i w.client w.job complete
    | _, _ => .ok (σ, [])

end FtpServer

end YFtp
