import YFtp.HandlerSpecs
import YFtp.Threads

/-!
# Conversations

One session with its transfer threads: commands are handled and threads take steps in any order, and
the rest of the server may change in between.  A call of a handler and a step of a thread are taken
as one step each.
-/

namespace YFtp

/-- A data connection that was made, by number, with the protection in force at the time. -/
structure DataConnection where
  number : Nat
  tls : Bool
deriving DecidableEq, Repr

/-- A thread of the session.  `connection` and `due` are history: the data connection that was made
for it, and the restart offset that its command was to run with. -/
structure Thread where
  stage : Stage
  connection : Option DataConnection := none
  due : Int := 0

/-- A session, with the server around it and the threads it has created; those that have come to
their end stay.  `connection` and `rest` are history: the last data connection made, and the value
of the last REST answered 350 that no command for the transfer of a file has followed yet. -/
structure Talk where
  server : FtpServer
  threads : List Thread := []
  connection : Option DataConnection := none
  rest : Option Int := none

inductive Act
  | command (cmd : Command) (env : Env)
  | thread (i : Nat) (answers : Answers)
  | elsewhere (σ : FtpServer)

/-! ## Commands -/

/-- RETR, STOR, APPE and STOU. -/
def Commands.transfersFile : Commands → Bool
  | .RETR | .STOR | .APPE | .STOU => true
  | _ => false

/-- The commands that need a data connection. -/
def Commands.transfers : Commands → Bool
  | .LIST | .NLST | .MLSD | .RETR | .STOR | .APPE | .STOU => true
  | _ => false

/-- The account has the privilege that the handler asks for first, and the argument is there. -/
def entitled (user : Option UserNode) (cmd : Command) : Bool :=
  match cmd.id with
  | .LIST | .NLST | .MLSD => user.any (·.holds .listDir)
  | .RETR => user.any (·.holds .readFile) && cmd.args ≠ []
  | .STOR | .APPE => user.any (·.holds .writeFile) && cmd.args ≠ []
  | .STOU => user.any (·.holds .writeFile)
  | _ => true

namespace Session

/-- The handler gets to `open_data_connection`. -/
def opensData (user : Option UserNode) (cmd : Command) (s : Session) : Bool :=
  Commands.transfers cmd.id && entitled user cmd && s.curStatus = .waiting

/-- `open_data_connection` gets its peer. -/
def connects (env : Env) (s : Session) : Bool :=
  match s.curDataMode with
  | .none => false
  | .pasv => env.accept
  | .port => env.openSocket && env.connect

/-- `open_data_connection` succeeds: the peer is there, and so is TLS if it is asked for. -/
def dataOpens (env : Env) (sslContext : Bool) (s : Session) : Bool :=
  s.connects env &&
    (!s.dataUseSsl || ((s.sslSocket ≠ none || sslContext) && env.handshake))

/-- The size of the file that APPE goes on with. -/
def appendOffset (env : Env) (user : Option UserNode) (cmd : Command) (s : Session) : Int :=
  match user with
  | some u =>
    let path := buildPath env.canonical u.homeDirectory s.currentDirectory cmd.args false
    if (env.getFileStatus path).isSome then ((env.fileSize path).getD 0 : Nat) else 0
  | none => 0

/-- The path that the handler of a file transfer builds leads somewhere: for RETR to something that
is there. -/
def findsFile (env : Env) (u : UserNode) (cmd : Command) (s : Session) : Bool :=
  match cmd.id with
  | .RETR =>
    (statusOf env (buildPath env.canonical u.homeDirectory s.currentDirectory cmd.args)).isSome
  | .STOR | .APPE | .STOU => u.homeDirectory ≠ [] && s.currentDirectory ≠ []
  | _ => false

/-- A command that transfers a file meets with no obstacle. -/
def startsFile (env : Env) (sslContext : Bool) (user : Option UserNode) (cmd : Command)
    (s : Session) : Bool :=
  s.opensData user cmd && s.dataOpens env sslContext && user.any (s.findsFile env · cmd) &&
    env.joinable

end Session

namespace Talk

variable (c : ClientRef) (w : Talk)

def node : ClientNode := w.server.nodes c

/-- What `user_` of the client node points to. -/
def account : Option UserNode := (w.node c).user.map w.server.userManager.users

/-- The data connection that the command makes, or else the last one. -/
def connectionAfter (env : Env) (cmd : Command) : Option DataConnection :=
  if (w.node c).opensData (w.account c) cmd && (w.node c).connects env then
    some ⟨(w.connection.map (·.number + 1)).getD 0, (w.node c).dataUseSsl⟩
  else w.connection

/-- The restart offset that the command is to run with: what a REST right before it has set, and for
APPE the size of the file. -/
def dueOf (env : Env) (cmd : Command) : Int :=
  if cmd.id = .APPE then (w.node c).appendOffset env (w.account c) cmd else w.rest.getD 0

def restAfter (cmd : Command) (a : Answer) : Option Int :=
  if cmd.id = .REST ∧ a.reply.code = 350 then some (wcstoll cmd.args)
  else if Commands.transfersFile cmd.id then none
  else w.rest

/-- The conversation after a command. -/
def afterCommand (env : Env) (cmd : Command) (a : Answer) : Talk where
  server := a.server
  threads := w.threads ++ (a.effects.filterMap FtpServer.jobOf).map fun job ↦
    { stage := job.stage, connection := w.connectionAfter c env cmd, due := w.dueOf c env cmd }
  connection := w.connectionAfter c env cmd
  rest := w.restAfter cmd a

/-- One step.  There is no conversation any more after a command that ends the connection. -/
def exec (build : Build) : Act → Except ThreadFault (Option Talk)
  | .command cmd env =>
    (liftFault (w.server.runSwitch build env c cmd)).map fun a ↦
      if a.ret then some (w.afterCommand c env cmd a) else none
  | .thread i answers =>
    match w.threads[i]? with
    | none => .ok (some w)
    | some t =>
      (t.stage.step answers (w.node c) (w.account c)).map fun (s, stage, _) ↦
        some { w with
          server := w.server.setSession c s, threads := w.threads.set i { t with stage := stage } }
  | .elsewhere σ => .ok (some { w with server := σ.setNode c (w.node c) })

/-- The conversation goes on. -/
def Speaks (build : Build) (c : ClientRef) (w : Talk) (act : Act) (w' : Talk) : Prop :=
  w.exec c build act = .ok (some w')

end Talk

abbrev TalkRun (build : Build) (c : ClientRef) := Theory.Run (Talk.Speaks build c)

/-- The client node is new, and nothing has been said yet. -/
structure Talk.Begins (c : ClientRef) (w : Talk) : Prop where
  node : ∃ k, w.node c = FtpServer.freshNode k
  threads : w.threads = []
  connection : w.connection = none
  rest : w.rest = none

/-! ## Threads -/

/-- The thread has a data connection and has not come to the end of its final block. -/
def Stage.transferring : Stage → Bool
  | .list _ .endOfStatus | .ended => false
  | .list cmd _ => cmd.id ≠ .STAT
  | _ => true

/-- The thread is one of LIST that has not run its first statement. -/
def Stage.atBegin : Stage → Bool
  | .list _ .begin => true
  | _ => false

namespace Talk

/-- No transfer is under way. -/
def idle (w : Talk) : Bool := w.threads.all fun t ↦ !t.stage.transferring

/-! ## Runs by evaluation -/

/-- Executes a list of acts, as long as the conversation goes on and each of them meets `C`. -/
def afterWhile (C : Talk → Act → Bool) (build : Build) (c : ClientRef) (w : Talk) :
    List Act → Option Talk
  | [] => some w
  | act :: acts =>
    if C w act then
      match w.exec c build act with
      | .ok (some w') => w'.afterWhile C build c acts
      | _ => none
    else none

/-- Executes a list of acts. -/
def after (build : Build) (c : ClientRef) (w : Talk) (acts : List Act) : Option Talk :=
  w.afterWhile (fun _ _ ↦ true) build c acts

section Evaluation

variable {C : Talk → Act → Bool} {build : Build} {c : ClientRef} {start w w' : Talk} {act : Act}
  {acts : List Act} {trace : List (Talk × Act)}

theorem run_of_afterWhile (before : TalkRun build c start trace w)
    (hbefore : ∀ p ∈ trace, C p.1 p.2 = true) (h : w.afterWhile C build c acts = some w') :
    ∃ newer, TalkRun build c start newer w' ∧ ∀ p ∈ newer, C p.1 p.2 = true := by
  induction acts generalizing trace w with
  | nil =>
    cases h
    exact ⟨trace, before, hbefore⟩
  | cons act acts ih =>
    rw [afterWhile] at h
    split at h
    · rename_i hmeets
      split at h
      · rename_i next hexec
        apply ih (before.snoc hexec) _ h
        intro p hp
        rcases List.mem_cons.mp hp with rfl | hp
        · exact hmeets
        · exact hbefore p hp
      · cases h
    · cases h

theorem speaks_of_after (h : w.after build c [act] = some w') : w.Speaks build c act w' := by
  rw [after, afterWhile, if_pos rfl] at h
  split at h
  · rename_i next hexec
    cases h
    exact hexec
  · cases h

/-- A run found by executing a list of acts. -/
theorem exists_run (h : (w.after build c acts).isSome = true) :
    ∃ trace, TalkRun build c w trace ((w.after build c acts).get h) := by
  rcases run_of_afterWhile .refl (List.forall_mem_nil _) (Option.some_get h).symm with
    ⟨trace, run, -⟩
  exact ⟨trace, run⟩

/-- A run of acts that meet `C`, to a conversation with a decidable property. -/
theorem exists_run_while (C : Talk → Act → Bool) (build : Build) (c : ClientRef) (w : Talk)
    (acts : List Act) (p : Talk → Bool)
    (h : (w.afterWhile C build c acts).any p = true) :
    ∃ trace w', TalkRun build c w trace w' ∧ (∀ q ∈ trace, C q.1 q.2 = true) ∧ p w' = true := by
  rw [Option.any_eq_true] at h
  rcases h with ⟨w', hafter, hp⟩
  rcases run_of_afterWhile .refl (List.forall_mem_nil _) hafter with ⟨trace, run, hsteps⟩
  exact ⟨trace, w', run, hsteps, hp⟩

end Evaluation

end Talk

namespace Sample

/-- The server has just taken the connection. -/
def talk : Talk where
  server := { (server.clientFor connection).1 with connections := [connection] }

theorem talk_begins : talk.Begins 0 := ⟨⟨connection, rfl⟩, rfl, rfl, rfl⟩

def say (id : Commands) (args : String) : Act := .command { Command.none with id, args } env

def login : List Act := [say .USER "bob", say .PASS "pw"]

end Sample

end YFtp
