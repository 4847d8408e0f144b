import YFtp.Theory.Runs
import YFtp.Workers
import YFtp.Administration

/-!
# The server as a transition system

Connections come and go, input arrives on them, workers take steps and the user table is
administered, in any order.  The system is built over the kind of input that one call processes:
chunks of bytes, as `process_command` receives them, or complete command lines.
-/

namespace YFtp

inductive Event (Input : Type)
  | connect (k : Connection)
  | receive (h : Handle) (input : Input)
  | close (h : Handle)
  | worker (i : Nat) (act : WorkerStep) (env : Env)
  | admin (op : AdminOp) (env : Env)

/-- A chunk as it is received, with what the uninitialised `cmd` of this call holds. -/
structure Chunk where
  data : List UInt8
  garbage : Command
  env : Env

/-- A complete line, with the state of the parser it was taken out of. -/
structure Line where
  bytes : List UInt8
  parser : RequestParser := {}
  env : Env

/-- What the operating system answers to the command or the worker that an event runs. -/
def Event.env : Event Line → Option Env
  | .receive _ line => some line.env
  | .worker _ _ env => some env
  | _ => none

namespace FtpServer

/-- What happens on one event.  An event that cannot occur changes nothing. -/
def exec {Input : Type} (onData : FtpServer → Connection → Input → Except Fault Answer)
    (σ : FtpServer) : Event Input → Except Fault (FtpServer × List Effect)
  | .connect k =>
    -- no two open connections have the same native handle
    if σ.connections.any (·.handle = k.handle) then .ok (σ, [])
    else .ok ({ σ with connections := k :: σ.connections }, [])
  | .receive h input =>
    match σ.connections.find? (·.handle = h) with
    | none => .ok (σ, [])
    | some k => ((onData σ k input).bind (afterCommand k)).map fun a ↦ (a.server, a.effects)
  | .close h =>
    if σ.connections.any (·.handle = h) then
      (σ.endWork h).map fun σ ↦
        ({ σ with connections := σ.connections.filter (·.handle ≠ h) }, [])
    else .ok (σ, [])
  | .worker i act env => σ.runWorker env i act
  | .admin op env => .ok (((σ.administer env op).toOption).getD σ, [])

def onChunk (build : Build) (σ : FtpServer) (k : Connection) (chunk : Chunk) :
    Except Fault Answer :=
  σ.processCommand build chunk.env chunk.garbage k chunk.data

def onLine (build : Build) (σ : FtpServer) (k : Connection) (line : Line) : Except Fault Answer :=
  σ.processLine build line.env k line.bytes line.parser

/-- One step of the system that receives chunks. -/
def ChunkStep (build : Build) (σ : FtpServer) (e : Event Chunk) (σ' : FtpServer) : Prop :=
  ∃ effects, σ.exec (onChunk build) e = .ok (σ', effects)

/-- One step of the system that receives command lines. -/
def LineStep (build : Build) (σ : FtpServer) (e : Event Line) (σ' : FtpServer) : Prop :=
  ∃ effects, σ.exec (onLine build) e = .ok (σ', effects)

abbrev ChunkRun (build : Build) := Theory.Run (ChunkStep build)

abbrev LineRun (build : Build) := Theory.Run (LineStep build)

/-- A server that has not had a connection yet, with any user table that its operations build. -/
structure Initial (σ : FtpServer) : Prop where
  noClients : ∀ u, (σ.userManager.users u).clientList = []
  listed : ∀ u ∈ σ.userManager.ftpUserList, u < σ.userManager.nextUser
  nodup : σ.userManager.ftpUserList.Nodup
  anonymous : σ.isAllowAnonymous → σ.userManager.findUser "anonymous".toList ≠ none
  noNodes : σ.nextClient = 0
  noConnections : σ.connections = []
  noWorkers : σ.workers = []

/-- The command that a line is, or `Command.none` when the parser refuses it. -/
def commandOf (loggedon : Bool) (bytes : List UInt8) : Command :=
  match RequestParser.getCommand loggedon bytes with
  | .ok (cmd, _) => cmd
  | .error _ => .none

/-- A command as it reaches a client node: the node, the state it is in, and the command. -/
structure Request where
  client : ClientRef
  node : ClientNode
  cmd : Command

/-- The request that an event brings, if it brings one. -/
def request (σ : FtpServer) : Event Line → Option Request
  | .receive h line =>
    (σ.connections.find? (·.handle = h)).map fun k ↦
      let (σ, c) := σ.clientFor k
      { client := c, node := σ.nodes c, cmd := commandOf (σ.nodes c).isLogged line.bytes }
  | _ => none

/-! ## Runs by evaluation -/

/-- Executes a list of events, keeping the trace and what the last event did. -/
def execAll {Input : Type} (onData : FtpServer → Connection → Input → Except Fault Answer) :
    List (FtpServer × Event Input) → FtpServer → List (Event Input) →
    Except Fault (List (FtpServer × Event Input) × FtpServer)
  | trace, σ, [] => .ok (trace, σ)
  | trace, σ, e :: es =>
    match exec onData σ e with
    | .error fault => .error fault
    | .ok (σ', _) => execAll onData ((σ, e) :: trace) σ' es

theorem eq_ok_of_toOption {ε α : Type} {x : Except ε α} {a : α} (h : x.toOption = some a) :
    x = .ok a := by
  cases x with
  | error => cases h
  | ok => cases h; rfl

theorem run_of_execAll {Input : Type}
    {onData : FtpServer → Connection → Input → Except Fault Answer} {start σ τ : FtpServer}
    {trace newer : List (FtpServer × Event Input)} {es : List (Event Input)}
    (before : Theory.Run (fun σ e σ' ↦ ∃ effects, exec onData σ e = .ok (σ', effects))
      start trace σ)
    (h : execAll onData trace σ es = .ok (newer, τ)) :
    Theory.Run (fun σ e σ' ↦ ∃ effects, exec onData σ e = .ok (σ', effects)) start newer τ := by
  induction es generalizing trace σ with
  | nil =>
    simp only [execAll, Except.ok.injEq, Prod.mk.injEq] at h
    rw [← h.1, ← h.2]
    exact before
  | cons e es ih =>
    unfold execAll at h
    split at h
    · cases h
    · rename_i σ' effects hexec
      exact ih (before.snoc ⟨effects, hexec⟩) h

theorem execAll_events {Input : Type}
    {onData : FtpServer → Connection → Input → Except Fault Answer} {σ τ : FtpServer}
    {trace newer : List (FtpServer × Event Input)} {es : List (Event Input)}
    (h : execAll onData trace σ es = .ok (newer, τ)) :
    newer.map (·.2) = es.reverse ++ trace.map (·.2) := by
  induction es generalizing trace σ with
  | nil =>
    cases h
    rfl
  | cons e es ih =>
    unfold execAll at h
    split at h
    · cases h
    · rw [ih h, List.reverse_cons, List.map_cons, List.append_assoc]
      rfl

/-- A run of the given events to a state with a decidable property, found by executing them. -/
theorem exists_run {Input : Type} (onData : FtpServer → Connection → Input → Except Fault Answer)
    (σ : FtpServer) (es : List (Event Input))
    (p : List (FtpServer × Event Input) × FtpServer → Bool)
    (h : (execAll onData [] σ es).toOption.any p = true) :
    ∃ trace τ, Theory.Run (fun σ e σ' ↦ ∃ effects, exec onData σ e = .ok (σ', effects)) σ trace τ ∧
      trace.map (·.2) = es.reverse ∧ p (trace, τ) = true := by
  rw [Option.any_eq_true] at h
  rcases h with ⟨⟨trace, τ⟩, hexec, h⟩
  have hexec := eq_ok_of_toOption hexec
  exact ⟨trace, τ, run_of_execAll .refl hexec, by simpa using execAll_events hexec, h⟩

theorem exists_lineRun_of (build : Build) (σ : FtpServer) (es : List (Event Line))
    (p : List (FtpServer × Event Line) × FtpServer → Bool)
    (h : (execAll (onLine build) [] σ es).toOption.any p = true) :
    ∃ trace τ, LineRun build σ trace τ ∧ trace.map (·.2) = es.reverse ∧ p (trace, τ) = true :=
  exists_run (onLine build) σ es p h

theorem exists_lineRun (build : Build) (σ : FtpServer) (es : List (Event Line))
    (p : List (FtpServer × Event Line) × FtpServer → Bool)
    (h : (execAll (onLine build) [] σ es).toOption.any p = true) :
    ∃ trace τ, LineRun build σ trace τ ∧ p (trace, τ) = true := by
  rcases exists_lineRun_of build σ es p h with ⟨trace, τ, run, -, h⟩
  exact ⟨trace, τ, run, h⟩

theorem exists_chunkRun_of (build : Build) (σ : FtpServer) (es : List (Event Chunk))
    (p : List (FtpServer × Event Chunk) × FtpServer → Bool)
    (h : (execAll (onChunk build) [] σ es).toOption.any p = true) :
    ∃ trace τ, ChunkRun build σ trace τ ∧ trace.map (·.2) = es.reverse ∧ p (trace, τ) = true :=
  exists_run (onChunk build) σ es p h

end FtpServer

/-! ## A small server

An anonymous account and the account `bob`, and a system in which every call succeeds. -/

namespace Sample

def env : Env where
  canonical path := if path.head? = some '/' then some path else none
  canonical_absolute h := by
    split at h
    · cases h
      assumption
    · cases h
  getFileStatus _ := some ⟨.directoryFile, 0⟩
  fileSize _ := some 0
  lastWriteTime _ := some 0
  remove _ := true
  rename _ _ := true
  createDirectory _ := true
  initialPath := "/srv"
  rand := id
  tries := 10
  openSocket := true
  bindAndListen _ _ := true
  localPort := 5000
  accept := true
  connect := true
  handshake := true
  ctrlHandshake := true
  joinable := true

def anonymous : UserNode where
  userName := "anonymous"
  homeDirectory := "/srv/pub/"

def bob : UserNode where
  userName := "bob"
  userPassword := "pw"
  homeDirectory := "/srv/bob/"
  userPrivilege := 0x3f

def server : FtpServer where
  userManager :=
    { users := fun u ↦ if u = 0 then anonymous else bob, ftpUserList := [0, 1], nextUser := 2 }
  isAllowAnonymous := true
  nodes _ := { ctrlSocket := 0 }
  nextClient := 0
  connections := []
  workers := []
  dataPorts := {}
  sslContext := true

/-- A connection over TLS. -/
def connection : Connection := ⟨7, true, 0x7f000001, 0x7f000001⟩

def line (text : String) : Event Line := .receive 7 { bytes := text.toUTF8.toList, env := env }

/-- A chunk, with a `cmd` that happens to be zero. -/
def chunk (text : String) : Event Chunk := .receive 7 ⟨text.toUTF8.toList, .none, env⟩

theorem initial : FtpServer.Initial server where
  noClients u := by
    change (if u = 0 then anonymous else bob).clientList = []
    split <;> rfl
  listed := by decide
  nodup := by decide
  anonymous _ := by decide +kernel
  noNodes := rfl
  noConnections := rfl
  noWorkers := rfl

end Sample

end YFtp
