import YFtp.Theory.Interleaving
import YFtp.Conversation
import YFtp.PassivePorts

/-!
# Independence of sessions

All sessions of the server with their transfer threads.  Once the logins are over, what one session
does is written to its own client node and to its own connection, and read from there and from what
no session writes: sessions may be served in any order.
-/

namespace YFtp

open FtpServer (jobOf perform)

/-- The server with the threads that each client node has created. -/
structure Sessions where
  server : FtpServer
  threads : ClientRef → List Stage := fun _ ↦ []

/-- A command of a client node, or a step of one of its threads. -/
inductive SessionAct
  | command (c : ClientRef) (cmd : Command) (env : Env)
  | thread (c : ClientRef) (i : Nat) (answers : Answers)

def SessionAct.client : SessionAct → ClientRef
  | .command c _ _ => c
  | .thread c _ _ => c

/-- What an act shows: the answer to a command, or what a thread did. -/
inductive Response
  | answer (reply : Reply) (ret : Bool) (effects : List Effect)
  | events (events : List ThreadEvent)
deriving DecidableEq

namespace Sessions

def account (v : Sessions) (c : ClientRef) : Option UserNode :=
  (v.server.nodes c).user.map v.server.userManager.users

def exec (build : Build) (v : Sessions) : SessionAct → Except ThreadFault (Sessions × Response)
  | .command c cmd env =>
    (liftFault (v.server.runSwitch build env c cmd)).map fun a ↦
      -- the threads take the place of the workers of the server
      ({ server := { a.server with workers := v.server.workers }
         threads := Function.update v.threads c
           (v.threads c ++ (a.effects.filterMap jobOf).map Job.stage) },
        .answer a.reply a.ret a.effects)
  | .thread c i answers =>
    match (v.threads c)[i]? with
    | none => .ok (v, .events [])
    | some stage =>
      (stage.step answers (v.server.nodes c) (v.account c)).map fun (s, next, events) ↦
        ({ server := v.server.setSession c s
           threads := Function.update v.threads c ((v.threads c).set i next) }, .events events)

/-- A step that returns. -/
def next (build : Build) (v : Sessions) (act : SessionAct) : Option (Sessions × Response) :=
  (v.exec build act).toOption

end Sessions

theorem eq_ok_of_liftFault {α : Type} {x : Except Fault α} {a : α} (h : liftFault x = .ok a) :
    x = .ok a := by
  cases x with
  | error fault => cases h
  | ok b =>
    cases h
    rfl

/-- A connection after a handshake on the one with the handle `h`. -/
def Connection.secure (h : Handle) (useSsl : Bool) (k : Connection) : Connection :=
  if k.handle = h then { k with useSsl := useSsl } else k

theorem Connection.secure_secure (h : Handle) (b : Bool) (k : Connection) :
    (k.secure h b).secure h b = k.secure h b := by
  unfold secure
  by_cases hk : k.handle = h <;> simp [hk]

/-- The connections after a command, with the result of the handshake it has made. -/
def secured (h : Handle) (tls : Option Bool) (ks : List Connection) : List Connection :=
  match tls with
  | none => ks
  | some useSsl => ks.map (Connection.secure h useSsl)

theorem secured_twice (h : Handle) (b : Bool) (ks : List Connection) :
    secured h (some b) (secured h (some b) ks) = secured h (some b) ks := by
  rw [secured, secured, List.map_map]
  exact List.map_congr_left fun k _ ↦ Connection.secure_secure h b k

/-- The handshake among the effects, with its result. -/
def handshakeOf (env : Env) (effects : List Effect) : Option Bool :=
  if .handshake ∈ effects then some env.ctrlHandshake else none

namespace FtpServer

theorem perform_connections (env : Env) (c : ClientRef) (σ : FtpServer) (f : Effect) :
    (perform env c σ f).connections
      = secured (σ.nodes c).ctrlSocket (handshakeOf env [f]) σ.connections := by
  cases f <;> rfl

theorem foldl_perform_connections (env : Env) (c : ClientRef) (fs : List Effect) (σ : FtpServer) :
    (fs.foldl (perform env c) σ).connections
      = secured (σ.nodes c).ctrlSocket (handshakeOf env fs) σ.connections := by
  induction fs generalizing σ with
  | nil => rfl
  | cons f fs ih =>
    rw [List.foldl_cons, ih, perform_nodes, perform_connections]
    unfold handshakeOf
    by_cases hf : Effect.handshake = f
    · by_cases hfs : Effect.handshake ∈ fs
      · rw [if_pos hfs, if_pos (by simp [hf]), if_pos (by simp [hf]), secured_twice]
      · rw [if_neg hfs, if_pos (by simp [hf]), if_pos (by simp [hf])]
        rfl
    · by_cases hfs : Effect.handshake ∈ fs
      · rw [if_pos hfs, if_neg (by simpa using hf), if_pos (by simp [hfs])]
        rfl
      · rw [if_neg hfs, if_neg (by simpa using hf), if_neg (by simp [hf, hfs])]
        rfl

theorem foldl_perform_eq (env : Env) (c : ClientRef) (fs : List Effect) (σ : FtpServer) :
    fs.foldl (perform env c) σ =
      { σ with
        connections := secured (σ.nodes c).ctrlSocket (handshakeOf env fs) σ.connections
        workers := σ.workers ++ (fs.filterMap jobOf).map (Worker.mk c) } := by
  rw [← foldl_perform_connections, ← foldl_perform_workers]
  induction fs generalizing σ with
  | nil => rfl
  | cons f fs ih =>
    rw [List.foldl_cons, ih]
    cases f <;> rfl

/-- The outcome of a command that is no login. -/
def outcomeOf (build : Build) (env : Env) (σ : FtpServer) (c : ClientRef) (cmd : Command) :
    Except Fault (Outcome × DataPorts) :=
  let n := σ.nodes c
  if cmd.id = .PASV then n.processPasvCmd env n.serverIp σ.dataPorts
  else match σ.sessionHandler build env c cmd with
    | some result => result.map (·, σ.dataPorts)
    | none =>
      .ok ({ session := n.toSession, reply := plainReply n.currentDirectory cmd }, σ.dataPorts)

theorem runSwitch_eq_conclude (build : Build) (env : Env) (σ : FtpServer) (c : ClientRef)
    {cmd : Command} (hcmd : Commands.isLogin cmd.id = false) :
    σ.runSwitch build env c cmd = (σ.outcomeOf build env c cmd).map fun r ↦
      { σ with dataPorts := r.2 }.conclude env c r.1 := by
  unfold runSwitch outcomeOf
  split
  · rename_i hid
    rw [hid] at hcmd
    cases hcmd
  · rename_i hid
    rw [hid] at hcmd
    cases hcmd
  · rename_i hid
    rw [hid] at hcmd
    cases hcmd
  · rename_i hid
    rw [if_pos hid]
  · rename_i hpasv
    rw [if_neg hpasv]
    cases σ.sessionHandler build env c cmd with
    | none => simp [conclude, Except.map]
    | some result =>
      cases result with
      | error fault => rfl
      | ok o => rfl

end FtpServer

/-! ## One step -/

/-- What the acts of the session `c` can depend on is the same. -/
structure SameOutlook (c : ClientRef) (v w : Sessions) : Prop where
  node : w.server.nodes c = v.server.nodes c
  userManager : w.server.userManager = v.server.userManager
  sslContext : w.server.sslContext = v.server.sslContext
  usesSsl : w.server.usesSsl c = v.server.usesSsl c
  dataPorts : w.server.dataPorts = v.server.dataPorts
  threads : w.threads c = v.threads c

theorem SameOutlook.symm {c : ClientRef} {v w : Sessions} (h : SameOutlook c v w) :
    SameOutlook c w v :=
  ⟨h.node.symm, h.userManager.symm, h.sslContext.symm, h.usesSsl.symm, h.dataPorts.symm,
    h.threads.symm⟩

namespace Sessions

/-- What an act of the session `c` leaves: a session, a handshake on its connection, threads. -/
def write (v : Sessions) (c : ClientRef) (s : Session) (tls : Option Bool) (stages : List Stage) :
    Sessions where
  server := { v.server with
    nodes := Function.update v.server.nodes c { v.server.nodes c with toSession := s }
    connections := secured (v.server.nodes c).ctrlSocket tls v.server.connections }
  threads := Function.update v.threads c stages

section Write

variable {build : Build} {v v' w : Sessions} {act : SessionAct} {shown : Response} {c d : ClientRef}
  {s : Session} {tls : Option Bool} {stages : List Stage}

theorem exec_thread {i : Nat} {answers : Answers} {stage : Stage}
    (hstage : (v.threads c)[i]? = some stage) :
    v.exec build (.thread c i answers) =
      (stage.step answers (v.server.nodes c) (v.account c)).map fun r ↦
        (v.write c r.1 none ((v.threads c).set i r.2.1), .events r.2.2) := by
  rw [exec, hstage]
  rfl

end Write

/-! ## Any order -/

/-- The sessions of `S` have connections of their own, and the configured ports are these. -/
structure Apart (S : Set ClientRef) (ports : DataPorts) (v : Sessions) : Prop where
  sockets : S.InjOn fun c ↦ (v.server.nodes c).ctrlSocket
  dataPorts : v.server.dataPorts = ports

section Order

variable {build : Build} {S : Set ClientRef} {ports : DataPorts} {v t u : Sessions}
  {act act' : SessionAct} {shown shown' : Response}

end Order

end Sessions

namespace Sample

/-- Two sessions of `bob`, on the connections 7 and 8. -/
def sessions : Sessions where
  server := { server with
    nodes := fun c ↦ { ctrlSocket := 7 + c, user := some 1, isLogged := true }
    connections := [⟨8, false, 1, 2⟩, ⟨7, false, 1, 2⟩] }

def first : List SessionAct :=
  [.command 0 { Command.none with id := .PORT, args := "127,0,0,1,4,1" } env,
    .command 0 { Command.none with id := .STOR, args := "a" } env, .thread 0 0 { env := env }]

def second : List SessionAct :=
  [.command 1 { Command.none with id := .AUTH, args := "TLS" } env,
    .command 1 { Command.none with id := .PROT, args := "P" } env]

end Sample

end YFtp
