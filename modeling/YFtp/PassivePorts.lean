import Mathlib.Data.List.Iterate
import YFtp.Registry

/-!
# Passive ports

The port range that start-up sets, and the ports that the PASV commands of a run try.  The cursor
over the range is shared by all sessions, so what matters is how often it has moved since the
server was started.
-/

namespace YFtp

/-! ## The range -/

/-- `ftp_server::set_data_port_range`: the number of ports is an `unsigned int`, the field that it
is stored in an `int`. -/
def setDataPortRange (ports : DataPorts) (start : UInt16) (number : UInt32) : Option DataPorts :=
  if start ≤ 1024 ∨ number = 0 then none
  else some { ports with start := start, num := number.toBitVec.toInt }

/-- `FtpServerApp::main` with the two numbers of `ftp.server.pasv_port_range`: the difference is
taken in `int`. -/
def configurePorts (lo hi : UInt16) : Option DataPorts :=
  setDataPortRange {} lo (UInt32.ofInt ((hi.toNat : Int) - lo.toNat + 1))

namespace DataPorts

/-- The port that the next try takes. -/
def cursor (ports : DataPorts) : UInt16 := ports.curEndPort.getD ports.start

/-- How `process_pasv_cmd` moves its cursor. -/
def after (start : UInt16) (num : Int) (cur : UInt16) : UInt16 :=
  if ((cur + 1).toNat : Int) > start.toNat + num then start else cur + 1

def moved (ports : DataPorts) (tries : Nat) : DataPorts :=
  if tries = 0 then ports
  else { ports with curEndPort := some ((after ports.start ports.num)^[tries] ports.cursor) }

end DataPorts

/-- The ports on which one search calls `bind`, in order. -/
def searchedPorts (env : Env) (start : UInt16) (num : Int) : Nat → Nat → UInt16 → List UInt16
  | 0, _, _ => []
  | left + 1, tried, cur =>
    cur :: if env.bindAndListen tried cur.toNat then []
      else searchedPorts env start num left (tried + 1) (DataPorts.after start num cur)

theorem searchedPorts_eq_iterate (env : Env) (start : UInt16) (num : Int) (left tried : Nat)
    (cur : UInt16) :
    searchedPorts env start num left tried cur
      = List.iterate (DataPorts.after start num) cur
          (searchedPorts env start num left tried cur).length := by
  induction left generalizing tried cur with
  | zero => rfl
  | succ left ih =>
    rw [searchedPorts]
    split
    · rfl
    · rw [List.length_cons, List.iterate, ← ih]

-- the search ends on the last port tried, with the cursor moved once for each try
theorem searchPort_eq (env : Env) (start : UInt16) (num : Int) (left tried : Nat)
    (port cur : UInt16) :
    (Session.searchPort env start num left tried port cur).2.1
        = (searchedPorts env start num left tried cur).getLastD port ∧
      (Session.searchPort env start num left tried port cur).2.2
        = (DataPorts.after start num)^[(searchedPorts env start num left tried cur).length] cur := by
  induction left generalizing tried port cur with
  | zero => exact ⟨rfl, rfl⟩
  | succ left ih =>
    rw [Session.searchPort, searchedPorts]
    split
    · exact ⟨rfl, rfl⟩
    · have hrest := ih (tried + 1) cur (DataPorts.after start num cur)
      rw [List.getLastD_cons, List.length_cons, Function.iterate_succ_apply]
      exact hrest

-- one search after another goes through the same sequence of ports
theorem DataPorts.moved_cursor (ports : DataPorts) (tries : Nat) :
    (ports.moved tries).cursor = (after ports.start ports.num)^[tries] ports.cursor := by
  unfold moved
  split
  · rename_i hzero
    rw [hzero]
    rfl
  · rfl

theorem DataPorts.moved_range (ports : DataPorts) (tries : Nat) :
    (ports.moved tries).start = ports.start ∧ (ports.moved tries).num = ports.num := by
  unfold moved
  split <;> exact ⟨rfl, rfl⟩

theorem DataPorts.moved_moved (ports : DataPorts) (m n : Nat) :
    (ports.moved m).moved n = ports.moved (m + n) := by
  by_cases hn : n = 0
  · rw [hn]
    rfl
  · rw [moved, if_neg hn, moved_cursor, (moved_range ports m).1, (moved_range ports m).2,
      ← Function.iterate_add_apply, Nat.add_comm n m]
    conv_rhs => rw [moved, if_neg (by omega)]

namespace Session

/-- The ports that a PASV tries in this session: none when it is refused, when no acceptor can be
opened and when no range is set. -/
def portsTried (env : Env) (ports : DataPorts) (s : Session) : List UInt16 :=
  if s.curStatus = .waiting ∧ env.openSocket = true ∧ ports.num ≠ 0 then
    searchedPorts env ports.start ports.num 10 0 ports.cursor
  else []

/-- The reply 227 for a port. -/
def passiveReply (serverIp port : Nat) : Reply :=
  .create 227 ("Entering Passive Mode (".toList ++ decimal (serverIp / 2 ^ 24 % 256) ++ [',']
    ++ decimal (serverIp / 2 ^ 16 % 256) ++ [','] ++ decimal (serverIp / 2 ^ 8 % 256) ++ [',']
    ++ decimal (serverIp % 256) ++ [','] ++ decimal ((port - port % 256) / 256) ++ [',']
    ++ decimal (port % 256) ++ ").".toList)

-- the other replies of PASV do not look like a 227
theorem take_refusal {code : Nat} (text : WString) (h : code = 425 ∨ code = 451) :
    (Reply.create code text).content.take 3 ≠ "227".toList := by
  rcases h with rfl | rfl
  · show ['4', '2', '5'] ≠ _
    decide
  · show ['4', '5', '1'] ≠ _
    decide

theorem processPasvCmd_ports {env : Env} {serverIp : Nat} {ports ports' : DataPorts} {s : Session}
    {o : Outcome} (h : s.processPasvCmd env serverIp ports = .ok (o, ports')) :
    ports' = ports.moved (s.portsTried env ports).length ∧ o.effects = [] ∧
      (ports.num ≠ 0 → o.reply.content.take 3 = "227".toList →
        ∃ port ∈ s.portsTried env ports, o.reply = passiveReply serverIp port.toNat) := by
  unfold processPasvCmd at h
  by_cases hstatus : s.curStatus = .waiting
  · rw [if_neg (not_not.mpr hstatus)] at h
    rcases eq_ok_of_bind h with ⟨t, -, h⟩
    by_cases hopen : env.openSocket = false
    · -- no acceptor could be opened
      rw [if_pos hopen] at h
      cases h
      have hnone : s.portsTried env ports = [] := by
        apply if_neg
        rw [hopen]
        exact fun h ↦ Bool.false_ne_true h.2.1
      rw [hnone]
      refine ⟨rfl, rfl, ?_⟩
      intro _ htext
      exact absurd htext (take_refusal _ (.inr rfl))
    · rw [if_neg hopen] at h
      dsimp only at h
      by_cases hnum : ports.num = 0
      · -- without a range the system chooses the port
        have hnone : s.portsTried env ports = [] := if_neg fun h ↦ h.2.2 hnum
        rw [if_pos hnum] at h
        rw [hnone]
        split at h <;> cases h <;> exact ⟨rfl, rfl, fun h ↦ absurd hnum h⟩
      · have htried : s.portsTried env ports
            = searchedPorts env ports.start ports.num 10 0 ports.cursor :=
          if_pos ⟨hstatus, by simpa using hopen, hnum⟩
        rw [if_neg hnum] at h
        rw [htried]
        have hsearch := searchPort_eq env ports.start ports.num 10 0 0 ports.cursor
        have hcons : searchedPorts env ports.start ports.num 10 0 ports.cursor ≠ [] :=
          List.cons_ne_nil _ _
        rw [show ports.curEndPort.getD ports.start = ports.cursor from rfl] at h
        generalize searchPort env ports.start ports.num 10 0 0 ports.cursor = last at h hsearch
        rcases last with ⟨found, port, cur⟩
        rcases hsearch with ⟨hport, hcur⟩
        dsimp only at h hport hcur
        have hmoved : { ports with curEndPort := some cur }
            = ports.moved (searchedPorts env ports.start ports.num 10 0 ports.cursor).length := by
          rw [DataPorts.moved, if_neg (mt List.length_eq_zero_iff.mp hcons), hcur]
        split at h
        · cases h
          refine ⟨hmoved, rfl, ?_⟩
          intro _ _
          refine ⟨port, ?_, rfl⟩
          rw [hport, List.getLastD_eq_getLast?, List.getLast?_eq_some_getLast hcons]
          exact List.getLast_mem hcons
        · cases h
          refine ⟨hmoved, rfl, ?_⟩
          intro _ htext
          exact absurd htext (take_refusal _ (.inr rfl))
  · rw [if_pos hstatus] at h
    cases h
    have hnone : s.portsTried env ports = [] := if_neg fun h ↦ hstatus h.1
    rw [hnone]
    refine ⟨rfl, rfl, ?_⟩
    intro _ htext
    exact absurd htext (take_refusal _ (.inl rfl))

theorem portsTried_eq_iterate (env : Env) (ports : DataPorts) (s : Session) :
    s.portsTried env ports
      = List.iterate (DataPorts.after ports.start ports.num) ports.cursor
          (s.portsTried env ports).length := by
  unfold portsTried
  split
  · exact searchedPorts_eq_iterate ..
  · rfl

end Session

namespace FtpServer

/-! ## The cursor along a run -/

-- only PASV moves the cursor

theorem clientFor_dataPorts (σ : FtpServer) (k : Connection) :
    (σ.clientFor k).1.dataPorts = σ.dataPorts := by
  unfold clientFor
  split <;> rfl

theorem perform_dataPorts (env : Env) (c : ClientRef) (fs : List Effect) (σ : FtpServer) :
    (fs.foldl (perform env c) σ).dataPorts = σ.dataPorts := by
  induction fs generalizing σ with
  | nil => rfl
  | cons f fs ih =>
    rw [List.foldl_cons, ih]
    cases f <;> rfl

theorem processUserCmd_dataPorts {σ : FtpServer} {c : ClientRef} {name : WString}
    {r : FtpServer × Reply × Bool} (h : σ.processUserCmd c name = .ok r) :
    r.1.dataPorts = σ.dataPorts := by
  rcases processUserCmd_ok h with ⟨τ, hτ, hr⟩
  have hout : τ.dataPorts = σ.dataPorts := by
    rcases logOut_cases hτ with ⟨-, rfl⟩ | ⟨-, u, -, rfl⟩ <;> rfl
  rw [← hout]
  cases hr with
  | unchanged => rfl
  | anonymous _ _ _ hadd =>
    rw [(addClient_eq_some hadd).2]
    rfl
  | named _ _ _ hadd =>
    rw [(addClient_eq_some hadd).2]
    rfl
  | full => rfl
  | unknown => rfl

theorem unbind_dataPorts (σ : FtpServer) (c : ClientRef) : (σ.unbind c).dataPorts = σ.dataPorts := by
  unfold unbind
  split <;> rfl

theorem processPasswordCmd_dataPorts (σ : FtpServer) (c : ClientRef) (arg : WString) :
    (σ.processPasswordCmd c arg).1.dataPorts = σ.dataPorts := by
  rw [processPasswordCmd_eq]
  split
  · rfl
  · exact unbind_dataPorts σ c

/-- The ports that a command tries on a server in the state `σ`. -/
def commandPorts (env : Env) (σ : FtpServer) (c : ClientRef) (cmd : Command) : List UInt16 :=
  if cmd.id = .PASV then (σ.nodes c).portsTried env σ.dataPorts else []

theorem runSwitch_dataPorts {build : Build} {env : Env} {σ : FtpServer} {c : ClientRef}
    {cmd : Command} {a : Answer} (h : σ.runSwitch build env c cmd = .ok a) :
    a.server.dataPorts = σ.dataPorts.moved (σ.commandPorts env c cmd).length := by
  unfold commandPorts
  by_cases hid : cmd.id = .PASV
  · rw [if_pos hid]
    simp only [runSwitch, hid] at h
    rcases eq_ok_of_map h with ⟨⟨o, ports⟩, hpasv, rfl⟩
    have hports := (Session.processPasvCmd_ports hpasv).1
    rw [← hports]
    exact perform_dataPorts ..
  · rw [if_neg hid]
    show a.server.dataPorts = σ.dataPorts
    rcases runSwitch_cases h with ⟨-, r, hr, rfl⟩ | ⟨-, rfl⟩ | ⟨-, rfl⟩ | ⟨-, o, ports, hrun, rfl⟩
    · exact processUserCmd_dataPorts hr
    · exact processPasswordCmd_dataPorts ..
    · exact unbind_dataPorts σ c
    · have hports : ports = σ.dataPorts := by
        cases hrun with
        | handler => rfl
        | pasv hpasv => exact absurd hpasv hid
        | plain => rfl
      rw [hports]
      exact perform_dataPorts ..

theorem endWork_dataPorts {σ τ : FtpServer} {s : Handle} (h : σ.endWork s = .ok τ) :
    τ.dataPorts = σ.dataPorts := by
  rcases endWork_ok h with ⟨-, rfl⟩ | ⟨c, -, hend⟩
  · rfl
  · rcases endClient_ok hend with ⟨u, -, rfl⟩
    rfl

theorem runWorker_dataPorts {env : Env} {σ τ : FtpServer} {i : Nat} {act : WorkerStep}
    {fs : List Effect} (h : σ.runWorker env i act = .ok (τ, fs)) : τ.dataPorts = σ.dataPorts := by
  have hfinish : ∀ {job complete} {c : ClientRef},
      σ.finishWorker i c job complete = .ok (τ, fs) → τ.dataPorts = σ.dataPorts := by
    intro job complete c h
    rcases eq_ok_of_bind h with ⟨s, -, h⟩
    cases h
    rfl
  unfold runWorker at h
  split at h
  · cases h
    rfl
  · dsimp only at h
    split at h
    · split at h <;> cases h <;> rfl
    · rcases eq_ok_of_bind h with ⟨u, -, h⟩
      cases h
      rfl
    · split at h
      · cases h
        rfl
      · exact hfinish h
    · exact hfinish h
    · exact hfinish h
    · cases h
      rfl

-- the administration writes the user table and the switch for anonymous logins only
theorem administer_eq {env : Env} {σ τ : FtpServer} {op : AdminOp}
    (h : σ.administer env op = .ok τ) :
    ∃ m allow, τ = { σ with userManager := m, isAllowAnonymous := allow } := by
  cases op with
  | addUser name password homeDir priv =>
    rw [administer, FtpServer.addUser] at h
    split at h
    · cases h
    · rcases eq_ok_of_map h with ⟨m, -, rfl⟩
      exact ⟨m, _, rfl⟩
  | allowAnonymous doAllow homeDir priv =>
    rw [administer, FtpServer.allowAnonymous] at h
    split at h
    · split at h
      · rcases eq_ok_of_map h with ⟨m, -, rfl⟩
        exact ⟨m, _, rfl⟩
      · cases h
        exact ⟨_, _, rfl⟩
    · split at h
      · split at h <;> cases h <;> exact ⟨_, _, rfl⟩
      · cases h
        exact ⟨_, _, rfl⟩
  | setIsEnable user enable =>
    cases h
    exact ⟨_, _, rfl⟩
  | setUserPassword | setUserPrivilege | setUserHomeDirectory | setUserMaxClient =>
    rcases eq_ok_of_map h with ⟨m, -, rfl⟩
    exact ⟨m, _, rfl⟩

/-- The ports that an event makes the server try. -/
def triedPorts (σ : FtpServer) (e : Event Line) : List UInt16 :=
  match e.env, request σ e with
  | some env, some q =>
    if q.cmd.id = .PASV then q.node.portsTried env σ.dataPorts else []
  | _, _ => []

theorem triedPorts_of_request {σ : FtpServer} {e : Event Line} {env : Env} {q : Request}
    (henv : e.env = some env) (hq : request σ e = some q) :
    σ.triedPorts e
      = if q.cmd.id = .PASV then q.node.portsTried env σ.dataPorts else [] := by
  rw [triedPorts, henv, hq]

theorem triedPorts_eq_iterate (σ : FtpServer) (e : Event Line) :
    σ.triedPorts e
      = List.iterate (DataPorts.after σ.dataPorts.start σ.dataPorts.num) σ.dataPorts.cursor
          (σ.triedPorts e).length := by
  unfold triedPorts
  split
  · split
    · exact Session.portsTried_eq_iterate ..
    · rfl
  · rfl

theorem exec_dataPorts {build : Build} {σ τ : FtpServer} {e : Event Line} {fs : List Effect}
    (h : exec (onLine build) σ e = .ok (τ, fs)) :
    τ.dataPorts = σ.dataPorts.moved (σ.triedPorts e).length := by
  cases e with
  | connect k =>
    rw [exec] at h
    split at h <;> cases h <;> rfl
  | receive s line =>
    rcases exec_line h with
      ⟨hnone, rfl, -⟩ | ⟨k, cmd, reply, p, a, -, -, -, hrequest, hhandled, hreplied⟩
    · have hnothing : τ.triedPorts (.receive s line) = [] := by
        simp only [triedPorts, request, hnone, Option.map_none, Event.env]
      rw [hnothing]
      rfl
    · have hreply : τ.dataPorts = a.server.dataPorts := by
        cases hreplied with
        | goesOn => rfl
        | ended _ hend =>
          have hsame := endWork_dataPorts hend
          exact hsame
      rw [hreply, triedPorts_of_request rfl hrequest]
      have hfound := clientFor_dataPorts σ k
      by_cases hid : cmd.id = .invalid
      · rw [if_pos hid] at hhandled
        rw [if_neg (by rw [hid]; decide)]
        cases hhandled with
        | ignored => exact hfound
      · rw [if_neg hid] at hhandled
        cases hhandled with
        | ran hswitch =>
          have hmoved := runSwitch_dataPorts hswitch
          show _ = _
          rw [← hfound]
          -- the stored parser is no part of the session
          have hsame : ((σ.stored k p).nodes (σ.clientFor k).2).toSession
              = ((σ.clientFor k).1.nodes (σ.clientFor k).2).toSession := by
            rw [setParser_nodes_self]
          rw [commandPorts, hsame] at hmoved
          exact hmoved
  | close s =>
    rcases exec_close h with ⟨rfl, -⟩ | ⟨-, υ, hυ, rfl⟩
    · rfl
    · have hsame := endWork_dataPorts hυ
      exact hsame
  | worker i act env => exact runWorker_dataPorts h
  | admin op env =>
    cases h
    cases hop : σ.administer env op with
    | error e => rfl
    | ok τ =>
      rcases administer_eq hop with ⟨m, allow, rfl⟩
      rfl

/-- All ports tried in a run, the oldest first. -/
def allTriedPorts : List (FtpServer × Event Line) → List UInt16
  | [] => []
  | (σ, e) :: older => allTriedPorts older ++ σ.triedPorts e

theorem forall_mem_allTriedPorts {p : UInt16 → Prop} (trace : List (FtpServer × Event Line)) :
    (∀ port ∈ allTriedPorts trace, p port)
      ↔ ∀ q ∈ trace, ∀ port ∈ q.1.triedPorts q.2, p port := by
  induction trace with
  | nil => simp [allTriedPorts]
  | cons q older ih =>
    rw [allTriedPorts, List.forall_mem_append, ih, List.forall_mem_cons, and_comm]

-- the sessions take turns on one walk over the range
theorem lineRun_triedPorts {build : Build} {σ τ : FtpServer}
    {trace : List (FtpServer × Event Line)} (run : LineRun build σ trace τ) :
    τ.dataPorts = σ.dataPorts.moved (allTriedPorts trace).length ∧
    allTriedPorts trace
      = List.iterate (DataPorts.after σ.dataPorts.start σ.dataPorts.num) σ.dataPorts.cursor
          (allTriedPorts trace).length := by
  induction run with
  | refl => exact ⟨rfl, rfl⟩
  | @snoc trace υ e τ before last ih =>
    rcases ih with ⟨hports, hiterate⟩
    rcases last with ⟨fs, hexec⟩
    have hrange := σ.dataPorts.moved_range (allTriedPorts trace).length
    have hmove : τ.dataPorts = υ.dataPorts.moved (υ.triedPorts e).length := exec_dataPorts hexec
    have htried : υ.triedPorts e
        = List.iterate (DataPorts.after σ.dataPorts.start σ.dataPorts.num)
            ((DataPorts.after σ.dataPorts.start σ.dataPorts.num)^[(allTriedPorts trace).length]
              σ.dataPorts.cursor) (υ.triedPorts e).length := by
      have hwalk := triedPorts_eq_iterate υ e
      rw [hports, DataPorts.moved_cursor, hrange.1, hrange.2] at hwalk
      exact hwalk
    rw [allTriedPorts, List.length_append]
    constructor
    · rw [hmove, hports, DataPorts.moved_moved]
    · rw [List.iterate_add, ← hiterate, ← htried]

/-! ## The range is kept -/

theorem int32_ofInt {x : Int} (hlo : -65536 ≤ x) (hhi : x ≤ 65536) :
    (UInt32.ofInt x).toBitVec.toInt = x ∧ (UInt32.ofInt x = 0 ↔ x = 0) := by
  have hint : (UInt32.ofInt x).toBitVec.toInt = x := by
    have hnat : (UInt32.ofInt x).toBitVec.toNat = (x % 2 ^ 32).toNat % 2 ^ 32 := UInt32.toNat_ofNat'
    rw [BitVec.toInt_eq_toNat_cond, hnat]
    split <;> omega
  refine ⟨hint, ?_⟩
  constructor
  · intro hzero
    rw [← hint, hzero]
    rfl
  · rintro rfl
    rfl

theorem configurePorts_eq (lo hi : UInt16) :
    configurePorts lo hi = if lo.toNat ≤ 1024 ∨ hi.toNat + 1 = lo.toNat then none
      else some { start := lo, num := (hi.toNat : Int) - lo.toNat + 1 } := by
  have hlo := lo.toNat_lt
  have hhi := hi.toNat_lt
  rcases int32_ofInt (x := (hi.toNat : Int) - lo.toNat + 1) (by omega) (by omega) with ⟨hint, hzero⟩
  have hiff : (lo ≤ 1024 ∨ UInt32.ofInt ((hi.toNat : Int) - lo.toNat + 1) = 0)
      ↔ (lo.toNat ≤ 1024 ∨ hi.toNat + 1 = lo.toNat) := by
    rw [hzero, UInt16.le_iff_toNat_le]
    show (lo.toNat ≤ 1024 ∨ _) ↔ _
    omega
  simp only [configurePorts, setDataPortRange, hiff, hint]

-- the first ports of the walk are those of the range, the next one is the port after it
theorem after_iterate {lo hi : UInt16} (hle : lo ≤ hi) (i : Nat) (hi' : i ≤ hi.toNat - lo.toNat) :
    ((DataPorts.after lo ((hi.toNat : Int) - lo.toNat + 1))^[i] lo).toNat = lo.toNat + i := by
  have hhi := hi.toNat_lt
  rw [UInt16.le_iff_toNat_le] at hle
  induction i with
  | zero => rfl
  | succ i ih =>
    have hprev := ih (by omega)
    rw [Function.iterate_succ_apply']
    generalize (DataPorts.after lo ((hi.toNat : Int) - lo.toNat + 1))^[i] lo = cur at hprev ⊢
    have hnext : (cur + 1).toNat = lo.toNat + (i + 1) := by
      rw [UInt16.toNat_add, hprev]
      show (lo.toNat + i + 1) % 65536 = _
      omega
    rw [DataPorts.after, hnext, if_neg (by omega), hnext]

theorem after_iterate_past {lo hi port : UInt16} (hpos : 0 < lo.toNat) (hle : lo ≤ hi)
    (hport : (DataPorts.after lo ((hi.toNat : Int) - lo.toNat + 1))^[hi.toNat - lo.toNat + 1] lo
      = port) : ¬(lo ≤ port ∧ port ≤ hi) := by
  have hhi := hi.toNat_lt
  have hlast := after_iterate hle (hi.toNat - lo.toNat) (Nat.le_refl _)
  rw [UInt16.le_iff_toNat_le] at hle
  rw [Function.iterate_succ_apply'] at hport
  generalize (DataPorts.after lo ((hi.toNat : Int) - lo.toNat + 1))^[hi.toNat - lo.toNat] lo = cur
    at hlast hport
  have hnext : (cur + 1).toNat = (hi.toNat + 1) % 65536 := by
    rw [UInt16.toNat_add, hlast]
    show (lo.toNat + (hi.toNat - lo.toNat) + 1) % 65536 = _
    omega
  -- the bound is compared with the port after the range, and the cursor may have wrapped
  rw [DataPorts.after, if_neg (by omega)] at hport
  rw [← hport, UInt16.le_iff_toNat_le, UInt16.le_iff_toNat_le, hnext]
  omega

theorem iterate_within_iff {lo hi : UInt16} (hpos : 0 < lo.toNat) (hle : lo ≤ hi) (n : Nat) :
    (∀ port ∈ List.iterate (DataPorts.after lo ((hi.toNat : Int) - lo.toNat + 1)) lo n,
        lo ≤ port ∧ port ≤ hi)
      ↔ n ≤ hi.toNat - lo.toNat + 1 := by
  constructor
  · intro hwithin
    by_contra hn
    have hmem : (DataPorts.after lo ((hi.toNat : Int) - lo.toNat + 1))^[hi.toNat - lo.toNat + 1] lo
        ∈ List.iterate (DataPorts.after lo ((hi.toNat : Int) - lo.toNat + 1)) lo n :=
      List.mem_iterate.mpr ⟨_, by omega, rfl⟩
    exact after_iterate_past hpos hle rfl (hwithin _ hmem)
  · intro hn port hport
    rcases List.mem_iterate.mp hport with ⟨i, hi', heq⟩
    have hnat := after_iterate hle i (by omega)
    rw [← heq] at hnat
    rw [UInt16.le_iff_toNat_le] at hle
    rw [UInt16.le_iff_toNat_le, UInt16.le_iff_toNat_le, hnat]
    omega

/-- Every port that the events of a run try, and every port that a reply 227 to one of them
announces, lies between `lo` and `hi`. -/
def PortsWithin (build : Build) (lo hi : UInt16) (trace : List (FtpServer × Event Line)) : Prop :=
  ∀ q ∈ trace, (∀ port ∈ q.1.triedPorts q.2, lo ≤ port ∧ port ≤ hi) ∧
    ∀ r τ fs text, request q.1 q.2 = some r → r.cmd.id = .PASV →
      exec (onLine build) q.1 q.2 = .ok (τ, fs) → Effect.send text ∈ fs →
      text.take 3 = "227".toList →
      ∃ port, lo ≤ port ∧ port ≤ hi ∧
        text = (Session.passiveReply r.node.serverIp port.toNat).content

-- what PASV sends is its reply, and a 227 names the last port tried
theorem exec_pasv_announces {build : Build} {σ τ : FtpServer} {e : Event Line} {fs : List Effect}
    {r : Request} {text : WString} (h : exec (onLine build) σ e = .ok (τ, fs))
    (hr : request σ e = some r) (hid : r.cmd.id = .PASV) (hnum : σ.dataPorts.num ≠ 0)
    (hsend : Effect.send text ∈ fs) (htext : text.take 3 = "227".toList) :
    ∃ port ∈ σ.triedPorts e, text = (Session.passiveReply r.node.serverIp port.toNat).content := by
  cases e with
  | connect | close | worker | admin => cases hr
  | receive s line =>
    rcases exec_line h with
      ⟨hnone, -, -⟩ | ⟨k, cmd, reply, p, a, -, -, -, hrequest, hhandled, hreplied⟩
    · rw [request, hnone] at hr
      cases hr
    · have hr' := hrequest.symm.trans hr
      cases hr'
      have hid : cmd.id = .PASV := hid
      have hinvalid : cmd.id ≠ .invalid := by rw [hid]; decide
      rw [if_neg hinvalid] at hhandled
      have hreply : Effect.send text ∈ a.effects ++ replyEffects a := by
        cases hreplied with
        | goesOn => exact hsend
        | ended => exact hsend
      cases hhandled with
      | @ran _ b hswitch =>
        simp only [runSwitch, hid] at hswitch
        rcases eq_ok_of_map hswitch with ⟨⟨o, ports⟩, hpasv, rfl⟩
        rw [setParser_nodes_self, show (σ.stored k p).dataPorts = σ.dataPorts from
          clientFor_dataPorts σ k] at hpasv
        rcases Session.processPasvCmd_ports hpasv with ⟨-, heffects, hannounce⟩
        have hcontent : text = o.reply.content := by
          have hmem : Effect.send text ∈ (.switch cmd :: o.effects)
              ++ (if o.reply.empty then [] else [.send o.reply.content]) := hreply
          rw [heffects] at hmem
          split at hmem
          · simp at hmem
          · simpa using hmem
        rw [hcontent] at htext ⊢
        rcases hannounce hnum htext with ⟨port, hport, heq⟩
        refine ⟨port, ?_, by rw [heq]⟩
        rw [triedPorts_of_request rfl hrequest, if_pos hid]
        exact hport

theorem passivePorts_iff (lo hi : UInt16) :
    (hi < lo → (configurePorts lo hi = none ↔ lo.toNat ≤ 1024 ∨ hi.toNat + 1 = lo.toNat)) ∧
    ∀ ports, configurePorts lo hi = some ports → lo ≤ hi →
      ∀ build σ trace τ, σ.dataPorts = ports → LineRun build σ trace τ →
        (PortsWithin build lo hi trace
          ↔ (allTriedPorts trace).length ≤ hi.toNat - lo.toNat + 1) := by
  rw [configurePorts_eq]
  constructor
  · intro hlt
    rw [ite_eq_left_iff]
    constructor
    · intro hnone
      by_contra hrange
      exact absurd (hnone hrange) (by simp)
    · intro hrange hnot
      exact absurd hrange hnot
  · intro ports hports hle build σ trace τ hσ run
    split at hports
    · cases hports
    · rename_i hrange
      cases hports
      have hwalk := (lineRun_triedPorts run).2
      rw [hσ] at hwalk
      dsimp only [DataPorts.cursor, Option.getD] at hwalk
      rw [← iterate_within_iff (by omega) hle, ← hwalk, forall_mem_allTriedPorts]
      constructor
      · exact fun hwithin q hq ↦ (hwithin q hq).1
      · intro htried q hq
        refine ⟨htried q hq, ?_⟩
        intro r υ fs text hr hid hexec hsend htext
        -- the range is the configured one in every state of the run
        rcases run.reaches_recorded hq with ⟨older, before, -⟩
        have hnum : q.1.dataPorts.num ≠ 0 := by
          rw [(lineRun_triedPorts before).1, (DataPorts.moved_range _ _).2, hσ]
          show (hi.toNat : Int) - lo.toNat + 1 ≠ 0
          omega
        rcases exec_pasv_announces hexec hr hid hnum hsend htext with ⟨port, hport, heq⟩
        rcases htried q hq port hport with ⟨hlo, hhi⟩
        exact ⟨port, hlo, hhi, heq⟩

/-- The server of the samples with the range that start-up makes of `lo` and `hi`. -/
def rangedServer (lo hi : UInt16) : FtpServer :=
  { Sample.server with dataPorts := (configurePorts lo hi).getD {} }

/-- Two PASV commands keep to a range of two ports, and an upside-down range is refused when its
end is just below its start. -/
theorem passivePorts_two :
    (∃ trace τ, LineRun {} (rangedServer 2000 2001) trace τ ∧
      allTriedPorts trace = [2000, 2001] ∧ PortsWithin {} 2000 2001 trace) ∧
    (configurePorts 2001 2000 = none ↔
      (2001 : UInt16).toNat ≤ 1024 ∨ (2000 : UInt16).toNat + 1 = (2001 : UInt16).toNat) := by
  constructor
  · rcases exists_lineRun {} (rangedServer 2000 2001) [.connect Sample.connection,
      Sample.line "USER anonymous", Sample.line "PASV", Sample.line "PASV"]
      (fun r ↦ allTriedPorts r.1 = [2000, 2001]) (by decide +kernel) with ⟨trace, τ, run, htried⟩
    have htried : allTriedPorts trace = [2000, 2001] := of_decide_eq_true htried
    refine ⟨trace, τ, run, htried, ?_⟩
    apply ((passivePorts_iff 2000 2001).2 _ rfl (by decide) _ _ _ _ rfl run).mpr
    rw [htried]
    decide
  · exact (passivePorts_iff 2001 2000).1 (by decide)

/-- With a range of one port the second PASV tries and announces the port after it, and an
upside-down range is accepted. -/
theorem passivePorts_fails :
    (∃ trace τ, LineRun {} (rangedServer 2000 2000) trace τ ∧
      ¬PortsWithin {} 2000 2000 trace) ∧
    configurePorts 3000 2000 ≠ none := by
  constructor
  · rcases exists_lineRun {} (rangedServer 2000 2000) [.connect Sample.connection,
      Sample.line "USER anonymous", Sample.line "PASV", Sample.line "PASV"]
      (fun r ↦ r.1.any fun q ↦ (2001 ∈ q.1.triedPorts q.2)) (by decide +kernel)
      with ⟨trace, τ, run, htried⟩
    refine ⟨trace, τ, run, ?_⟩
    intro hwithin
    rcases List.any_eq_true.mp htried with ⟨q, hq, hport⟩
    have hle := ((hwithin q hq).1 2001 (of_decide_eq_true hport)).2
    exact absurd hle (by decide)
  · decide

end FtpServer

end YFtp
