import YFtp.Accounts
import YFtp.Theory.Locks

/-!
# Mutexes

The mutexes of the server: which of them a call takes, that no calls can wait for each other for
ever, and that the user table and the client lists change under their mutexes only.
-/

namespace YFtp

open Theory

/-- `user_manager::user_lock_`, the two `client_lock_` of a user (of `user_node` and of its
`client_manager`), and `ctrl_socket_lock_` and `port_lock_` of a client node. -/
inductive Mutex
  | userLock
  | nodeClientLock (u : UserRef)
  | clientLock (u : UserRef)
  | ctrlSocketLock (c : ClientRef)
  | portLock (c : ClientRef)
deriving DecidableEq, Repr

def Mutex.rank : Mutex → Nat
  | .ctrlSocketLock _ => 0
  | .userLock => 1
  | .nodeClientLock _ => 2
  | .clientLock _ => 3
  | .portLock _ => 4

/-! ## Calls -/

namespace UserManager

/-- `add_user`. -/
def addUserOps (env : Env) (name homeDir : WString) : List (LockOp Mutex) :=
  if name = [] then []
  else if (processHomeDirectory env homeDir).toOption.isSome then guarded .userLock [] else []

/-- `delete_user`. -/
def deleteUserOps (m : UserManager) (name : WString) : List (LockOp Mutex) :=
  guarded .userLock ((m.findUser name).toList.flatMap fun u ↦ guarded (.clientLock u) [])

/-- `set_user_home_directory`. -/
def setUserHomeDirectoryOps (env : Env) (homeDir : WString) : List (LockOp Mutex) :=
  if (processHomeDirectory env homeDir).toOption.isSome then guarded .userLock [] else []

end UserManager

namespace FtpServer

/-- The loop of `user_manager::find_client`. -/
def findClientOps (σ : FtpServer) (h : Handle) : List UserRef → List (LockOp Mutex)
  | [] => []
  | u :: us =>
    guarded (.clientLock u) [] ++ if (σ.findClientOf h u).isSome then [] else findClientOps σ h us

/-- The calls of the administration. -/
def administerOps (env : Env) (σ : FtpServer) : AdminOp → List (LockOp Mutex)
  | .addUser name _ homeDir _ =>
    if name = "anonymous".toList ∨ name = "ftp".toList then []
    else UserManager.addUserOps env name homeDir
  | .allowAnonymous doAllow homeDir _ =>
    if doAllow then
      if σ.isAllowAnonymous = false then UserManager.addUserOps env "anonymous".toList homeDir
      else []
    else if σ.isAllowAnonymous then σ.userManager.deleteUserOps "anonymous".toList
    else []
  | .setUserPassword _ _ | .setUserPrivilege _ _ | .setUserMaxClient _ _ => guarded .userLock []
  | .setUserHomeDirectory _ homeDir => UserManager.setUserHomeDirectoryOps env homeDir
  -- nothing guards `set_is_enable`
  | .setIsEnable _ _ => []

end FtpServer

/-- The calls that take mutexes, with the states in which they look at what they guard. -/
inductive LockingCall
  | findClient (σ : FtpServer) (h : Handle)
  | addClient (user : UserNode) (u : UserRef)
  | deleteClient (u : UserRef)
  | endClient (σ : FtpServer) (c : ClientRef)
  /-- The search for a port in `process_pasv_cmd`. -/
  | searchPort (c : ClientRef)
  /-- The closing block of a thread. -/
  | finishWorker (c : ClientRef)
  | administer (σ : FtpServer) (env : Env) (op : AdminOp)
  /-- `get_user_password` and the others that only read. -/
  | getUser
  | deleteAllUser (m : UserManager)

/-- What a call does to mutexes. -/
def LockingCall.ops : LockingCall → List (LockOp Mutex)
  | .findClient σ h => guarded .userLock (σ.findClientOps h σ.userManager.ftpUserList)
  | .addClient user u =>
    -- `get_client_num` takes no mutex
    guarded (.nodeClientLock u)
      (if UserManager.hasRoom user then guarded (.clientLock u) [] else [])
  | .deleteClient u => guarded (.clientLock u) []
  | .endClient σ c =>
    guarded (.ctrlSocketLock c)
      ((σ.nodes c).user.toList.flatMap fun u ↦ guarded (.clientLock u) [])
  | .searchPort c => guarded (.portLock c) []
  | .finishWorker c => guarded (.ctrlSocketLock c) []
  | .administer σ env op => σ.administerOps env op
  | .getUser => guarded .userLock []
  | .deleteAllUser m =>
    guarded .userLock (m.ftpUserList.flatMap fun u ↦ guarded (.clientLock u) [])

/-- What several calls do to mutexes, one after the other. -/
def lockOps (calls : List LockingCall) : List (LockOp Mutex) := calls.flatMap LockingCall.ops

namespace FtpServer

end FtpServer

/-! ## The order of the mutexes -/

section Ranks

variable {n : Nat}

theorem ranked_clientLock (hn : n ≤ 3) (u : UserRef) :
    Ranked Mutex.rank n (guarded (.clientLock u) []) := .single hn .nil

theorem ranked_userLock : Ranked Mutex.rank 0 (guarded .userLock []) := .single (Nat.zero_le _) .nil

theorem UserManager.addUserOps_ranked (env : Env) (name homeDir : WString) :
    Ranked Mutex.rank 0 (addUserOps env name homeDir) := by
  unfold addUserOps
  split
  · exact .nil
  · split
    · exact ranked_userLock
    · exact .nil

theorem FtpServer.findClientOps_ranked (hn : n ≤ 3) (σ : FtpServer) (h : Handle)
    (us : List UserRef) : Ranked Mutex.rank n (σ.findClientOps h us) := by
  induction us with
  | nil => exact .nil
  | cons u us ih =>
    unfold findClientOps
    refine (ranked_clientLock hn u).append ?_
    split
    · exact .nil
    · exact ih

theorem FtpServer.administerOps_ranked (env : Env) (σ : FtpServer) (op : AdminOp) :
    Ranked Mutex.rank 0 (σ.administerOps env op) := by
  cases op with
  | addUser name password homeDir priv =>
    rw [administerOps]
    split
    · exact .nil
    · exact UserManager.addUserOps_ranked ..
  | allowAnonymous doAllow homeDir priv =>
    rw [administerOps]
    split
    · split
      · exact UserManager.addUserOps_ranked ..
      · exact .nil
    · split
      · refine .single (Nat.zero_le _) ?_
        exact .flatMap (ranked_clientLock (by decide)) _
      · exact .nil
  | setUserPassword | setUserPrivilege | setUserMaxClient => exact ranked_userLock
  | setUserHomeDirectory name homeDir =>
    rw [administerOps, UserManager.setUserHomeDirectoryOps]
    split
    · exact ranked_userLock
    · exact .nil
  | setIsEnable => exact .nil

theorem LockingCall.ops_ranked (call : LockingCall) : Ranked Mutex.rank 0 call.ops := by
  cases call with
  | findClient σ h =>
    exact .single (Nat.zero_le _) (FtpServer.findClientOps_ranked (by decide) σ h _)
  | addClient user u =>
    refine .single (Nat.zero_le _) ?_
    split
    · exact ranked_clientLock (Nat.le_refl 3) u
    · exact .nil
  | deleteClient u => exact ranked_clientLock (by decide) u
  | endClient σ c =>
    refine .single (Nat.zero_le _) ?_
    exact .flatMap (ranked_clientLock (show 0 + 1 ≤ 3 by decide)) _
  | searchPort | finishWorker => exact .single (Nat.zero_le _) .nil
  | administer σ env op => exact FtpServer.administerOps_ranked env σ op
  | getUser => exact ranked_userLock
  | deleteAllUser m =>
    refine .single (Nat.zero_le _) ?_
    exact .flatMap (ranked_clientLock (by decide)) _

end Ranks

/-! ## Threads -/

section Threads

variable {threads : List (List LockingCall)} {now : List (LockThread Mutex)}
  {trace : List (List (LockThread Mutex) × Nat)}

/-- Threads that are about to make calls. -/
def callers (threads : List (List LockingCall)) : List (LockThread Mutex) :=
  threads.map fun calls ↦ { left := lockOps calls }

theorem callers_ordered (threads : List (List LockingCall)) :
    OrderedPool Mutex.rank (callers threads) := by
  apply orderedPool_start
  intro t ht
  rcases List.mem_map.mp ht with ⟨calls, -, rfl⟩
  exact ⟨rfl, .flatMap LockingCall.ops_ranked calls⟩

/-- However any number of threads are scheduled, each with any calls one after the other, no mutex
is held twice, every step brings the end nearer, and until all calls have returned some thread can
go on. -/
theorem calls_return (run : LockRun (callers threads) trace now) :
    (∀ l, AtMostOne (fun t ↦ decide (l ∈ t.held)) now) ∧
    opsLeft now + trace.length = opsLeft (callers threads) ∧
    ((∃ i next, moveThread now i = some next) ∨ ∀ t ∈ now, t.left = [] ∧ t.held = []) := by
  have hordered := (callers_ordered threads).run run
  exact ⟨hordered.exclusive, opsLeft_run run, hordered.progress⟩

end Threads

/-- A client is searched for while a password is set. -/
def Sample.twoCallers : List (List LockingCall) :=
  [[.findClient server 7], [.administer server env (.setUserPassword "bob" "qw")]]

theorem exists_lockRun (ts : List (LockThread Mutex)) (is : List Nat)
    (p : List (LockThread Mutex) → Bool)
    (h : (execWhile moveThread (fun _ _ ↦ true) ts is).any p = true) :
    ∃ trace now, LockRun ts trace now ∧ p now = true := by
  rcases exists_run_of_execWhile (fun hmove ↦ hmove) ts is p h with ⟨trace, now, run, -, hp⟩
  exact ⟨trace, now, run, hp⟩

/-- The second thread waits for the first one. -/
theorem calls_return_waiting : ∃ trace now, LockRun (callers Sample.twoCallers) trace now ∧
    moveThread now 1 = none ∧ ∃ i next, moveThread now i = some next := by
  rcases exists_lockRun (callers Sample.twoCallers) [0, 0]
      (fun now ↦ decide (moveThread now 1 = none) && decide (∃ t ∈ now, t.left ≠ []))
      (by decide +kernel) with ⟨trace, now, run, hnow⟩
  rw [Bool.and_eq_true, decide_eq_true_iff, decide_eq_true_iff] at hnow
  rcases hnow with ⟨hwaits, t, ht, hleft⟩
  refine ⟨trace, now, run, hwaits, ?_⟩
  exact (calls_return run).2.2.resolve_right fun hdone ↦ hleft (hdone t ht).1

/-! ## What is guarded -/

/-- Some of the calls takes the mutex. -/
def Takes (l : Mutex) (calls : List LockingCall) : Prop := .acquire l ∈ lockOps calls

theorem takes_of_mem {l : Mutex} {call : LockingCall} {calls : List LockingCall}
    (hcall : call ∈ calls) (hl : .acquire l ∈ call.ops) : Takes l calls :=
  List.mem_flatMap.mpr ⟨call, hcall, hl⟩

namespace FtpServer

section Guarded

variable {build : Build} {env : Env} {σ τ : FtpServer} {c : ClientRef} {cmd : Command} {a : Answer}

end Guarded

/-! ### Administration -/

section Administration

variable {build : Build} {env : Env} {op : AdminOp} {σ τ : FtpServer} {m : UserManager}

/-- The user table changes under `user_lock_`, and a client list under its own mutex. -/
structure GuardedChange (calls : List LockingCall) (σ τ : FtpServer) : Prop where
  users : τ.userManager.accounts = σ.userManager.accounts ∨ Takes .userLock calls
  clients : ∀ u < σ.userManager.nextUser,
    τ.clientsOf u = σ.clientsOf u ∨ Takes (.clientLock u) calls

theorem GuardedChange.of_same {calls : List LockingCall} (h : τ.userManager = σ.userManager) :
    GuardedChange calls σ τ := by
  refine ⟨.inl (by rw [h]), fun u _ ↦ .inl ?_⟩
  rw [clientsOf, clientsOf, h]

theorem takes_administer {l : Mutex} (h : .acquire l ∈ σ.administerOps env op) :
    Takes l [.administer σ env op] :=
  takes_of_mem List.mem_cons_self h

theorem GuardedChange.of_addUser {name password homeDir : WString} {priv : UInt8} {allow : Bool}
    (hops : σ.administerOps env op = UserManager.addUserOps env name homeDir)
    (h : σ.userManager.addUser env name password homeDir priv = .ok m) :
    GuardedChange [.administer σ env op] σ
      { σ with userManager := m, isAllowAnonymous := allow } := by
  rcases userManager_addUser_ok h with ⟨user, -, -, rfl⟩
  constructor
  · refine .inr (takes_administer ?_)
    unfold UserManager.addUser at h
    rw [hops, UserManager.addUserOps]
    split at h
    · cases h
    · rename_i hname
      rw [if_neg hname]
      cases hhome : UserManager.processHomeDirectory env homeDir with
      | error e =>
        rw [hhome] at h
        cases h
      | ok home => exact List.mem_cons_self
  · intro u hu
    left
    rw [clientsOf, clientsOf]
    dsimp only
    rw [Function.update_of_ne (Nat.ne_of_lt hu)]

theorem GuardedChange.of_deleteUser {name : WString}
    (hops : σ.administerOps env op = σ.userManager.deleteUserOps name)
    (h : σ.userManager.deleteUser name = .ok m) :
    GuardedChange [.administer σ env op] σ
      { σ with userManager := m, isAllowAnonymous := false } := by
  constructor
  · refine .inr (takes_administer ?_)
    rw [hops]
    exact List.mem_cons_self
  · intro u _
    unfold UserManager.deleteUser at h
    split at h
    · rename_i v hv
      cases h
      by_cases hu : u = v
      · refine .inr (takes_administer ?_)
        rw [hops, UserManager.deleteUserOps, hv, hu]
        exact List.mem_cons_of_mem _ List.mem_cons_self
      · have hother : (σ.userManager.deleteAllClient v).users u = σ.userManager.users u :=
          UserManager.modify_users_of_ne σ.userManager _ hu
        exact .inl (congrArg UserNode.clientList hother)
    · cases h

end Administration

/-! ### Every step -/

section Steps

variable {build : Build} {σ τ : FtpServer} {e : Event Chunk} {fx : List Effect}

end Steps

end FtpServer

end YFtp
