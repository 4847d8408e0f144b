import YFtp.Theory.Returns
import YFtp.Dispatch
import YFtp.Registry

/-!
# Inputs that are survived

When a call of `process_command` returns: the line that it takes has to be UTF-8, and the command
must not meet a null pointer or a search without end.
-/

namespace YFtp

open Theory

namespace Session

variable (env : Env) (s : Session) (arg : WString) (user : Option UserNode)

/-! ## The handlers of a session -/

-- for each helper and handler the states in which it returns

def ClosesSafely : Prop := if s.dataUseSsl then s.sslSocket ≠ none else s.dataSocket ≠ none

theorem closeDataSocket_returns_iff : Returns s.closeDataSocket ↔ s.ClosesSafely := by
  unfold closeDataSocket ClosesSafely
  split
  · split
    · rename_i hnull
      exact iff_of_false (not_returns_error _) fun h ↦ h hnull
    · rename_i hsocket
      exact iff_of_true (returns_ok _) hsocket
  · split
    · rename_i hnull
      exact iff_of_false (not_returns_error _) fun h ↦ h hnull
    · rename_i hsocket
      exact iff_of_true (returns_ok _) hsocket

def ResetsSafely : Prop := s.curDataMode ≠ .none → s.dataSocket ≠ none → s.ClosesSafely

theorem resetDataMode_returns_iff : Returns s.resetDataMode ↔ s.ResetsSafely := by
  unfold resetDataMode ResetsSafely
  rw [returns_ite_iff, and_iff_left fun _ ↦ returns_ok _]
  apply imp_congr_right
  intro _
  dsimp only
  split
  · rename_i hsocket
    rw [returns_bind_of_total fun _ ↦ returns_ok _, closeDataSocket_returns_iff]
    exact ⟨fun h _ ↦ h, fun h ↦ h hsocket⟩
  · rename_i hnull
    exact iff_of_true (returns_ok _) fun h ↦ absurd h hnull

def OpensSafely : Prop := s.curDataMode = .pasv → s.dataAcceptor ≠ none

theorem openDataConnection_returns_iff (sslContext : Bool) :
    Returns (s.openDataConnection env sslContext) ↔ s.OpensSafely := by
  unfold openDataConnection OpensSafely
  split
  · rename_i hmode
    rw [hmode]
    exact iff_of_true (returns_ok _) fun h ↦ by cases h
  · rename_i hmode
    rw [hmode]
    split
    · rename_i hnull
      exact iff_of_false (not_returns_error _) fun h ↦ h rfl hnull
    · rename_i hacceptor
      apply iff_of_true _ fun _ ↦ hacceptor
      dsimp only
      split <;> exact returns_ok _
  · rename_i hmode
    rw [hmode]
    apply iff_of_true _ fun h ↦ by cases h
    split
    · exact returns_ok _
    · split <;> exact returns_ok _

theorem deref_bind_returns_iff {α : Type} {f : UserNode → Except Fault α} :
    Returns (deref user >>= f) ↔ ∃ u, user = some u ∧ Returns (f u) := by
  rw [returns_bind_iff]
  cases user with
  | none =>
    constructor
    · rintro ⟨u, hu, -⟩
      cases hu
    · rintro ⟨u, hu, -⟩
      cases hu
  | some v =>
    constructor
    · rintro ⟨u, hu, h⟩
      cases hu
      exact ⟨_, rfl, h⟩
    · rintro ⟨u, hu, h⟩
      cases hu
      exact ⟨_, rfl, h⟩

/-- A handler that reads through `user_` and then returns. -/
theorem deref_bind_returns_of_total {α : Type} {f : UserNode → Except Fault α}
    (h : ∀ u, Returns (f u)) : Returns (deref user >>= f) ↔ user ≠ none := by
  rw [deref_bind_returns_iff]
  cases user with
  | none => exact iff_of_false (fun ⟨u, hu, _⟩ ↦ by cases hu) fun h ↦ h rfl
  | some u => exact iff_of_true ⟨u, rfl, h u⟩ (Option.some_ne_none u)

theorem processPortCmd_returns_iff :
    Returns (s.processPortCmd arg)
      ↔ (s.curStatus = .waiting → portNumbers arg ≠ none → s.ResetsSafely) := by
  unfold processPortCmd
  split
  · rename_i hbusy
    exact iff_of_true (returns_ok _) fun h ↦ absurd h hbusy
  · rename_i hwaiting
    split
    · rename_i heq
      rw [returns_bind_of_total fun _ ↦ returns_ok _, resetDataMode_returns_iff, heq]
      exact ⟨fun h _ _ ↦ h, fun h ↦ h (not_not.mp hwaiting) (Option.some_ne_none _)⟩
    · rename_i hnone
      exact iff_of_true (returns_ok _) fun _ h ↦ absurd hnone h

theorem processPasvCmd_returns_iff (serverIp : Nat) (ports : DataPorts) :
    Returns (s.processPasvCmd env serverIp ports)
      ↔ (s.curStatus = .waiting → s.ResetsSafely) := by
  unfold processPasvCmd
  split
  · rename_i hbusy
    exact iff_of_true (returns_ok _) fun h ↦ absurd h hbusy
  · rename_i hwaiting
    rw [returns_bind_of_total, resetDataMode_returns_iff]
    · exact ⟨fun h _ ↦ h, fun h ↦ h (not_not.mp hwaiting)⟩
    · intro t
      split
      · exact returns_ok _
      · dsimp only
        split
        · split <;> exact returns_ok _
        · split <;> exact returns_ok _

theorem processAborCmd_returns_iff :
    Returns s.processAborCmd ↔ (s.curStatus ≠ .waiting → s.ClosesSafely) := by
  unfold processAborCmd
  rw [returns_ite_iff, and_iff_left fun _ ↦ returns_ok _]
  apply imp_congr_right
  intro _
  rw [returns_bind_of_total fun _ ↦ returns_ok _, closeDataSocket_returns_iff]

theorem processCwdCmd_returns_iff :
    Returns (s.processCwdCmd env user arg) ↔ (arg ≠ [] → user ≠ none) := by
  unfold processCwdCmd
  rw [returns_ite_iff, and_iff_left fun _ ↦ returns_ok _]
  apply imp_congr_right
  intro _
  apply deref_bind_returns_of_total
  intro u
  dsimp only
  split <;> exact returns_ok _

theorem processMdtmCmd_returns_iff :
    Returns (s.processMdtmCmd env user arg) ↔ (arg ≠ [] → user ≠ none) := by
  unfold processMdtmCmd
  rw [returns_ite_iff, and_iff_left fun _ ↦ returns_ok _]
  apply imp_congr_right
  intro _
  apply deref_bind_returns_of_total
  intro u
  dsimp only
  split
  · split <;> exact returns_ok _
  · exact returns_ok _

theorem processSizeCmd_returns_iff :
    Returns (s.processSizeCmd env user arg) ↔ (arg ≠ [] → user ≠ none) := by
  unfold processSizeCmd
  rw [returns_ite_iff, and_iff_left fun _ ↦ returns_ok _]
  apply imp_congr_right
  intro _
  apply deref_bind_returns_of_total
  intro u
  dsimp only
  split
  · split <;> exact returns_ok _
  · exact returns_ok _

-- DELE, RNFR, MKD and RMD look at the privileges of the user before anything else

theorem processDelCmd_returns_iff :
    Returns (s.processDelCmd env user arg) ↔ user ≠ none := by
  apply deref_bind_returns_of_total
  intro u
  dsimp only
  split
  · exact returns_ok _
  · split
    · split
      · split <;> exact returns_ok _
      · exact returns_ok _
    · exact returns_ok _

theorem processRnfrCmd_returns_iff :
    Returns (s.processRnfrCmd env user arg) ↔ user ≠ none := by
  apply deref_bind_returns_of_total
  intro u
  dsimp only
  split
  · exact returns_ok _
  · split
    · split <;> exact returns_ok _
    · exact returns_ok _

theorem processMkdCmd_returns_iff :
    Returns (s.processMkdCmd env user arg) ↔ user ≠ none := by
  apply deref_bind_returns_of_total
  intro u
  dsimp only
  split
  · exact returns_ok _
  · split
    · split
      · split <;> exact returns_ok _
      · exact returns_ok _
    · exact returns_ok _

theorem processRmdCmd_returns_iff :
    Returns (s.processRmdCmd env user arg) ↔ user ≠ none := by
  apply deref_bind_returns_of_total
  intro u
  dsimp only
  split
  · exact returns_ok _
  · split
    · split
      · split <;> exact returns_ok _
      · exact returns_ok _
    · exact returns_ok _

theorem processRntoCmd_returns_iff :
    Returns (s.processRntoCmd env user arg)
      ↔ (arg ≠ [] → s.renameFromPath ≠ [] → user ≠ none) := by
  unfold processRntoCmd
  rw [returns_ite_iff, and_iff_left fun _ ↦ returns_ok _]
  apply imp_congr_right
  intro _
  rw [returns_ite_iff, and_iff_left fun _ ↦ returns_ok _]
  apply imp_congr_right
  intro _
  apply deref_bind_returns_of_total
  intro u
  dsimp only
  split
  · split <;> exact returns_ok _
  · exact returns_ok _

theorem processSiteCmd_returns_iff :
    Returns (s.processSiteCmd user arg) ↔ (arg ≠ [] → user ≠ none) := by
  unfold processSiteCmd
  rw [returns_ite_iff, and_iff_left fun _ ↦ returns_ok _]
  apply imp_congr_right
  intro _
  apply deref_bind_returns_of_total
  intro u
  split
  · split <;> exact returns_ok _
  · exact returns_ok _

theorem processListCmd_returns_iff (sslContext : Bool) (cmd : Command) :
    Returns (s.processListCmd env sslContext user cmd)
      ↔ ∃ u, user = some u ∧ (u.holds .listDir = true → cmd.id ≠ .STAT → s.curStatus = .waiting →
        s.OpensSafely) := by
  unfold processListCmd
  rw [deref_bind_returns_iff]
  apply exists_congr
  intro u
  apply and_congr_right
  intro _
  have hstart : ∀ r : Session × Bool × List Effect,
      Returns (if r.2.1 = false then
          Except.ok (ε := Fault) (r.1.answer 425 "Can't open data connection." r.2.2)
        else if env.joinable then .ok { session := r.1, effects := r.2.2 ++ [.startList cmd] }
        else .ok (r.1.answer 425 "425 Can't open data connection." r.2.2)) := by
    intro r
    split
    · exact returns_ok _
    · split <;> exact returns_ok _
  cases hholds : u.holds .listDir with
  | false => exact iff_of_true (returns_ok _) fun h ↦ absurd h Bool.false_ne_true
  | true =>
    rw [if_neg (by decide)]
    by_cases hstat : cmd.id = .STAT
    · -- STAT has no data connection to open
      rw [if_neg fun h ↦ h.1 hstat]
      rw [if_neg (not_not.mpr hstat)]
      apply iff_of_true _ fun _ h ↦ absurd hstat h
      exact hstart (s, true, [])
    · by_cases hstatus : s.curStatus = .waiting
      · rw [if_neg fun h ↦ h.2 hstatus, if_pos hstat]
        rw [returns_bind_of_total hstart, openDataConnection_returns_iff]
        exact ⟨fun h _ _ _ ↦ h, fun h ↦ h rfl hstat hstatus⟩
      · rw [if_pos ⟨hstat, hstatus⟩]
        exact iff_of_true (returns_ok _) fun _ _ h ↦ absurd h hstatus

theorem processRetrCmd_returns_iff (sslContext : Bool) :
    Returns (s.processRetrCmd env sslContext user arg)
      ↔ ∃ u, user = some u ∧ (u.holds .readFile = true → arg ≠ [] → s.curStatus = .waiting →
        s.OpensSafely) := by
  unfold processRetrCmd
  rw [deref_bind_returns_iff]
  apply exists_congr
  intro u
  apply and_congr_right
  intro _
  cases hholds : u.holds .readFile with
  | false => exact iff_of_true (returns_ok _) fun h ↦ absurd h Bool.false_ne_true
  | true =>
    rw [if_neg (by decide), returns_ite_iff, and_iff_left fun _ ↦ returns_ok _]
    rw [forall_prop_of_true rfl]
    apply imp_congr_right
    intro _
    by_cases hstatus : s.curStatus = .waiting
    · rw [if_neg (not_not.mpr hstatus), forall_prop_of_true hstatus, returns_bind_of_total,
        openDataConnection_returns_iff]
      rintro ⟨t, opened, effects⟩
      dsimp only
      split
      · exact returns_ok _
      · split
        · split <;> exact returns_ok _
        · exact returns_ok _
    · rw [if_pos hstatus]
      exact iff_of_true (returns_ok _) fun h ↦ absurd h hstatus

/-- The `i`-th path that STOU makes up. -/
def uniquePath (home currentDirectory : WString) (i : Nat) : WString :=
  buildPath env.canonical home currentDirectory ("file.".toList ++ decimal (env.rand i))

theorem searchUniqueName_returns_iff (home currentDirectory : WString) (left tried : Nat) :
    Returns (searchUniqueName env home currentDirectory left tried)
      ↔ ∃ i < left, env.getFileStatus (uniquePath env home currentDirectory (tried + i)) = none := by
  induction left generalizing tried with
  | zero =>
    apply iff_of_false (not_returns_error _)
    rintro ⟨i, hi, -⟩
    omega
  | succ left ih =>
    rw [searchUniqueName]
    dsimp only
    split
    · rename_i hsome
      rw [returns_bind_of_total fun _ ↦ returns_ok _, ih]
      constructor
      · rintro ⟨i, hi, hfree⟩
        rw [Nat.add_assoc, Nat.add_comm 1 i] at hfree
        exact ⟨i + 1, by omega, hfree⟩
      · rintro ⟨i, hi, hfree⟩
        cases i with
        | zero =>
          rw [Nat.add_zero, uniquePath] at hfree
          rw [hfree] at hsome
          cases hsome
        | succ i =>
          rw [Nat.add_comm i 1, ← Nat.add_assoc] at hfree
          exact ⟨i, by omega, hfree⟩
    · rename_i hnone
      apply iff_of_true (returns_ok _)
      exact ⟨0, by omega, Option.not_isSome_iff_eq_none.mp hnone⟩

/-- If a data connection gets opened, STOU finds a name that nothing has. -/
def FindsName (sslContext : Bool) (home : WString) : Prop :=
  ∀ r, s.openDataConnection env sslContext = .ok r → r.2.1 = true →
    ∃ i < env.tries, env.getFileStatus (uniquePath env home r.1.currentDirectory i) = none

theorem processStorCmd_returns_iff (sslContext : Bool) (cmd : Command) :
    Returns (s.processStorCmd env sslContext user cmd)
      ↔ ∃ u, user = some u ∧ (u.holds .writeFile = true → cmd.args ≠ [] ∨ cmd.id = .STOU →
        s.curStatus = .waiting →
        s.OpensSafely ∧ (cmd.id = .STOU → s.FindsName env sslContext u.homeDirectory)) := by
  unfold processStorCmd
  rw [deref_bind_returns_iff]
  apply exists_congr
  intro u
  apply and_congr_right
  intro _
  cases hholds : u.holds .writeFile with
  | false => exact iff_of_true (returns_ok _) fun h ↦ absurd h Bool.false_ne_true
  | true =>
    rw [if_neg (by decide), returns_ite_iff, and_iff_left fun _ ↦ returns_ok _]
    rw [forall_prop_of_true rfl]
    apply imp_congr_right
    intro _
    by_cases hstatus : s.curStatus = .waiting
    · rw [if_neg (not_not.mpr hstatus), forall_prop_of_true hstatus,
        ← openDataConnection_returns_iff env s sslContext]
      unfold FindsName
      cases hopen : s.openDataConnection env sslContext with
      | error fault =>
        exact iff_of_false (not_returns_error _) fun h ↦ not_returns_error _ h.1
      | ok r =>
        rcases r with ⟨t, opened, effects⟩
        rw [and_iff_right (returns_ok _)]
        -- there is one result to open the connection with
        have hone : (∀ r, Except.ok (ε := Fault) (t, opened, effects) = .ok r → r.2.1 = true →
              ∃ i < env.tries, env.getFileStatus
                (uniquePath env u.homeDirectory r.1.currentDirectory i) = none)
            ↔ (opened = true → ∃ i < env.tries, env.getFileStatus
                (uniquePath env u.homeDirectory t.currentDirectory i) = none) := by
          constructor
          · exact fun h ↦ h _ rfl
          · rintro h _ ⟨⟩
            exact h
        rw [hone]
        show Returns (if opened = false then _ else _) ↔ _
        cases opened with
        | false => exact iff_of_true (returns_ok _) fun _ h ↦ absurd h Bool.false_ne_true
        | true =>
          rw [if_neg (by decide), forall_prop_of_true rfl]
          dsimp only
          rw [returns_ite_bind_of_total, and_iff_left fun _ ↦ returns_ok _,
            searchUniqueName_returns_iff]
          · simp only [Nat.zero_add]
          · rintro ⟨unique, searched⟩
            dsimp only
            generalize (if unique ≠ [] then unique
              else buildPath env.canonical u.homeDirectory t.currentDirectory cmd.args false) = path
            split
            · split <;> exact returns_ok _
            · exact returns_ok _
    · rw [if_pos hstatus]
      exact iff_of_true (returns_ok _) fun h ↦ absurd h hstatus

end Session

namespace FtpServer

/-! ## The switch -/

theorem processUserCmd_returns_iff (σ : FtpServer) (c : ClientRef) (name : WString) :
    Returns (σ.processUserCmd c name)
      ↔ ((σ.nodes c).isLogged = true → (σ.nodes c).user ≠ none) := by
  unfold processUserCmd logOut
  rw [returns_bind_of_total fun _ ↦ returns_ok _, returns_ite_iff,
    and_iff_left fun _ ↦ returns_ok _]
  apply imp_congr_right
  intro _
  split
  · rename_i hnone
    exact iff_of_false (not_returns_error _) fun h ↦ h hnone
  · rename_i u hsome
    apply iff_of_true (returns_ok _)
    rw [hsome]
    exact Option.some_ne_none u

/-- On this command the switch meets no null pointer and no search without end. -/
def Harmless (build : Build) (env : Env) (σ : FtpServer) (c : ClientRef) (cmd : Command) : Prop :=
  let s := (σ.nodes c).toSession
  let user := (σ.nodes c).user.map σ.userManager.users
  match cmd.id with
  | .USER => (σ.nodes c).isLogged = true → (σ.nodes c).user ≠ none
  | .SITE => build.useExtraCmd = true → cmd.args ≠ [] → user ≠ none
  | .CWD | .MDTM | .SIZE => cmd.args ≠ [] → user ≠ none
  | .DELE | .RNFR | .MKD | .RMD => user ≠ none
  | .RNTO => cmd.args ≠ [] → s.renameFromPath ≠ [] → user ≠ none
  | .PORT => s.curStatus = .waiting → Session.portNumbers cmd.args ≠ none → s.ResetsSafely
  | .PASV => s.curStatus = .waiting → s.ResetsSafely
  | .ABOR => s.curStatus ≠ .waiting → s.ClosesSafely
  | .LIST | .NLST | .MLSD => ∃ u, user = some u ∧
      (u.holds .listDir = true → s.curStatus = .waiting → s.OpensSafely)
  | .STAT => cmd.args ≠ [] → user ≠ none
  | .RETR => ∃ u, user = some u ∧
      (u.holds .readFile = true → cmd.args ≠ [] → s.curStatus = .waiting → s.OpensSafely)
  | .STOR | .APPE => ∃ u, user = some u ∧
      (u.holds .writeFile = true → cmd.args ≠ [] → s.curStatus = .waiting → s.OpensSafely)
  | .STOU => ∃ u, user = some u ∧ (u.holds .writeFile = true → s.curStatus = .waiting →
      s.OpensSafely ∧ s.FindsName env σ.sslContext u.homeDirectory)
  | _ => True

theorem runSwitch_returns_iff (build : Build) (env : Env) (σ : FtpServer) (c : ClientRef)
    (cmd : Command) :
    Returns (σ.runSwitch build env c cmd) ↔ Harmless build env σ c cmd := by
  unfold runSwitch sessionHandler Harmless
  cases hid : cmd.id with
  | USER => exact returns_map_iff.trans (processUserCmd_returns_iff ..)
  | PASV => exact returns_map_iff.trans (Session.processPasvCmd_returns_iff ..)
  | PORT => exact returns_map_iff.trans (Session.processPortCmd_returns_iff ..)
  | ABOR => exact returns_map_iff.trans (Session.processAborCmd_returns_iff _)
  | CWD => exact returns_map_iff.trans (Session.processCwdCmd_returns_iff ..)
  | MDTM => exact returns_map_iff.trans (Session.processMdtmCmd_returns_iff ..)
  | SIZE => exact returns_map_iff.trans (Session.processSizeCmd_returns_iff ..)
  | DELE => exact returns_map_iff.trans (Session.processDelCmd_returns_iff ..)
  | RNFR => exact returns_map_iff.trans (Session.processRnfrCmd_returns_iff ..)
  | RNTO => exact returns_map_iff.trans (Session.processRntoCmd_returns_iff ..)
  | MKD => exact returns_map_iff.trans (Session.processMkdCmd_returns_iff ..)
  | RMD => exact returns_map_iff.trans (Session.processRmdCmd_returns_iff ..)
  | RETR => exact returns_map_iff.trans (Session.processRetrCmd_returns_iff ..)
  | SITE =>
    dsimp only
    cases build.useExtraCmd with
    | false => exact iff_of_true (returns_ok _) fun h ↦ absurd h Bool.false_ne_true
    | true =>
      rw [forall_prop_of_true rfl]
      exact returns_map_iff.trans (Session.processSiteCmd_returns_iff ..)
  | LIST | NLST | MLSD =>
    apply returns_map_iff.trans
    rw [Session.processListCmd_returns_iff]
    simp [hid]
  | STAT =>
    dsimp only
    by_cases hargs : cmd.args = []
    · rw [if_neg (not_not.mpr hargs)]
      exact iff_of_true (returns_ok _) fun h ↦ absurd hargs h
    · rw [if_pos hargs, forall_prop_of_true hargs]
      apply returns_map_iff.trans
      rw [Session.processListCmd_returns_iff]
      simp [hid, Option.ne_none_iff_exists']
  | STOR | APPE =>
    apply returns_map_iff.trans
    rw [Session.processStorCmd_returns_iff]
    simp [hid]
  | STOU =>
    apply returns_map_iff.trans
    rw [Session.processStorCmd_returns_iff]
    simp [hid]
  | _ => exact iff_of_true (returns_ok _) trivial

theorem harmless_setParser (build : Build) (env : Env) (σ : FtpServer) (c : ClientRef)
    (p : RequestParser) (cmd : Command) :
    Harmless build env (σ.setParser c p) c cmd ↔ Harmless build env σ c cmd := by
  unfold Harmless
  rw [setParser_nodes_self]
  exact Iff.rfl

end FtpServer

/-! ## The parser -/

namespace RequestParser

/-- The line that `parse` takes out of its queue. -/
def lineTaken (charSigned : Bool) (p : RequestParser) (data : List UInt8) : Option (List UInt8) :=
  (p.receive charSigned data).recvLineBuffer.head?

theorem getCommand_returns_iff (loggedon : Bool) (line : List UInt8) :
    Returns (getCommand loggedon line) ↔ utf82ws line ≠ none := by
  unfold getCommand
  cases hdecoded : utf82ws line with
  | none => exact iff_of_false (not_returns_error _) fun h ↦ h rfl
  | some text =>
    apply iff_of_true _ (Option.some_ne_none text)
    dsimp only
    split
    · split <;> exact returns_ok _
    · split <;> exact returns_ok _
    · split
      · exact returns_ok _
      · split <;> exact returns_ok _

end RequestParser

namespace FtpServer

/-! ## One call of `process_command` -/

/-- The command that the switch is run on: the one of the line taken and, when no line is waiting,
whatever the uninitialised `cmd` holds. -/
def commandTaken (loggedon : Bool) (garbage : Command) : Option (List UInt8) → Option Command
  | none => some garbage
  | some line =>
    if (commandOf loggedon line).id = .invalid then none else some (commandOf loggedon line)

theorem commandTaken_some {loggedon : Bool} {line : List UInt8} {cmd : Command} {reply : Reply}
    (garbage : Command) (h : RequestParser.getCommand loggedon line = .ok (cmd, reply)) :
    commandTaken loggedon garbage (some line) = if cmd.id = .invalid then none else some cmd := by
  simp only [commandTaken, commandOf, h]

/-- The client node that serves a connection and its parser, as `parse` is called on it. -/
def nodeFor (σ : FtpServer) (k : Connection) : ClientNode :=
  (σ.clientFor k).1.nodes (σ.clientFor k).2

def parserFor (σ : FtpServer) (k : Connection) : RequestParser :=
  (σ.nodeFor k).requestParser.setStatus (σ.nodeFor k).isLogged

end FtpServer

end YFtp
