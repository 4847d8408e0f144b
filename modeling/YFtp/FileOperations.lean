import YFtp.Independence

/-!
# File operations

What the commands do to the file system beyond looking at it: DELE, RMD, MKD, RNTO and SITE EXEC.
A handler of these commands asks the system for one operation at most, and its reply says whether
the operation was carried out: the replies are a record of what has happened to the files.
-/

namespace YFtp

open FtpServer (SessionRun)

/-- A change of the file system. -/
inductive Operation
  | remove (path : WString)
  | rename (source target : WString)
  | createDirectory (path : WString)
  | system (cmd : WString)
deriving DecidableEq, Repr

/-- The operation that an effect is. -/
def Effect.operation : Effect → Option Operation
  | .removeFile path | .removeDirectory path => some (.remove path)
  | .rename source target => some (.rename source target)
  | .createDirectory path => some (.createDirectory path)
  | .system cmd => some (.system cmd)
  | _ => none

/-- The system does what it is asked. -/
def Env.allows (env : Env) : Operation → Bool
  | .remove path => env.remove path
  | .rename source target => env.rename source target
  | .createDirectory path => env.createDirectory path
  | .system _ => true

/-- The reply says that the command has done its work. -/
def Commands.confirms (id : Commands) (code : Nat) : Bool :=
  match id with
  | .DELE | .RMD | .MKD | .RNTO => code = 250
  | .SITE => code = 200
  | _ => false

/-- The operation that the command is for, in a session of the account `u`. -/
def Command.operation (cmd : Command) (env : Env) (s : Session) (u : UserNode) : Option Operation :=
  let path (bcanonical : Bool) :=
    buildPath env.canonical u.homeDirectory s.currentDirectory cmd.args bcanonical
  match cmd.id with
  | .DELE => some (.remove (path true))
  | .RMD => some (.remove (path false))
  | .MKD => some (.createDirectory (path false))
  | .RNTO => some (.rename s.renameFromPath (path false))
  | .SITE => if 5 < cmd.args.length then some (.system (cmd.args.drop 5)) else .none
  | _ => .none

/-! ## The handlers -/

/-- What a command does to the file system, and what it says. -/
inductive Operated (env : Env) (s : Session) (user : Option UserNode) (cmd : Command)
    (o : Outcome) : Prop
  | untouched (operations : o.effects.filterMap Effect.operation = [])
      (code : Commands.confirms cmd.id o.reply.code = false)
  | refused {op : Operation} (operations : o.effects.filterMap Effect.operation = [op])
      (allows : env.allows op = false) (code : Commands.confirms cmd.id o.reply.code = false)
  | done {u : UserNode} (huser : user = some u)
      (operations : o.effects.filterMap Effect.operation = (cmd.operation env s u).toList)
      (allows : ∀ op ∈ cmd.operation env s u, env.allows op = true)
      (code : Commands.confirms cmd.id o.reply.code = true)

/-- The command has nothing to do with the file system. -/
def Commands.operates : Commands → Bool
  | .DELE | .RMD | .MKD | .RNTO | .SITE => true
  | _ => false

theorem confirms_eq_false {id : Commands} (h : Commands.operates id = false) (code : Nat) :
    Commands.confirms id code = false := by
  cases id <;> first | rfl | cases h

section Handlers

variable {env : Env} {s : Session} {user : Option UserNode} {cmd : Command} {o : Outcome}

namespace Operated

theorem of_quiet (hid : Commands.operates cmd.id = false)
    (h : o.effects.filterMap Effect.operation = []) : Operated env s user cmd o :=
  .untouched h (confirms_eq_false hid _)

theorem of_done {u : UserNode} {op : Operation} (huser : user = some u)
    (hasked : cmd.operation env s u = some op) (hallows : env.allows op = true)
    (h : o.effects.filterMap Effect.operation = [op])
    (hcode : Commands.confirms cmd.id o.reply.code = true) : Operated env s user cmd o := by
  refine .done huser ?_ ?_ hcode
  · rw [hasked, h]
    rfl
  · rw [hasked]
    intro x hx
    cases hx
    exact hallows

end Operated

end Handlers

namespace Session

variable {env : Env} {s : Session} {user : Option UserNode} {cmd : Command} {o : Outcome}

theorem statusEffects_operation (path : WString) :
    (statusEffects path).filterMap Effect.operation = [] := by
  unfold statusEffects
  split <;> rfl

theorem processDelCmd_operated (hid : cmd.id = .DELE)
    (h : s.processDelCmd env user cmd.args = .ok o) : Operated env s user cmd o := by
  rcases eq_ok_of_bind h with ⟨u, hu, h⟩
  have hrefuses : Commands.confirms cmd.id 550 = false := by rw [hid]; rfl
  split at h
  · cases h
    exact .untouched rfl hrefuses
  · split at h
    · dsimp only at h
      split at h
      · split at h
        · rename_i hremove
          have hallows : env.allows (.remove _) = true := hremove
          cases h
          exact .of_done (deref_ok hu) (by rw [Command.operation, hid]) hallows rfl
            (by rw [hid]; rfl)
        · rename_i hremove
          cases h
          exact .refused rfl (Bool.eq_false_iff.mpr hremove) hrefuses
      · cases h
        exact .untouched (statusEffects_operation _) hrefuses
    · cases h
      exact .untouched rfl (by rw [hid]; rfl)

theorem processRmdCmd_operated (hid : cmd.id = .RMD)
    (h : s.processRmdCmd env user cmd.args = .ok o) : Operated env s user cmd o := by
  rcases eq_ok_of_bind h with ⟨u, hu, h⟩
  have hrefuses : Commands.confirms cmd.id 550 = false := by rw [hid]; rfl
  split at h
  · cases h
    exact .untouched rfl hrefuses
  · split at h
    · dsimp only at h
      split at h
      · split at h
        · rename_i hremove
          cases h
          exact .refused rfl hremove (by rw [hid]; rfl)
        · rename_i hremove
          cases h
          exact .of_done (deref_ok hu) (by rw [Command.operation, hid])
            (Bool.not_eq_false _ ▸ hremove) rfl (by rw [hid]; rfl)
      · cases h
        exact .untouched (statusEffects_operation _) hrefuses
    · cases h
      exact .untouched rfl (by rw [hid]; rfl)

theorem processMkdCmd_operated (hid : cmd.id = .MKD)
    (h : s.processMkdCmd env user cmd.args = .ok o) : Operated env s user cmd o := by
  rcases eq_ok_of_bind h with ⟨u, hu, h⟩
  have hrefuses : Commands.confirms cmd.id 550 = false := by rw [hid]; rfl
  split at h
  · cases h
    exact .untouched rfl hrefuses
  · split at h
    · dsimp only at h
      split at h
      · split at h
        · rename_i hcreate
          cases h
          exact .refused rfl hcreate hrefuses
        · rename_i hcreate
          cases h
          exact .of_done (deref_ok hu) (by rw [Command.operation, hid])
            (Bool.not_eq_false _ ▸ hcreate) rfl (by rw [hid]; rfl)
      · cases h
        exact .untouched (statusEffects_operation _) hrefuses
    · cases h
      exact .untouched rfl (by rw [hid]; rfl)

theorem processRntoCmd_operated (hid : cmd.id = .RNTO)
    (h : s.processRntoCmd env user cmd.args = .ok o) : Operated env s user cmd o := by
  have hrefuses : Commands.confirms cmd.id 550 = false := by rw [hid]; rfl
  unfold processRntoCmd at h
  split at h
  · split at h
    · rcases eq_ok_of_bind h with ⟨u, hu, h⟩
      dsimp only at h
      split at h
      · split at h
        · rename_i hrename
          have hallows : env.allows (.rename _ _) = true := hrename
          cases h
          exact .of_done (deref_ok hu) (by rw [Command.operation, hid]) hallows rfl
            (by rw [hid]; rfl)
        · rename_i hrename
          cases h
          exact .refused rfl (Bool.eq_false_iff.mpr hrename) hrefuses
      · cases h
        exact .untouched rfl hrefuses
    · cases h
      exact .untouched rfl (by rw [hid]; rfl)
  · cases h
    exact .untouched rfl (by rw [hid]; rfl)

theorem processSiteCmd_operated (hid : cmd.id = .SITE)
    (h : s.processSiteCmd user cmd.args = .ok o) : Operated env s user cmd o := by
  unfold processSiteCmd at h
  split at h
  · rcases eq_ok_of_bind h with ⟨u, hu, h⟩
    split at h
    · split at h
      · cases h
        have hasked : cmd.operation env s u
            = if 5 < cmd.args.length then some (.system (cmd.args.drop 5)) else .none := by
          rw [Command.operation, hid]
        refine .done (deref_ok hu) ?_ ?_ (by rw [hid]; rfl)
        · rw [hasked, answer]
          split <;> rfl
        · rw [hasked]
          intro op hop
          split at hop
          · cases hop
            rfl
          · cases hop
      · cases h
        exact .untouched rfl (by rw [hid]; rfl)
    · cases h
      exact .untouched rfl (by rw [hid]; rfl)
  · cases h
    exact .untouched rfl (by rw [hid]; rfl)

/-- Opening the data connection touches no file. -/
theorem openDataConnection_operation {sslContext : Bool} {r : Session × Bool × List Effect}
    (h : s.openDataConnection env sslContext = .ok r) :
    r.2.2.filterMap Effect.operation = [] := by
  rw [List.filterMap_eq_nil_iff]
  intro f hf
  rw [(openDataConnection_spec h).2 f hf]
  rfl

theorem processListCmd_operation {sslContext : Bool}
    (h : s.processListCmd env sslContext user cmd = .ok o) :
    o.effects.filterMap Effect.operation = [] := by
  rw [List.filterMap_eq_nil_iff]
  intro f hf
  rcases (processListCmd_spec h).2 f hf with rfl | ⟨rfl, -⟩ <;> rfl

theorem processRetrCmd_operation {sslContext : Bool} {arg : WString}
    (h : s.processRetrCmd env sslContext user arg = .ok o) :
    o.effects.filterMap Effect.operation = [] := by
  rcases eq_ok_of_bind h with ⟨u, -, h⟩
  split at h
  · cases h
    rfl
  · split at h
    · split at h
      · cases h
        rfl
      · rcases eq_ok_of_bind h with ⟨⟨t, opened, effects⟩, hopen, h⟩
        have hopened : effects.filterMap Effect.operation = [] := openDataConnection_operation hopen
        dsimp only at h
        split at h
        · cases h
          exact hopened
        · split at h
          · split at h
            · cases h
              rw [answer, List.filterMap_append, hopened]
              rfl
            · cases h
              rw [List.filterMap_append, List.filterMap_append, hopened]
              rfl
          · cases h
            rw [answer, List.filterMap_append, hopened, statusEffects_operation]
            rfl
    · cases h
      rfl

/-- The search of STOU looks at names only. -/
theorem searchUniqueName_operation {home currentDirectory : WString} {left tried : Nat}
    {r : WString × List Effect}
    (h : searchUniqueName env home currentDirectory left tried = .ok r) :
    r.2.filterMap Effect.operation = [] := by
  induction left generalizing tried r with
  | zero => cases h
  | succ left ih =>
    unfold searchUniqueName at h
    dsimp only at h
    split at h
    · rcases eq_ok_of_bind h with ⟨⟨found, effects⟩, hfound, h⟩
      have hrest := ih hfound
      cases h
      exact hrest
    · cases h
      rfl

theorem processStorCmd_operation {sslContext : Bool}
    (h : s.processStorCmd env sslContext user cmd = .ok o) :
    o.effects.filterMap Effect.operation = [] := by
  rcases eq_ok_of_bind h with ⟨u, -, h⟩
  split at h
  · cases h
    rfl
  · split at h
    · split at h
      · cases h
        rfl
      · rcases eq_ok_of_bind h with ⟨⟨t, opened, effects⟩, hopen, h⟩
        have hopened : effects.filterMap Effect.operation = [] := openDataConnection_operation hopen
        dsimp only at h
        split at h
        · cases h
          exact hopened
        · rcases eq_ok_of_ite_bind h with ⟨⟨unique, searched⟩, hsearch, h⟩
          have hsearched : searched.filterMap Effect.operation = [] := by
            split at hsearch
            · exact searchUniqueName_operation hsearch
            · cases hsearch
              rfl
          dsimp only at h
          generalize (if unique ≠ [] then unique else buildPath env.canonical
            u.homeDirectory t.currentDirectory cmd.args false) = path at h
          split at h
          · generalize hsized : (if cmd.id = .APPE then
                if (env.getFileStatus path).isSome then
                  ((((env.fileSize path).getD 0 : Nat) : Int),
                    [Effect.status path, Effect.fileSize path])
                else (0, [Effect.status path])
              else (t.restartAt, [])) = sized at h
            have hasked : sized.2.filterMap Effect.operation = [] := by
              rw [← hsized]
              split
              · split <;> rfl
              · rfl
            have hbefore (text : WString) :
                (effects ++ searched ++ sized.2 ++ [Effect.send text]).filterMap
                  Effect.operation = [] := by
              rw [List.filterMap_append, List.filterMap_append, List.filterMap_append, hopened,
                hsearched, hasked]
              rfl
            split at h
            · cases h
              exact hbefore _
            · cases h
              show (effects ++ searched ++ sized.2 ++ [Effect.send _] ++
                [Effect.startStore path]).filterMap Effect.operation = []
              rw [List.filterMap_append, hbefore]
              rfl
          · cases h
            rw [List.filterMap_append, hopened, hsearched]
            rfl
    · cases h
      rfl

theorem processMdtmCmd_operation {arg : WString} (h : s.processMdtmCmd env user arg = .ok o) :
    o.effects.filterMap Effect.operation = [] := by
  unfold processMdtmCmd at h
  split at h
  · rcases eq_ok_of_bind h with ⟨u, -, h⟩
    dsimp only at h
    split at h
    · split at h <;> cases h <;> rfl
    · cases h
      exact statusEffects_operation _
  · cases h
    rfl

theorem processSizeCmd_operation {arg : WString} (h : s.processSizeCmd env user arg = .ok o) :
    o.effects.filterMap Effect.operation = [] := by
  unfold processSizeCmd at h
  split at h
  · rcases eq_ok_of_bind h with ⟨u, -, h⟩
    dsimp only at h
    split at h
    · split at h <;> cases h <;> rfl
    · cases h
      rfl
  · cases h
    rfl

theorem processCwdCmd_operation {arg : WString} (h : s.processCwdCmd env user arg = .ok o) :
    o.effects.filterMap Effect.operation = [] := by
  unfold processCwdCmd at h
  split at h
  · rcases eq_ok_of_bind h with ⟨u, -, h⟩
    dsimp only at h
    split at h <;> cases h <;> exact statusEffects_operation _
  · cases h
    rfl

theorem processRnfrCmd_operation {arg : WString} (h : s.processRnfrCmd env user arg = .ok o) :
    o.effects.filterMap Effect.operation = [] := by
  rcases eq_ok_of_bind h with ⟨u, -, h⟩
  split at h
  · cases h
    rfl
  · split at h
    · dsimp only at h
      split at h
      · cases h
        rfl
      · cases h
        exact statusEffects_operation _
    · cases h
      rfl

end Session

/-! ## A command -/

/-- Every command of a session does one thing to the file system at most, and says so. -/
theorem FtpServer.SessionRun.operated {build : Build} {env : Env} {σ : FtpServer} {c : ClientRef}
    {cmd : Command} {o : Outcome} {ports : DataPorts} (h : SessionRun build env σ c cmd o ports) :
    Operated env (σ.nodes c).toSession ((σ.nodes c).user.map σ.userManager.users) cmd o := by
  have hquiet : Commands.operates cmd.id = false → o.effects.filterMap Effect.operation = [] →
      Operated env (σ.nodes c).toSession ((σ.nodes c).user.map σ.userManager.users) cmd o :=
    Operated.of_quiet
  cases h with
  | pasv hid h =>
    refine hquiet (by rw [hid]; rfl) ?_
    rw [(Session.processPasvCmd_spec h).2]
    rfl
  | plain h =>
    by_cases hsite : cmd.id = .SITE
    · -- a server without the extra commands does not know SITE
      refine .untouched rfl ?_
      rw [plainReply, hsite]
      rfl
    · refine hquiet ?_ rfl
      unfold sessionHandler at h
      cases hid : cmd.id <;> first | rfl | (rw [hid] at h; cases h) | exact absurd hid hsite
  | handler h =>
    unfold sessionHandler at h
    dsimp only at h
    cases hid : cmd.id <;> rw [hid] at h <;> dsimp only at h
    case SITE =>
      split at h
      · exact Session.processSiteCmd_operated hid (Option.some.inj h)
      · cases h
    case TYPE =>
      cases h
      refine hquiet (by rw [hid]; rfl) ?_
      rw [(Session.processTypeCmd_spec _ _).2]
      rfl
    case PORT =>
      refine hquiet (by rw [hid]; rfl) ?_
      rw [(Session.processPortCmd_spec (Option.some.inj h)).2]
      rfl
    case LIST | NLST | MLSD =>
      exact hquiet (by rw [hid]; rfl) (Session.processListCmd_operation (Option.some.inj h))
    case CWD =>
      exact hquiet (by rw [hid]; rfl) (Session.processCwdCmd_operation (Option.some.inj h))
    case PROT =>
      cases h
      refine hquiet (by rw [hid]; rfl) ?_
      rw [(Session.processProtCmd_spec _ _ _ _).2.2]
      rfl
    case AUTH =>
      cases h
      refine hquiet (by rw [hid]; rfl) (List.filterMap_eq_nil_iff.mpr fun f hf ↦ ?_)
      rcases (Session.processAuthCmd_spec _ _ _ _ _).2 f hf with rfl | ⟨text, rfl⟩ <;> rfl
    case MDTM =>
      exact hquiet (by rw [hid]; rfl) (Session.processMdtmCmd_operation (Option.some.inj h))
    case CDUP =>
      cases h
      exact hquiet (by rw [hid]; rfl) rfl
    case STAT =>
      split at h
      · exact hquiet (by rw [hid]; rfl) (Session.processListCmd_operation (Option.some.inj h))
      · cases h
    case ABOR =>
      refine hquiet (by rw [hid]; rfl) (List.filterMap_eq_nil_iff.mpr fun f hf ↦ ?_)
      rcases (Session.processAborCmd_spec (Option.some.inj h)).2 f hf with ⟨text, rfl⟩
      rfl
    case REST =>
      cases h
      refine hquiet (by rw [hid]; rfl) ?_
      rw [(Session.processRestCmd_spec _ _).2]
      rfl
    case RETR =>
      exact hquiet (by rw [hid]; rfl) (Session.processRetrCmd_operation (Option.some.inj h))
    case STOR | APPE | STOU =>
      exact hquiet (by rw [hid]; rfl) (Session.processStorCmd_operation (Option.some.inj h))
    case SIZE =>
      exact hquiet (by rw [hid]; rfl) (Session.processSizeCmd_operation (Option.some.inj h))
    case DELE => exact Session.processDelCmd_operated hid (Option.some.inj h)
    case RNFR =>
      exact hquiet (by rw [hid]; rfl) (Session.processRnfrCmd_operation (Option.some.inj h))
    case RNTO => exact Session.processRntoCmd_operated hid (Option.some.inj h)
    case MKD => exact Session.processMkdCmd_operated hid (Option.some.inj h)
    case RMD => exact Session.processRmdCmd_operated hid (Option.some.inj h)
    -- every other command has no handler of the session
    all_goals cases h

theorem FtpServer.runSwitch_operated {build : Build} {env : Env} {σ : FtpServer} {c : ClientRef}
    {cmd : Command} {a : Answer} (h : σ.runSwitch build env c cmd = .ok a) :
    Operated env (σ.nodes c).toSession ((σ.nodes c).user.map σ.userManager.users) cmd
      ⟨(a.server.nodes c).toSession, a.reply, a.effects⟩ := by
  rcases runSwitch_cases h with
    ⟨hid, r, hr, rfl⟩ | ⟨hid, rfl⟩ | ⟨hid, rfl⟩ | ⟨-, o, ports, hsession, rfl⟩
  · exact .of_quiet (by rw [hid]; rfl) rfl
  · exact .of_quiet (by rw [hid]; rfl) rfl
  · exact .of_quiet (by rw [hid]; rfl) rfl
  · cases hsession.operated with
    | untouched operations code => exact .untouched operations code
    | refused operations allows code => exact .refused operations allows code
    | done huser operations allows code => exact .done huser operations allows code

/-! ## The file system -/

/-- A file system, by what it shows and by what its operations leave; `none` is an error. -/
structure FileSystem (Disk : Type) where
  status : Disk → WString → Option FileStatus
  run : Disk → Operation → Option Disk

/-- What the system answers is what the file system does. -/
structure FileSystem.Answers {Disk : Type} (fs : FileSystem Disk) (d : Disk) (env : Env) : Prop
    where
  status : env.getFileStatus = fs.status d
  allows : ∀ op, env.allows op = (fs.run d op).isSome

/-- The file system after an effect. -/
def FileSystem.perform {Disk : Type} (fs : FileSystem Disk) (d : Disk) (f : Effect) : Disk :=
  ((f.operation).bind (fs.run d)).getD d

/-- What happens: an act of a session, or a change of the files by a transfer or another program. -/
inductive DiskAct (Disk : Type)
  | session (act : SessionAct)
  | outside (d : Disk)

/-- The sessions and the file system that they share. -/
structure Shared (Disk : Type) where
  sessions : Sessions
  disk : Disk

/-- One step.  The handler of a command sees the file system as it is. -/
inductive Shared.Step {Disk : Type} (build : Build) (fs : FileSystem Disk) :
    Shared Disk → DiskAct Disk → Shared Disk → Prop
  | command {v v' : Sessions} {d : Disk} {c : ClientRef} {cmd : Command} {env : Env} {reply : Reply}
      {ret : Bool} {effects : List Effect} (answers : fs.Answers d env)
      (h : v.exec build (.command c cmd env) = .ok (v', .answer reply ret effects)) :
      Step build fs ⟨v, d⟩ (.session (.command c cmd env)) ⟨v', effects.foldl fs.perform d⟩
  | thread {v v' : Sessions} {d : Disk} {c : ClientRef} {i : Nat} {answers : Answers}
      {shown : Response}
      (h : v.exec build (.thread c i answers) = .ok (v', shown)) :
      Step build fs ⟨v, d⟩ (.session (.thread c i answers)) ⟨v', d⟩
  | outside {v : Sessions} {d : Disk} (d' : Disk) : Step build fs ⟨v, d⟩ (.outside d') ⟨v, d'⟩

/-- An entry of the record that the replies are. -/
inductive Entry (Disk : Type)
  | confirmed (op : Operation)
  | outside (d : Disk)

/-- What a step adds to the record: the operation that a command is for, if its reply confirms
it. -/
def Shared.entry {Disk : Type} (build : Build) : Shared Disk × DiskAct Disk → Option (Entry Disk)
  | (x, .session (.command c cmd env)) =>
    match x.sessions.exec build (.command c cmd env) with
    | .ok (_, .answer reply _ _) =>
      if Commands.confirms cmd.id reply.code then
        ((x.sessions.account c).bind (cmd.operation env (x.sessions.server.nodes c).toSession)).map
          Entry.confirmed
      else none
    | _ => none
  | (_, .session (.thread ..)) => none
  | (_, .outside d) => some (.outside d)

/-- The entries, newest first, lead from one file system to the other, and every operation in them
was carried out. -/
inductive FileSystem.Replays {Disk : Type} (fs : FileSystem Disk) (d₀ : Disk) :
    List (Entry Disk) → Disk → Prop
  | nil : Replays fs d₀ [] d₀
  | confirmed {entries : List (Entry Disk)} {d d' : Disk} {op : Operation}
      (before : Replays fs d₀ entries d) (h : fs.run d op = some d') :
      Replays fs d₀ (.confirmed op :: entries) d'
  | outside {entries : List (Entry Disk)} {d : Disk} (before : Replays fs d₀ entries d)
      (d' : Disk) : Replays fs d₀ (.outside d' :: entries) d'

section Record

variable {Disk : Type} {build : Build} {fs : FileSystem Disk} {d₀ d : Disk} {x x' : Shared Disk}
  {act : DiskAct Disk} {entries : List (Entry Disk)}

/-- Only the operations among the effects matter. -/
theorem foldl_perform_operations (effects : List Effect) (d : Disk) :
    effects.foldl fs.perform d
      = (effects.filterMap Effect.operation).foldl (fun d op ↦ (fs.run d op).getD d) d := by
  induction effects generalizing d with
  | nil => rfl
  | cons f effects ih =>
    rw [List.foldl_cons, ih, List.filterMap_cons, FileSystem.perform]
    cases f.operation <;> rfl

/-- One step adds what it has done to the record. -/
theorem Shared.Step.replays (h : Step build fs x act x') (before : fs.Replays d₀ entries x.disk) :
    fs.Replays d₀ ((Shared.entry build (x, act)).toList ++ entries) x'.disk := by
  cases h with
  | outside d' => exact .outside before d'
  | thread h => exact before
  | @command v v' d c cmd env reply ret effects answers h =>
    have hexec := h
    rcases eq_ok_of_map h with ⟨a, ha, heq⟩
    cases heq
    have hoperated := FtpServer.runSwitch_operated (eq_ok_of_liftFault ha)
    rw [Shared.entry, hexec]
    dsimp only
    rw [foldl_perform_operations]
    cases hoperated with
    | untouched operations code =>
      rw [operations, code, if_neg Bool.false_ne_true]
      exact before
    | @refused op operations allows code =>
      -- the system refuses the operation, and the file system stays as it is
      rw [answers.allows, Option.isSome_eq_false_iff, Option.isNone_iff_eq_none] at allows
      rw [operations, code, if_neg Bool.false_ne_true, List.foldl_cons, allows]
      exact before
    | @done u huser operations allows code =>
      have haccount : v.account c = some u := huser
      rw [operations, code, if_pos rfl, haccount, Option.bind_some]
      cases hop : cmd.operation env (v.server.nodes c).toSession u with
      | none => exact before
      | some op =>
        have hallows := allows op hop
        rw [answers.allows] at hallows
        rcases Option.isSome_iff_exists.mp hallows with ⟨d', hd'⟩
        show fs.Replays d₀ (.confirmed op :: entries) ((fs.run d op).getD d)
        rw [hd']
        exact .confirmed before hd'

/-- Over any run of commands of any sessions, with transfers and other programs at work in between,
the file system is what the confirming replies say, each of them about an operation that was carried
out, and what came from outside: a reply that confirms nothing has changed nothing. -/
theorem Shared.replies_tell {x₀ : Shared Disk} {trace : List (Shared Disk × DiskAct Disk)}
    (run : Theory.Run (Step build fs) x₀ trace x) :
    fs.Replays x₀.disk (trace.filterMap (Shared.entry build)) x.disk := by
  induction run with
  | refl => exact .nil
  | @snoc trace y act z before last ih =>
    have hreplays := last.replays ih
    rw [List.filterMap_cons]
    cases hentry : Shared.entry build (y, act) with
    | none =>
      rw [hentry] at hreplays
      exact hreplays
    | some entry =>
      rw [hentry] at hreplays
      exact hreplays

end Record

namespace Sample

/-- The directories that are there. -/
def folders : FileSystem (List WString) where
  status d path := if d.contains path then some ⟨.directoryFile, 0⟩ else none
  run d
    | .remove path => if d.contains path then some (d.erase path) else none
    | .rename source target => if d.contains source then some (target :: d.erase source) else none
    | .createDirectory path => if d.contains path then none else some (path :: d)
    | .system _ => some d

def foldersEnv (d : List WString) : Env := { env with
  getFileStatus := folders.status d
  remove := fun path ↦ (folders.run d (.remove path)).isSome
  rename := fun source target ↦ (folders.run d (.rename source target)).isSome
  createDirectory := fun path ↦ (folders.run d (.createDirectory path)).isSome }

theorem folders_answers (d : List WString) : folders.Answers d (foldersEnv d) where
  status := rfl
  allows op := by cases op <;> rfl

def makeDirectory : Command := { Command.none with id := .MKD, args := "new" }

end Sample

/-- A directory is made. -/
theorem Shared.replies_tell_mkd : ∃ trace x,
    Theory.Run (Step {} Sample.folders) ⟨Sample.sessions, []⟩ trace x ∧
      x.disk = ["/srv/bob//new".toList] ∧
      Sample.folders.Replays [] (trace.filterMap (Shared.entry {})) x.disk := by
  have hexec : (Sample.sessions.exec {} (.command 0 Sample.makeDirectory
      (Sample.foldersEnv []))).toOption.any (fun r ↦ r.2 = .answer
        (.create 250 "Directory created successful.") true
        [.status "/srv/bob//new", .createDirectory "/srv/bob//new"]) = true := by decide +kernel
  rw [Option.any_eq_true] at hexec
  rcases hexec with ⟨⟨v, shown⟩, hexec, hshown⟩
  have hexec := FtpServer.eq_ok_of_toOption hexec
  have hshown : shown = .answer _ _ _ := of_decide_eq_true hshown
  rw [hshown] at hexec
  have run := Theory.Run.refl.snoc (Step.command (Sample.folders_answers []) hexec)
  exact ⟨_, _, run, rfl, replies_tell run⟩

end YFtp
