import YFtp.IdleSessions

/-!
# Uploads of several sessions

The sessions of a server that upload files, with the disk that they share.  The handler of STOU is
taken apart: each name that its loop tries is a step, and so is each statement of `store_thread`, so
that other sessions may come between the check of a name and the opening of the file.
-/

namespace YFtp

open Theory
open FtpServer (jobOf)

/-! ## The disk -/

/-- Where the paths lead, and the number of the file that is there.  What is in the files is among
the answers of the system. -/
structure Disk (Place : Type) where
  leads : WString → Option Place
  file : Place → Option Nat
  /-- No file has had this number or a greater one. -/
  next : Nat
  used : ∀ {place n}, file place = some n → n < next

namespace Disk

variable {Place : Type}

/-- The file that a path leads to. -/
def fileAt (d : Disk Place) (path : WString) : Option Nat := (d.leads path).bind d.file

variable [DecidableEq Place]

def create (d : Disk Place) (place : Place) : Disk Place where
  leads := d.leads
  file := Function.update d.file place (some d.next)
  next := d.next + 1
  used := by
    intro p n h
    rw [Function.update_apply] at h
    split at h
    · cases h
      exact Nat.lt_succ_self _
    · exact Nat.lt_succ_of_lt (d.used h)

/-- The file that `ofstream::open` opens.  Both of its modes open the file that is there, and create
one only where there is none. -/
def openWrite (d : Disk Place) (path : WString) : Option Nat × Disk Place :=
  match d.leads path with
  | none => (none, d)
  | some place =>
    match d.file place with
    | some n => (some n, d)
    | none => (some d.next, d.create place)

end Disk

/-! ## The pieces of `process_stor_cmd` -/

namespace Session

variable (s : Session)

/-- `process_stor_cmd` up to the loop of STOU: its answer, or what it goes into the loop with. -/
def beginStou (env : Env) (sslContext : Bool) (user : Option UserNode) :
    Except Fault (Outcome ⊕ Session × List Effect) := do
  let user ← deref user
  if user.holds .writeFile = false then .ok (.inl (s.answer 550 "Permission denied."))
  else if s.curStatus ≠ .waiting then .ok (.inl (s.answer 425 "You're already connected."))
  else
    let (s, opened, effects) ← s.openDataConnection env sslContext
    if opened = false then .ok (.inl (s.answer 425 "Can't open data connection." effects))
    else .ok (.inr (s, effects))

/-- The path that the loop makes of a value of `rand()`. -/
def uniqueName (env : Env) (user : UserNode) (number : Nat) : WString :=
  buildPath env.canonical user.homeDirectory s.currentDirectory
    ("file.".toList ++ decimal number)

/-- `process_stor_cmd` behind the loop of STOU. -/
def endStou (env : Env) (path : WString) (effects : List Effect) : Outcome :=
  if path ≠ [] then
    let effects := effects ++ [.send (Reply.create 150 ("FILE: ".toList ++ path)).content]
    if env.joinable = false then
      { s with restartAt := 0, transferPath := [], curStatus := .waiting }.answer 425
        "Opening data connection failed." effects
    else
      { session := { s with curStatus := .uploading, transferPath := path }
        reply := .create 0 []
        effects := effects ++ [.startStore path] }
  else { session := s, effects := effects }

/-- The pieces one after the other. -/
def stou (env : Env) (sslContext : Bool) (user : Option UserNode) : Except Fault Outcome := do
  match ← s.beginStou env sslContext user with
  | .inl o => .ok o
  | .inr (t, effects) =>
    let user ← deref user
    let (path, searched) ←
      searchUniqueName env user.homeDirectory t.currentDirectory env.tries 0
    .ok (t.endStou env path (effects ++ searched))

end Session

/-! ## Steps -/

/-- A thread that stores a file.  `stou`, `path` and `file` are history: whether STOU has created
it, the path that was chosen for it, and the number of the file that it has opened. -/
structure Upload where
  client : ClientRef
  stou : Bool
  path : WString
  stage : Stage := Job.store.stage
  file : Option Nat := none

/-- The server, with the disk, the number of values that `rand()` has given, the handlers that are
in the loop of STOU with their effects so far, and the threads.  Those that have come to their end
stay. -/
structure Uploaders (Place : Type) where
  server : FtpServer
  disk : Disk Place
  drawn : Nat := 0
  searching : ClientRef → Option (List Effect) := fun _ ↦ none
  uploads : List Upload := []

/-- What a session or a thread does next, with the answers of the system.  Anything else that
happens to the disk is a step of its own. -/
inductive UploadAct (Place : Type)
  | command (c : ClientRef) (cmd : Command) (env : Env)
  | stou (c : ClientRef) (env : Env)
  | check (c : ClientRef) (env : Env)
  | thread (i : Nat) (answers : Answers)
  | elsewhere (disk : Disk Place)

/-- The commands of these sessions besides STOU: neither ABOR nor those that create another thread
on the data connection. -/
def Commands.staysWithUploads : Commands → Bool
  | .ABOR | .LIST | .NLST | .MLSD | .RETR | .STOU => false
  | _ => true

/-- The path of a file that was opened for writing. -/
def ThreadEvent.openedWrite : ThreadEvent → Option WString
  | .openWrite path _ (some _) => some path
  | _ => none

/-- The thread is to open its file next. -/
def Stage.atOpenFile : Stage → Bool
  | .store (.openFile _) => true
  | _ => false

/-- The threads that a handler has created. -/
def startedUploads (c : ClientRef) (stou : Bool) (a : Answer) : List Upload :=
  ((a.effects.filterMap jobOf).filter (· = .store)).map fun _ ↦
    { client := c, stou := stou, path := (a.server.nodes c).transferPath }

namespace Uploaders

variable {Place : Type} (w : Uploaders Place)

def node (c : ClientRef) : ClientNode := w.server.nodes c

/-- What `user_` of a client node points to. -/
def account (c : ClientRef) : Option UserNode := (w.node c).user.map w.server.userManager.users

/-- The answer of a handler, with the threads that it has created. -/
def afterAnswer (c : ClientRef) (stou : Bool) (a : Answer) : Uploaders Place :=
  { w with server := a.server, uploads := w.uploads ++ startedUploads c stou a }

/-- The loop of STOU goes on, or it has found a path. -/
def afterCheck (c : ClientRef) (env : Env) (effects : List Effect) (path : WString) :
    Uploaders Place :=
  let effects := effects ++ [.status path]
  if (env.getFileStatus path).isSome then
    { w with drawn := w.drawn + 1, searching := Function.update w.searching c (some effects) }
  else
    { w with
      drawn := w.drawn + 1
      searching := Function.update w.searching c none }.afterAnswer c true
        (w.server.conclude env c ((w.node c).endStou env path effects))

/-- What thread `i` opens with these answers. -/
structure Opens (i : Nat) (answers : Answers) (u : Upload) : Prop where
  thread : w.uploads[i]? = some u
  stage : u.stage.atOpenFile = true
  opened : answers.opened ≠ none

/-- The path that a thread finds when it opens its file. -/
def pathOf (u : Upload) : WString := (w.node u.client).transferPath

/-- A session takes one command after the other, and the system answers as for its disk. -/
def Allows : UploadAct Place → Prop
  | .command c cmd _ => w.searching c = none ∧ Commands.staysWithUploads cmd.id = true
  | .stou c _ => w.searching c = none
  | .check _ env => ∀ path, (env.getFileStatus path).isSome = (w.disk.fileAt path).isSome
  | .thread i answers => ∀ u, w.Opens i answers u → w.disk.leads (w.pathOf u) ≠ none
  | .elsewhere disk => w.disk.next ≤ disk.next

/-- The server before its first upload. -/
structure Begins : Prop where
  searching : ∀ c, w.searching c = none
  uploads : w.uploads = []

variable [DecidableEq Place]

def afterThread (i : Nat) (u : Upload) (r : StepResult) : Uploaders Place :=
  let (file, disk) :=
    match r.2.2.findSome? ThreadEvent.openedWrite with
    | some path => w.disk.openWrite path
    | none => (u.file, w.disk)
  { w with
    server := w.server.setSession u.client r.1
    disk := disk
    uploads := w.uploads.set i { u with stage := r.2.1, file := file } }

/-- One step, where `rand` gives the values of `rand()` for all sessions. -/
def exec (rand : Nat → Nat) (build : Build) : UploadAct Place → Except ThreadFault (Uploaders Place)
  | .command c cmd env =>
    (liftFault (w.server.runSwitch build env c cmd)).map (w.afterAnswer c false)
  | .stou c env =>
    (liftFault ((w.node c).beginStou env w.server.sslContext (w.account c))).map fun
      | .inl o => w.afterAnswer c true (w.server.conclude env c o)
      | .inr (s, effects) => { w with
          server := w.server.setSession c s
          searching := Function.update w.searching c (some effects) }
  | .check c env =>
    match w.searching c with
    | none => .ok w
    | some effects =>
      (liftFault (deref (w.account c))).map fun user ↦
        w.afterCheck c env effects ((w.node c).uniqueName env user (rand w.drawn))
  | .thread i answers =>
    match w.uploads[i]? with
    | none => .ok w
    | some u =>
      (u.stage.step answers (w.node u.client) (w.account u.client)).map (w.afterThread i u)
  | .elsewhere disk => .ok { w with disk }

def Steps (rand : Nat → Nat) (build : Build) (w : Uploaders Place) (act : UploadAct Place)
    (w' : Uploaders Place) : Prop :=
  w.Allows act ∧ w.exec rand build act = .ok w'

end Uploaders

abbrev UploadRun {Place : Type} [DecidableEq Place] (rand : Nat → Nat) (build : Build) :
    Uploaders Place → List (Uploaders Place × UploadAct Place) → Uploaders Place → Prop :=
  Theory.Run (Uploaders.Steps rand build)

/-! ## The pieces make up the handler -/

namespace Session

variable {env : Env} {s : Session} {user : Option UserNode} {sslContext : Bool} {cmd : Command}

-- where the loop of STOU has put nothing together, no path can be
theorem searchUniqueName_nil {u : UserNode} {asked : WString} {left tried : Nat}
    {searched : List Effect}
    (h : searchUniqueName env u.homeDirectory s.currentDirectory left tried = .ok ([], searched)) :
    buildPath env.canonical u.homeDirectory s.currentDirectory asked false = [] := by
  rcases (searchUniqueName_spec (rfl : some u = some u) h).1 with ⟨number, bcanonical, hnil⟩
  rw [buildPath_eq_nil]
  exact (buildPath_eq_nil env _ _ _ bcanonical).mp hnil.symm

theorem processStorCmd_stou (hid : cmd.id = .STOU) :
    s.processStorCmd env sslContext user cmd = s.stou env sslContext user := by
  rcases cmd with ⟨id, args⟩
  cases hid
  unfold processStorCmd stou beginStou
  cases user with
  | none => rfl
  | some u =>
    show (if u.holds .writeFile = false then _ else ite _ _ _) =
      Except.bind (if u.holds .writeFile = false then _ else ite _ _ _) _
    by_cases hholds : u.holds .writeFile = false
    · rw [if_pos hholds, if_pos hholds]
      rfl
    · rw [if_neg hholds, if_neg hholds, if_pos (.inr rfl)]
      by_cases hbusy : s.curStatus ≠ .waiting
      · rw [if_pos hbusy, if_pos hbusy]
        rfl
      · rw [if_neg hbusy, if_neg hbusy]
        cases hopen : s.openDataConnection env sslContext with
        | error fault => rfl
        | ok r =>
          rcases r with ⟨t, opened, fx⟩
          cases opened with
          | false => rfl
          | true =>
            show Except.bind
              (searchUniqueName env u.homeDirectory t.currentDirectory env.tries 0) _ = Except.bind (searchUniqueName env u.homeDirectory t.currentDirectory env.tries 0) _
            cases hsearch : searchUniqueName env u.homeDirectory t.currentDirectory env.tries 0 with
            | error fault => rfl
            | ok found =>
              rcases found with ⟨unique, searched⟩
              show (if (if unique ≠ [] then unique else buildPath env.canonical u.homeDirectory
                t.currentDirectory args false) ≠ [] then _ else _) =
                  Except.ok (t.endStou env unique (fx ++ searched))
              unfold endStou
              by_cases hnil : unique = []
              · cases hnil
                rw [if_neg (not_not.mpr rfl), searchUniqueName_nil hsearch,
                  if_neg (not_not.mpr rfl), if_neg (not_not.mpr rfl)]
              · rw [if_pos hnil, if_pos hnil, if_pos hnil]
                show (if env.joinable = false then _ else _) = _
                split
                · rw [if_pos rfl, List.append_nil]
                · rw [if_pos rfl, List.append_nil]

end Session

-- what a handler leaves of the session does not depend on what it has left before
theorem FtpServer.setSession_conclude (env : Env) (σ : FtpServer) (c : ClientRef) (s : Session)
    (o : Outcome) : (σ.setSession c s).conclude env c o = σ.conclude env c o := by
  simp [conclude, setSession, setNode]

namespace Uploaders

variable {Place : Type} {rand : Nat → Nat} {build : Build} {w : Uploaders Place}
  {c : ClientRef} {env : Env} {cmd : Command}

/-- The values of `rand()` that are still to come. -/
def drawing (rand : Nat → Nat) (drawn : Nat) (env : Env) : Env :=
  { env with rand := fun i ↦ rand (drawn + i) }

-- the two ways out of a check
theorem afterCheck_taken {effects : List Effect} {path : WString}
    (h : (env.getFileStatus path).isSome = true) :
    w.afterCheck c env effects path = { w with
      drawn := w.drawn + 1
      searching := Function.update w.searching c (some (effects ++ [.status path])) } :=
  if_pos h

theorem afterCheck_free {effects : List Effect} {path : WString}
    (h : (env.getFileStatus path).isSome = false) :
    w.afterCheck c env effects path = { w with
      drawn := w.drawn + 1
      searching := Function.update w.searching c none }.afterAnswer c true
        (w.server.conclude env c
          ((w.node c).endStou env path (effects ++ [Effect.status path]))) := by
  unfold afterCheck
  rw [h]
  rfl

variable [DecidableEq Place]

/-- A session that goes through the loop alone. -/
theorem exists_run_of_search {user : UserNode} {effects searched : List Effect} {path : WString}
    {left tried drawn : Nat} (hsearching : w.searching c = some effects)
    (huser : w.account c = some user) (hdrawn : w.drawn = drawn + tried)
    (henv : ∀ path, (env.getFileStatus path).isSome = (w.disk.fileAt path).isSome)
    (h : Session.searchUniqueName (drawing rand drawn env) user.homeDirectory
      (w.node c).currentDirectory left tried = .ok (path, searched)) :
    ∃ trace w', UploadRun rand build w trace w' ∧ w'.searching c = none ∧ w'.disk = w.disk ∧
      w'.server = (w.server.conclude env c
        ((w.node c).endStou env path (effects ++ searched))).server ∧
      w'.uploads = w.uploads ++ startedUploads c true (w.server.conclude env c
        ((w.node c).endStou env path (effects ++ searched))) := by
  induction left generalizing w effects tried searched with
  | zero => cases h
  | succ left ih =>
    rw [Session.searchUniqueName] at h
    dsimp only at h
    have hexec : w.exec rand build (.check c env) =
        .ok (w.afterCheck c env effects ((w.node c).uniqueName env user (rand w.drawn))) := by
      rw [exec, hsearching, huser]
      rfl
    rw [hdrawn] at hexec
    split at h
    · rename_i htaken
      have htaken : (env.getFileStatus
          ((w.node c).uniqueName env user (rand (drawn + tried)))).isSome = true := htaken
      rcases eq_ok_of_bind h with ⟨⟨found, more⟩, hmore, h⟩
      cases h
      rw [afterCheck_taken htaken] at hexec
      let w₁ : Uploaders Place := { w with
        drawn := w.drawn + 1
        searching := Function.update w.searching c (some (effects ++
          [.status ((w.node c).uniqueName env user (rand (drawn + tried)))])) }
      have hstep : Steps rand build w (.check c env) w₁ := ⟨henv, hexec⟩
      have hsearching₁ : w₁.searching c = _ := Function.update_self ..
      have hdrawn₁ : w₁.drawn = drawn + (tried + 1) := congrArg (· + 1) hdrawn
      rcases ih hsearching₁ huser hdrawn₁ henv hmore with
        ⟨trace, w', run, hfound, hdisk, hserver, huploads⟩
      rw [List.append_assoc] at hserver huploads
      exact ⟨_, w', (Theory.Run.refl.snoc hstep).trans run, hfound, hdisk, hserver, huploads⟩
    · rename_i hfree
      have hfree : (env.getFileStatus
          ((w.node c).uniqueName env user (rand (drawn + tried)))).isSome = false :=
        Bool.eq_false_of_not_eq_true hfree
      cases h
      rw [afterCheck_free hfree] at hexec
      have hstep : Steps rand build w (.check c env) _ := ⟨henv, hexec⟩
      exact ⟨_, _, Theory.Run.refl.snoc hstep, Function.update_self .., rfl, rfl, rfl⟩

/-- STOU of one session, with nothing in between, is the handler. -/
theorem exists_run_of_stou {a : Answer} (hid : cmd.id = .STOU) (hsearching : w.searching c = none)
    (henv : ∀ path, (env.getFileStatus path).isSome = (w.disk.fileAt path).isSome)
    (ha : w.server.runSwitch build (drawing rand w.drawn env) c cmd = .ok a) :
    ∃ trace w', UploadRun rand build w trace w' ∧ w'.searching c = none ∧ w'.disk = w.disk ∧
      w'.server = a.server ∧ w'.uploads = w.uploads ++ startedUploads c true a := by
  have hstou : ((w.node c).toSession.stou (drawing rand w.drawn env) w.server.sslContext
      (w.account c)).map (w.server.conclude (drawing rand w.drawn env) c) = .ok a := by
    rw [← Session.processStorCmd_stou hid, ← ha]
    unfold FtpServer.runSwitch FtpServer.sessionHandler
    rw [hid]
    rfl
  rcases eq_ok_of_map hstou with ⟨o, ho, rfl⟩
  rcases eq_ok_of_bind ho with ⟨begun, hbegin, ho⟩
  have hbegin : (w.node c).beginStou env w.server.sslContext (w.account c) = .ok begun := hbegin
  cases begun with
  | inl o' =>
    cases ho
    have hexec : w.exec rand build (.stou c env) =
        .ok (w.afterAnswer c true (w.server.conclude env c o)) := by
      rw [exec, hbegin]
      rfl
    have hstep : Steps rand build w (.stou c env) _ := ⟨hsearching, hexec⟩
    exact ⟨_, _, Theory.Run.refl.snoc hstep, hsearching, rfl, rfl, rfl⟩
  | inr r =>
    rcases r with ⟨t, effects⟩
    rcases eq_ok_of_bind ho with ⟨user, huser, ho⟩
    rcases eq_ok_of_bind ho with ⟨⟨path, searched⟩, hsearch, ho⟩
    cases ho
    let w₁ : Uploaders Place := { w with
      server := w.server.setSession c t
      searching := Function.update w.searching c (some effects) }
    have hexec : w.exec rand build (.stou c env) = .ok w₁ := by
      rw [exec, hbegin]
      rfl
    have hstep : Steps rand build w (.stou c env) w₁ := ⟨hsearching, hexec⟩
    have hsearching₁ : w₁.searching c = some effects := Function.update_self ..
    have hnode₁ : w₁.node c = { w.node c with toSession := t } := FtpServer.setNode_self ..
    have huser₁ : w₁.account c = some user := by
      rw [account, hnode₁]
      exact Session.deref_ok huser
    have hsearch₁ : Session.searchUniqueName (drawing rand w.drawn env) user.homeDirectory
        (w₁.node c).currentDirectory env.tries 0 = .ok (path, searched) := by
      rw [hnode₁]
      exact hsearch
    have hsame : w₁.server.conclude env c ((w₁.node c).endStou env path (effects ++ searched)) =
        w.server.conclude env c (t.endStou env path (effects ++ searched)) := by
      rw [hnode₁]
      exact FtpServer.setSession_conclude ..
    rcases exists_run_of_search hsearching₁ huser₁ rfl henv hsearch₁ with
      ⟨trace, w', run, hfound, hdisk, hserver, huploads⟩
    rw [hsame] at hserver huploads
    exact ⟨_, w', (Theory.Run.refl.snoc hstep).trans run, hfound, hdisk, hserver, huploads⟩

end Uploaders

end YFtp
