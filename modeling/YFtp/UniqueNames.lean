import YFtp.StouUploads

/-!
# Unique names

STOU looks whether there is a file of the name it has made up, but the file is created later, by
`store_thread`, which opens whatever is there by then.
-/

namespace YFtp

open Theory
open FtpServer (jobOf)

/-- The thread has not opened its file yet. -/
def Stage.unopened : Stage → Bool
  | .store .mode | .store (.openFile _) => true
  | _ => false

/-- STOU has chosen the name, and the file has not been opened yet. -/
def Upload.pending (u : Upload) : Bool := u.stou && u.stage.unopened

namespace Uploaders

variable {Place : Type}

/-- No thread opens a file where the path that STOU has chosen for another upload leads, before that
one has opened its file; nor is a file put there otherwise. -/
def Apart (w : Uploaders Place) : UploadAct Place → Prop
  | .thread i answers => ∀ u, w.Opens i answers u → ∀ j v, j ≠ i → w.uploads[j]? = some v →
    v.pending = true → w.disk.leads v.path ≠ w.disk.leads (w.pathOf u)
  | .elsewhere disk => ∀ v ∈ w.uploads, v.pending = true → disk.fileAt v.path = none
  | _ => True

/-- The file that an upload of STOU opens does not exist before. -/
def OpensNew (w : Uploaders Place) : UploadAct Place → Prop
  | .thread i answers =>
    ∀ u, w.Opens i answers u → u.stou = true → w.disk.fileAt (w.pathOf u) = none
  | _ => True

/-- No two uploads of STOU have opened the same file. -/
def Distinct (w : Uploaders Place) : Prop :=
  ∀ n, AtMostOne (fun u ↦ u.stou && decide (u.file = some n)) w.uploads

/-- A session checks a name, and there is no file of this name. -/
def FindsName (rand : Nat → Nat) (c : ClientRef) (w : Uploaders Place) : UploadAct Place → Prop
  | .check d env => d = c ∧ ∃ user, w.account c = some user ∧
    w.disk.fileAt ((w.node c).uniqueName env user (rand w.drawn)) = none
  | _ => False

end Uploaders

/-! ## `store_thread` -/

/-- The stages of `store_thread`. -/
def Stage.storing : Stage → Bool
  | .store _ | .ended => true
  | .shutDown job _ | .closeSocket job _ | .finish job _ => job = .store
  | _ => false

theorem unopened_of_atOpenFile {stage : Stage} (h : stage.atOpenFile = true) :
    stage.unopened = true := by
  cases stage with
  | store stage => cases stage <;> first | rfl | cases h
  | _ => cases h

theorem transferring_of_unopened {stage : Stage} (h : stage.unopened = true) :
    stage.transferring = true := by
  cases stage with
  | store stage => rfl
  | _ => cases h

/-- What a statement of `store_thread` does to the session and to the disk. -/
inductive StoreStepped (a : Answers) (n : ClientNode) (stage : Stage) : StepResult → Prop
  | goesOn {s next fx} (path : s.transferPath = n.transferPath) (status : s.curStatus = n.curStatus)
      (storing : next.storing = true) (unopened : next.unopened = true → stage.unopened = true)
      (transferring : next.transferring = true → stage.transferring = true)
      (closed : fx.findSome? ThreadEvent.openedWrite = none) : StoreStepped a n stage (s, next, fx)
  | opens {next fx} (openFile : stage.atOpenFile = true) (opened : a.opened ≠ none)
      (storing : next.storing = true) (unopened : next.unopened = false)
      (event : fx.findSome? ThreadEvent.openedWrite = some n.transferPath) :
      StoreStepped a n stage (n.toSession, next, fx)
  | ends {s fx} (transferring : stage.transferring = true)
      (closed : fx.findSome? ThreadEvent.openedWrite = none) :
      StoreStepped a n stage (s, .ended, fx)

section Stepped

variable {a : Answers} {n : ClientNode} {user : Option UserNode} {stage : Stage} {r : StepResult}

-- past its opening the thread does not come back to it
theorem unopened_loop (ofs : OutStream UInt8) (len : Int) :
    (Stage.store (if ofs.good then .receive ofs else .close ofs len)).unopened = false := by
  cases ofs.good <;> rfl

theorem storeStage_stepped {stage : StoreStage} (h : stage.step a n.toSession = .ok r) :
    StoreStepped a n (.store stage) r := by
  cases stage with
  | mode =>
    cases h
    exact .goesOn rfl rfl rfl (fun _ ↦ rfl) (fun _ ↦ rfl) rfl
  | openFile app =>
    rw [StoreStage.step] at h
    split at h
    · cases h
      exact .goesOn rfl rfl rfl (fun _ ↦ rfl) (fun _ ↦ rfl) rfl
    · rename_i content hopened
      cases h
      exact .opens rfl (by rw [hopened]; exact Option.some_ne_none content) rfl rfl rfl
  | seek app ofs =>
    rw [StoreStage.step] at h
    split at h
    · cases h
      exact .goesOn rfl rfl rfl (fun hnext ↦ absurd hnext (by rw [unopened_loop]; decide))
        (fun _ ↦ rfl) rfl
    · cases h
      exact .goesOn rfl rfl rfl (fun hnext ↦ by cases hnext) (fun _ ↦ rfl) rfl
  | receive ofs =>
    rcases eq_ok_of_liftFault_bind h with ⟨-, -, h⟩
    split at h
    · cases h
      exact .goesOn rfl rfl rfl (fun hnext ↦ by cases hnext) (fun _ ↦ rfl) rfl
    · cases h
      exact .goesOn rfl rfl rfl (fun hnext ↦ by cases hnext) (fun _ ↦ rfl) rfl
    · cases h
      exact .goesOn rfl rfl rfl (fun hnext ↦ by cases hnext) (fun _ ↦ rfl) rfl
  | write ofs block =>
    cases h
    exact .goesOn rfl rfl rfl (fun hnext ↦ absurd hnext (by rw [unopened_loop]; decide))
      (fun _ ↦ rfl) rfl
  | close ofs len =>
    cases h
    exact .goesOn rfl rfl rfl (fun hnext ↦ by cases hnext) (fun _ ↦ rfl) rfl

theorem store_stepped (hstoring : stage.storing = true) (h : stage.step a n user = .ok r) :
    StoreStepped a n stage r := by
  cases stage with
  | list cmd stage => cases hstoring
  | store stage => exact storeStage_stepped h
  | retrieve stage => cases hstoring
  | shutDown job complete =>
    have hstepped : Stepped n r.1 (.shutDown job complete) r.2.1 := stage_stepped h
    rcases eq_ok_of_liftFault_bind h with ⟨t, ht, h⟩
    cases h
    cases hstepped with
    | goesOn hsession =>
      cases hsession
      exact .goesOn rfl rfl hstoring (fun hnext ↦ by cases hnext) (fun _ ↦ rfl) rfl
  | closeSocket job complete =>
    rcases eq_ok_of_liftFault_bind h with ⟨t, ht, h⟩
    cases h
    cases (Session.closeDataSocket_ok ht).1
    exact .goesOn rfl rfl hstoring (fun hnext ↦ by cases hnext) (fun _ ↦ rfl) rfl
  | finish job complete =>
    rw [Stage.step] at h
    split at h
    · cases h
      exact .ends rfl rfl
    · cases h
      exact .ends rfl rfl
  | ended =>
    cases h
    exact .goesOn rfl rfl rfl (fun hnext ↦ hnext) (fun hnext ↦ hnext) rfl

end Stepped

/-! ## Handlers -/

/-- What a handler does to the upload of its session: while one is under way, nothing. -/
inductive LeavesUpload (c : ClientRef) (σ : FtpServer) (a : Answer) : Prop
  | keeps (status : (a.server.nodes c).curStatus = (σ.nodes c).curStatus)
      (path : (a.server.nodes c).transferPath = (σ.nodes c).transferPath)
      (started : ∀ stou, startedUploads c stou a = [])
  | waiting (before : (σ.nodes c).curStatus = .waiting)
      (started : ∀ stou, startedUploads c stou a = [])
  | starts (before : (σ.nodes c).curStatus = .waiting)
      (after : (a.server.nodes c).curStatus ≠ .waiting)
      (started : ∀ stou, startedUploads c stou a =
        [{ client := c, stou := stou, path := (a.server.nodes c).transferPath }])

section Handlers

variable {build : Build} {env : Env} {σ : FtpServer} {c : ClientRef} {cmd : Command} {a : Answer}

theorem startedUploads_of_nil (h : a.effects.filterMap jobOf = []) (stou : Bool) :
    startedUploads c stou a = [] := by
  unfold startedUploads
  rw [h]
  rfl

theorem startedUploads_of_store (h : a.effects.filterMap jobOf = [.store]) (stou : Bool) :
    startedUploads c stou a =
      [{ client := c, stou := stou, path := (a.server.nodes c).transferPath }] := by
  unfold startedUploads
  rw [h]
  rfl

theorem mem_startedUploads {stou : Bool} {u : Upload} (h : u ∈ startedUploads c stou a) :
    u = { client := c, stou := stou, path := (a.server.nodes c).transferPath } := by
  rcases List.mem_map.mp h with ⟨-, -, rfl⟩
  rfl

theorem LeavesUpload.busy_of_started (h : LeavesUpload c σ a) {stou : Bool} {u : Upload}
    (hu : u ∈ startedUploads c stou a) : (a.server.nodes c).curStatus ≠ .waiting := by
  cases h with
  | keeps _ _ hstarted =>
    rw [hstarted] at hu
    cases hu
  | waiting _ hstarted =>
    rw [hstarted] at hu
    cases hu
  | starts _ hafter => exact hafter

theorem transfersFile_of_stays {id : Commands} (h : Commands.staysWithUploads id = true)
    (htransfers : Commands.transfers id = true) : Commands.transfersFile id = true := by
  revert h htransfers
  cases id <;> decide

theorem conclude_toSession (env : Env) (σ : FtpServer) (c : ClientRef) (o : Outcome) :
    ((σ.conclude env c o).server.nodes c).toSession = o.session := by
  rw [FtpServer.conclude_nodes, FtpServer.setSession_toSession]

theorem conclude_nodes_of_ne (env : Env) (σ : FtpServer) {c d : ClientRef} (o : Outcome)
    (h : d ≠ c) : (σ.conclude env c o).server.nodes d = σ.nodes d := by
  rw [FtpServer.conclude_nodes, FtpServer.setSession_of_ne σ o.session h]

theorem LeavesUpload.of_session (hsession : (a.server.nodes c).toSession = (σ.nodes c).toSession)
    (hjobs : a.effects.filterMap jobOf = []) : LeavesUpload c σ a :=
  .keeps (congrArg Session.curStatus hsession) (congrArg Session.transferPath hsession)
    (startedUploads_of_nil hjobs)

/-- The handlers that have only their session to work on. -/
theorem acted_leavesUpload {sslContext : Bool} {user : Option UserNode} {o : Outcome}
    (hcmd : Commands.staysWithUploads cmd.id = true)
    (hacted : Session.Acted env sslContext user (σ.nodes c).toSession cmd o)
    (hnode : (a.server.nodes c).toSession = o.session) (heffects : a.effects = o.effects) :
    LeavesUpload c σ a := by
  have hstatus : (a.server.nodes c).curStatus = o.session.curStatus :=
    congrArg Session.curStatus hnode
  have hpath : (a.server.nodes c).transferPath = o.session.transferPath :=
    congrArg Session.transferPath hnode
  have hnone : o.effects.filterMap jobOf = [] → ∀ stou, startedUploads c stou a = [] :=
    fun hjobs ↦ startedUploads_of_nil (by rw [heffects, hjobs])
  cases hacted with
  | keeps hkeeps =>
    exact .keeps (hstatus.trans hkeeps.same.curStatus) (hpath.trans hkeeps.same.transferPath)
      (hnone hkeeps.jobs)
  | stat _ hsession hjobs =>
    refine .keeps (by rw [hstatus, hsession]) (by rw [hpath, hsession]) fun stou ↦ ?_
    unfold startedUploads
    rw [heffects, hjobs]
    rfl
  | prot _ _ hsession hjobs =>
    exact .keeps (by rw [hstatus, hsession]) (by rw [hpath, hsession]) (hnone hjobs)
  | abor hid =>
    rw [hid] at hcmd
    cases hcmd
  | rest _ hwaiting _ _ _ hjobs => exact .waiting hwaiting (hnone hjobs)
  | address _ hwaiting _ _ _ _ _ _ hjobs => exact .waiting hwaiting (hnone hjobs)
  | opens hopens _ _ _ _ hstarted =>
    have hwaiting := Session.waiting_of_opensData hopens
    have htransfers := Session.transfers_of_opensData hopens
    cases hstarted with
    | refused hjobs => exact .waiting hwaiting (hnone hjobs)
    | list _ hid =>
      rw [transfersFile_of_stays hcmd htransfers] at hid
      cases hid
    | retrieve _ hid =>
      rw [hid] at hcmd
      cases hcmd
    | store _ _ hjobs huploading =>
      refine .starts hwaiting ?_ (startedUploads_of_store (by rw [heffects, hjobs]))
      rw [hstatus, huploading]
      decide

theorem runSwitch_leavesUpload (hcmd : Commands.staysWithUploads cmd.id = true)
    (h : σ.runSwitch build env c cmd = .ok a) : LeavesUpload c σ a := by
  rcases FtpServer.runSwitch_cases h with
    ⟨-, r, hr, rfl⟩ | ⟨-, rfl⟩ | ⟨-, rfl⟩ | ⟨-, o, ports, hsession, rfl⟩
  · exact .of_session (FtpServer.processUserCmd_session hr) rfl
  · exact .of_session (FtpServer.processPasswordCmd_session σ c cmd.args) rfl
  · have hunbound := FtpServer.unbind_session σ c
    have hstatus : ((σ.unbind c).nodes c).curStatus = (σ.nodes c).curStatus :=
      congrArg Session.curStatus hunbound
    have hpath : ((σ.unbind c).nodes c).transferPath = (σ.nodes c).transferPath :=
      congrArg Session.transferPath hunbound
    refine .keeps ?_ ?_ (startedUploads_of_nil rfl)
    · dsimp only
      rw [FtpServer.processReinCmd, FtpServer.setNode_self]
      exact hstatus
    · dsimp only
      rw [FtpServer.processReinCmd, FtpServer.setNode_self]
      exact hpath
  · exact acted_leavesUpload hcmd hsession.acted (conclude_toSession env _ c o) rfl

theorem beginStou_leavesUpload {sslContext : Bool} {user : Option UserNode} {o : Outcome}
    (h : (σ.nodes c).beginStou env sslContext user = .ok (.inl o)) :
    LeavesUpload c σ (σ.conclude env c o) ∧
      ∀ stou, startedUploads c stou (σ.conclude env c o) = [] := by
  have hkeeps : o.session = (σ.nodes c).toSession → o.effects = [] →
      LeavesUpload c σ (σ.conclude env c o) ∧
        ∀ stou, startedUploads c stou (σ.conclude env c o) = [] := by
    intro hsession heffects
    have hjobs : (σ.conclude env c o).effects.filterMap jobOf = [] := by
      show o.effects.filterMap jobOf = []
      rw [heffects]
      rfl
    have hsame := (conclude_toSession env σ c o).trans hsession
    exact ⟨.of_session hsame hjobs, startedUploads_of_nil hjobs⟩
  rcases eq_ok_of_bind h with ⟨u, -, h⟩
  split at h
  · cases h
    exact hkeeps rfl rfl
  · split at h
    · cases h
      exact hkeeps rfl rfl
    · rename_i hwaiting
      rcases eq_ok_of_bind h with ⟨⟨t, opened, fx⟩, hopen, h⟩
      dsimp only at h
      split at h
      · cases h
        have hstarted : ∀ stou, startedUploads c stou (σ.conclude env c
            (t.answer 425 "Can't open data connection." fx)) = [] :=
          startedUploads_of_nil (Session.openDataConnection_opened hopen).jobs
        exact ⟨.waiting (not_not.mp hwaiting) hstarted, hstarted⟩
      · cases h

theorem beginStou_searches {sslContext : Bool} {user : Option UserNode} {s t : Session}
    {effects : List Effect} (h : s.beginStou env sslContext user = .ok (.inr (t, effects))) :
    s.curStatus = .waiting ∧ t.curStatus = .waiting ∧ effects.filterMap jobOf = [] := by
  rcases eq_ok_of_bind h with ⟨u, -, h⟩
  split at h
  · cases h
  · split at h
    · cases h
    · rename_i hwaiting
      rcases eq_ok_of_bind h with ⟨⟨t', opened, fx⟩, hopen, h⟩
      dsimp only at h
      split at h
      · cases h
      · cases h
        have hopened := Session.openDataConnection_opened hopen
        exact ⟨not_not.mp hwaiting, hopened.status.trans (not_not.mp hwaiting), hopened.jobs⟩

/-- Behind the loop: no thread, or one for the path that the loop has found. -/
theorem endStou_leavesUpload {path : WString} {effects : List Effect}
    (hwaiting : (σ.nodes c).curStatus = .waiting) (hquiet : effects.filterMap jobOf = []) :
    LeavesUpload c σ (σ.conclude env c ((σ.nodes c).endStou env path effects)) ∧
      ∀ stou, ∀ u ∈ startedUploads c stou
        (σ.conclude env c ((σ.nodes c).endStou env path effects)), u.path = path := by
  have hnone : ∀ {o : Outcome}, o.effects.filterMap jobOf = [] →
      LeavesUpload c σ (σ.conclude env c o) ∧
        ∀ stou, ∀ u ∈ startedUploads c stou (σ.conclude env c o), u.path = path := by
    intro o hjobs
    have hstarted : ∀ stou, startedUploads c stou (σ.conclude env c o) = [] :=
      startedUploads_of_nil hjobs
    refine ⟨.waiting hwaiting hstarted, fun stou u hu ↦ ?_⟩
    rw [hstarted] at hu
    cases hu
  unfold Session.endStou
  split
  · dsimp only
    split
    · apply hnone
      show (effects ++ [_]).filterMap jobOf = []
      rw [List.filterMap_append, hquiet]
      rfl
    · generalize ho : ({ session := _, reply := _, effects := _ } : Outcome) = o
      have hnode := conclude_toSession env σ c o
      have hstatus : ((σ.conclude env c o).server.nodes c).curStatus = .uploading :=
        (congrArg Session.curStatus hnode).trans (by rw [← ho])
      have hpath : ((σ.conclude env c o).server.nodes c).transferPath = path :=
        (congrArg Session.transferPath hnode).trans (by rw [← ho])
      have hjobs : (σ.conclude env c o).effects.filterMap jobOf = [.store] := by
        show o.effects.filterMap jobOf = [.store]
        rw [← ho, List.filterMap_append, List.filterMap_append, hquiet]
        rfl
      refine ⟨.starts hwaiting ?_ (startedUploads_of_store hjobs), fun stou u hu ↦ ?_⟩
      · rw [hstatus]
        decide
      · rw [startedUploads_of_store hjobs] at hu
        cases List.mem_singleton.mp hu
        exact hpath
  · exact hnone hquiet

end Handlers

/-! ## Invariants -/

namespace Uploaders

variable {Place : Type}

/-- What the sessions and their uploads keep between them, whatever the names are. -/
structure Sound (w : Uploaders Place) : Prop where
  storing : ∀ u ∈ w.uploads, u.stage.storing = true
  busy : ∀ u ∈ w.uploads, u.stage.transferring = true → (w.node u.client).curStatus ≠ .waiting
  path : ∀ u ∈ w.uploads, u.stage.unopened = true → w.pathOf u = u.path
  one : ∀ c, AtMostOne (fun u ↦ decide (u.client = c) && u.stage.transferring) w.uploads
  waiting : ∀ c, w.searching c ≠ none → (w.node c).curStatus = .waiting
  quiet : ∀ c effects, w.searching c = some effects → effects.filterMap jobOf = []
  used : ∀ u ∈ w.uploads, ∀ n, u.file = some n → n < w.disk.next

/-- There is no file where an upload of STOU is to open one. -/
def Free (w : Uploaders Place) : Prop :=
  ∀ u ∈ w.uploads, u.pending = true → w.disk.fileAt u.path = none

structure Safe (w : Uploaders Place) : Prop extends Sound w where
  free : w.Free
  distinct : w.Distinct

section Invariants

variable {rand : Nat → Nat} {build : Build} {w w' : Uploaders Place} {c : ClientRef} {u v : Upload}
  {a : Answer} {i : Nat}

theorem Begins.safe (h : w.Begins) : w.Safe := by
  have hnone : ∀ {P : Upload → Prop}, ∀ u ∈ w.uploads, P u := by
    intro P u hu
    rw [h.uploads] at hu
    cases hu
  refine ⟨⟨hnone, hnone, hnone, fun c ↦ ?_, fun c hc ↦ ?_, fun c effects hc ↦ ?_, hnone⟩, hnone,
    fun n ↦ ?_⟩
  · rw [h.uploads]
    exact atMostOne_nil
  · exact absurd (h.searching c) hc
  · rw [h.searching c] at hc
    cases hc
  · rw [h.uploads]
    exact atMostOne_nil

-- a session that waits has no upload under way
theorem Sound.notBusy (h : w.Sound) (hwaiting : (w.node c).curStatus = .waiting)
    (hu : u ∈ w.uploads) (hclient : u.client = c) : u.stage.transferring = false := by
  rw [← Bool.not_eq_true]
  intro htransferring
  apply h.busy u hu htransferring
  rw [hclient]
  exact hwaiting

-- the session of an upload that is under way is left alone
theorem Sound.leftAlone (h : w.Sound)
    (hnodes : ∀ d, d ≠ c → a.server.nodes d = w.server.nodes d)
    (hleaves : LeavesUpload c w.server a) (hu : u ∈ w.uploads)
    (htransferring : u.stage.transferring = true) :
    (a.server.nodes u.client).curStatus = (w.node u.client).curStatus ∧
      (a.server.nodes u.client).transferPath = (w.node u.client).transferPath := by
  by_cases hclient : u.client = c
  · have hbusy := h.busy u hu htransferring
    rw [hclient] at hbusy ⊢
    cases hleaves with
    | keeps hstatus hpath => exact ⟨hstatus, hpath⟩
    | waiting hwaiting => exact absurd hwaiting hbusy
    | starts hwaiting => exact absurd hwaiting hbusy
  · rw [hnodes _ hclient]
    exact ⟨rfl, rfl⟩

-- an upload is started by a session that has none
theorem Sound.oneAfter (h : w.Sound) (hleaves : LeavesUpload c w.server a) (stou : Bool) :
    AtMostOne (fun u ↦ decide (u.client = c) && u.stage.transferring)
      (w.uploads ++ startedUploads c stou a) := by
  cases hleaves with
  | keeps _ _ hstarted =>
    rw [hstarted, List.append_nil]
    exact h.one c
  | waiting _ hstarted =>
    rw [hstarted, List.append_nil]
    exact h.one c
  | starts hwaiting _ hstarted =>
    refine AtMostOne.append_new (fun u hu ↦ ?_) (by rw [hstarted]; exact Nat.le_refl 1)
    by_cases hclient : u.client = c
    · rw [h.notBusy hwaiting hu hclient, Bool.and_false]
    · rw [decide_eq_false hclient, Bool.false_and]

theorem Sound.afterAnswer (h : w.Sound) (hsearching : w.searching c = none)
    (hnodes : ∀ d, d ≠ c → a.server.nodes d = w.server.nodes d)
    (hleaves : LeavesUpload c w.server a) (stou : Bool) : (w.afterAnswer c stou a).Sound := by
  constructor
  case storing =>
    refine forall_mem_append h.storing fun u hu ↦ ?_
    rw [mem_startedUploads hu]
    rfl
  case busy =>
    refine forall_mem_append (fun u hu htransferring ↦ ?_) fun u hu _ ↦ ?_
    · show (a.server.nodes u.client).curStatus ≠ .waiting
      rw [(h.leftAlone hnodes hleaves hu htransferring).1]
      exact h.busy u hu htransferring
    · rw [mem_startedUploads hu]
      exact hleaves.busy_of_started hu
  case path =>
    refine forall_mem_append (fun u hu hunopened ↦ ?_) fun u hu _ ↦ ?_
    · have hsame := h.leftAlone hnodes hleaves hu (transferring_of_unopened hunopened)
      exact hsame.2.trans (h.path u hu hunopened)
    · rw [mem_startedUploads hu]
      rfl
  case one =>
    intro d
    by_cases hd : d = c
    · rw [hd]
      exact h.oneAfter hleaves stou
    · refine (h.one d).append fun u hu ↦ ?_
      rw [mem_startedUploads hu, decide_eq_false (Ne.symm hd), Bool.false_and]
  case waiting =>
    intro d hd
    have hne : d ≠ c := fun heq ↦ hd (heq ▸ hsearching)
    show (a.server.nodes d).curStatus = .waiting
    rw [hnodes d hne]
    exact h.waiting d hd
  case quiet => exact h.quiet
  case used =>
    refine forall_mem_append h.used fun u hu n hn ↦ ?_
    rw [mem_startedUploads hu] at hn
    cases hn

theorem Safe.afterAnswer (h : w.Safe) (hsearching : w.searching c = none)
    (hnodes : ∀ d, d ≠ c → a.server.nodes d = w.server.nodes d)
    (hleaves : LeavesUpload c w.server a) (stou : Bool)
    (hfree : stou = true → ∀ u ∈ startedUploads c stou a, w.disk.fileAt u.path = none) :
    (w.afterAnswer c stou a).Safe := by
  refine ⟨h.toSound.afterAnswer hsearching hnodes hleaves stou, ?_, fun n ↦ ?_⟩
  · refine forall_mem_append h.free fun u hu hpending ↦ ?_
    refine hfree ?_ u hu
    rw [mem_startedUploads hu] at hpending
    exact (Bool.and_eq_true_iff.mp hpending).1
  · refine (h.distinct n).append fun u hu ↦ ?_
    rw [mem_startedUploads hu]
    exact Bool.and_false _

-- the handler of a session that waits goes into the loop, on in it or out of it
theorem Safe.updateSearching (h : w.Safe) (hwaiting : (w.node c).curStatus = .waiting)
    (drawn : Nat) {loop : Option (List Effect)}
    (hquiet : ∀ effects, loop = some effects → effects.filterMap jobOf = []) :
    ({ w with drawn := drawn, searching := Function.update w.searching c loop } :
      Uploaders Place).Safe := by
  refine { h with waiting := fun d hd ↦ ?_, quiet := fun d effects hd ↦ ?_ }
  · have hd : Function.update w.searching c loop d ≠ none := hd
    by_cases hdc : d = c
    · rw [hdc]
      exact hwaiting
    · rw [Function.update_of_ne hdc] at hd
      exact h.waiting d hd
  · have hd : Function.update w.searching c loop d = some effects := hd
    by_cases hdc : d = c
    · rw [hdc, Function.update_self] at hd
      exact hquiet effects hd
    · rw [Function.update_of_ne hdc] at hd
      exact h.quiet d effects hd

/-- What a step of thread `i` leaves, which has been at `u`. -/
structure Threaded (w : Uploaders Place) (i : Nat) (u : Upload) (stage : Stage)
    (file : Option Nat) (w' : Uploaders Place) : Prop where
  thread : w.uploads[i]? = some u
  uploads : w'.uploads = w.uploads.set i { u with stage := stage, file := file }
  node : ∀ d, d ≠ u.client → w'.node d = w.node d
  searching : w'.searching = w.searching
  next : w.disk.next ≤ w'.disk.next
  storing : stage.storing = true
  transferring : stage.transferring = true → u.stage.transferring = true
  unopened : stage.unopened = true → u.stage.unopened = true
  used : ∀ n, file = some n → n < w'.disk.next
  /-- The session is left alone, or its upload is over. -/
  session : ((w'.node u.client).curStatus = (w.node u.client).curStatus ∧
    (w'.node u.client).transferPath = (w.node u.client).transferPath) ∨
    (u.stage.transferring = true ∧ stage = .ended)

-- the step of one thread leaves the session of another one alone
theorem Sound.otherThread (h : w.Sound) {stage : Stage} {file : Option Nat}
    (ht : Threaded w i u stage file w') {j : Nat} (hj : j ≠ i) (hv : w.uploads[j]? = some v)
    (htransferring : v.stage.transferring = true) :
    (w'.node v.client).curStatus = (w.node v.client).curStatus ∧
      (w'.node v.client).transferPath = (w.node v.client).transferPath := by
  by_cases hclient : v.client = u.client
  · rw [hclient]
    refine ht.session.resolve_right fun hended ↦ ?_
    -- two uploads of one session
    have hnone := (h.one u.client).others ht.thread
      (by rw [hended.1, decide_eq_true rfl, Bool.and_self]) hj hv
    rw [htransferring, decide_eq_true hclient] at hnone
    cases hnone
  · rw [ht.node _ hclient]
    exact ⟨rfl, rfl⟩

theorem Sound.threaded (h : w.Sound) {stage : Stage} {file : Option Nat}
    (ht : Threaded w i u stage file w') : w'.Sound := by
  have hu : u ∈ w.uploads := List.mem_of_getElem? ht.thread
  constructor
  case storing =>
    rw [ht.uploads]
    exact forall_mem_set (fun j v _ hv ↦ h.storing v (List.mem_of_getElem? hv)) ht.storing
  case busy =>
    rw [ht.uploads]
    refine forall_mem_set (fun j v hj hv htransferring ↦ ?_) fun htransferring ↦ ?_
    · rw [(h.otherThread ht hj hv htransferring).1]
      exact h.busy v (List.mem_of_getElem? hv) htransferring
    · rcases ht.session with ⟨hstatus, -⟩ | ⟨-, hended⟩
      · rw [hstatus]
        exact h.busy u hu (ht.transferring htransferring)
      · rw [hended] at htransferring
        cases htransferring
  case path =>
    rw [ht.uploads]
    refine forall_mem_set (fun j v hj hv hunopened ↦ ?_) fun hunopened ↦ ?_
    · have hpath := (h.otherThread ht hj hv (transferring_of_unopened hunopened)).2
      exact hpath.trans (h.path v (List.mem_of_getElem? hv) hunopened)
    · rcases ht.session with ⟨-, hpath⟩ | ⟨-, hended⟩
      · exact hpath.trans (h.path u hu (ht.unopened hunopened))
      · rw [hended] at hunopened
        cases hunopened
  case one =>
    intro c
    rw [ht.uploads]
    refine (h.one c).set ht.thread fun hnew ↦ ?_
    rw [Bool.and_eq_true] at hnew ⊢
    exact ⟨hnew.1, ht.transferring hnew.2⟩
  case waiting =>
    intro c hc
    rw [ht.searching] at hc
    have hwaiting := h.waiting c hc
    by_cases hclient : c = u.client
    · rw [hclient] at hwaiting ⊢
      rcases ht.session with ⟨hstatus, -⟩ | ⟨htransferring, -⟩
      · rw [hstatus]
        exact hwaiting
      · exact absurd hwaiting (h.busy u hu htransferring)
    · rw [ht.node c hclient]
      exact hwaiting
  case quiet =>
    rw [ht.searching]
    exact h.quiet
  case used =>
    rw [ht.uploads]
    exact forall_mem_set
      (fun j v _ hv n hn ↦ Nat.lt_of_lt_of_le (h.used v (List.mem_of_getElem? hv) n hn) ht.next)
      ht.used

-- a step that opens no file
theorem Safe.closed (h : w.Safe) {stage : Stage}
    (ht : Threaded w i u stage u.file w') (hdisk : w'.disk = w.disk) : w'.Safe := by
  refine ⟨h.toSound.threaded ht, ?_, fun n ↦ ?_⟩
  · unfold Free
    rw [ht.uploads, hdisk]
    refine forall_mem_set (fun j v _ hv ↦ h.free v (List.mem_of_getElem? hv)) fun hpending ↦ ?_
    apply h.free u (List.mem_of_getElem? ht.thread)
    rw [Upload.pending, Bool.and_eq_true] at hpending ⊢
    exact ⟨hpending.1, ht.unopened hpending.2⟩
  · rw [ht.uploads]
    exact (h.distinct n).set ht.thread fun hnew ↦ hnew

theorem Safe.opensNew (h : w.Safe) {answers : Answers} (hopens : w.Opens i answers u)
    (hstou : u.stou = true) :
    w.disk.fileAt (w.pathOf u) = none := by
  have hu := List.mem_of_getElem? hopens.thread
  have hunopened := unopened_of_atOpenFile hopens.stage
  rw [h.path u hu hunopened]
  exact h.free u hu (Bool.and_eq_true_iff.mpr ⟨hstou, hunopened⟩)

theorem Safe.opensNewAt (h : w.Safe) (act : UploadAct Place) : w.OpensNew act := by
  cases act with
  | thread i answers => exact fun u hopens hstou ↦ h.opensNew hopens hstou
  | _ => trivial

theorem afterCheck_searching_of_ne {env : Env} {d : ClientRef} (hne : c ≠ d) (effects : List Effect)
    (path : WString) : (w.afterCheck d env effects path).searching c = w.searching c := by
  unfold afterCheck
  dsimp only
  split
  · exact Function.update_of_ne hne _ _
  · exact Function.update_of_ne hne _ _

end Invariants

/-! ## Steps of a thread -/

section Threads

variable [DecidableEq Place] {w : Uploaders Place} {d : Disk Place} {path p : WString} {i n : Nat}
  {u v : Upload} {answers : Answers} {r : StepResult}

theorem next_le_openWrite (d : Disk Place) (path : WString) :
    d.next ≤ (d.openWrite path).2.next := by
  unfold Disk.openWrite
  split
  · exact Nat.le_refl _
  · split
    · exact Nat.le_refl _
    · exact Nat.le_succ _

theorem openWrite_used (h : (d.openWrite path).1 = some n) : n < (d.openWrite path).2.next := by
  unfold Disk.openWrite at h ⊢
  split at h
  · cases h
  · split at h
    · rename_i hfile
      cases h
      exact d.used hfile
    · cases h
      exact Nat.lt_succ_self _

theorem openWrite_fileAt_of_ne (h : d.leads p ≠ d.leads path) :
    (d.openWrite path).2.fileAt p = d.fileAt p := by
  unfold Disk.openWrite
  split
  · rfl
  · rename_i place hplace
    split
    · rfl
    · unfold Disk.fileAt
      show (d.leads p).bind (Function.update d.file place (some d.next)) = _
      cases hp : d.leads p with
      | none => rfl
      | some q =>
        rw [hplace, hp] at h
        exact Function.update_of_ne (fun heq ↦ h (congrArg some heq)) _ _

-- where there is no file, a new one is opened
theorem openWrite_new (hleads : d.leads path ≠ none) (h : d.fileAt path = none) :
    (d.openWrite path).1 = some d.next := by
  rcases Option.ne_none_iff_exists'.mp hleads with ⟨place, hplace⟩
  unfold Disk.fileAt at h
  rw [hplace, Option.bind_some] at h
  unfold Disk.openWrite
  rw [hplace]
  dsimp only
  rw [h]

theorem afterThread_closed (h : r.2.2.findSome? ThreadEvent.openedWrite = none) :
    w.afterThread i u r = { w with
      server := w.server.setSession u.client r.1
      uploads := w.uploads.set i { u with stage := r.2.1 } } := by
  unfold afterThread
  rw [h]

theorem afterThread_opened (h : r.2.2.findSome? ThreadEvent.openedWrite = some path) :
    w.afterThread i u r = { w with
      server := w.server.setSession u.client r.1
      disk := (w.disk.openWrite path).2
      uploads := w.uploads.set i
        { u with stage := r.2.1, file := (w.disk.openWrite path).1 } } := by
  unfold afterThread
  rw [h]

theorem Safe.opened (h : w.Safe) {w' : Uploaders Place} {stage : Stage}
    (ht : Threaded w i u stage (w.disk.openWrite (w.pathOf u)).1 w')
    (hdisk : w'.disk = (w.disk.openWrite (w.pathOf u)).2) (hunopened : stage.unopened = false)
    (hopens : w.Opens i answers u) (hallows : w.Allows (.thread i answers))
    (hapart : w.Apart (.thread i answers)) : w'.Safe := by
  refine ⟨h.toSound.threaded ht, ?_, fun n ↦ ?_⟩
  · unfold Free
    rw [ht.uploads, hdisk]
    refine forall_mem_set (fun j v hj hv hpending ↦ ?_) fun hpending ↦ ?_
    · rw [openWrite_fileAt_of_ne (hapart u hopens j v hj hv hpending)]
      exact h.free v (List.mem_of_getElem? hv) hpending
    · rw [Upload.pending, hunopened, Bool.and_false] at hpending
      cases hpending
  · rw [ht.uploads]
    by_cases hn : n = w.disk.next ∧ u.stou = true
    · -- the number is new
      refine AtMostOne.set_new fun j v _ hv ↦ ?_
      rw [Bool.and_eq_false_iff, decide_eq_false_iff_not]
      refine .inr fun hfile ↦ ?_
      have hlt := h.used v (List.mem_of_getElem? hv) n hfile
      omega
    · refine (h.distinct n).set ht.thread fun hnew ↦ absurd ?_ hn
      rw [Bool.and_eq_true, decide_eq_true_iff] at hnew
      rw [openWrite_new (hallows u hopens) (h.opensNew hopens hnew.1), Option.some_inj] at hnew
      exact ⟨hnew.2.symm, hnew.1⟩

theorem Safe.thread (h : w.Safe) (hu : w.uploads[i]? = some u)
    (hstep : u.stage.step answers (w.node u.client) (w.account u.client) = .ok r)
    (hallows : w.Allows (.thread i answers)) (hapart : w.Apart (.thread i answers)) :
    (w.afterThread i u r).Safe := by
  have hmem := List.mem_of_getElem? hu
  have hnode : ∀ (s : Session) (d : ClientRef), d ≠ u.client →
      (w.server.setSession u.client s).nodes d = w.node d :=
    fun s d hd ↦ FtpServer.setSession_of_ne w.server s hd
  have hself : ∀ s : Session, ((w.server.setSession u.client s).nodes u.client).toSession = s :=
    fun s ↦ FtpServer.setSession_toSession ..
  cases store_stepped (h.storing u hmem) hstep with
  | @goesOn s next fx hpath hstatus hstoring hunopened htransferring hclosed =>
    rw [afterThread_closed hclosed]
    refine h.closed ⟨hu, rfl, hnode s, rfl, Nat.le_refl _, hstoring, htransferring, hunopened,
      h.used u hmem, .inl ⟨?_, ?_⟩⟩ rfl
    · exact (congrArg Session.curStatus (hself s)).trans hstatus
    · exact (congrArg Session.transferPath (hself s)).trans hpath
  | @opens next fx hopenFile hopened hstoring hunopened hevent =>
    rw [afterThread_opened hevent]
    have hopens : w.Opens i answers u := ⟨hu, hopenFile, hopened⟩
    have htransferring := transferring_of_unopened (unopened_of_atOpenFile hopenFile)
    refine h.opened ⟨hu, rfl, hnode _, rfl, next_le_openWrite .., hstoring, fun _ ↦ htransferring,
      fun hnext ↦ ?_, fun n hn ↦ openWrite_used hn, .inl ⟨?_, ?_⟩⟩ rfl hunopened hopens hallows
      hapart
    · rw [hunopened] at hnext
      cases hnext
    · exact congrArg Session.curStatus (hself _)
    · exact congrArg Session.transferPath (hself _)
  | @ends s fx htransferring hclosed =>
    rw [afterThread_closed hclosed]
    exact h.closed ⟨hu, rfl, hnode s, rfl, Nat.le_refl _, rfl, nofun, nofun, h.used u hmem,
      .inr ⟨htransferring, rfl⟩⟩ rfl

end Threads

/-! ## Runs -/

section Runs

variable [DecidableEq Place] {rand : Nat → Nat} {build : Build} {w w' start : Uploaders Place}
  {act : UploadAct Place} {c : ClientRef} {env : Env}
  {trace : List (Uploaders Place × UploadAct Place)}

theorem eq_ok_of_liftFault {α : Type} {x : Except Fault α} {a : α} (h : liftFault x = .ok a) :
    x = .ok a := by
  cases x with
  | error fault => cases h
  | ok b =>
    cases h
    rfl

theorem Safe.stou (h : w.Safe) (hsearching : w.searching c = none)
    (hexec : w.exec rand build (.stou c env) = .ok w') : w'.Safe := by
  rw [exec] at hexec
  cases hbegin : (w.node c).beginStou env w.server.sslContext (w.account c) with
  | error fault =>
    rw [hbegin] at hexec
    cases hexec
  | ok begun =>
    rw [hbegin] at hexec
    cases begun with
    | inl o =>
      cases hexec
      rcases beginStou_leavesUpload hbegin with ⟨hleaves, hstarted⟩
      refine h.afterAnswer hsearching (fun d hd ↦ conclude_nodes_of_ne env w.server o hd) hleaves
        true fun _ u hu ↦ ?_
      rw [hstarted] at hu
      cases hu
    | inr r =>
      rcases r with ⟨t, effects⟩
      cases hexec
      rcases beginStou_searches hbegin with ⟨hbefore, hafter, hjobs⟩
      let b : Answer := { server := w.server.setSession c t }
      have hopened : ({ w with server := b.server } : Uploaders Place).Safe := by
        have hstarted : ∀ stou, startedUploads c stou b = [] := startedUploads_of_nil rfl
        have hsafe := h.afterAnswer hsearching
          (fun d hd ↦ FtpServer.setSession_of_ne w.server t hd) (.waiting hbefore hstarted) true
          fun _ u hu ↦ by rw [hstarted] at hu; cases hu
        rw [Uploaders.afterAnswer, hstarted, List.append_nil] at hsafe
        exact hsafe
      have hstatus : (b.server.nodes c).curStatus = .waiting :=
        (congrArg Session.curStatus (FtpServer.setSession_toSession ..)).trans hafter
      exact hopened.updateSearching hstatus w.drawn fun fx hfx ↦ by cases hfx; exact hjobs

theorem Safe.check (h : w.Safe) (hallows : w.Allows (.check c env))
    (hexec : w.exec rand build (.check c env) = .ok w') : w'.Safe := by
  rw [exec] at hexec
  cases hsearching : w.searching c with
  | none =>
    rw [hsearching] at hexec
    cases hexec
    exact h
  | some effects =>
    rw [hsearching] at hexec
    rcases eq_ok_of_map hexec with ⟨user, -, rfl⟩
    have hwaiting : (w.node c).curStatus = .waiting :=
      h.waiting c (by rw [hsearching]; exact Option.some_ne_none effects)
    generalize (w.node c).uniqueName env user (rand w.drawn) = path
    have hquiet : (effects ++ [Effect.status path]).filterMap jobOf = [] := by
      rw [List.filterMap_append, h.quiet c effects hsearching]
      rfl
    cases htaken : (env.getFileStatus path).isSome with
    | true =>
      rw [afterCheck_taken htaken]
      exact h.updateSearching hwaiting _ fun fx hfx ↦ by cases hfx; exact hquiet
    | false =>
      rw [afterCheck_free htaken]
      have hleft : ({ w with
          drawn := w.drawn + 1
          searching := Function.update w.searching c none } : Uploaders Place).Safe :=
        h.updateSearching hwaiting _ fun fx hfx ↦ by cases hfx
      rcases endStou_leavesUpload hwaiting hquiet with ⟨hleaves, hpath⟩
      refine hleft.afterAnswer (Function.update_self ..)
        (fun d hd ↦ conclude_nodes_of_ne env w.server _ hd) hleaves true fun _ u hu ↦ ?_
      rw [hpath true u hu]
      rw [hallows path, Option.isSome_eq_false_iff, Option.isNone_iff_eq_none] at htaken
      exact htaken

theorem Safe.step (h : w.Safe) (hapart : w.Apart act) (hstep : Steps rand build w act w') :
    w'.Safe := by
  rcases hstep with ⟨hallows, hexec⟩
  cases act with
  | command c cmd env =>
    rcases eq_ok_of_map hexec with ⟨a, ha, rfl⟩
    have ha := eq_ok_of_liftFault ha
    exact h.afterAnswer hallows.1 (FtpServer.runSwitch_frame ha).nodes
      (runSwitch_leavesUpload hallows.2 ha) false nofun
  | stou c env => exact h.stou hallows hexec
  | check c env => exact h.check hallows hexec
  | thread i answers =>
    rw [exec] at hexec
    cases hu : w.uploads[i]? with
    | none =>
      rw [hu] at hexec
      cases hexec
      exact h
    | some u =>
      rw [hu] at hexec
      rcases eq_ok_of_map hexec with ⟨r, hr, rfl⟩
      exact h.thread hu hr hallows hapart
  | elsewhere disk =>
    cases hexec
    refine ⟨{ h with used := fun u hu n hn ↦ ?_ }, hapart, h.distinct⟩
    exact Nat.lt_of_lt_of_le (h.used u hu n hn) hallows

/-! ## The search -/

/-- The loop of STOU has ended, at the end of the run or before. -/
def SearchEnds (c : ClientRef) (trace : List (Uploaders Place × UploadAct Place))
    (w : Uploaders Place) : Prop :=
  w.searching c = none ∨ ∃ p ∈ trace, p.1.searching c = none

theorem afterThread_searching (i : Nat) (u : Upload) (r : StepResult) :
    (w.afterThread i u r).searching = w.searching := by
  rfl

theorem check_searching (hallows : w.Allows (.check c env)) (hsearching : w.searching c ≠ none)
    (hexec : w.exec rand build (.check c env) = .ok w') :
    w'.searching c = none ↔ w.FindsName rand c (.check c env) := by
  rcases Option.ne_none_iff_exists'.mp hsearching with ⟨effects, hsome⟩
  rw [exec, hsome] at hexec
  rcases eq_ok_of_map hexec with ⟨user, huser, rfl⟩
  have huser := Session.deref_ok (eq_ok_of_liftFault huser)
  have hfinds : w.FindsName rand c (.check c env) ↔
      w.disk.fileAt ((w.node c).uniqueName env user (rand w.drawn)) = none := by
    constructor
    · rintro ⟨-, user', huser', hfree⟩
      cases huser.symm.trans huser'
      exact hfree
    · exact fun hfree ↦ ⟨rfl, user, huser, hfree⟩
  rw [hfinds]
  generalize (w.node c).uniqueName env user (rand w.drawn) = path
  have hpath := hallows path
  cases htaken : (env.getFileStatus path).isSome with
  | true =>
    rw [htaken] at hpath
    rw [afterCheck_taken htaken]
    apply iff_of_false
    · show Function.update w.searching c _ c ≠ none
      rw [Function.update_self]
      exact Option.some_ne_none _
    · exact Option.isSome_iff_ne_none.mp hpath.symm
  | false =>
    rw [htaken] at hpath
    rw [afterCheck_free htaken]
    apply iff_of_true
    · exact Function.update_self ..
    · exact Option.isNone_iff_eq_none.mp (Option.isSome_eq_false_iff.mp hpath.symm)

-- a step ends the loop of a session if and only if it finds a name for it
theorem step_searching (hstep : Steps rand build w act w') (hsearching : w.searching c ≠ none) :
    w'.searching c = none ↔ w.FindsName rand c act := by
  rcases hstep with ⟨hallows, hexec⟩
  have hsame : w'.searching c = w.searching c → ¬w.FindsName rand c act →
      (w'.searching c = none ↔ w.FindsName rand c act) := by
    intro hsame hno
    rw [hsame]
    exact iff_of_false hsearching hno
  cases act with
  | command d cmd env =>
    rcases eq_ok_of_map hexec with ⟨a, -, rfl⟩
    exact hsame rfl id
  | stou d env =>
    have hne : c ≠ d := fun heq ↦ hsearching (heq ▸ hallows)
    rcases eq_ok_of_map hexec with ⟨begun, -, rfl⟩
    cases begun with
    | inl o => exact hsame rfl id
    | inr r => exact hsame (Function.update_of_ne hne _ _) id
  | check d env =>
    by_cases hd : d = c
    · cases hd
      exact check_searching hallows hsearching hexec
    · refine hsame ?_ fun hfinds ↦ hd hfinds.1
      rw [exec] at hexec
      cases heffects : w.searching d with
      | none =>
        rw [heffects] at hexec
        cases hexec
        rfl
      | some effects =>
        rw [heffects] at hexec
        rcases eq_ok_of_map hexec with ⟨user, -, rfl⟩
        exact afterCheck_searching_of_ne (Ne.symm hd) _ _
  | thread i answers =>
    refine hsame ?_ id
    rw [exec] at hexec
    cases hu : w.uploads[i]? with
    | none =>
      rw [hu] at hexec
      cases hexec
      rfl
    | some u =>
      rw [hu] at hexec
      rcases eq_ok_of_map hexec with ⟨r, -, rfl⟩
      rw [afterThread_searching]
  | elsewhere disk =>
    cases hexec
    exact hsame rfl id

theorem searchEnds_iff (run : UploadRun rand build start trace w)
    (hsearching : start.searching c ≠ none) :
    SearchEnds c trace w ↔ ∃ p ∈ trace, p.1.FindsName rand c p.2 := by
  induction run with
  | refl =>
    apply iff_of_false
    · rintro (hended | ⟨p, hp, -⟩)
      · exact hsearching hended
      · cases hp
    · rintro ⟨p, hp, -⟩
      cases hp
  | @snoc trace s l t before last ih =>
    by_cases hended : SearchEnds c trace s
    · -- it has ended before the last step
      apply iff_of_true
      · rcases hended with hended | ⟨p, hp, hended⟩
        · exact .inr ⟨_, List.mem_cons_self, hended⟩
        · exact .inr ⟨p, List.mem_cons_of_mem _ hp, hended⟩
      · rcases ih.mp hended with ⟨p, hp, hfinds⟩
        exact ⟨p, List.mem_cons_of_mem _ hp, hfinds⟩
    · have hnot := mt ih.mpr hended
      have hbefore : s.searching c ≠ none := fun hnone ↦ hended (.inl hnone)
      constructor
      · rintro (hnone | ⟨p, hp, hnone⟩)
        · exact ⟨_, List.mem_cons_self, (step_searching last hbefore).mp hnone⟩
        · rcases List.mem_cons.mp hp with rfl | hp
          · exact absurd hnone hbefore
          · exact absurd (.inr ⟨p, hp, hnone⟩) hended
      · rintro ⟨p, hp, hfinds⟩
        rcases List.mem_cons.mp hp with rfl | hp
        · exact .inl ((step_searching last hbefore).mpr hfinds)
        · exact absurd ⟨p, hp, hfinds⟩ hnot

theorem safe_of_run (run : UploadRun rand build start trace w) (hstart : start.Begins)
    (hapart : ∀ p ∈ trace, p.1.Apart p.2) : w.Safe :=
  run.invariant_of_steps hstart.safe (fun h hapart hstep ↦ h.step hapart hstep) hapart

theorem stou_untouched (run : UploadRun rand build start trace w) (hstart : start.Begins) :
    ((∀ p ∈ trace, p.1.Apart p.2) → (∀ p ∈ trace, p.1.OpensNew p.2) ∧ w.Distinct) ∧
    ∀ c later w', UploadRun rand build w later w' → w.searching c ≠ none →
      (SearchEnds c later w' ↔ ∃ p ∈ later, p.1.FindsName rand c p.2) := by
  refine ⟨fun hapart ↦ ⟨fun p hp ↦ ?_, (safe_of_run run hstart hapart).distinct⟩,
    fun c later w' hlater hsearching ↦ searchEnds_iff hlater hsearching⟩
  rcases run.reaches_recorded hp with ⟨older, hrun, holder⟩
  have hsafe := safe_of_run hrun hstart fun q hq ↦ hapart q (holder q hq)
  exact hsafe.opensNewAt p.2

end Runs

end Uploaders

namespace Sample

/-- Two sessions of one user, ready for a transfer, and an empty disk on which every path leads to a
place of its own. -/
def uploaders : Uploaders WString where
  server := { server with
    nodes := fun _ ↦ { ctrlSocket := 0, user := some 1, isLogged := true, curDataMode := .port } }
  disk := { leads := some, file := fun _ ↦ none, next := 0, used := nofun }

/-- What the system answers about a disk. -/
def envOf (d : Disk WString) : Env :=
  { env with getFileStatus := fun path ↦ (d.fileAt path).map fun _ ↦ ⟨.regularFile, 0⟩ }

/-- The state after a step; `rand()` gives 5 whenever it is called. -/
def next (w : Uploaders WString) (act : UploadAct WString) : Uploaders WString :=
  (w.exec (fun _ ↦ 5) {} act).toOption.getD w

theorem steps_next {w : Uploaders WString} {act : UploadAct WString} (hallows : w.Allows act)
    (h : (w.exec (fun _ ↦ 5) {} act).toOption.isSome = true) :
    Uploaders.Steps (fun _ ↦ 5) {} w act (next w act) := by
  refine ⟨hallows, ?_⟩
  unfold next
  cases hexec : w.exec (fun _ ↦ 5) {} act with
  | error fault =>
    rw [hexec] at h
    cases h
  | ok w' => rfl

theorem envOf_allows (w : Uploaders WString) (c : ClientRef) : w.Allows (.check c (envOf w.disk)) :=
  fun _ ↦ Option.isSome_map

/-- One statement of the thread `i`. -/
def statement (i : Nat) : UploadAct WString := .thread i { env := env }

/-- The first session has chosen its name. -/
def chosen : Uploaders WString :=
  next (next uploaders (.stou 0 (envOf uploaders.disk))) (.check 0 (envOf uploaders.disk))

theorem run_chosen : ∃ trace, UploadRun (fun _ ↦ 5) {} uploaders trace chosen ∧
    ∀ p ∈ trace, p.1.Apart p.2 := by
  have hstou : Uploaders.Steps (fun _ ↦ 5) {} uploaders (.stou 0 (envOf uploaders.disk)) _ :=
    steps_next rfl (by decide +kernel)
  have hcheck : Uploaders.Steps (fun _ ↦ 5) {} _ (.check 0 (envOf uploaders.disk)) chosen :=
    steps_next (envOf_allows _ 0) (by decide +kernel)
  refine ⟨_, (Theory.Run.refl.snoc hstou).snoc hcheck, fun p hp ↦ ?_⟩
  rcases List.mem_cons.mp hp with rfl | hp
  · trivial
  · cases List.mem_singleton.mp hp
    trivial

theorem steps_statement {w : Uploaders WString} (i : Nat)
    (hleads : (w.uploads[i]?).all (fun u ↦ (w.disk.leads (w.pathOf u)).isSome) = true)
    (hexec : (w.exec (fun _ ↦ 5) {} (statement i)).toOption.isSome = true) :
    Uploaders.Steps (fun _ ↦ 5) {} w (statement i) (next w (statement i)) := by
  refine steps_next (fun u hopens ↦ ?_) hexec
  rw [hopens.thread] at hleads
  exact Option.isSome_iff_ne_none.mp hleads

/-- It has opened its file. -/
def opened : Uploaders WString := next (next chosen (statement 0)) (statement 0)

/-- Both sessions have chosen the same name. -/
def bothChosen : Uploaders WString :=
  next (next chosen (.stou 1 (envOf chosen.disk))) (.check 1 (envOf chosen.disk))

/-- The first one has opened its file, and the second one is about to. -/
def oneOpened : Uploaders WString :=
  next (next (next bothChosen (statement 0)) (statement 0)) (statement 1)

theorem run_oneOpened : ∃ trace, UploadRun (fun _ ↦ 5) {} uploaders trace oneOpened := by
  rcases run_chosen with ⟨trace, run, -⟩
  have hstou : Uploaders.Steps (fun _ ↦ 5) {} chosen (.stou 1 (envOf chosen.disk)) _ :=
    steps_next (by show chosen.searching 1 = none; decide +kernel) (by decide +kernel)
  have hcheck : Uploaders.Steps (fun _ ↦ 5) {} _ (.check 1 (envOf chosen.disk)) bothChosen :=
    steps_next (envOf_allows _ 1) (by decide +kernel)
  have hmode := steps_statement (w := bothChosen) 0 (by decide +kernel) (by decide +kernel)
  have hopen := steps_statement (w := next bothChosen (statement 0)) 0 (by decide +kernel)
    (by decide +kernel)
  have hother : Uploaders.Steps (fun _ ↦ 5) {} _ (statement 1) oneOpened :=
    steps_statement 1 (by decide +kernel) (by decide +kernel)
  exact ⟨_, ((((run.snoc hstou).snoc hcheck).snoc hmode).snoc hopen).snoc hother⟩

end Sample

-- one session alone
theorem stou_untouched_alone : ∃ trace,
    UploadRun (fun _ ↦ 5) {} Sample.uploaders trace Sample.opened ∧
    (∀ p ∈ trace, p.1.OpensNew p.2) ∧ Sample.opened.Distinct := by
  rcases Sample.run_chosen with ⟨trace, run, hapart⟩
  have hmode : Uploaders.Steps (fun _ ↦ 5) {} Sample.chosen (Sample.statement 0) _ :=
    Sample.steps_statement 0 (by decide +kernel) (by decide +kernel)
  have hopen : Uploaders.Steps (fun _ ↦ 5) {} _ (Sample.statement 0) Sample.opened :=
    Sample.steps_statement 0 (by decide +kernel) (by decide +kernel)
  have run := (run.snoc hmode).snoc hopen
  have hbegins : Sample.uploaders.Begins := ⟨fun _ ↦ rfl, rfl⟩
  have halone : ∀ w : Uploaders WString, w.uploads.length = 1 → w.Apart (Sample.statement 0) := by
    intro w hlength u _ j v hj hv
    have hlt := (List.getElem?_eq_some_iff.mp hv).1
    omega
  refine ⟨_, run, (Uploaders.stou_untouched run hbegins).1 fun p hp ↦ ?_⟩
  rcases List.mem_cons.mp hp with rfl | hp
  · exact halone _ (by decide +kernel)
  · rcases List.mem_cons.mp hp with rfl | hp
    · exact halone _ (by decide +kernel)
    · exact hapart p hp

/-- Two sessions choose the same name, and the second one opens the file of the first. -/
theorem stou_untouched_fails : ∃ trace w, UploadRun (fun _ ↦ 5) {} Sample.uploaders trace w ∧
    Sample.uploaders.Begins ∧ (∃ p ∈ trace, ¬p.1.OpensNew p.2) ∧ ¬w.Distinct := by
  rcases Sample.run_oneOpened with ⟨trace, run⟩
  have hopen := Sample.steps_statement (w := Sample.oneOpened) 1 (by decide +kernel)
    (by decide +kernel)
  have hnew : ¬Sample.oneOpened.OpensNew (Sample.statement 1) := by
    intro hnew
    have htaken : (Sample.oneOpened.uploads[1]?).any (fun u ↦ u.stou && u.stage.atOpenFile &&
        (Sample.oneOpened.disk.fileAt (Sample.oneOpened.pathOf u)).isSome) = true := by
      decide +kernel
    rw [Option.any_eq_true] at htaken
    rcases htaken with ⟨u, hu, h⟩
    rw [Bool.and_eq_true, Bool.and_eq_true] at h
    rw [hnew u ⟨hu, h.1.2, Option.some_ne_none _⟩ h.1.1] at h
    cases h.2
  refine ⟨_, _, run.snoc hopen, ⟨fun _ ↦ rfl, rfl⟩, ⟨_, List.mem_cons_self, hnew⟩, ?_⟩
  -- both have opened the first file
  have hboth : (Sample.next Sample.oneOpened (Sample.statement 1)).uploads.map
      (fun u ↦ (u.stou, u.file)) = [(true, some 0), (true, some 0)] := by
    decide +kernel
  intro hdistinct
  have hdistinct := hdistinct 0
  rcases List.map_eq_cons_iff.mp hboth with ⟨u, l, hl, hu, hrest⟩
  rcases List.map_eq_singleton_iff.mp hrest with ⟨v, rfl, hv⟩
  rw [hl] at hdistinct
  rw [Prod.mk.injEq] at hu hv
  have hsame := hdistinct 0 1 u v rfl rfl
    (Bool.and_eq_true_iff.mpr ⟨hu.1, decide_eq_true hu.2⟩)
    (Bool.and_eq_true_iff.mpr ⟨hv.1, decide_eq_true hv.2⟩)
  cases hsame

end YFtp
