import YFtp.ThreadRecords

/-!
# Uploads

What STOR, APPE and STOU leave in a file in a whole conversation.
-/

namespace YFtp

open Theory

/-- What `store_thread` keeps of the file that it finds. -/
def keptOf (due : Int) (old : List UInt8) : List UInt8 := if 0 < due then old else []

/-- After `close` the file holds what was kept of it, and behind that an initial part of the bytes
that were received: all of them, if the buffer was written out completely. -/
def Leaves (due : Int) (log : List ThreadEvent) (final : List UInt8) (complete : Bool) : Prop :=
  ∃ path old kept, .openWrite path (decide (0 < due)) (some old) ∈ log ∧
    kept <+: receivedBytes log ∧ final = keptOf due old ++ kept ∧
    (complete = true → kept = receivedBytes log)

/-- A stream on the file that was found, without a `close` yet. -/
structure Filling (due : Int) (log : List ThreadEvent) (received : List UInt8)
    (ofs : OutStream UInt8) : Prop where
  opened : ∃ path old, .openWrite path (decide (0 < due)) (some old) ∈ log ∧
    ofs.Appends (keptOf due old) received
  unclosed : ∀ final complete, .closed final complete ∉ log

/-- What holds of the record at each stage of `store_thread`. -/
def Stores (due : Int) (log : List ThreadEvent) : Stage → Prop
  | .store .mode => log = []
  | .store (.openFile app) => log = [] ∧ app = decide (0 < due)
  | .store (.seek app ofs) => app = decide (0 < due) ∧ Filling due log (receivedBytes log) ofs
  | .store (.receive ofs) | .store (.close ofs _) => Filling due log (receivedBytes log) ofs
  | .store (.write ofs block) => ∃ received, receivedBytes log = received ++ block.bytes ∧
    Filling due log received ofs
  | .shutDown _ _ | .closeSocket _ _ | .finish _ _ | .ended =>
    ∀ final complete, .closed final complete ∈ log → Leaves due log final complete
  | _ => False

section Store

variable {due : Int} {received : List UInt8} {ofs : OutStream UInt8} {log fx : List ThreadEvent}
  {p q : Progress} {v : View}

theorem Filling.append (h : Filling due log received ofs)
    (hfx : ∀ final complete, .closed final complete ∉ fx) :
    Filling due (log ++ fx) received ofs := by
  rcases h with ⟨⟨path, old, hopened, happends⟩, hunclosed⟩
  refine ⟨⟨path, old, List.mem_append_left _ hopened, happends⟩, ?_⟩
  intro final complete hclosed
  rcases List.mem_append.mp hclosed with hclosed | hclosed
  · exact hunclosed final complete hclosed
  · exact hfx final complete hclosed

theorem Filling.mono {received' : List UInt8} {ofs' : OutStream UInt8}
    (h : Filling due log received ofs)
    (himp : ∀ {base}, ofs.Appends base received → ofs'.Appends base received') :
    Filling due log received' ofs' := by
  rcases h with ⟨⟨path, old, hopened, happends⟩, hunclosed⟩
  exact ⟨⟨path, old, hopened, himp happends⟩, hunclosed⟩

-- what comes after `close` adds nothing to the file
theorem leaves_ends
    (h : ∀ final complete, .closed final complete ∈ log → Leaves due log final complete)
    (hreceived : receivedBytes (log ++ fx) = receivedBytes log)
    (hfx : ∀ final complete, .closed final complete ∉ fx) :
    ∀ final complete, .closed final complete ∈ log ++ fx →
      Leaves due (log ++ fx) final complete := by
  intro final complete hclosed
  rcases List.mem_append.mp hclosed with hclosed | hclosed
  · rcases h final complete hclosed with ⟨path, old, kept, hopened, hkept, hfinal, hall⟩
    unfold Leaves
    rw [hreceived]
    exact ⟨path, old, kept, List.mem_append_left _ hopened, hkept, hfinal, hall⟩
  · exact absurd hclosed (hfx final complete)

theorem openFile_stores {app : Bool} (happ : app = decide (0 < due)) {r : StepResult}
    (h : (StoreStage.openFile app).step v.answers v.node.toSession = .ok r) :
    Stores due r.2.2 r.2.1 := by
  rw [StoreStage.step] at h
  split at h <;> cases h
  · intro final complete hclosed
    simp at hclosed
  · rename_i old hopened
    have hbase : (if app then old else []) = keptOf due old := by
      unfold keptOf
      rw [happ]
      simp only [decide_eq_true_eq]
    refine ⟨happ, ⟨v.node.transferPath, old, ?_, ?_⟩, by simp⟩
    · rw [happ]
      exact List.mem_singleton_self _
    · rw [hbase]
      exact ⟨rfl, List.prefix_rfl, rfl⟩

theorem seek_stores {app : Bool} (happ : app = decide (0 < due))
    (hfilling : Filling due log (receivedBytes log) ofs) (hoffset : v.node.restartAt = due)
    {r : StepResult} (h : (StoreStage.seek app ofs).step v.answers v.node.toSession = .ok r) :
    Stores due (log ++ r.2.2) r.2.1 := by
  rw [StoreStage.step, hoffset] at h
  split at h
  · rename_i hpos
    cases h
    rw [happ, decide_eq_true hpos, if_pos rfl]
    have hfilling' : Filling due (log ++ [.seek due v.answers.seek]) (receivedBytes log)
        (ofs.seek 0 v.answers.seek) :=
      (hfilling.append (by simp)).mono fun happends ↦ happends.seek v.answers.seek
    have hreceived : receivedBytes (log ++ [.seek due v.answers.seek]) = receivedBytes log := by
      simp [ThreadEvent.receivedBytes, receivedBytes]
    dsimp only
    split
    · show Filling _ _ (receivedBytes _) _
      rw [hreceived]
      exact hfilling'
    · show Filling _ _ (receivedBytes _) _
      rw [hreceived]
      exact hfilling'
  · cases h
    rw [List.append_nil]
    exact hfilling

theorem receive_stores (hfilling : Filling due log (receivedBytes log) ofs) {r : StepResult}
    (h : (StoreStage.receive ofs).step v.answers v.node.toSession = .ok r) :
    Stores due (log ++ r.2.2) r.2.1 := by
  rw [StoreStage.step] at h
  rcases eq_ok_of_liftFault_bind h with ⟨-, -, h⟩
  split at h <;> cases h
  · exact ⟨receivedBytes log, by simp [receivedBytes, ThreadEvent.receivedBytes],
      hfilling.append (by simp)⟩
  · have hreceived : receivedBytes (log ++ [.peerEnded]) = receivedBytes log := by
      simp [receivedBytes, ThreadEvent.receivedBytes]
    show Filling _ _ (receivedBytes _) _
    rw [hreceived]
    exact hfilling.append (by simp)
  · have hreceived : receivedBytes (log ++ [.receiveFailed]) = receivedBytes log := by
      simp [receivedBytes, ThreadEvent.receivedBytes]
    show Filling _ _ (receivedBytes _) _
    rw [hreceived]
    exact hfilling.append (by simp)

theorem write_stores {block : Block} (hreceived : receivedBytes log = received ++ block.bytes)
    (hfilling : Filling due log received ofs) {r : StepResult}
    (h : (StoreStage.write ofs block).step v.answers v.node.toSession = .ok r) :
    Stores due (log ++ r.2.2) r.2.1 := by
  cases h
  have hsame : receivedBytes (log ++ [.written v.answers.written]) = received ++ block.bytes := by
    rw [← hreceived]
    simp [receivedBytes, ThreadEvent.receivedBytes]
  have hfilling' : Filling due (log ++ [.written v.answers.written])
      (receivedBytes (log ++ [.written v.answers.written]))
      (ofs.write block.bytes v.answers.flushed v.answers.written) := by
    rw [hsame]
    exact (hfilling.append (by simp)).mono fun happends ↦ happends.write _ _ _
  dsimp only
  split
  · exact hfilling'
  · exact hfilling'

theorem close_stores {len : Int} (hfilling : Filling due log (receivedBytes log) ofs)
    {r : StepResult} (h : (StoreStage.close ofs len).step v.answers v.node.toSession = .ok r) :
    Stores due (log ++ r.2.2) r.2.1 := by
  cases h
  rcases hfilling with ⟨⟨path, old, hopened, happends⟩, hunclosed⟩
  intro final complete hclosed
  rcases List.mem_append.mp hclosed with hclosed | hclosed
  · exact absurd hclosed (hunclosed final complete)
  · have hlast := List.mem_singleton.mp hclosed
    rw [ThreadEvent.closed.injEq] at hlast
    rcases hlast with ⟨rfl, rfl⟩
    rcases happends.close v.answers.flushed with ⟨kept, hkept, hfinal, hall⟩
    unfold Leaves
    rw [receivedBytes_append]
    show ∃ path old kept, _ ∧ kept <+: receivedBytes log ++ [] ∧ _ ∧
      (_ → kept = receivedBytes log ++ [])
    rw [List.append_nil]
    exact ⟨path, old, kept, List.mem_append_left _ hopened, hkept, hfinal, hall⟩

theorem advances_stores (hp : Stores due p.log p.stage)
    (hoffset : p.stage.readsOffset = true → v.node.restartAt = due) (h : Advances p v q) :
    Stores due q.log q.stage := by
  rcases p with ⟨stage, log⟩
  rcases q with ⟨next, newer⟩
  rcases h with ⟨s, fx, h, hlog⟩
  dsimp only at hp hoffset h hlog ⊢
  subst hlog
  cases stage with
  | list cmd stage => cases hp
  | retrieve stage => cases hp
  | store stage =>
    cases stage with
    | mode =>
      have hstart : log = [] := hp
      cases h
      rw [hstart, hoffset rfl]
      exact ⟨rfl, rfl⟩
    | openFile app =>
      rcases hp with ⟨rfl, happ⟩
      exact openFile_stores happ h
    | seek app ofs => exact seek_stores hp.1 hp.2 (hoffset rfl) h
    | receive ofs => exact receive_stores hp h
    | write ofs block =>
      rcases hp with ⟨received, hreceived, hfilling⟩
      exact write_stores hreceived hfilling h
    | close ofs len => exact close_stores hp h
  | shutDown job complete | closeSocket job complete =>
    rcases eq_ok_of_liftFault_bind h with ⟨t, -, h⟩
    cases h
    rw [List.append_nil]
    exact hp
  | finish job complete =>
    rw [Stage.step] at h
    split at h <;> cases h
    · exact leaves_ends hp (by simp [receivedBytes, ThreadEvent.receivedBytes]) (by simp)
    · exact leaves_ends hp (by simp [receivedBytes, ThreadEvent.receivedBytes]) (by simp)
  | ended =>
    cases h
    rw [List.append_nil]
    exact hp

theorem closed_of_stores {stage : Stage} (h : Stores due log stage) {final : List UInt8}
    {complete : Bool} (hclosed : .closed final complete ∈ log) : Leaves due log final complete := by
  cases stage with
  | list cmd stage => cases h
  | retrieve stage => cases h
  | store stage =>
    cases stage with
    | mode =>
      have hnone : log = [] := h
      rw [hnone] at hclosed
      cases hclosed
    | openFile app =>
      rw [h.1] at hclosed
      cases hclosed
    | seek app ofs => exact absurd hclosed (h.2.unclosed final complete)
    | receive ofs => exact absurd hclosed (Filling.unclosed h final complete)
    | close ofs len => exact absurd hclosed (Filling.unclosed h final complete)
    | write ofs block =>
      rcases h with ⟨received, -, hfilling⟩
      exact absurd hclosed (hfilling.unclosed final complete)
  | shutDown job complete | closeSocket job complete | finish job complete | ended =>
    exact h _ _ hclosed

end Store

/-! ## Conversations -/

/-- An upload with an offset, in a conversation whose offsets are used: its record. -/
inductive UploadFrom : Int → List ThreadEvent → Prop
  | intro {build c start w trace i t final complete} (begins : start.Begins c)
      (run : TalkRun build c start trace w) (used : ∀ p ∈ trace, Talk.OffsetUsed c p.1 p.2)
      (thread : w.threads[i]? = some t)
      (closed : .closed final complete ∈ Talk.recordOf c i trace) :
      UploadFrom t.due (Talk.recordOf c i trace)

section Conversations

variable {due : Int} {log : List ThreadEvent} {final : List UInt8} {complete : Bool}

theorem UploadFrom.stores (h : UploadFrom due log) : ∃ stage, Stores due log stage := by
  cases h with
  | intro begins run used thread closed =>
    rename_i build c start w trace i t _ _
    rcases Talk.ranAlone begins run used thread with ⟨job, steps, alone, hoffset⟩
    have hjob : .store = job := records_of_run alone _ closed .store rfl
    subst hjob
    refine ⟨t.stage, alone.invariant_of_steps (P := fun p ↦ Stores t.due p.log p.stage)
      (C := fun p v ↦ p.stage.readsOffset = true → v.node.restartAt = t.due) ?_ ?_ hoffset⟩
    · exact rfl
    · exact fun hp hoffset h ↦ advances_stores hp hoffset h

end Conversations

namespace Sample

/-- The client sends a block for a file that is there, and says something else meanwhile. -/
def append (offset : String) (old : List UInt8) (block : Block) (flushed : Nat) : List Act :=
  login ++ [say .PASV "", say .REST offset, say .STOR "notes"] ++
    List.replicate 3 (.thread 0 { env, opened := some old }) ++
    [.thread 0 { env, received := .data block }, say .NOOP "", .thread 0 { env }, .thread 0 { env },
      .thread 0 { env, flushed }] ++ List.replicate 3 (.thread 0 { env })

def appendLog (app : Bool) (old : List UInt8) (offset : List ThreadEvent) (block : Block)
    (final : List UInt8) (complete : Bool) : List ThreadEvent :=
  .openWrite "/srv/bob//notes" app (some old) :: offset ++
    [.received block.bytes, .written true, .peerEnded, .closed final complete, .finalBlock true,
      .reply (.create 226 "Transfer complete.")]

/-- The thread has left this record, and every offset was used. -/
def appended (due : Int) (log : List ThreadEvent) (trace : List (Talk × Act)) (w : Talk) : Bool :=
  recorded log trace && (w.threads[0]?).any fun t ↦ decide (t.due = due)

theorem upload_of_appended (acts : List Act) (final : List UInt8) (complete : Bool) {due : Int}
    {log : List ThreadEvent}
    (h : (talk.traceOf {} 0 [] acts).any (fun x ↦ appended due log x.1 x.2) = true)
    (hclosed : .closed final complete ∈ log) : UploadFrom due log := by
  rcases Talk.exists_run_recorded acts (appended due log) h with ⟨trace, w, run, happended⟩
  rw [appended, Bool.and_eq_true, Option.any_eq_true] at happended
  rcases happended with ⟨hrecorded, t, ht, hdue⟩
  rcases of_recorded hrecorded with ⟨hused, rfl⟩
  rw [← of_decide_eq_true hdue]
  exact .intro talk_begins run hused ht hclosed

/-- The last byte of a file. -/
def lastByte : Block := ⟨[3], by decide, by decide⟩

theorem upload_start : UploadFrom 0 (appendLog false [] [] block [1, 2] false) :=
  upload_of_appended (append "0" [] block 2) [1, 2] false (by decide +kernel) (by simp [appendLog])

theorem upload_rest : UploadFrom 2 (appendLog true [1, 2] [.seek 2 true] lastByte [1, 2, 3] true) :=
  upload_of_appended (append "2" [1, 2] lastByte 1) [1, 2, 3] true (by decide +kernel)
    (by simp [appendLog])

end Sample

/-- What a file has become after some attempts to upload the source: each goes on at the end of the
file, and sends the source from there on, as far as it gets. -/
inductive Appended (source : List UInt8) : List UInt8 → Prop
  | start : Appended source []
  | attempt {content log final complete} (before : Appended source content)
      (upload : UploadFrom content.length log)
      (found : ∀ path app old, .openWrite path app (some old) ∈ log → old = content)
      (sent : receivedBytes log <+: source.drop content.length)
      (closed : .closed final complete ∈ log) : Appended source final

section Attempts

variable {source content : List UInt8}

theorem keptOf_length (content : List UInt8) : keptOf content.length content = content := by
  unfold keptOf
  split
  · rfl
  · rw [eq_comm, ← List.length_eq_zero_iff]
    omega

/-- Nothing is lost or sent twice: the file is an initial part of the source, and one more attempt
that sends the rest of it, all of which gets to the file, completes it. -/
theorem resumed_upload (h : Appended source content) : content <+: source ∧
    ∀ log final, UploadFrom content.length log →
      (∀ path app old, .openWrite path app (some old) ∈ log → old = content) →
      receivedBytes log = source.drop content.length → .closed final true ∈ log →
      final = source := by
  have hinitial : content <+: source := by
    induction h with
    | start => exact List.nil_prefix
    | attempt before upload found sent closed ih =>
      rename_i content log final complete
      rcases upload.stores with ⟨stage, hstores⟩
      rcases closed_of_stores hstores closed with ⟨path, old, kept, hopened, hkept, hfinal, -⟩
      rw [found path _ old hopened, keptOf_length] at hfinal
      rw [hfinal, ← List.prefix_iff_eq_append.mp ih]
      exact (List.prefix_append_right_inj content).mpr (hkept.trans sent)
  refine ⟨hinitial, ?_⟩
  intro log final upload hfound hsent hclosed
  rcases upload.stores with ⟨stage, hstores⟩
  rcases closed_of_stores hstores hclosed with ⟨path, old, kept, hopened, -, hfinal, hall⟩
  rw [hfound path _ old hopened, keptOf_length, hall rfl, hsent] at hfinal
  rw [hfinal]
  exact List.prefix_iff_eq_append.mp hinitial

end Attempts

/-- The second attempt brings the byte that the first one has lost. -/
theorem resumed_upload_twice : Appended [1, 2, 3] [1, 2] ∧ ∃ log final,
    UploadFrom 2 log ∧ .closed final true ∈ log ∧ final = [1, 2, 3] := by
  have hcontent : Appended [1, 2, 3] [1, 2] := by
    have hclosed :
        .closed [1, 2] false ∈ Sample.appendLog false [] [] Sample.block [1, 2] false := by
      simp [Sample.appendLog]
    apply Appended.attempt .start Sample.upload_start _ _ hclosed
    · simp [Sample.appendLog]
    · decide
  refine ⟨hcontent, _, [1, 2, 3], Sample.upload_rest, by simp [Sample.appendLog], ?_⟩
  apply (resumed_upload hcontent).2 _ _ Sample.upload_rest
  · simp [Sample.appendLog]
  · decide
  · simp [Sample.appendLog]

end YFtp
