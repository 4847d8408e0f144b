import YFtp.FileContents
import YFtp.ThreadRecords

/-!
# Downloads

What RETR passes on of a file in a whole conversation, and what a client puts together of a file
that it fetches in several attempts.
-/

namespace YFtp

open Theory

/-- Nothing has failed but `seekg`. -/
def SoundAfterSeek (log : List ThreadEvent) : Prop := (∀ pos, .seek pos false ∉ log) → Unfailing log

/-- What a thread that has not replied yet takes for complete, `complete`, is sound. -/
structure Honest (complete : Prop) (log : List ThreadEvent) : Prop where
  silent : ∀ r, .reply r ∉ log
  sound : complete → SoundAfterSeek log

/-- `retrieve_thread` answers 226 only where every read and every send went well. -/
def Answers226 (log : List ThreadEvent) : Stage → Prop
  | .retrieve .openFile => log = []
  | .retrieve (.seek ins) => Honest True log ∧ ins.bad = false
  | .retrieve (.read ins) => Honest True log ∧ ins.bad = false
  | .retrieve (.send ins _) => Honest (ins.bad = false) log ∧ (ins.good = true → ins.bad = false)
  | .retrieve (.close ins len) => Honest (0 ≤ if ins.bad then -1 else len) log
  | .shutDown job complete | .closeSocket job complete | .finish job complete =>
    job = .retrieve ∧ Honest (complete = true) log
  | .ended => ∀ r, .reply r ∈ log → r.code = 226 → SoundAfterSeek log
  | _ => False

section Retrieve

variable {complete : Prop} {log fx : List ThreadEvent} {p q : Progress} {v : View}

theorem SoundAfterSeek.append (h : SoundAfterSeek log)
    (hfx : (∀ pos, .seek pos false ∉ fx) → ∀ e ∈ fx, e.fails = false) :
    SoundAfterSeek (log ++ fx) := by
  intro hseeks
  apply forall_mem_append
  · exact h fun pos hpos ↦ hseeks pos (List.mem_append_left _ hpos)
  · exact hfx fun pos hpos ↦ hseeks pos (List.mem_append_right _ hpos)

theorem Honest.append (h : Honest complete log) (hsilent : ∀ r, .reply r ∉ fx)
    (hfx : (∀ pos, .seek pos false ∉ fx) → ∀ e ∈ fx, e.fails = false) :
    Honest complete (log ++ fx) := by
  refine ⟨?_, fun hc ↦ (h.sound hc).append hfx⟩
  intro r hr
  rcases List.mem_append.mp hr with hr | hr
  · exact h.silent r hr
  · exact hsilent r hr

theorem Honest.mono {complete' : Prop} (h : Honest complete log) (himp : complete' → complete) :
    Honest complete' log := ⟨h.silent, fun hc ↦ h.sound (himp hc)⟩

theorem Honest.nil : Honest complete [] := by
  constructor
  · simp
  · exact fun _ _ ↦ List.forall_mem_nil _

theorem bad_eq_false {bad : Bool} (h : (0 : Int) ≤ if bad then -1 else 0) : bad = false := by
  cases bad with
  | false => rfl
  | true => exact absurd h (by decide)

theorem openFile_answers226 {r : StepResult}
    (h : RetrieveStage.openFile.step v.answers v.node.toSession = .ok r) :
    Answers226 r.2.2 r.2.1 := by
  rw [RetrieveStage.step] at h
  split at h <;> cases h
  · refine ⟨rfl, by simp, ?_⟩
    intro hcomplete
    cases hcomplete
  · exact ⟨Honest.nil.append (by simp) (by simp [ThreadEvent.fails]), rfl⟩

theorem seek_answers226 {ins : InStream UInt8} (hhonest : Honest True log) (hbad : ins.bad = false)
    {r : StepResult} (h : (RetrieveStage.seek ins).step v.answers v.node.toSession = .ok r) :
    Answers226 (log ++ r.2.2) r.2.1 := by
  rw [RetrieveStage.step] at h
  split at h
  · cases h
    -- a `seekg` that failed leaves nothing to be shown
    have hseek : Honest True (log ++ [.seek v.node.restartAt v.answers.seek]) := by
      apply hhonest.append (by simp)
      intro hseeks e he
      cases List.mem_singleton.mp he
      cases hok : v.answers.seek with
      | true => rfl
      | false =>
        rw [hok] at hseeks
        exact absurd (List.mem_singleton_self _) (hseeks _)
    dsimp only
    split
    · refine ⟨hseek, ?_⟩
      unfold InStream.seek
      split <;> exact hbad
    · exact hseek.mono fun _ ↦ trivial
  · cases h
    rw [List.append_nil]
    exact ⟨hhonest, hbad⟩

theorem read_answers226 {ins : InStream UInt8} (hhonest : Honest True log) (hbad : ins.bad = false)
    {r : StepResult} (h : (RetrieveStage.read ins).step v.answers v.node.toSession = .ok r) :
    Answers226 (log ++ r.2.2) r.2.1 := by
  rw [RetrieveStage.step] at h
  dsimp only at h
  have hsound : (ins.read transferBufferSize v.answers.reading).2.good = true →
      (ins.read transferBufferSize v.answers.reading).2.bad = false := InStream.read_sound hbad
  generalize ins.read transferBufferSize v.answers.reading = out at h hsound
  rcases out with ⟨block, ins'⟩
  cases h
  dsimp only at hsound ⊢
  have hread : Honest (ins'.bad = false)
      (log ++ if ins'.bad then [.readFailed ins'.rest.length] else []) := by
    constructor
    · intro r hr
      rcases List.mem_append.mp hr with hr | hr
      · exact hhonest.silent r hr
      · split at hr <;> simp at hr
    · intro hgood
      rw [hgood, if_neg Bool.false_ne_true, List.append_nil]
      exact hhonest.sound trivial
  by_cases hblock : block = []
  · rw [if_pos hblock]
    exact hread.mono bad_eq_false
  · rw [if_neg hblock]
    exact ⟨hread, hsound⟩

theorem send_answers226 {ins : InStream UInt8} {block : List UInt8}
    (hhonest : Honest (ins.bad = false) log) (hsound : ins.good = true → ins.bad = false)
    {r : StepResult} (h : (RetrieveStage.send ins block).step v.answers v.node.toSession = .ok r) :
    Answers226 (log ++ r.2.2) r.2.1 := by
  rw [RetrieveStage.step] at h
  rcases eq_ok_of_liftFault_bind h with ⟨-, -, h⟩
  cases h
  dsimp only
  cases hsent : v.answers.sent with
  | false =>
    rw [if_pos rfl]
    have hsilent : ∀ r, .reply r ∉ log ++ [.block block false] := by simpa using hhonest.silent
    refine ⟨hsilent, fun hcomplete ↦ ?_⟩
    rw [ite_self] at hcomplete
    exact absurd hcomplete (by decide)
  | true =>
    have hblock : Honest (ins.bad = false) (log ++ [.block block true]) :=
      hhonest.append (by simp) (by simp [ThreadEvent.fails])
    rw [if_neg (by simp)]
    split
    · rename_i hgood
      exact ⟨hblock.mono fun _ ↦ hsound hgood, hsound hgood⟩
    · exact hblock.mono bad_eq_false

theorem advances_answers226 (hp : Answers226 p.log p.stage) (h : Advances p v q) :
    Answers226 q.log q.stage := by
  rcases p with ⟨stage, log⟩
  rcases q with ⟨next, newer⟩
  rcases h with ⟨s, fx, h, hlog⟩
  dsimp only at hp h hlog ⊢
  subst hlog
  cases stage with
  | list cmd stage => cases hp
  | store stage => cases hp
  | retrieve stage =>
    cases stage with
    | openFile =>
      have hstart : log = [] := hp
      rw [hstart]
      exact openFile_answers226 h
    | seek ins =>
      rcases hp with ⟨hhonest, hbad⟩
      exact seek_answers226 hhonest hbad h
    | read ins =>
      rcases hp with ⟨hhonest, hbad⟩
      exact read_answers226 hhonest hbad h
    | send ins block =>
      rcases hp with ⟨hhonest, hsound⟩
      exact send_answers226 hhonest hsound h
    | close ins len =>
      cases h
      rw [List.append_nil]
      refine ⟨rfl, hp.mono ?_⟩
      exact fun hcomplete ↦ of_decide_eq_true hcomplete
  | shutDown job complete =>
    rcases eq_ok_of_liftFault_bind h with ⟨t, -, h⟩
    cases h
    rw [List.append_nil]
    exact hp
  | closeSocket job complete =>
    rcases eq_ok_of_liftFault_bind h with ⟨t, -, h⟩
    cases h
    rw [List.append_nil]
    exact hp
  | finish job complete =>
    rcases hp with ⟨rfl, hhonest⟩
    rw [Stage.step] at h
    split at h <;> cases h
    · intro r hr hcode
      rcases List.mem_append.mp hr with hr | hr
      · exact absurd hr (hhonest.silent r)
      · have hr : r = finalReply .retrieve complete := by simpa using hr
        rw [hr] at hcode
        have hcomplete : complete = true := by
          cases complete with
          | true => rfl
          | false => exact absurd hcode (by decide)
        exact (hhonest.sound hcomplete).append (by simp [ThreadEvent.fails])
    · intro r hr
      simp at hr
      exact absurd hr (hhonest.silent r)
  | ended =>
    cases h
    rw [List.append_nil]
    exact hp

/-- What a thread has read of a file is what it has passed on, and what is left of it. -/
theorem reads_of_run {n : Nat} {steps : List (Progress × View)}
    (run : ThreadRun ⟨Job.retrieve.stage, []⟩ steps p)
    (hoffset : ∀ x ∈ steps, x.1.stage.readsOffset = true → x.2.node.restartAt.toNat = n) :
    Answers226 p.log p.stage ∧
    ∀ path content, .openRead path (some content) ∈ p.log → Reads content n p.log p.stage := by
  apply run.invariant_of_steps
    (P := fun p ↦ Answers226 p.log p.stage ∧
      ∀ path content, .openRead path (some content) ∈ p.log → Reads content n p.log p.stage)
    (C := fun p v ↦ p.stage.readsOffset = true → v.node.restartAt.toNat = n) _ _ hoffset
  · exact ⟨rfl, fun _ _ h ↦ by cases h⟩
  · rintro p v q ⟨hanswers, hreads⟩ hoffset hadvances
    refine ⟨advances_answers226 hanswers hadvances, ?_⟩
    intro path content hopened
    have hseek (ins : InStream UInt8) (hstage : p.stage = .retrieve (.seek ins)) :
        v.node.restartAt.toNat = n := by
      apply hoffset
      rw [hstage]
      rfl
    rcases hadvances with ⟨s, fx, hstep, hlog⟩
    rw [hlog] at hopened
    -- the file was open before, or it is opened now
    rcases List.mem_append.mp hopened with hbefore | hnow
    · apply advances_reads_at (hreads path content hbefore) _ hseek ⟨s, fx, hstep, hlog⟩
      intro hstage
      rw [hstage] at hanswers
      have hnone : p.log = [] := hanswers
      rw [hnone] at hbefore
      cases hbefore
    · rcases openRead_of_step hstep hnow with ⟨hstage, hopened⟩
      have hnone : Reads content n p.log p.stage := by
        rw [hstage] at hanswers ⊢
        exact hanswers
      exact advances_reads_at hnone (fun _ ↦ hopened.symm) hseek ⟨s, fx, hstep, hlog⟩

end Retrieve

/-! ## Conversations -/

/-- A download of this content from an offset on, in a conversation whose offsets are used: the
stage that the thread has come to, and its record. -/
inductive Download (content : List UInt8) : Nat → Stage → List ThreadEvent → Prop
  | intro {build c start w trace i t path} (begins : start.Begins c)
      (run : TalkRun build c start trace w) (used : ∀ p ∈ trace, Talk.OffsetUsed c p.1 p.2)
      (thread : w.threads[i]? = some t)
      (opened : .openRead path (some content) ∈ Talk.recordOf c i trace) :
      Download content t.due.toNat t.stage (Talk.recordOf c i trace)

/-- Nothing has failed, or the client was answered 226 and `seekg` went well. -/
def WentWell (log : List ThreadEvent) : Prop :=
  Unfailing log ∨ (∃ r, .reply r ∈ log ∧ r.code = 226) ∧ ∀ pos, .seek pos false ∉ log

section Conversations

variable {content got : List UInt8} {n : Nat} {stage : Stage} {log : List ThreadEvent}

theorem Download.reads (h : Download content n stage log) :
    Answers226 log stage ∧ Reads content n log stage := by
  cases h with
  | intro begins run used thread opened =>
    rcases Talk.ranAlone begins run used thread with ⟨job, steps, alone, hoffset⟩
    have hjob : .retrieve = job := records_of_run alone _ opened .retrieve rfl
    subst hjob
    rcases reads_of_run alone (fun x hx hreads ↦ congrArg Int.toNat (hoffset x hx hreads)) with
      ⟨hanswers, hreads⟩
    exact ⟨hanswers, hreads _ content opened⟩

theorem Download.complete (h : Download content n .ended log) (hwell : WentWell log) :
    (blocksPassed log).flatten = content.drop n := by
  rcases h.reads with ⟨hanswers, rest, hpassed, hends⟩
  apply hpassed.of_unfailing hends
  rcases hwell with hwell | ⟨⟨r, hr, hcode⟩, hseeks⟩
  · exact hwell
  · exact hanswers r hr hcode hseeks

/-- In a conversation whose offsets are used, whatever comes in between, a download passes on an
initial part of the file from the offset of its REST on, and all of it if it went well. -/
theorem download_from_offset (h : Download content n stage log) :
    (blocksPassed log).flatten <+: content.drop n ∧
    (stage = .ended → WentWell log → (blocksPassed log).flatten = content.drop n) := by
  refine ⟨(reads_passed h.reads.2).2, ?_⟩
  intro hended hwell
  rw [hended] at h
  exact h.complete hwell

end Conversations

namespace Sample

/-- The client fetches a file from an offset on, and says something else meanwhile. -/
def fetch (offset : String) (content : List UInt8) : List Act :=
  login ++ [say .PASV "", say .REST offset, say .RETR "notes"] ++
    List.replicate 3 (.thread 0 { env, opened := some content }) ++ [say .NOOP ""] ++
    List.replicate 5 (.thread 0 { env, opened := some content })

def fetchLog (content : List UInt8) (offset : List ThreadEvent) (block : List UInt8) :
    List ThreadEvent :=
  .openRead "/srv/bob//notes" (some content) :: offset ++
    [.block block true, .finalBlock true, .reply (.create 226 "Transfer complete.")]

/-- The thread has come to its end with this record, and every offset was used. -/
def fetched (n : Nat) (log : List ThreadEvent) (trace : List (Talk × Act)) (w : Talk) : Bool :=
  recorded log trace && (w.threads[0]?).any fun t ↦ decide (t.due.toNat = n) && t.stage.isEnded

theorem download_of_fetched (acts : List Act) {n : Nat} {content : List UInt8}
    {log : List ThreadEvent}
    (h : (talk.traceOf {} 0 [] acts).any (fun x ↦ fetched n log x.1 x.2) = true)
    (hopened : .openRead "/srv/bob//notes" (some content) ∈ log) :
    Download content n .ended log := by
  rcases Talk.exists_run_recorded acts (fetched n log) h with ⟨trace, w, run, hfetched⟩
  rw [fetched, Bool.and_eq_true, Option.any_eq_true] at hfetched
  rcases hfetched with ⟨hrecorded, t, ht, hended⟩
  rcases of_recorded hrecorded with ⟨hused, rfl⟩
  rw [Bool.and_eq_true, decide_eq_true_iff] at hended
  rcases hended with ⟨rfl, hended⟩
  rw [← eq_ended hended]
  exact .intro talk_begins run hused ht hopened

end Sample

/-- The file is fetched from its second byte on. -/
theorem download_from_offset_rest : ∃ log, Download [1, 2, 3] 1 .ended log ∧
    (blocksPassed log).flatten = [2, 3] := by
  have hdownload : Download [1, 2, 3] 1 .ended (Sample.fetchLog [1, 2, 3] [.seek 1 true] [2, 3]) :=
    Sample.download_of_fetched (Sample.fetch "1" [1, 2, 3]) (by decide +kernel)
      List.mem_cons_self
  refine ⟨_, hdownload, (download_from_offset hdownload).2 rfl (.inl ?_)⟩
  unfold Unfailing
  decide

/-! ## Several attempts -/

section Attempts

variable {content got : List UInt8}

/-- What a client has put together of a file: at each attempt it asks for the file from the end of
what it has on, and some of what is passed on arrives. -/
inductive Resumed (content : List UInt8) : List UInt8 → Prop
  | start : Resumed content []
  | attempt {got piece stage log} (before : Resumed content got)
      (download : Download content got.length stage log)
      (arrived : piece <+: (blocksPassed log).flatten) : Resumed content (got ++ piece)

/-- Nothing is lost or fetched twice: what the client has is an initial part of the file, and one
more attempt that goes well completes it. -/
theorem resumed_download (h : Resumed content got) : got <+: content ∧
    ∀ log, Download content got.length .ended log → WentWell log →
      got ++ (blocksPassed log).flatten = content := by
  have hinitial : got <+: content := by
    induction h with
    | start => exact List.nil_prefix
    | attempt before download arrived ih =>
      rename_i got piece stage log
      have hpiece : piece <+: content.drop got.length :=
        arrived.trans (reads_passed download.reads.2).2
      rw [← List.prefix_iff_eq_append.mp ih]
      exact (List.prefix_append_right_inj got).mpr hpiece
  refine ⟨hinitial, ?_⟩
  intro log download hwell
  rw [download.complete hwell]
  exact List.prefix_iff_eq_append.mp hinitial

end Attempts

/-- The first byte of the first attempt arrives, and the second one fetches the rest. -/
theorem resumed_download_twice : Resumed [1, 2, 3] [1] ∧ ∃ log,
    Download [1, 2, 3] 1 .ended log ∧ [1] ++ (blocksPassed log).flatten = [1, 2, 3] := by
  have hfirst : Download [1, 2, 3] 0 .ended (Sample.fetchLog [1, 2, 3] [] [1, 2, 3]) :=
    Sample.download_of_fetched (Sample.fetch "0" [1, 2, 3]) (by decide +kernel)
      List.mem_cons_self
  have hsecond : Download [1, 2, 3] 1 .ended (Sample.fetchLog [1, 2, 3] [.seek 1 true] [2, 3]) :=
    Sample.download_of_fetched (Sample.fetch "1" [1, 2, 3]) (by decide +kernel)
      List.mem_cons_self
  have hgot : Resumed [1, 2, 3] [1] :=
    .attempt .start hfirst (show [1] <+: _ from ⟨[2, 3], rfl⟩)
  refine ⟨hgot, _, hsecond, (resumed_download hgot).2 _ hsecond (.inl ?_)⟩
  unfold Unfailing
  decide

end YFtp
