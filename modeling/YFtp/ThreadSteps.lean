import YFtp.Threads

/-!
# Statements of a thread

What one statement of `list_thread`, of `store_thread` or of `retrieve_thread` can do.
-/

namespace YFtp

/-! ## `list_thread` -/

/-- The session after a statement: the thread announces itself at its beginning and leaves the session
alone until it ends. -/
def ListStage.sets (cmd : Command) (s : Session) : ListStage → Session
  | .begin => if cmd.id ≠ .STAT then { s with curStatus := .listing } else s
  | _ => s

/-- What a statement of `list_thread` goes on with, and what it sends. -/
inductive Listed (a : Answers) (cmd : Command) : ListStage → Stage → List ThreadEvent → Prop
  | announces (hid : cmd.id ≠ .STAT) : Listed a cmd .begin (.list cmd .announce) []
  | begins (hid : cmd.id = .STAT) : Listed a cmd .begin (.list cmd .build)
      [.reply { content := "213-Status follows:".toList }]
  | announced : Listed a cmd .announce (.list cmd .build)
      [.reply (.create 150 "Opening data connection for directory list.")]
  | shows {path st} : Listed a cmd .build (.list cmd (.single path st)) [.status path]
  | enters {path} : Listed a cmd .build (.list cmd (.next path)) [.status path]
  | misses {path : WString} :
      Listed a cmd .build (afterListing cmd) (if path = [] then [] else [.status path])
  | single {path st name} : Listed a cmd (.single path st)
      (.list cmd (.line (singleLine a (listArguments cmd.args).1 path st name) none)) []
  | exhausted {path} : Listed a cmd (.next path) (afterListing cmd) []
  | skips {path e} (hentry : a.nextEntry = some e) :
      Listed a cmd (.next path) (.list cmd (.next path)) []
  | entry {path e text} (hentry : a.nextEntry = some e)
      (htext : cmd.id ≠ .NLST → ∃ st, text = entryLine a (listArguments cmd.args).1 e st) :
      Listed a cmd (.next path) (.list cmd (.line text (some path))) []
  | line {text more next} (hnext : next = afterListing cmd ∨
      ∃ path, more = some path ∧ next = .list cmd (.next path)) :
      Listed a cmd (.line text more) next
        [if cmd.id = .STAT then .reply { content := text } else .line text a.sent]
  | ends : Listed a cmd .endOfStatus .ended [.reply (.create 213 "End of status.")]

/-- What follows a line: the next entry, or the end of the thread. -/
def afterLine (a : Answers) (s : Session) (cmd : Command) (more : Option WString)
    (event : ThreadEvent) : Except ThreadFault StepResult :=
  match more with
  | none => .ok (s, afterListing cmd, [event])
  | some path =>
    if cmd.id ≠ .NLST ∧ a.sent = false then .ok (s, afterListing cmd, [event])
    else .ok (s, .list cmd (.next path), [event])

theorem step_line (a : Answers) (s : Session) (user : Option UserNode) (cmd : Command)
    (text : WString) (more : Option WString) :
    (ListStage.line text more).step a s user cmd =
      if cmd.id = .STAT then afterLine a s cmd more (.reply { content := text })
      else liftFault s.useDataSocket >>= fun _ ↦ afterLine a s cmd more (.line text a.sent) := by
  rw [ListStage.step]
  split <;> rfl

theorem afterLine_eq (a : Answers) (s : Session) (cmd : Command) (more : Option WString)
    (event : ThreadEvent) : ∃ next, afterLine a s cmd more event = .ok (s, next, [event]) ∧
      (next = afterListing cmd ∨ ∃ path, more = some path ∧ next = .list cmd (.next path)) := by
  cases more with
  | none => exact ⟨_, rfl, .inl rfl⟩
  | some path =>
    unfold afterLine
    dsimp only
    split
    · exact ⟨_, rfl, .inl rfl⟩
    · exact ⟨_, rfl, .inr ⟨path, rfl, rfl⟩⟩

/-- Every statement that returns does one of these. -/
theorem list_listed {a : Answers} {s : Session} {user : Option UserNode} {cmd : Command}
    {stage : ListStage} {r : StepResult} (h : stage.step a s user cmd = .ok r) :
    r.1 = stage.sets cmd s ∧ Listed a cmd stage r.2.1 r.2.2 := by
  cases stage with
  | begin =>
    rw [ListStage.step] at h
    unfold ListStage.sets
    split at h
    · rename_i hid
      cases h
      exact ⟨(if_pos hid).symm, .announces hid⟩
    · rename_i hid
      cases h
      exact ⟨(if_neg hid).symm, .begins (not_not.mp hid)⟩
  | announce =>
    cases h
    exact ⟨rfl, .announced⟩
  | build =>
    rcases eq_ok_of_liftFault_bind h with ⟨u, -, h⟩
    dsimp only at h
    split at h
    · split at h
      · cases h
        exact ⟨rfl, .shows⟩
      · cases h
        exact ⟨rfl, .enters⟩
    · cases h
      exact ⟨rfl, .misses⟩
  | single path st =>
    rw [ListStage.step] at h
    split at h
    · rcases eq_ok_of_liftFault_bind h with ⟨u, -, h⟩
      unfold substr at h
      split at h
      · cases h
      · cases h
        exact ⟨rfl, .single⟩
    · cases h
      exact ⟨rfl, .single⟩
  | next path =>
    rw [ListStage.step] at h
    cases hentry : a.nextEntry with
    | none =>
      rw [hentry] at h
      cases h
      exact ⟨rfl, .exhausted⟩
    | some e =>
      rw [hentry] at h
      dsimp only at h
      split at h
      · rename_i hid
        rcases eq_ok_of_liftFault_bind h with ⟨u, -, h⟩
        unfold substr at h
        split at h
        · cases h
        · cases h
          exact ⟨rfl, .entry hentry fun hne ↦ absurd hid hne⟩
      · split at h
        · split at h
          · cases h
            exact ⟨rfl, .skips hentry⟩
          · rename_i st hst
            cases h
            exact ⟨rfl, .entry hentry fun _ ↦ ⟨st, rfl⟩⟩
        · cases h
          exact ⟨rfl, .skips hentry⟩
  | line text more =>
    rw [step_line] at h
    split at h
    · rename_i hid
      have hevent : (if cmd.id = .STAT then .reply { content := text } else .line text a.sent)
          = ThreadEvent.reply { content := text } := if_pos hid
      rcases afterLine_eq a s cmd more (.reply { content := text }) with ⟨next, hr, hnext⟩
      cases hr.symm.trans h
      rw [← hevent]
      exact ⟨rfl, .line hnext⟩
    · rename_i hid
      have hevent : (if cmd.id = .STAT then .reply { content := text } else .line text a.sent)
          = ThreadEvent.line text a.sent := if_neg hid
      rcases eq_ok_of_liftFault_bind h with ⟨-, -, h⟩
      rcases afterLine_eq a s cmd more (.line text a.sent) with ⟨next, hr, hnext⟩
      cases hr.symm.trans h
      rw [← hevent]
      exact ⟨rfl, .line hnext⟩
  | endOfStatus =>
    cases h
    exact ⟨rfl, .ends⟩

/-! ## `store_thread` and `retrieve_thread` -/

/-- What a statement of a thread that moves a file does: it leaves the session alone, sends nothing on
the control connection, and goes on to another one or to the end of the data connection. -/
structure Moved {α : Type} (thread : α → Stage) (job : Job) (s : Session) (r : StepResult) : Prop
    where
  session : r.1 = s
  quiet : ∀ reply, .reply reply ∉ r.2.2
  next : (∃ stage, r.2.1 = thread stage) ∨ ∃ complete, r.2.1 = .shutDown job complete

section Moved

variable {a : Answers} {s : Session} {r : StepResult}

theorem store_moved {stage : StoreStage} (h : stage.step a s = .ok r) :
    Moved Stage.store .store s r := by
  cases stage with
  | mode =>
    cases h
    exact ⟨rfl, by simp, .inl ⟨_, rfl⟩⟩
  | openFile app =>
    rw [StoreStage.step] at h
    split at h
    · cases h
      exact ⟨rfl, by simp, .inr ⟨_, rfl⟩⟩
    · cases h
      exact ⟨rfl, by simp, .inl ⟨_, rfl⟩⟩
  | seek app ofs =>
    rw [StoreStage.step] at h
    split at h
    · cases h
      exact ⟨rfl, by simp, .inl ⟨_, rfl⟩⟩
    · cases h
      exact ⟨rfl, by simp, .inl ⟨_, rfl⟩⟩
  | receive ofs =>
    rcases eq_ok_of_liftFault_bind h with ⟨-, -, h⟩
    split at h
    · cases h
      exact ⟨rfl, by simp, .inl ⟨_, rfl⟩⟩
    · cases h
      exact ⟨rfl, by simp, .inl ⟨_, rfl⟩⟩
    · cases h
      exact ⟨rfl, by simp, .inl ⟨_, rfl⟩⟩
  | write ofs block =>
    cases h
    exact ⟨rfl, by simp, .inl ⟨_, rfl⟩⟩
  | close ofs len =>
    cases h
    exact ⟨rfl, by simp, .inr ⟨_, rfl⟩⟩

theorem retrieve_moved {stage : RetrieveStage} (h : stage.step a s = .ok r) :
    Moved Stage.retrieve .retrieve s r := by
  cases stage with
  | openFile =>
    rw [RetrieveStage.step] at h
    split at h
    · cases h
      exact ⟨rfl, by simp, .inr ⟨_, rfl⟩⟩
    · cases h
      exact ⟨rfl, by simp, .inl ⟨_, rfl⟩⟩
  | seek ins =>
    rw [RetrieveStage.step] at h
    split at h
    · cases h
      exact ⟨rfl, by simp, .inl ⟨_, rfl⟩⟩
    · cases h
      exact ⟨rfl, by simp, .inl ⟨_, rfl⟩⟩
  | read ins =>
    have hfailed (bad : Bool) (unread : Nat) (reply : Reply) :
        ThreadEvent.reply reply ∉ if bad then [ThreadEvent.readFailed unread] else [] := by
      cases bad <;> simp
    cases h
    exact ⟨rfl, hfailed _ _, .inl ⟨_, rfl⟩⟩
  | send ins block =>
    rcases eq_ok_of_liftFault_bind h with ⟨-, -, h⟩
    cases h
    exact ⟨rfl, by simp, .inl ⟨_, rfl⟩⟩
  | close ins len =>
    cases h
    exact ⟨rfl, by simp, .inr ⟨_, rfl⟩⟩

end Moved

end YFtp
