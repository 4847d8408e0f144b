import YFtp.FinalReplies
import YFtp.Survival

/-!
# Progress of a thread

When the next statement of a thread returns, and how many statements it has left: as many as what
the system gives it calls for.
-/

namespace YFtp

open Theory

/-! ## Statements that return -/

theorem returns_liftFault_bind_iff {α β : Type} {x : Except Fault α}
    {f : α → Except ThreadFault β} :
    Returns (liftFault x >>= f) ↔ ∃ a, x = .ok a ∧ Returns (f a) := by
  cases x with
  | error fault => exact iff_of_false (not_returns_error _) fun ⟨a, h, _⟩ ↦ by cases h
  | ok a =>
    constructor
    · exact fun h ↦ ⟨a, rfl, h⟩
    · rintro ⟨b, h, hb⟩
      cases h
      exact hb

theorem returns_liftFault_bind_of_total {α β : Type} {x : Except Fault α}
    {f : α → Except ThreadFault β} (h : ∀ a, Returns (f a)) :
    Returns (liftFault x >>= f) ↔ Returns x := by
  rw [returns_liftFault_bind_iff]
  exact ⟨fun ⟨a, ha, _⟩ ↦ ⟨a, ha⟩, fun ⟨a, ha⟩ ↦ ⟨a, ha, h a⟩⟩

theorem useDataSocket_returns_iff (s : Session) : Returns s.useDataSocket ↔ s.ClosesSafely := by
  unfold Session.useDataSocket Session.ClosesSafely
  split <;> split <;> simp_all

theorem shutDownDataSocket_returns_iff (s : Session) :
    Returns s.shutDownDataSocket ↔ s.ClosesSafely := by
  unfold Session.shutDownDataSocket Session.ClosesSafely
  split <;> split <;> simp_all

/-- `user_` points to an account, and its home directory is no longer than the path. -/
def Shortens (user : Option UserNode) (path : WString) : Prop :=
  ∃ u, user = some u ∧ u.homeDirectory.length ≤ path.length

/-- The name that is cut out of a path. -/
theorem shorten_returns_iff {β : Type} {user : Option UserNode} {path : WString}
    {f : WString → Except ThreadFault β} (h : ∀ name, Returns (f name)) :
    Returns (do
      let user ← liftFault (deref user)
      let name ← substr path user.homeDirectory.length
      f name) ↔ Shortens user path := by
  rw [returns_liftFault_bind_iff]
  apply exists_congr
  intro u
  rw [returns_bind_of_total h]
  unfold substr
  apply and_congr
  · cases user with
    | none => exact iff_of_false (fun h ↦ by cases h) fun h ↦ by cases h
    | some v => exact ⟨fun h ↦ by cases h; rfl, fun h ↦ by cases h; rfl⟩
  · split
    · rename_i hshort
      exact iff_of_false (not_returns_error _) (by omega)
    · rename_i hlong
      exact iff_of_true (returns_ok _) (by omega)

/-- The next statement of the thread meets no null pointer, and cuts no name out of a path that is
shorter than the home directory. -/
def Stage.Proceeds (v : View) : Stage → Prop
  | .list _ .build => v.user ≠ none
  | .list cmd (.single path _) => cmd.id = .STAT → Shortens v.user path
  | .list cmd (.next path) => cmd.id = .NLST → ∀ e, v.answers.nextEntry = some e →
      Shortens v.user (pathAppend path e.name)
  | .list cmd (.line _ _) => cmd.id ≠ .STAT → v.node.ClosesSafely
  | .store (.receive _) | .retrieve (.send _ _) => v.node.ClosesSafely
  | .shutDown _ _ | .closeSocket _ _ => v.node.ClosesSafely
  | _ => True

theorem listStep_returns_iff (v : View) (cmd : Command) (stage : ListStage) :
    Returns (stage.step v.answers v.node.toSession v.user cmd)
      ↔ (Stage.list cmd stage).Proceeds v := by
  cases stage with
  | begin =>
    apply iff_of_true _ trivial
    unfold ListStage.step
    dsimp only
    split <;> exact returns_ok _
  | announce => exact iff_of_true (returns_ok _) trivial
  | endOfStatus => exact iff_of_true (returns_ok _) trivial
  | build =>
    show Returns (liftFault (deref v.user) >>= _) ↔ v.user ≠ none
    rw [returns_liftFault_bind_of_total]
    · cases v.user with
      | none => exact iff_of_false (not_returns_error _) fun h ↦ h rfl
      | some u => exact iff_of_true (returns_ok u) (Option.some_ne_none u)
    · intro u
      dsimp only
      split
      · split <;> exact returns_ok _
      · exact returns_ok _
  | single path st =>
    show _ ↔ (cmd.id = .STAT → Shortens v.user path)
    unfold ListStage.step
    dsimp only
    by_cases hid : cmd.id = .STAT
    · rw [if_pos hid, forall_prop_of_true hid]
      exact shorten_returns_iff fun _ ↦ returns_ok _
    · rw [if_neg hid]
      exact iff_of_true (returns_ok _) fun h ↦ absurd h hid
  | next path =>
    show _ ↔ (cmd.id = .NLST → ∀ e, v.answers.nextEntry = some e →
      Shortens v.user (pathAppend path e.name))
    unfold ListStage.step
    cases hentry : v.answers.nextEntry with
    | none => exact iff_of_true (returns_ok _) fun _ e h ↦ by cases h
    | some e =>
      have hone : (∀ e', some e = some e' → Shortens v.user (pathAppend path e'.name))
          ↔ Shortens v.user (pathAppend path e.name) := by
        constructor
        · exact fun h ↦ h e rfl
        · rintro h _ ⟨⟩
          exact h
      rw [hone]
      dsimp only
      by_cases hid : cmd.id = .NLST
      · rw [if_pos hid, forall_prop_of_true hid]
        exact shorten_returns_iff fun _ ↦ returns_ok _
      · rw [if_neg hid]
        apply iff_of_true _ fun h ↦ absurd h hid
        split
        · split <;> exact returns_ok _
        · exact returns_ok _
  | line text more =>
    show _ ↔ (cmd.id ≠ .STAT → v.node.ClosesSafely)
    have hgoes : ∀ event, Returns (afterLine v.answers v.node.toSession cmd more event) := by
      intro event
      rcases afterLine_eq v.answers v.node.toSession cmd more event with ⟨next, hnext, -⟩
      rw [hnext]
      exact returns_ok _
    rw [step_line]
    by_cases hid : cmd.id = .STAT
    · rw [if_pos hid]
      exact iff_of_true (hgoes _) fun h ↦ absurd hid h
    · rw [if_neg hid, forall_prop_of_true hid]
      exact (returns_liftFault_bind_of_total fun _ ↦ hgoes _).trans (useDataSocket_returns_iff _)

theorem step_returns_iff (v : View) (stage : Stage) :
    Returns (stage.step v.answers v.node v.user) ↔ stage.Proceeds v := by
  cases stage with
  | list cmd stage => exact listStep_returns_iff v cmd stage
  | store stage =>
    cases stage with
    | receive ofs =>
      apply (returns_liftFault_bind_of_total _).trans (useDataSocket_returns_iff _)
      intro _
      split <;> exact returns_ok _
    | openFile app =>
      apply iff_of_true _ trivial
      unfold Stage.step StoreStage.step
      dsimp only
      split <;> exact returns_ok _
    | seek app ofs =>
      apply iff_of_true _ trivial
      unfold Stage.step StoreStage.step
      dsimp only
      split <;> exact returns_ok _
    | _ => exact iff_of_true (returns_ok _) trivial
  | retrieve stage =>
    cases stage with
    | send ins block =>
      exact (returns_liftFault_bind_of_total fun _ ↦ returns_ok _).trans
        (useDataSocket_returns_iff _)
    | openFile =>
      apply iff_of_true _ trivial
      unfold Stage.step RetrieveStage.step
      dsimp only
      split <;> exact returns_ok _
    | seek ins =>
      apply iff_of_true _ trivial
      unfold Stage.step RetrieveStage.step
      dsimp only
      split <;> exact returns_ok _
    | _ => exact iff_of_true (returns_ok _) trivial
  | shutDown job complete =>
    exact (returns_liftFault_bind_of_total fun _ ↦ returns_ok _).trans
      (shutDownDataSocket_returns_iff _)
  | closeSocket job complete =>
    exact (returns_liftFault_bind_of_total fun _ ↦ returns_ok _).trans
      (Session.closeDataSocket_returns_iff _)
  | finish job complete =>
    apply iff_of_true _ trivial
    unfold Stage.step
    dsimp only
    split <;> exact returns_ok _
  | ended => exact iff_of_true (returns_ok _) trivial

/-! ## Statements that are left -/

/-- How many statements a thread has left if the system gives it nothing more: no directory entry, no
received block and no file. -/
def Stage.budget : Stage → Nat
  | .list _ .begin => 8
  | .list _ .announce => 7
  | .list _ .build => 6
  | .list _ (.single _ _) | .list _ (.line _ (some _)) => 5
  | .list _ (.next _) | .list _ (.line _ none) => 4
  | .list _ .endOfStatus => 1
  | .store .mode => 8
  | .store (.openFile _) => 7
  | .store (.seek _ _) | .store (.write _ _) => 6
  | .store (.receive _) => 5
  | .store (.close _ _) => 4
  | .retrieve .openFile => 7
  | .retrieve (.seek ins) => 6 + 2 * ins.content.length
  | .retrieve (.read ins) => 5 + 2 * ins.rest.length
  | .retrieve (.send ins _) => 6 + 2 * ins.rest.length
  | .retrieve (.close _ _) => 4
  | .shutDown _ _ => 3
  | .closeSocket _ _ => 2
  | .finish _ _ => 1
  | .ended => 0

/-- The statements that the system calls for by what it gives the thread: two for each directory
entry, for each received block and for each byte of the file that is opened. -/
def Stage.supplied (a : Answers) : Stage → Nat
  | .list _ (.next _) => if a.nextEntry.isSome then 2 else 0
  | .store (.receive _) =>
    match a.received with
    | .data _ => 2
    | _ => 0
  | .retrieve .openFile => 2 * (a.opened.getD []).length
  | _ => 0

theorem budget_afterListing (cmd : Command) : (afterListing cmd).budget ≤ 3 := by
  unfold afterListing
  split
  · exact (by decide : 1 ≤ 3)
  · exact Nat.le_refl 3

theorem budget_receive_or_close (good : Bool) (ofs : OutStream UInt8) (len : Int) :
    (Stage.store (if good then .receive ofs else .close ofs len)).budget ≤ 5 := by
  cases good
  · exact (by decide : 4 ≤ 5)
  · exact Nat.le_refl 5

theorem rest_le_content (ins : InStream UInt8) : ins.rest.length ≤ ins.content.length := by
  unfold InStream.rest
  rw [List.length_drop]
  omega

section Budget

variable {a : Answers} {n : ClientNode} {user : Option UserNode} {r : StepResult}

theorem list_budget_lt {cmd : Command} {stage : ListStage}
    (h : stage.step a n.toSession user cmd = .ok r) :
    r.2.1.budget < (Stage.list cmd stage).budget + (Stage.list cmd stage).supplied a := by
  have hafter := budget_afterListing cmd
  have hlisted := (list_listed h).2
  generalize r.2.1 = next, r.2.2 = fx at hlisted
  cases hlisted with
  | announces => exact (by decide : 7 < 8)
  | begins => exact (by decide : 6 < 8)
  | announced => exact (by decide : 6 < 7)
  | shows => exact (by decide : 5 < 6)
  | enters => exact (by decide : 4 < 6)
  | misses =>
    show _ < 6
    omega
  | single => exact (by decide : 4 < 5)
  | exhausted =>
    show _ < 4 + _
    omega
  | skips hentry =>
    unfold Stage.supplied
    rw [hentry]
    exact (by decide : 4 < 4 + 2)
  | entry hentry =>
    unfold Stage.supplied
    rw [hentry]
    exact (by decide : 5 < 4 + 2)
  | line hnext =>
    rcases hnext with rfl | ⟨path, rfl, rfl⟩
    · rename_i more
      cases more with
      | none =>
        show _ < 4
        omega
      | some path =>
        show _ < 5
        omega
    · exact (by decide : 4 < 5)
  | ends => exact Nat.zero_lt_one

theorem store_budget_lt {stage : StoreStage} (h : stage.step a n.toSession = .ok r) :
    r.2.1.budget < (Stage.store stage).budget + (Stage.store stage).supplied a := by
  cases stage with
  | mode =>
    cases h
    exact (by decide : 7 < 8)
  | openFile app =>
    rw [StoreStage.step] at h
    show r.2.1.budget < 7
    split at h
    · cases h
      exact (by decide : 3 < 7)
    · cases h
      exact (by decide : 6 < 7)
  | seek app ofs =>
    rw [StoreStage.step] at h
    show r.2.1.budget < 6
    split at h
    · cases h
      exact Nat.lt_succ_of_le (budget_receive_or_close ..)
    · cases h
      exact (by decide : 5 < 6)
  | receive ofs =>
    rcases eq_ok_of_liftFault_bind h with ⟨-, -, h⟩
    unfold Stage.supplied
    show r.2.1.budget < 5 + _
    split at h
    · rename_i hreceived
      rw [hreceived]
      cases h
      exact (by decide : 6 < 5 + 2)
    · cases h
      exact Nat.lt_add_right _ (by decide : 4 < 5)
    · cases h
      exact Nat.lt_add_right _ (by decide : 4 < 5)
  | write ofs block =>
    cases h
    exact Nat.lt_succ_of_le (budget_receive_or_close ..)
  | close ofs len =>
    cases h
    exact (by decide : 3 < 4)

theorem retrieve_budget_lt {stage : RetrieveStage} (h : stage.step a n.toSession = .ok r) :
    r.2.1.budget < (Stage.retrieve stage).budget + (Stage.retrieve stage).supplied a := by
  cases stage with
  | openFile =>
    rw [RetrieveStage.step] at h
    unfold Stage.supplied
    split at h
    · cases h
      exact Nat.lt_add_right _ (by decide : 3 < 7)
    · rename_i content hopened
      rw [hopened]
      cases h
      show 6 + 2 * content.length < 7 + 2 * content.length
      omega
  | seek ins =>
    rw [RetrieveStage.step] at h
    show _ < 6 + 2 * ins.content.length
    split at h
    · have hrest := rest_le_content (ins.seek n.restartAt.toNat a.seek)
      rw [InStream.seek_content] at hrest
      cases h
      dsimp only
      split
      · simp only [Stage.budget]
        omega
      · simp only [Stage.budget]
        omega
    · have hrest := rest_le_content ins
      cases h
      simp only [Stage.budget]
      omega
  | read ins =>
    rw [RetrieveStage.step] at h
    dsimp only at h
    have hall := congrArg List.length
      (InStream.read_append_rest transferBufferSize a.reading ins)
    rw [List.length_append] at hall
    generalize ins.read transferBufferSize a.reading = out at h hall
    rcases out with ⟨block, ins'⟩
    cases h
    show _ < 5 + 2 * ins.rest.length
    dsimp only at hall ⊢
    split
    · simp only [Stage.budget]
      omega
    · rename_i hblock
      -- each turn of the loop takes a byte off the file at least
      have hpos := List.length_pos_iff.mpr hblock
      simp only [Stage.budget]
      omega
  | send ins block =>
    rcases eq_ok_of_liftFault_bind h with ⟨-, -, h⟩
    cases h
    show _ < 6 + 2 * ins.rest.length
    dsimp only
    split
    · simp only [Stage.budget]
      omega
    · split
      · simp only [Stage.budget]
        omega
      · simp only [Stage.budget]
        omega
  | close ins len =>
    cases h
    exact (by decide : 3 < 4)

/-- Each statement but the last brings the end nearer, except for what it calls for. -/
theorem budget_lt {stage : Stage} (h : stage.step a n user = .ok r) (hstage : stage ≠ .ended) :
    r.2.1.budget < stage.budget + stage.supplied a := by
  cases stage with
  | list cmd stage => exact list_budget_lt h
  | store stage => exact store_budget_lt h
  | retrieve stage => exact retrieve_budget_lt h
  | shutDown job complete =>
    rcases eq_ok_of_liftFault_bind h with ⟨t, -, h⟩
    cases h
    exact (by decide : 2 < 3)
  | closeSocket job complete =>
    rcases eq_ok_of_liftFault_bind h with ⟨t, -, h⟩
    cases h
    exact (by decide : 1 < 2)
  | finish job complete =>
    rw [Stage.step] at h
    split at h
    · cases h
      exact Nat.zero_lt_one
    · cases h
      exact Nat.zero_lt_one
  | ended => exact absurd rfl hstage

end Budget

end YFtp
