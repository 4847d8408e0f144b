import YFtp.ListPaths
import YFtp.ThreadProgress

/-!
# Lines of a listing

Which entries of a directory `list_thread` shows, and how.  The directory is read entry by entry;
an entry whose status cannot be read is passed over, and every other one gets a line of its own,
in which a size or a time that cannot be read counts as 0.
-/

namespace YFtp

/-! ## What is read and what is sent -/

/-- The thread is in `list_thread`, before its closing block. -/
def Stage.lists : Stage → Bool
  | .list _ _ => true
  | _ => false

/-- The thread goes on to the next entry of the directory. -/
def Stage.readsEntry : Stage → Bool
  | .list _ (.next _) => true
  | _ => false

/-- The thread sends a line. -/
def Stage.sendsLine : Stage → Bool
  | .list _ (.line _ _) => true
  | _ => false

/-- What the directory gave the thread, oldest first. -/
def entriesRead : List (Progress × View) → List (Option DirectoryEntry)
  | [] => []
  | (p, v) :: older => entriesRead older ++ if p.stage.readsEntry then [v.answers.nextEntry] else []

def ThreadEvent.lineSent : ThreadEvent → Option WString
  | .line text _ => some text
  | _ => none

/-- The lines passed to `send_reply`, oldest first. -/
def linesSent (log : List ThreadEvent) : List WString := log.filterMap ThreadEvent.lineSent

/-- The entry is shown whether or not it is hidden, or it is not hidden. -/
def DirectoryEntry.wanted (opts : ListOptions) (e : DirectoryEntry) : Bool :=
  e.name.head? ≠ some '.' || opts.a

/-- The text is the line of the entry. -/
def IsLineOf (opts : ListOptions) (e : DirectoryEntry) (text : WString) : Prop :=
  ∃ a st, e.status = some st ∧ text = entryLine a opts e st

/-- The lines are those of entries of the directory, in its order and one for each: at least for the
wanted entries whose status can be read. -/
def ShowsEntries (opts : ListOptions) (content : List DirectoryEntry) (lines : List WString) :
    Prop :=
  ∃ shown, (content.filter fun e ↦ e.wanted opts && e.status.isSome).Sublist shown ∧
    shown.Sublist content ∧ List.Forall₂ (IsLineOf opts) shown lines

/-- The argument of the command leads to a directory, from the home directory of an account that is
stored with its whole path. -/
def View.EntersDirectory (cmd : Command) (v : View) : Prop :=
  ∃ u st, v.user = some u ∧ u.homeDirectory.head? = some '/' ∧
    statusOf v.answers.env (listPath v.answers.env u v.node.currentDirectory cmd) = some st ∧
    isDirectory st = true

section Lines

variable {opts : ListOptions} {content read : List DirectoryEntry} {e : DirectoryEntry}
  {lines : List WString} {text : WString} {log fx : List ThreadEvent} {cmd : Command}
  {trace : List (Progress × View)} {p q : Progress} {v : View}

@[simp] theorem linesSent_append : linesSent (log ++ fx) = linesSent log ++ linesSent fx :=
  List.filterMap_append

theorem ShowsEntries.nil : ShowsEntries opts [] [] := ⟨[], .refl _, .refl _, .nil⟩

theorem ShowsEntries.skip (h : ShowsEntries opts read lines) (he : e.status = none) :
    ShowsEntries opts (read ++ [e]) lines := by
  rcases h with ⟨shown, hwanted, hread, hlines⟩
  refine ⟨shown, ?_, hread.trans (List.sublist_append_left _ _), hlines⟩
  have hnone : [e].filter (fun e ↦ e.wanted opts && e.status.isSome) = [] := by
    rw [List.filter_singleton, he]
    simp
  rw [List.filter_append, hnone, List.append_nil]
  exact hwanted

theorem ShowsEntries.line (h : ShowsEntries opts read lines) (htext : IsLineOf opts e text) :
    ShowsEntries opts (read ++ [e]) (lines ++ [text]) := by
  rcases h with ⟨shown, hwanted, hread, hlines⟩
  refine ⟨shown ++ [e], ?_, hread.append (.refl _), ?_⟩
  · rw [List.filter_append]
    exact hwanted.append List.filter_sublist
  · exact List.rel_append hlines (.cons htext .nil)

/-! ## Statements of the listing -/

theorem pathAppend_slash {left : WString} (h : left.head? = some '/') (right : WString) :
    (pathAppend left right).head? = some '/' := by
  have hne : left ≠ [] := by
    rintro rfl
    cases h
  rw [pathAppend_head hne, h]

theorem listPath_head {env : Env} {u : UserNode} {current : WString}
    (hhome : u.homeDirectory.head? = some '/') (hne : listPath env u current cmd ≠ []) :
    (listPath env u current cmd).head? = some '/' := by
  unfold listPath buildPath at hne ⊢
  split
  · dsimp only
    rw [if_pos rfl]
    have hraw : ∀ raw : WString, raw.head? = some '/' →
        ((env.canonical (if raw = "//".toList then "/".toList else raw)).getD
          (if raw = "//".toList then "/".toList else raw)).head? = some '/' := by
      intro raw hraw
      cases hcanonical : env.canonical (if raw = "//".toList then "/".toList else raw) with
      | some path => exact env.canonical_absolute hcanonical
      | none =>
        rw [Option.getD_none]
        split
        · rfl
        · exact hraw
    apply hraw
    split
    · split
      · exact pathAppend_slash hhome _
      · exact pathAppend_slash (pathAppend_slash hhome _) _
    · exact pathAppend_slash hhome _
  · rename_i hempty
    rw [if_neg hempty] at hne
    exact absurd rfl hne

theorem step_build_enters (hoption : (listArguments cmd.args).1.d = false)
    (hv : v.EntersDirectory cmd) {r : StepResult}
    (h : ListStage.build.step v.answers v.node.toSession v.user cmd = .ok r) :
    ∃ path, path.head? = some '/' ∧ r.2.1 = .list cmd (.next path) ∧ linesSent r.2.2 = [] := by
  rcases hv with ⟨u, st, huser, hhome, hst, hdir⟩
  rw [ListStage.step, huser] at h
  dsimp only [deref, liftFault, Except.mapError, bind, Except.bind] at h
  rw [hst] at h
  dsimp only at h
  rw [hoption, hdir, if_neg (by decide)] at h
  cases h
  refine ⟨_, listPath_head hhome ?_, rfl, rfl⟩
  intro hnil
  rw [statusOf, if_pos hnil] at hst
  cases hst

/-- What reading on leads to: the end of the listing, an entry without a line, or one with its
line. -/
inductive ReadsOn (a : Answers) (cmd : Command) (path : WString) : Stage → Prop
  | ended (hentry : a.nextEntry = none) : ReadsOn a cmd path (afterListing cmd)
  | skips {e : DirectoryEntry} (hentry : a.nextEntry = some e) (hstatus : e.status = none) :
      ReadsOn a cmd path (.list cmd (.next path))
  | shows {e : DirectoryEntry} {text : WString} (hentry : a.nextEntry = some e)
      (htext : IsLineOf (listArguments cmd.args).1 e text) :
      ReadsOn a cmd path (.list cmd (.line text (some path)))

-- the path begins with a slash, so that nothing counts as hidden
theorem step_next_reads {path : WString} (hid : cmd.id ≠ .NLST) (hpath : path.head? = some '/')
    {r : StepResult}
    (h : (ListStage.next path).step v.answers v.node.toSession v.user cmd = .ok r) :
    ReadsOn v.answers cmd path r.2.1 ∧ r.2.2 = [] := by
  rw [ListStage.step] at h
  cases hentry : v.answers.nextEntry with
  | none =>
    rw [hentry] at h
    cases h
    exact ⟨.ended hentry, rfl⟩
  | some e =>
    rw [hentry] at h
    dsimp only at h
    have hhead : (pathAppend path e.name).head? ≠ some '.' := by
      rw [pathAppend_slash hpath]
      decide
    rw [if_neg hid, if_pos (.inl hhead)] at h
    split at h
    · rename_i hstatus
      cases h
      exact ⟨.skips hentry hstatus, rfl⟩
    · rename_i st hstatus
      cases h
      exact ⟨.shows hentry ⟨v.answers, st, hstatus, rfl⟩, rfl⟩

theorem step_line_sends {path : WString} (hstat : cmd.id ≠ .STAT) {r : StepResult}
    (h : (ListStage.line text (some path)).step v.answers v.node.toSession v.user cmd = .ok r)
    (hsent : v.answers.sent = true) :
    r.2.1 = .list cmd (.next path) ∧ linesSent r.2.2 = [text] := by
  rw [step_line, if_neg hstat] at h
  rcases eq_ok_of_liftFault_bind h with ⟨-, -, h⟩
  unfold afterLine at h
  dsimp only at h
  split at h
  · rename_i hfailed
    exact absurd hsent (by rw [hfailed.2]; decide)
  · cases h
    exact ⟨rfl, rfl⟩

/-! ## Runs of the listing -/

/-- What holds of the directory read and the lines sent, at each stage that a listing of a directory
gets to. -/
def EntriesShown (cmd : Command) (trace : List (Progress × View)) (log : List ThreadEvent) :
    Stage → Prop
  | .list c .begin | .list c .announce | .list c .build =>
    c = cmd ∧ entriesRead trace = [] ∧ linesSent log = []
  | .list c (.next path) => c = cmd ∧ path.head? = some '/' ∧ ∃ read,
    entriesRead trace = read.map some ∧
      ShowsEntries (listArguments cmd.args).1 read (linesSent log)
  | .list c (.line text (some path)) => c = cmd ∧ path.head? = some '/' ∧ ∃ read e,
    entriesRead trace = (read ++ [e]).map some ∧
      ShowsEntries (listArguments cmd.args).1 read (linesSent log) ∧
      IsLineOf (listArguments cmd.args).1 e text
  | .list _ _ | .store _ | .retrieve _ => False
  | _ => ∃ read, entriesRead trace = read.map some ++ [none] ∧
    ShowsEntries (listArguments cmd.args).1 read (linesSent log)

/-- A bound on the length of the run, as long as it lists. -/
def ListingBounded (trace : List (Progress × View)) (stage : Stage) : Prop :=
  stage.lists = true → trace.length + stage.budget ≤ 8 + 2 * (entriesRead trace).length

theorem entriesRead_cons_of_not (h : p.stage.readsEntry = false) :
    entriesRead ((p, v) :: trace) = entriesRead trace := by
  rw [entriesRead, h, if_neg (by decide), List.append_nil]

theorem entriesShown_list {stage : ListStage} {r : StepResult} (hid : cmd.id ≠ .NLST)
    (hstat : cmd.id ≠ .STAT) (hoption : (listArguments cmd.args).1.d = false)
    (hp : EntriesShown cmd trace log (.list cmd stage))
    (hv : stage = .build → v.EntersDirectory cmd)
    (hsent : (Stage.list cmd stage).sendsLine = true → v.answers.sent = true)
    (h : stage.step v.answers v.node.toSession v.user cmd = .ok r) :
    EntriesShown cmd ((⟨.list cmd stage, log⟩, v) :: trace) (log ++ r.2.2) r.2.1 := by
  have hends : afterListing cmd = .shutDown (.list cmd true) true := if_neg hstat
  cases stage with
  | begin =>
    rw [ListStage.step, if_pos hstat] at h
    cases h
    rcases hp with ⟨-, hread, hlines⟩
    exact ⟨rfl, (entriesRead_cons_of_not rfl).trans hread, by rw [linesSent_append, hlines]; rfl⟩
  | announce =>
    cases h
    rcases hp with ⟨-, hread, hlines⟩
    exact ⟨rfl, (entriesRead_cons_of_not rfl).trans hread, by rw [linesSent_append, hlines]; rfl⟩
  | build =>
    rcases hp with ⟨-, hread, hlines⟩
    rcases step_build_enters hoption (hv rfl) h with ⟨path, hpath, hnext, hnone⟩
    rw [hnext]
    refine ⟨rfl, hpath, [], (entriesRead_cons_of_not rfl).trans hread, ?_⟩
    rw [linesSent_append, hlines, hnone]
    exact .nil
  | next path =>
    rcases hp with ⟨-, hpath, read, hread, hshows⟩
    rcases step_next_reads hid hpath h with ⟨hreads, hquiet⟩
    have hentries : entriesRead ((⟨.list cmd (.next path), log⟩, v) :: trace) =
        read.map some ++ [v.answers.nextEntry] := by
      rw [entriesRead, hread]
      rfl
    rw [hquiet, List.append_nil]
    generalize r.2.1 = next at hreads
    cases hreads with
    | ended hentry =>
      rw [hends]
      exact ⟨read, by rw [hentries, hentry], hshows⟩
    | skips hentry hstatus =>
      refine ⟨rfl, hpath, _, ?_, hshows.skip hstatus⟩
      rw [hentries, hentry, List.map_append]
      rfl
    | shows hentry htext =>
      refine ⟨rfl, hpath, read, _, ?_, hshows, htext⟩
      rw [hentries, hentry, List.map_append]
      rfl
  | line text more =>
    cases more with
    | none => exact hp.elim
    | some path =>
      rcases hp with ⟨-, hpath, read, e, hread, hshows, htext⟩
      rcases step_line_sends hstat h (hsent rfl) with ⟨hnext, hline⟩
      rw [hnext]
      refine ⟨rfl, hpath, read ++ [e], (entriesRead_cons_of_not rfl).trans hread, ?_⟩
      rw [linesSent_append, hline]
      exact hshows.line htext
  | single path st => exact hp.elim
  | endOfStatus => exact hp.elim

-- the closing block sends no line
theorem EntriesShown.close (hp : EntriesShown cmd trace p.log p.stage)
    (hlists : p.stage.lists = false) (h : Advances p v q) :
    EntriesShown cmd ((p, v) :: trace) q.log q.stage ∧ q.stage.lists = false := by
  rcases h with ⟨s, fx, h, hlog⟩
  rcases p with ⟨stage, log⟩
  rw [hlog]
  generalize q.stage = next at h
  dsimp only at hp hlists h
  have hquiet : ∀ read, entriesRead trace = read.map some ++ [none] →
      ShowsEntries (listArguments cmd.args).1 read (linesSent log) → linesSent fx = [] →
      stage.readsEntry = false → ∃ read,
        entriesRead ((⟨stage, log⟩, v) :: trace) = read.map some ++ [none] ∧
        ShowsEntries (listArguments cmd.args).1 read (linesSent (log ++ fx)) := by
    intro read hread hshows hnone hreads
    refine ⟨read, (entriesRead_cons_of_not hreads).trans hread, ?_⟩
    rw [linesSent_append, hnone, List.append_nil]
    exact hshows
  cases stage with
  | list c stage => cases hlists
  | store stage => exact hp.elim
  | retrieve stage => exact hp.elim
  | shutDown job complete =>
    rcases eq_ok_of_liftFault_bind h with ⟨t, -, h⟩
    cases h
    rcases hp with ⟨read, hread, hshows⟩
    exact ⟨hquiet read hread hshows rfl rfl, rfl⟩
  | closeSocket job complete =>
    rcases eq_ok_of_liftFault_bind h with ⟨t, -, h⟩
    cases h
    rcases hp with ⟨read, hread, hshows⟩
    exact ⟨hquiet read hread hshows rfl rfl, rfl⟩
  | finish job complete =>
    rcases hp with ⟨read, hread, hshows⟩
    rw [Stage.step] at h
    split at h
    · cases h
      exact ⟨hquiet read hread hshows rfl rfl, rfl⟩
    · cases h
      exact ⟨hquiet read hread hshows rfl rfl, rfl⟩
  | ended =>
    cases h
    rcases hp with ⟨read, hread, hshows⟩
    exact ⟨hquiet read hread hshows rfl rfl, rfl⟩

theorem ListingBounded.step {stage : ListStage} {r : StepResult}
    (h : stage.step v.answers v.node.toSession v.user cmd = .ok r)
    (hp : ListingBounded trace (.list cmd stage)) :
    ListingBounded ((⟨.list cmd stage, log⟩, v) :: trace) r.2.1 := by
  intro _
  have hbudget := list_budget_lt h
  have hbound := hp rfl
  rw [entriesRead, List.length_append, List.length_cons]
  dsimp only
  cases stage with
  | next path =>
    have hsupplied : (Stage.list cmd (.next path)).supplied v.answers ≤ 2 := by
      show (if v.answers.nextEntry.isSome then 2 else 0) ≤ 2
      split <;> decide
    simp only [Stage.readsEntry, if_true, List.length_singleton]
    omega
  | begin | announce | build | single | line | endOfStatus =>
    simp only [Stage.readsEntry, Bool.false_eq_true, if_false, List.length_nil]
    simp only [Stage.supplied] at hbudget
    omega

theorem entriesShown_run (hid : cmd.id ≠ .NLST) (hstat : cmd.id ≠ .STAT)
    (hoption : (listArguments cmd.args).1.d = false)
    (run : ThreadRun ⟨.list cmd .begin, []⟩ trace p)
    (henters : ∀ x ∈ trace, x.1.stage = .list cmd .build → x.2.EntersDirectory cmd)
    (hsent : ∀ x ∈ trace, x.1.stage.sendsLine = true → x.2.answers.sent = true) :
    EntriesShown cmd trace p.log p.stage ∧ ListingBounded trace p.stage := by
  induction run with
  | refl => exact ⟨⟨rfl, rfl, rfl⟩, fun _ ↦ Nat.le_refl 8⟩
  | @snoc trace p v q before last ih =>
    rcases ih (fun x hx ↦ henters x (List.mem_cons_of_mem _ hx))
      (fun x hx ↦ hsent x (List.mem_cons_of_mem _ hx)) with ⟨hshown, hbounded⟩
    have hv := henters (p, v) List.mem_cons_self
    have hsend := hsent (p, v) List.mem_cons_self
    cases hlists : p.stage.lists with
    | false =>
      rcases hshown.close hlists last with ⟨hshown, hleft⟩
      exact ⟨hshown, fun h ↦ absurd h (by rw [hleft]; decide)⟩
    | true =>
      rcases last with ⟨s, fx, h, hlog⟩
      rcases p with ⟨stage, log⟩
      rcases q with ⟨next, log'⟩
      dsimp only at h hlog hv hshown hbounded hsend hlists
      subst hlog
      cases stage with
      | list c stage =>
        have hc : c = cmd := by
          cases stage with
          | line text more => cases more with
            | none => exact hshown.elim
            | some path => exact hshown.1
          | single | endOfStatus => exact hshown.elim
          | begin | announce | build | next => exact hshown.1
        rw [hc] at hshown hbounded h hv hsend ⊢
        have hbuild : stage = .build → v.EntersDirectory cmd := by
          rintro rfl
          exact hv rfl
        exact ⟨entriesShown_list hid hstat hoption hshown hbuild hsend h, hbounded.step h⟩
      | store stage => exact hshown.elim
      | retrieve stage => exact hshown.elim
      | shutDown | closeSocket | finish | ended => cases hlists

-- a listing that goes on has not read more than the directory holds
theorem ListingBounded.length_lt (h : ListingBounded trace p.stage) (hlists : p.stage.lists = true)
    (hread : entriesRead trace <+: content.map some ++ [none]) :
    trace.length < 2 * content.length + 10 := by
  have hlength := hread.length_le
  have hbudget : 0 < p.stage.budget := by
    cases hstage : p.stage with
    | list c stage =>
      cases stage with
      | line text more => cases more <;> exact Nat.succ_pos _
      | begin | announce | build | single | next | endOfStatus => exact Nat.succ_pos _
    | store | retrieve | shutDown | closeSocket | finish | ended =>
      rw [hstage] at hlists
      cases hlists
  have hbound := h hlists
  rw [List.length_append, List.length_map, List.length_singleton] at hlength
  omega

-- the end of the directory was read, so all of it was
theorem reads_all (h : read.map some ++ [none] <+: content.map some ++ [none]) :
    read = content := by
  induction read generalizing content with
  | nil =>
    cases content with
    | nil => rfl
    | cons e content => cases (List.cons_prefix_cons.mp h).1
  | cons e read ih =>
    cases content with
    | nil => cases (List.cons_prefix_cons.mp h).1
    | cons e' content =>
      rcases List.cons_prefix_cons.mp h with ⟨hhead, hrest⟩
      rw [Option.some_inj.mp hhead, ih hrest]

theorem ShowsEntries.of_entriesShown (h : EntriesShown cmd trace log p.stage)
    (hlists : p.stage.lists = false)
    (hread : entriesRead trace <+: content.map some ++ [none]) :
    ShowsEntries (listArguments cmd.args).1 content (linesSent log) := by
  have hall : ∃ read, entriesRead trace = read.map some ++ [none] ∧
      ShowsEntries (listArguments cmd.args).1 read (linesSent log) := by
    cases hstage : p.stage with
    | list c stage =>
      rw [hstage] at hlists
      cases hlists
    | store stage =>
      rw [hstage] at h
      exact h.elim
    | retrieve stage =>
      rw [hstage] at h
      exact h.elim
    | shutDown | closeSocket | finish | ended =>
      rw [hstage] at h
      exact h
  rcases hall with ⟨read, hentries, hshows⟩
  rw [hentries] at hread
  rw [← reads_all hread]
  exact hshows

/-- A listing of a directory without the option `d`, while all its lines are sent, leaves its loop
when it has read the directory, and has then shown the entries of the directory. -/
theorem list_shows (hid : cmd.id ≠ .NLST) (hstat : cmd.id ≠ .STAT)
    (hoption : (listArguments cmd.args).1.d = false)
    (run : ThreadRun ⟨.list cmd .begin, []⟩ trace p)
    (henters : ∀ x ∈ trace, x.1.stage = .list cmd .build → x.2.EntersDirectory cmd)
    (hread : entriesRead trace <+: content.map some ++ [none])
    (hsent : ∀ x ∈ trace, x.1.stage.sendsLine = true → x.2.answers.sent = true) :
    (p.stage.lists = true → trace.length < 2 * content.length + 10) ∧
    (p.stage.lists = false →
      ShowsEntries (listArguments cmd.args).1 content (linesSent p.log)) := by
  rcases entriesShown_run hid hstat hoption run henters hsent with ⟨hshown, hbounded⟩
  constructor
  · exact fun hlists ↦ hbounded.length_lt hlists hread
  · exact fun hlists ↦ .of_entriesShown hshown hlists hread

end Lines

/-! ## Listings of a small directory -/

/-- The steps that a thread takes while it finds these views one after the other. -/
def Progress.steps : Progress → List View → List (Progress × View)
  | _, [] => []
  | p, v :: vs =>
    match p.stage.step v.answers v.node v.user with
    | .error _ => []
    | .ok (_, stage, fx) => steps ⟨stage, p.log ++ fx⟩ vs ++ [(p, v)]

theorem run_steps {p q : Progress} {vs : List View} (h : p.advance vs = .ok q) :
    ThreadRun p (p.steps vs) q := by
  induction vs generalizing p with
  | nil =>
    cases h
    exact .refl
  | cons v vs ih =>
    cases hstep : p.stage.step v.answers v.node v.user with
    | error fault =>
      rw [Progress.advance, hstep] at h
      cases h
    | ok r =>
      rcases r with ⟨s, stage, fx⟩
      rw [Progress.advance, hstep] at h
      rw [Progress.steps, hstep]
      exact (Theory.Run.refl.snoc ⟨s, fx, hstep, rfl⟩).trans (ih h)

theorem mem_of_mem_steps {p : Progress} {vs : List View} {x : Progress × View}
    (h : x ∈ p.steps vs) : x.2 ∈ vs := by
  induction vs generalizing p with
  | nil => cases h
  | cons v vs ih =>
    unfold Progress.steps at h
    split at h
    · cases h
    · rcases List.mem_append.mp h with h | h
      · exact List.mem_cons_of_mem _ (ih h)
      · rw [List.mem_singleton.mp h]
        exact List.mem_cons_self

namespace Sample

def list (args : WString) : Command := { Command.none with id := .LIST, args }

/-- A directory entry at hand, or none. -/
def entryView (e : Option DirectoryEntry) : View := view { env := env, nextEntry := e }

def readme : DirectoryEntry := ⟨"readme", some ⟨.regularFile, 0o644⟩, none, none⟩

def hidden : DirectoryEntry := ⟨".hidden", some ⟨.regularFile, 0o600⟩, some 3, some 0⟩

/-- An entry whose status cannot be read. -/
def dangling : DirectoryEntry := ⟨"dangling", none, none, none⟩

/-- What a thread finds that comes upon these entries, statement by statement. -/
def entryViews (entries : List (Option DirectoryEntry)) : List View := entries.map entryView

theorem entryView_enters {args : WString} (h : listPath env bob ['/'] (list args) = "/srv/bob//")
    (e : Option DirectoryEntry) : (entryView e).EntersDirectory (list args) := by
  refine ⟨bob, ⟨.directoryFile, 0⟩, rfl, rfl, ?_, rfl⟩
  show statusOf env (listPath env bob ['/'] (list args)) = _
  rw [h]
  rfl

theorem steps_enter {args : WString} (h : listPath env bob ['/'] (list args) = "/srv/bob//")
    {entries : List (Option DirectoryEntry)} {p : Progress} :
    ∀ x ∈ p.steps (entryViews entries), x.2.EntersDirectory (list args) := by
  intro x hx
  rcases List.mem_map.mp (mem_of_mem_steps hx) with ⟨e, -, he⟩
  rw [← he]
  exact entryView_enters h e

theorem entryViews_sent {entries : List (Option DirectoryEntry)} {p : Progress} :
    ∀ x ∈ p.steps (entryViews entries), x.2.answers.sent = true := by
  intro x hx
  rcases List.mem_map.mp (mem_of_mem_steps hx) with ⟨e, -, he⟩
  rw [← he]
  rfl

end Sample

-- a file, which has neither a size nor a time
theorem list_shows_readme : ∃ trace log,
    ThreadRun ⟨.list (Sample.list "-l") .begin, []⟩ trace ⟨.ended, log⟩ ∧
    entriesRead trace = [some Sample.readme, none] ∧
    ShowsEntries { l := true } [Sample.readme] (linesSent log) := by
  have hadvance : Progress.advance ⟨.list (Sample.list "-l") .begin, []⟩
      (Sample.entryViews [none, none, none, some Sample.readme, none, none, none, none, none]) =
      .ok ⟨.ended, _⟩ := rfl
  have run := run_steps hadvance
  have hpath : listPath Sample.env Sample.bob ['/'] (Sample.list "-l") = "/srv/bob//" := rfl
  refine ⟨_, _, run, rfl, ?_⟩
  refine (list_shows (by decide) (by decide) rfl run ?_ ?_ ?_).2 rfl
  · exact fun x hx _ ↦ Sample.steps_enter hpath x hx
  · exact List.prefix_refl _
  · exact fun x hx _ ↦ Sample.entryViews_sent x hx

/-- One line for each wanted entry and no other, with some default where the status cannot be
read. -/
def ShowsWanted (opts : ListOptions) (content : List DirectoryEntry) (lines : List WString) :
    Prop :=
  List.Forall₂ (fun e text ↦ ∃ a st, text = entryLine a opts e (e.status.getD st))
    (content.filter (DirectoryEntry.wanted opts)) lines

/-- A listing of this directory with this argument, all lines of which are sent, does not show the
wanted entries. -/
def MissesWanted (args : WString) (content : List DirectoryEntry) : Prop :=
  ∃ trace log, ThreadRun ⟨.list (Sample.list args) .begin, []⟩ trace ⟨.ended, log⟩ ∧
    (∀ x ∈ trace, x.2.EntersDirectory (Sample.list args)) ∧
    (∀ x ∈ trace, x.2.answers.sent = true) ∧
    entriesRead trace <+: content.map some ++ [none] ∧
    ¬ShowsWanted (listArguments args).1 content (linesSent log)

/-- An entry whose status cannot be read has no line, with the option `d` the directory itself has
one, and a hidden entry has one without the option `a`. -/
theorem list_shows_fails :
    MissesWanted "" [Sample.dangling] ∧ MissesWanted "-d" [] ∧ MissesWanted "" [Sample.hidden] := by
  have hpath : listPath Sample.env Sample.bob ['/'] (Sample.list "") = "/srv/bob//" := rfl
  refine ⟨?_, ?_, ?_⟩
  · have hadvance : Progress.advance ⟨.list (Sample.list "") .begin, []⟩
        (Sample.entryViews [none, none, none, some Sample.dangling, none, none, none, none]) =
        .ok ⟨.ended, _⟩ := rfl
    refine ⟨_, _, run_steps hadvance, Sample.steps_enter hpath, Sample.entryViews_sent,
      List.prefix_refl _, fun h ↦ ?_⟩
    exact absurd h.length_eq (by decide)
  · have hadvance : Progress.advance ⟨.list (Sample.list "-d") .begin, []⟩
        (Sample.entryViews [none, none, none, none, none, none, none, none]) =
        .ok ⟨.ended, _⟩ := rfl
    refine ⟨_, _, run_steps hadvance, Sample.steps_enter rfl, Sample.entryViews_sent,
      List.nil_prefix, fun h ↦ ?_⟩
    exact absurd h.length_eq (by decide)
  · have hadvance : Progress.advance ⟨.list (Sample.list "") .begin, []⟩
        (Sample.entryViews [none, none, none, some Sample.hidden, none, none, none, none, none]) =
        .ok ⟨.ended, _⟩ := rfl
    refine ⟨_, _, run_steps hadvance, Sample.steps_enter hpath, Sample.entryViews_sent,
      List.prefix_refl _, fun h ↦ ?_⟩
    exact absurd h.length_eq (by decide)

end YFtp
