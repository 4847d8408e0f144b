import YFtp.ListLines
import YFtp.ThreadRecords
import YFtp.Timestamps

/-!
# List columns

What a client can tell of a file from its line in a listing.  The fields in front of the name stand
in columns, so that the name is what follows them, whatever characters it is made of.
-/

namespace YFtp

open Theory

/-! ## Reading a line -/

/-- The time of the day, or the year. -/
inductive When
  | clock (hour min : Nat)
  | year (year : Nat)
deriving DecidableEq, Repr

/-- What a line says. -/
structure ListedFile where
  kind : Char
  permissions : Nat
  size : Nat
  month : Nat
  day : Nat
  time : When
  name : WString
deriving DecidableEq, Repr

section Columns

variable {w n : Nat} {last : Int}

/-- The year, or the time of the day, that a line shows. -/
def whenOf (now last : Int) : When :=
  if now - last > 180 * 24 * 60 * 60 then .year (gmtime last).year.toNat
  else .clock (gmtime last).hour (gmtime last).min

end Columns

/-! ## Permissions -/

section Permissions

variable {permissions : Nat}

end Permissions

/-! ## Lines -/

section Lines

variable {now last : Int} {size : Nat} {kind : Char} {letters name : WString}

/-- What the line of a directory entry is to say. -/
def DirectoryEntry.listed (a : Answers) (opts : ListOptions) (e : DirectoryEntry)
    (st : FileStatus) : ListedFile where
  kind := typeLetter st
  permissions := st.permissions &&& 0o777
  size := if isRegularFile st then e.fileSize.getD 0 else 0
  month := (gmtime (e.lastWriteTime.getD 0)).mon
  day := (gmtime (e.lastWriteTime.getD 0)).mday
  time := whenOf a.now (e.lastWriteTime.getD 0)
  name := e.name ++ if opts.F && isDirectory st then ['/'] else []

end Lines

/-! ## Runs -/

/-- The line is made at this step of `list_thread`: of an entry, or of the argument of the
command. -/
inductive LineOf (cmd : Command) (x : Progress × View) (text : WString) : Prop
  | entry {path e st} (hstage : x.1.stage = .list cmd (.next path))
      (hentry : x.2.answers.nextEntry = some e) (hstatus : e.status = some st)
      (htext : text = entryLine x.2.answers (listArguments cmd.args).1 e st)
  | alone {path st name} (hstage : x.1.stage = .list cmd (.single path st))
      (hname : cmd.id ≠ .STAT → name = ['.'])
      (htext : text = singleLine x.2.answers (listArguments cmd.args).1 path st name)

/-- The status of the path was found at one of the steps. -/
def StatusFound (trace : List (Progress × View)) (path : WString) (st : FileStatus) : Prop :=
  ∃ y ∈ trace, statusOf y.2.answers.env path = some st

/-- The line at hand was made at one of the steps, and what is known of the argument was found. -/
def LineAtHand (cmd : Command) (trace : List (Progress × View)) : Stage → Prop
  | .list c stage => c = cmd ∧
    (∀ text more, stage = .line text more → ∃ x ∈ trace, LineOf cmd x text) ∧
    ∀ path st, stage = .single path st → StatusFound trace path st
  | .store _ | .retrieve _ => False
  | _ => True

/-- What the record of `list_thread` is made of. -/
structure Listing (cmd : Command) (trace : List (Progress × View)) (p : Progress) : Prop where
  hand : LineAtHand cmd trace p.stage
  sent : ∀ text sent, .line text sent ∈ p.log → ∃ x ∈ trace, LineOf cmd x text
  found : ∀ x ∈ trace, ∀ path st, x.1.stage = .list cmd (.single path st) →
    StatusFound trace path st

section Runs

variable {cmd c : Command} {a : Answers} {s s' : Session} {user : Option UserNode}
  {text path : WString} {more : Option WString} {fx log : List ThreadEvent}
  {trace : List (Progress × View)} {p q : Progress} {v : View} {st : FileStatus}

theorem StatusFound.cons (h : StatusFound trace path st) (x : Progress × View) :
    StatusFound (x :: trace) path st := by
  rcases h with ⟨y, hy, hst⟩
  exact ⟨y, List.mem_cons_of_mem _ hy, hst⟩

-- a step that sends no line
theorem Listing.keep {next : Stage} (h : Listing cmd trace p)
    (hand : LineAtHand cmd ((p, v) :: trace) next)
    (hquiet : ∀ text sent, .line text sent ∈ fx →
      ∃ x ∈ (p, v) :: trace, LineOf cmd x text) :
    Listing cmd ((p, v) :: trace) ⟨next, p.log ++ fx⟩ := by
  refine ⟨hand, ?_, ?_⟩
  · intro text sent hline
    rcases List.mem_append.mp hline with hline | hline
    · rcases h.sent text sent hline with ⟨x, hx, hlineOf⟩
      exact ⟨x, List.mem_cons_of_mem _ hx, hlineOf⟩
    · exact hquiet text sent hline
  · intro x hx path st hstage
    rcases List.mem_cons.mp hx with rfl | hx
    · have hhand := h.hand
      dsimp only at hstage
      rw [hstage] at hhand
      exact (hhand.2.2 path st rfl).cons _
    · exact (h.found x hx path st hstage).cons _

end Runs

namespace Sample

end Sample

end YFtp
