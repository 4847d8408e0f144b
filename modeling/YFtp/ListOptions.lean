import Mathlib.Data.List.TakeWhile
import YFtp.Workers
import YFtp.Theory.Scanning

/-!
# The option loops of `list_thread`

The nested loops that take the options off the argument, with the pointer they share, and what they
compute for every argument.
-/

namespace YFtp

open Theory

/-! ## The loops -/

def nul : Char := '\x00'

/-- There is nothing to read behind the terminating NUL. -/
inductive ScanFault
  | pastTerminator
deriving DecidableEq, Repr

/-- The character at `args.c_str() + i`.  A NUL inside the string terminates it. -/
def charAt (args : WString) (i : Nat) : Except ScanFault Char :=
  if nul ∈ args.take i then .error .pastTerminator
  else match (args ++ [nul])[i]? with
    | some c => .ok c
    | none => .error .pastTerminator

/-- The loop whose condition is next. -/
inductive OptionLoop
  | options | letters | spaces | done
deriving DecidableEq, Repr

/-- `pszArg`, as an offset into the argument, and the options found so far.  An empty argument, which
the source leaves alone, is no case of its own: its first character is the NUL. -/
structure OptionScan where
  loop : OptionLoop := .options
  pszArg : Nat := 0
  opts : ListOptions := {}
deriving DecidableEq, Repr

namespace OptionScan

/-- A condition of the loops with what follows from it, up to the next condition. -/
def step (args : WString) (st : OptionScan) : Except ScanFault OptionScan :=
  match st.loop with
  | .options => do
    let c ← charAt args st.pszArg
    .ok { st with loop := if c = '-' then .letters else .done }
  | .letters => do
    -- the pointer moves before the test
    let c ← charAt args (st.pszArg + 1)
    .ok (if c.isAlphanum then { st with pszArg := st.pszArg + 1, opts := st.opts.set c }
      else { st with pszArg := st.pszArg + 1, loop := .spaces })
  | .spaces => do
    let c ← charAt args st.pszArg
    .ok (if iswspace c then { st with pszArg := st.pszArg + 1 } else { st with loop := .options })
  | .done => .ok st

end OptionScan

/-! ## The options that an argument begins with -/

section Arguments

variable {args w w' : WString} {o : ListOptions} {c : Char} {m n i : Nat}

def IsOptions : WString → Prop := Groups '-' (Char.isAlphanum · = true) (iswspace · = true)

/-- The options whose letters occur. -/
def ListOptions.of (w : WString) : ListOptions :=
  { a := 'a' ∈ w, d := 'd' ∈ w, F := 'F' ∈ w, l := 'l' ∈ w }

theorem ListOptions.set_of_not_alphanum (h : c.isAlphanum = false) : o.set c = o := by
  unfold ListOptions.set
  rw [if_neg, if_neg, if_neg, if_neg]
  all_goals
    rintro rfl
    revert h
    decide

theorem ListOptions.foldl_set_of_not_alphanum (h : ∀ c ∈ w, c.isAlphanum = false) :
    w.foldl ListOptions.set o = o := by
  induction w with
  | nil => rfl
  | cons c w ih =>
    rw [List.forall_mem_cons] at h
    rw [List.foldl_cons, ListOptions.set_of_not_alphanum h.1, ih h.2]

theorem ListOptions.foldl_set : w.foldl ListOptions.set o =
    { a := o.a || (of w).a, d := o.d || (of w).d, F := o.F || (of w).F, l := o.l || (of w).l } := by
  induction w generalizing o with
  | nil => simp [of]
  | cons c w ih =>
    rw [List.foldl_cons, ih]
    unfold ListOptions.set
    split
    · simp_all [of]
    · split
      · simp_all [of]
      · split
        · simp_all [of]
        · split
          · simp_all [of]
          · simp_all [of, eq_comm]

theorem isAlphanum_eq_false_of_iswspace (h : iswspace c = true) : c.isAlphanum = false := by
  unfold iswspace at h
  simp only [Bool.or_eq_true, decide_eq_true_eq] at h
  rcases h with ((((rfl | rfl) | rfl) | rfl) | rfl) | rfl <;> rfl

theorem scanLetters_eq : scanLetters w o =
    ((w.takeWhile Char.isAlphanum).foldl ListOptions.set o, w.dropWhile Char.isAlphanum) := by
  induction w generalizing o with
  | nil => rfl
  | cons c w ih =>
    rw [scanLetters]
    split
    · rename_i hc
      rw [ih, List.takeWhile_cons_of_pos hc, List.dropWhile_cons_of_pos hc, List.foldl_cons]
    · rename_i hc
      rw [List.takeWhile_cons_of_neg hc, List.dropWhile_cons_of_neg hc]
      rfl

-- every round takes a hyphen, so the bound does not matter
theorem scanOptions_congr (hm : w.length ≤ m) (hn : w.length ≤ n) :
    scanOptions m w o = scanOptions n w o := by
  induction m generalizing n w o with
  | zero =>
    rw [List.length_eq_zero_iff.mp (Nat.le_zero.mp hm)]
    cases n <;> rfl
  | succ m ih =>
    cases w with
    | nil => cases n <;> rfl
    | cons c w =>
      rw [List.length_cons] at hm hn
      cases n with
      | zero => omega
      | succ n =>
        by_cases hc : c = '-'
        · rw [hc, scanOptions, scanOptions]
          have hle : ((scanLetters w o).2.dropWhile iswspace).length ≤ w.length := by
            rw [scanLetters_eq]
            exact (List.dropWhile_suffix _).length_le.trans (List.dropWhile_suffix _).length_le
          exact ih (by omega) (by omega)
        · rw [scanOptions, scanOptions]
          all_goals
            rintro _ _ _ h
            cases h
            exact hc rfl

/-- The options and what they leave, whatever has been found before. -/
def takeOptions (w : WString) (o : ListOptions) : ListOptions × WString := scanOptions w.length w o

theorem takeOptions_hyphen : takeOptions ('-' :: w) o =
    takeOptions ((w.dropWhile Char.isAlphanum).dropWhile iswspace)
      ((w.takeWhile Char.isAlphanum).foldl ListOptions.set o) := by
  unfold takeOptions
  rw [List.length_cons, scanOptions, scanLetters_eq]
  apply scanOptions_congr _ le_rfl
  exact (List.dropWhile_suffix _).length_le.trans (List.dropWhile_suffix _).length_le

theorem takeOptions_other (h : w.head? ≠ some '-') : takeOptions w o = (o, w) := by
  unfold takeOptions
  cases w with
  | nil => rfl
  | cons c w =>
    rw [List.length_cons, scanOptions]
    rintro _ _ _ hw
    cases hw
    exact h rfl

theorem head?_dropWhile {p : Char → Bool} : ∀ c ∈ (w.dropWhile p).head?, ¬ p c = true := by
  intro c hc
  have hall := List.head?_dropWhile_not p w
  rw [Option.mem_def.mp hc] at hall
  rw [hall]
  exact Bool.false_ne_true

theorem takeOptions_scanned : ∃ skipped, w = skipped ++ (takeOptions w o).2 ∧
    Scanned '-' (Char.isAlphanum · = true) (iswspace · = true) skipped (takeOptions w o).2 ∧
    (takeOptions w o).1 = skipped.foldl ListOptions.set o := by
  induction hlength : w.length using Nat.strong_induction_on generalizing w o with
  | _ n ih =>
    by_cases hhead : w.head? = some '-'
    · rcases List.head?_eq_some_iff.mp hhead with ⟨w, rfl⟩
      rw [takeOptions_hyphen]
      have hletters : w.takeWhile Char.isAlphanum ++ w.dropWhile Char.isAlphanum = w :=
        List.takeWhile_append_dropWhile
      have hspaces : (w.dropWhile Char.isAlphanum).takeWhile iswspace ++
          (w.dropWhile Char.isAlphanum).dropWhile iswspace = w.dropWhile Char.isAlphanum :=
        List.takeWhile_append_dropWhile
      have hshorter : ((w.dropWhile Char.isAlphanum).dropWhile iswspace).length < n := by
        rw [← hlength, List.length_cons, Nat.lt_succ_iff]
        exact (List.dropWhile_suffix _).length_le.trans (List.dropWhile_suffix _).length_le
      rcases ih _ hshorter (o := (w.takeWhile Char.isAlphanum).foldl ListOptions.set o) rfl with
        ⟨skipped, hw, hscanned, hopts⟩
      refine ⟨'-' :: (w.takeWhile Char.isAlphanum ++
        ((w.dropWhile Char.isAlphanum).takeWhile iswspace ++ skipped)), ?_, ?_, ?_⟩
      · rw [List.cons_append, List.append_assoc, List.append_assoc, ← hw, hspaces, hletters]
      · apply Scanned.group _ _ _ _ hscanned
        · exact fun c hc ↦ List.mem_takeWhile_imp hc
        · exact fun c hc ↦ List.mem_takeWhile_imp hc
        · rw [← hw, hspaces]
          exact head?_dropWhile
        · rw [← hw]
          exact head?_dropWhile
      · rw [hopts, List.foldl_cons, List.foldl_append, List.foldl_append,
          ListOptions.set_of_not_alphanum (c := '-') rfl]
        congr 1
        exact (ListOptions.foldl_set_of_not_alphanum fun c hc ↦
          isAlphanum_eq_false_of_iswspace (List.mem_takeWhile_imp hc)).symm
    · rw [takeOptions_other hhead]
      exact ⟨[], rfl, .stop hhead, rfl⟩

/-! ## What the loops compute -/

theorem charAt_eq (hbefore : nul ∉ args.take i) (hi : i ≤ args.length) :
    charAt args i = .ok ((args.drop i).head?.getD nul) := by
  unfold charAt
  rw [if_neg hbefore, List.head?_drop]
  rcases Nat.lt_or_eq_of_le hi with hlt | rfl
  · rw [List.getElem?_append_left hlt, List.getElem?_eq_getElem hlt]
    rfl
  · rw [List.getElem?_append_right le_rfl, Nat.sub_self, List.getElem?_eq_none le_rfl]
    rfl

namespace OptionScan

variable {st : OptionScan}

/-- What is left to compute. -/
def remaining (args : WString) (st : OptionScan) : ListOptions × WString :=
  match st.loop with
  | .options => takeOptions (args.drop st.pszArg) st.opts
  | .letters => takeOptions ('-' :: args.drop (st.pszArg + 1)) st.opts
  | .spaces => takeOptions ((args.drop st.pszArg).dropWhile iswspace) st.opts
  | .done => (st.opts, args.drop st.pszArg)

/-- The pointer has not passed a NUL; in the loop over the letters it is not at one either. -/
structure Inside (args : WString) (st : OptionScan) : Prop where
  before : nul ∉ args.take st.pszArg
  bounded : st.pszArg ≤ args.length
  at_letter : st.loop = .letters →
    nul ∉ args.take (st.pszArg + 1) ∧ st.pszArg + 1 ≤ args.length
  computes : st.remaining args = listArguments args

def rank (args : WString) (st : OptionScan) : Nat :=
  match st.loop with
  | .options => 3 * (args.length - st.pszArg) + 1
  | .letters => 3 * (args.length - st.pszArg)
  | .spaces => 3 * (args.length - st.pszArg) + 2
  | .done => 0

-- a character that is read and is not NUL has a place in front of the NUL
theorem inside_succ (hbefore : nul ∉ args.take i) (hi : i ≤ args.length)
    (hc : (args.drop i).head?.getD nul ≠ nul) :
    args.drop i = (args.drop i).head?.getD nul :: args.drop (i + 1) ∧
      nul ∉ args.take (i + 1) ∧ i + 1 ≤ args.length := by
  rcases Nat.lt_or_eq_of_le hi with hlt | rfl
  · rw [List.head?_drop, List.getElem?_eq_getElem hlt, Option.getD_some] at hc ⊢
    refine ⟨List.drop_eq_getElem_cons hlt, ?_, hlt⟩
    rw [List.take_succ_eq_append_getElem hlt, List.mem_append, List.mem_singleton, not_or]
    exact ⟨hbefore, fun h ↦ hc h.symm⟩
  · rw [List.drop_length] at hc
    exact absurd rfl hc

theorem step_options (hc : charAt args i = .ok c) :
    step args ⟨.options, i, o⟩ = .ok (if c = '-' then ⟨.letters, i, o⟩ else ⟨.done, i, o⟩) := by
  show (charAt args i >>= _) = _
  rw [hc]
  by_cases h : c = '-'
  · rw [if_pos h]
    show Except.ok (OptionScan.mk (if c = '-' then _ else _) i o) = _
    rw [if_pos h]
  · rw [if_neg h]
    show Except.ok (OptionScan.mk (if c = '-' then _ else _) i o) = _
    rw [if_neg h]

theorem step_letters (hc : charAt args (i + 1) = .ok c) : step args ⟨.letters, i, o⟩ =
    .ok (if c.isAlphanum then ⟨.letters, i + 1, o.set c⟩ else ⟨.spaces, i + 1, o⟩) := by
  show (charAt args (i + 1) >>= _) = _
  rw [hc]
  rfl

theorem step_spaces (hc : charAt args i = .ok c) :
    step args ⟨.spaces, i, o⟩ = .ok (if iswspace c then ⟨.spaces, i + 1, o⟩ else ⟨.options, i, o⟩) := by
  show (charAt args i >>= _) = _
  rw [hc]
  rfl

/-- A round that does not fail, and goes on nearer to the end. -/
def Goes (args : WString) (st : OptionScan) : Prop :=
  ∃ t, st.step args = .ok t ∧ t.Inside args ∧ t.rank args < st.rank args

theorem options_goes (h : Inside args ⟨.options, i, o⟩) : Goes args ⟨.options, i, o⟩ := by
  rcases h with ⟨hbefore, hbounded, -, hcomputes⟩
  refine ⟨_, step_options (charAt_eq hbefore hbounded), ?_⟩
  by_cases hc : (args.drop i).head?.getD nul = '-'
  · rcases inside_succ hbefore hbounded (by rw [hc]; decide) with ⟨hdrop, hbefore', hbounded'⟩
    rw [if_pos hc]
    refine ⟨⟨hbefore, hbounded, fun _ ↦ ⟨hbefore', hbounded'⟩, ?_⟩, Nat.lt_succ_self _⟩
    rw [← hcomputes]
    show takeOptions _ _ = takeOptions (args.drop i) _
    rw [hdrop, hc]
  · rw [if_neg hc]
    refine ⟨⟨hbefore, hbounded, nofun, ?_⟩, Nat.succ_pos _⟩
    rw [← hcomputes]
    refine (takeOptions_other fun hhead ↦ hc ?_).symm
    rw [hhead]
    rfl

theorem letters_goes (h : Inside args ⟨.letters, i, o⟩) : Goes args ⟨.letters, i, o⟩ := by
  rcases h with ⟨-, -, hletter, hcomputes⟩
  have hnext : nul ∉ args.take (i + 1) ∧ i + 1 ≤ args.length := hletter rfl
  rcases hnext with ⟨hbefore, hbounded⟩
  refine ⟨_, step_letters (charAt_eq hbefore hbounded), ?_⟩
  replace hcomputes := takeOptions_hyphen.symm.trans hcomputes
  by_cases hc : ((args.drop (i + 1)).head?.getD nul).isAlphanum = true
  · rcases inside_succ hbefore hbounded (fun h ↦ by rw [h] at hc; revert hc; decide) with
      ⟨hdrop, hbefore', hbounded'⟩
    rw [if_pos hc]
    refine ⟨⟨hbefore, hbounded, fun _ ↦ ⟨hbefore', hbounded'⟩, ?_⟩, ?_⟩
    · rw [← hcomputes, hdrop, List.takeWhile_cons_of_pos hc, List.dropWhile_cons_of_pos hc,
        List.foldl_cons, ← takeOptions_hyphen, ← hdrop]
      rfl
    · show 3 * (args.length - (i + 1)) < 3 * (args.length - i)
      omega
  · rw [if_neg hc]
    refine ⟨⟨hbefore, hbounded, nofun, ?_⟩, ?_⟩
    · have hnone : (args.drop (i + 1)).takeWhile Char.isAlphanum = [] ∧
          (args.drop (i + 1)).dropWhile Char.isAlphanum = args.drop (i + 1) := by
        cases hdrop : args.drop (i + 1) with
        | nil => exact ⟨rfl, rfl⟩
        | cons c w =>
          rw [hdrop] at hc
          exact ⟨List.takeWhile_cons_of_neg hc, List.dropWhile_cons_of_neg hc⟩
      rw [← hcomputes, hnone.1, hnone.2]
      rfl
    · show 3 * (args.length - (i + 1)) + 2 < 3 * (args.length - i)
      omega

theorem spaces_goes (h : Inside args ⟨.spaces, i, o⟩) : Goes args ⟨.spaces, i, o⟩ := by
  rcases h with ⟨(hbefore : nul ∉ args.take i), (hbounded : i ≤ args.length), -, hcomputes⟩
  refine ⟨_, step_spaces (charAt_eq hbefore hbounded), ?_⟩
  replace hcomputes : takeOptions ((args.drop i).dropWhile iswspace) o = _ := hcomputes
  by_cases hc : iswspace ((args.drop i).head?.getD nul) = true
  · rcases inside_succ hbefore hbounded (fun h ↦ by rw [h] at hc; revert hc; decide) with
      ⟨hdrop, hbefore', hbounded'⟩
    rw [if_pos hc]
    refine ⟨⟨hbefore', hbounded', nofun, ?_⟩, ?_⟩
    · rw [← hcomputes, hdrop, List.dropWhile_cons_of_pos hc]
      rfl
    · show 3 * (args.length - (i + 1)) + 2 < 3 * (args.length - i) + 2
      omega
  · rw [if_neg hc]
    refine ⟨⟨hbefore, hbounded, nofun, ?_⟩, Nat.lt_succ_self _⟩
    have hnone : (args.drop i).dropWhile iswspace = args.drop i := by
      cases hdrop : args.drop i with
      | nil => rfl
      | cons c w =>
        rw [hdrop] at hc
        exact List.dropWhile_cons_of_neg hc
    rw [← hcomputes, hnone]
    rfl

theorem step_goes (h : st.Inside args) (hrun : st.loop ≠ .done) : st.Goes args := by
  rcases st with ⟨loop, i, o⟩
  cases loop with
  | options => exact options_goes h
  | letters => exact letters_goes h
  | spaces => exact spaces_goes h
  | done => exact absurd rfl hrun

theorem rounds_inside (args : WString) : ∃ i o,
    rounds (step args) (3 * args.length + 1) {} = .ok ⟨.done, i, o⟩ ∧
      Inside args ⟨.done, i, o⟩ := by
  have hbegin : Inside args {} := by
    refine ⟨?_, Nat.zero_le _, nofun, rfl⟩
    rw [List.take_zero]
    exact List.not_mem_nil
  rcases rounds_done (·.loop = .done) (rank args) (n := 3 * args.length + 1)
    (fun {s} hs ↦ by rw [step, hs]) (fun hi hd ↦ step_goes hi hd) hbegin le_rfl with
    ⟨⟨loop, i, o⟩, hrounds, hinside, rfl⟩
  exact ⟨i, o, hrounds, hinside⟩

end OptionScan

/-- For every argument the loops end, read nothing behind its NUL, and take as many options as there
are. -/
theorem list_thread_options (args : WString) : ∃ pszArg ≤ args.length,
    rounds (OptionScan.step args) (3 * args.length + 1) {} =
      .ok ⟨.done, pszArg, .of (args.take pszArg)⟩ ∧
    nul ∉ args.take pszArg ∧ (args.drop pszArg).head? ≠ some '-' ∧
    IsOptions (args.take pszArg) ∧ (∀ p, p <+: args → IsOptions p → p <+: args.take pszArg) ∧
    listArguments args = (.of (args.take pszArg), args.drop pszArg) := by
  rcases OptionScan.rounds_inside args with ⟨i, o, hrounds, hinside⟩
  rcases takeOptions_scanned (w := args) (o := {}) with ⟨skipped, hsplit, hscanned, hopts⟩
  have hcomputes : (o, args.drop i) = takeOptions args {} := hinside.computes
  rw [← hcomputes] at hsplit hscanned hopts
  have hskipped : skipped = args.take i := by
    apply (List.append_left_inj (args.drop i)).mp
    rw [List.take_append_drop]
    exact hsplit.symm
  have ho : o = .of (args.take i) := by
    show (o, args.drop i).1 = _
    rw [hopts, hskipped, ListOptions.foldl_set]
    rfl
  rw [hskipped] at hscanned hsplit
  rw [ho] at hrounds hcomputes
  refine ⟨i, hinside.bounded, hrounds, hinside.before, hscanned.head?_rest, hscanned.groups, ?_,
    hcomputes.symm⟩
  intro p hp hoptions
  exact hscanned.longest (by decide) (by decide) hoptions (hsplit ▸ hp)

end Arguments

end YFtp
