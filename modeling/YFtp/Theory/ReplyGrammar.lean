import Mathlib.Data.List.Basic
import Mathlib.Tactic.Common

/-!
# Reply grammar — lines ended by CR LF, read as replies of a control connection

A reply is one line that begins with a code of three digits and a blank, or several lines of which
the first begins with the code and a hyphen and the last with the code and a blank.  CR and LF stand
at the end of a line and nowhere else, so the lines of a text are determined by it; the rules below
follow from this: when a text is a reply, and when a text that begins a reply can still become one.
-/

namespace YFtp.Theory

abbrev crlf : List UInt8 := [13, 10]

/-- No CR and no LF. -/
def IsText (l : List UInt8) : Prop := 13 ∉ l ∧ 10 ∉ l

instance : DecidablePred IsText := fun _ ↦ inferInstanceAs (Decidable (_ ∧ _))

/-- Lines, each with its end. -/
def ended (lines : List (List UInt8)) : List UInt8 := lines.flatMap (· ++ crlf)

/-- Three digits. -/
def IsCode (code : List UInt8) : Prop := code.length = 3 ∧ ∀ b ∈ code, 48 ≤ b ∧ b ≤ 57

-- over the bytes of the code, not over all 256 bytes
instance : DecidablePred IsCode := fun code ↦
  have : Decidable (∀ b ∈ code, 48 ≤ b ∧ b ≤ 57) := List.decidableBAll _ code
  inferInstanceAs (Decidable (_ ∧ _))

/-- A line between the first and the last line of a reply: it is not empty, and does not end the
reply. -/
def Inner (code l : List UInt8) : Prop := l ≠ [] ∧ ¬ code ++ [32] <+: l

instance (code l : List UInt8) : Decidable (Inner code l) := inferInstanceAs (Decidable (_ ∧ _))

inductive ReplyLines : List (List UInt8) → Prop
  | single {code text} (hcode : IsCode code) : ReplyLines [code ++ 32 :: text]
  | multi {code first inner last} (hcode : IsCode code) (hinner : ∀ l ∈ inner, Inner code l) :
    ReplyLines ((code ++ 45 :: first) :: (inner ++ [code ++ 32 :: last]))

/-- The bytes are one reply. -/
def IsReply (bytes : List UInt8) : Prop :=
  ∃ lines, (∀ l ∈ lines, IsText l) ∧ ReplyLines lines ∧ bytes = ended lines

/-- Whole lines, all of which can stand inside a reply. -/
def Tidy (code bytes : List UInt8) : Prop :=
  ∃ lines, bytes = ended lines ∧ ∀ l ∈ lines, IsText l ∧ Inner code l

/-- The rest of a line, and whole lines behind it that can stand inside a reply. -/
def TidyRest (code bytes : List UInt8) : Prop :=
  ∃ first inner, IsText first ∧ (∀ l ∈ inner, IsText l ∧ Inner code l) ∧
    bytes = first ++ crlf ++ ended inner

/-! ## Lines -/

section Lines

variable {l l' x y : List UInt8} {lines lines' : List (List UInt8)}

@[simp] theorem ended_nil : ended [] = [] := rfl

@[simp] theorem ended_cons : ended (l :: lines) = l ++ crlf ++ ended lines := List.flatMap_cons

@[simp] theorem ended_append : ended (lines ++ lines') = ended lines ++ ended lines' :=
  List.flatMap_append

theorem isText_append : IsText (x ++ y) ↔ IsText x ∧ IsText y := by
  unfold IsText
  simp only [List.mem_append, not_or]
  tauto

theorem IsCode.isText {code : List UInt8} (h : IsCode code) : IsText code := by
  constructor
  · exact fun hmem ↦ absurd (h.2 _ hmem).1 (by decide)
  · exact fun hmem ↦ absurd (h.2 _ hmem).1 (by decide)

/-- A text before a line end lies within the first line. -/
theorem exists_eq_append_of_isText {e : List UInt8} (hx : IsText x)
    (h : x ++ y = l ++ crlf ++ e) : ∃ more, l = x ++ more ∧ y = more ++ crlf ++ e := by
  rw [List.append_assoc, List.append_eq_append_iff] at h
  rcases h with ⟨more, hl, hy⟩ | ⟨c, hx', hy⟩
  · exact ⟨more, hl, by rw [hy, List.append_assoc]⟩
  · cases c with
    | nil =>
      rw [List.append_nil] at hx'
      exact ⟨[], by rw [hx', List.append_nil], hy.symm⟩
    | cons b c =>
      -- otherwise the line end would begin within the text
      have hb : b = 13 := (List.cons.inj hy).1.symm
      rw [hx', hb] at hx
      exact absurd (List.mem_append_right _ List.mem_cons_self) hx.1

theorem line_cancel {e e' : List UInt8} (hl : IsText l) (hl' : IsText l')
    (h : l ++ crlf ++ e = l' ++ crlf ++ e') : l = l' ∧ e = e' := by
  rw [List.append_assoc] at h
  rcases exists_eq_append_of_isText hl h with ⟨more, rfl, hmore⟩
  cases more with
  | nil =>
    refine ⟨(List.append_nil l).symm, ?_⟩
    exact List.append_cancel_left hmore
  | cons b more =>
    have hb : 13 = b := (List.cons.inj hmore).1
    rw [← hb] at hl'
    exact absurd (List.mem_append_right _ List.mem_cons_self) hl'.1

theorem ended_injective (hlines : ∀ l ∈ lines, IsText l) (hlines' : ∀ l ∈ lines', IsText l)
    (h : ended lines = ended lines') : lines = lines' := by
  induction lines generalizing lines' with
  | nil =>
    cases lines' with
    | nil => rfl
    | cons l' lines' => simp at h
  | cons l lines ih =>
    cases lines' with
    | nil => simp at h
    | cons l' lines' =>
      rw [List.forall_mem_cons] at hlines hlines'
      rw [ended_cons, ended_cons] at h
      rcases line_cancel hlines.1 hlines'.1 h with ⟨rfl, hrest⟩
      rw [ih hlines.2 hlines'.2 hrest]

theorem ended_cancel (hlines : ∀ l ∈ lines, IsText l) (hlines' : ∀ l ∈ lines', IsText l)
    (h : ended lines ++ y = ended lines') : ∃ after, lines' = lines ++ after ∧ y = ended after := by
  induction lines generalizing lines' with
  | nil => exact ⟨lines', rfl, h⟩
  | cons l lines ih =>
    cases lines' with
    | nil => simp at h
    | cons l' lines' =>
      rw [List.forall_mem_cons] at hlines hlines'
      rw [ended_cons, ended_cons, List.append_assoc] at h
      rcases line_cancel hlines.1 hlines'.1 h with ⟨rfl, hrest⟩
      rcases ih hlines.2 hlines'.2 hrest with ⟨after, rfl, hy⟩
      exact ⟨after, rfl, hy⟩

/-- A text cut behind a line end falls into whole lines. -/
theorem ended_split (hlines : ∀ l ∈ lines, IsText l) (h : x ++ crlf ++ y = ended lines) :
    ∃ before after, lines = before ++ after ∧ x ++ crlf = ended before ∧ y = ended after := by
  induction lines generalizing x with
  | nil => simp at h
  | cons l lines ih =>
    rw [List.forall_mem_cons] at hlines
    rw [ended_cons, List.append_assoc, List.append_assoc, List.append_eq_append_iff] at h
    rcases h with ⟨c, hl, hy⟩ | ⟨c, rfl, hy⟩
    · cases c with
      | nil =>
        rw [List.append_nil] at hl
        refine ⟨[l], lines, rfl, ?_, ?_⟩
        · rw [hl, ended_cons, ended_nil, List.append_nil]
        · exact List.append_cancel_left hy
      | cons b c =>
        have hb : 13 = b := (List.cons.inj hy).1
        rw [hl, ← hb] at hlines
        exact absurd (List.mem_append_right _ List.mem_cons_self) hlines.1.1
    · -- the line end of `l` comes before the one at the cut
      match c, hy with
      | [], hy =>
        refine ⟨[l], lines, rfl, ?_, ?_⟩
        · rw [List.append_nil, ended_cons, ended_nil, List.append_nil]
        · exact (List.append_cancel_left hy).symm
      | [b], hy => cases hy
      | b :: b' :: c, hy =>
        have hc : ended lines = c ++ crlf ++ y := by
          rw [List.append_assoc]
          exact (List.cons.inj (List.cons.inj hy).2).2
        have hb : b = 13 := (List.cons.inj hy).1.symm
        have hb' : b' = 10 := (List.cons.inj (List.cons.inj hy).2).1.symm
        rcases ih hlines.2 hc.symm with ⟨before, after, rfl, hbefore, hafter⟩
        refine ⟨l :: before, after, rfl, ?_, hafter⟩
        rw [ended_cons, ← hbefore, hb, hb']
        simp

end Lines

/-! ## Replies of one line -/

section Replies

variable {code code' text rest head x more bytes : List UInt8}

theorem isReply_single (hcode : IsCode code) (htext : IsText text) :
    IsReply (code ++ 32 :: (text ++ crlf)) := by
  refine ⟨[code ++ 32 :: text], ?_, .single hcode, ?_⟩
  · rw [List.forall_mem_singleton]
    exact isText_append.mpr ⟨hcode.isText, isText_append (x := [32]).mpr ⟨by decide, htext⟩⟩
  · simp

-- the separator behind the code tells the two kinds apart
theorem code_cancel {b b' : UInt8} (hcode : IsCode code) (hcode' : IsCode code')
    (h : code ++ b :: rest = code' ++ b' :: more) : code = code' ∧ b = b' ∧ rest = more := by
  have hlength : code.length = code'.length := hcode.1.trans hcode'.1.symm
  have hparts := List.append_inj h hlength
  exact ⟨hparts.1, (List.cons.inj hparts.2).1, (List.cons.inj hparts.2).2⟩

theorem IsReply.single (hcode : IsCode code) (h : IsReply (code ++ 32 :: rest)) :
    ∃ text, IsText text ∧ rest = text ++ crlf := by
  rcases h with ⟨lines, hlines, hreply, hbytes⟩
  cases hreply with
  | @single code' text hcode' =>
    rw [ended_cons, ended_nil, List.append_nil, List.append_assoc, List.cons_append] at hbytes
    have hparts := code_cancel hcode hcode' hbytes
    rw [List.forall_mem_singleton, isText_append] at hlines
    exact ⟨text, (isText_append (x := [32]).mp hlines.2).2, hparts.2.2⟩
  | multi hcode' =>
    rw [ended_cons, List.append_assoc, List.append_assoc, List.cons_append] at hbytes
    cases (code_cancel hcode hcode' hbytes).2.1

theorem isReply_single_iff (hcode : IsCode code) :
    IsReply (code ++ 32 :: (text ++ crlf)) ↔ IsText text := by
  constructor
  · intro h
    rcases h.single hcode with ⟨text', htext', heq⟩
    rw [List.append_cancel_right heq]
    exact htext'
  · exact isReply_single hcode

/-- A reply of one line ends with its line. -/
theorem not_isReply_single_append (hcode : IsCode code) (hmore : more ≠ []) :
    ¬ IsReply (code ++ 32 :: (text ++ crlf) ++ more) := by
  intro h
  rw [List.append_assoc, List.cons_append] at h
  rcases h.single hcode with ⟨text', htext', heq⟩
  have hsplit : text ++ crlf ++ more = ended [text'] := by
    rw [heq, ended_cons, ended_nil, List.append_nil]
  rcases ended_split (fun l hl ↦ by rw [List.mem_singleton.mp hl]; exact htext') hsplit with
    ⟨before, after, hlines, hbefore, hafter⟩
  rcases List.append_eq_singleton_iff.mp hlines.symm with ⟨rfl, -⟩ | ⟨-, rfl⟩
  · simp at hbefore
  · exact hmore hafter

/-! ## Replies of several lines -/

/-- What begins like a reply of several lines: a line between the two others, if whole, and its
end. -/
theorem IsReply.multi (hcode : IsCode code) (h : IsReply (code ++ 45 :: rest)) :
    ∃ first inner last, (∀ l ∈ inner, IsText l ∧ Inner code l) ∧ IsText first ∧ IsText last ∧
      rest = first ++ crlf ++ ended inner ++ (code ++ 32 :: (last ++ crlf)) := by
  rcases h with ⟨lines, hlines, hreply, hbytes⟩
  cases hreply with
  | single hcode' =>
    rw [ended_cons, List.append_assoc, List.append_assoc, List.cons_append] at hbytes
    cases (code_cancel hcode hcode' hbytes).2.1
  | @multi code' first inner last hcode' hinner =>
    rw [ended_cons, List.append_assoc, List.append_assoc, List.cons_append] at hbytes
    rcases code_cancel hcode hcode' hbytes with ⟨rfl, -, hrest⟩
    rw [List.forall_mem_cons, List.forall_mem_append, List.forall_mem_singleton, isText_append,
      isText_append] at hlines
    refine ⟨first, inner, last, fun l hl ↦ ⟨hlines.2.1 l hl, hinner l hl⟩,
      (isText_append (x := [45]).mp hlines.1.2).2, (isText_append (x := [32]).mp hlines.2.2.2).2, ?_⟩
    rw [hrest]
    simp

theorem isReply_multi {first last : List UInt8} {inner : List (List UInt8)} (hcode : IsCode code)
    (hfirst : IsText first) (hinner : ∀ l ∈ inner, IsText l ∧ Inner code l) (hlast : IsText last) :
    IsReply (code ++ 45 :: (first ++ crlf ++ ended inner ++ (code ++ 32 :: (last ++ crlf)))) := by
  refine ⟨(code ++ 45 :: first) :: (inner ++ [code ++ 32 :: last]), ?_,
    .multi hcode fun l hl ↦ (hinner l hl).2, ?_⟩
  · rw [List.forall_mem_cons, List.forall_mem_append, List.forall_mem_singleton, isText_append,
      isText_append]
    exact ⟨⟨hcode.isText, isText_append (x := [45]).mpr ⟨by decide, hfirst⟩⟩,
      fun l hl ↦ (hinner l hl).1, hcode.isText, isText_append (x := [32]).mpr ⟨by decide, hlast⟩⟩
  · simp

/-! ## A reply that is sent in pieces -/

-- the first line of what follows the head, with the lines behind it
theorem Tidy.cases (h : Tidy code bytes) : bytes = [] ∨ TidyRest code bytes := by
  rcases h with ⟨lines, rfl, hlines⟩
  cases lines with
  | nil => exact .inl rfl
  | cons first inner =>
    rw [List.forall_mem_cons] at hlines
    exact .inr ⟨first, inner, hlines.1.1, hlines.2, ended_cons⟩

theorem inner_of_head {b : UInt8} (hcode : IsCode code) (hb : code.head? ≠ some b)
    (l : List UInt8) : Inner code (b :: l) := by
  refine ⟨List.cons_ne_nil _ _, fun hprefix ↦ ?_⟩
  cases code with
  | nil => cases hcode.1
  | cons d code =>
    have hd : d = b := (List.cons_prefix_cons.mp hprefix).1
    exact hb (congrArg some hd)

/-- Lines that begin with a text that is no code. -/
theorem tidy_append_iff {b : UInt8} (hcode : IsCode code) (hb : code.head? ≠ some b)
    (htext : IsText (b :: text)) : Tidy code (b :: text ++ rest) ↔ TidyRest code rest := by
  constructor
  · rintro ⟨lines, hbytes, hlines⟩
    cases lines with
    | nil => cases hbytes
    | cons l inner =>
      rw [List.forall_mem_cons] at hlines
      rw [ended_cons] at hbytes
      rcases exists_eq_append_of_isText htext hbytes with ⟨first, rfl, hrest⟩
      exact ⟨first, inner, (isText_append.mp hlines.1.1).2, hlines.2, hrest⟩
  · rintro ⟨first, inner, hfirst, hinner, rfl⟩
    refine ⟨(b :: text ++ first) :: inner, ?_, ?_⟩
    · rw [ended_cons]
      simp only [List.append_assoc]
    · rw [List.forall_mem_cons]
      exact ⟨⟨isText_append.mpr ⟨htext, hfirst⟩, inner_of_head hcode hb _⟩, hinner⟩

/-- A rest of one line. -/
theorem tidyRest_of_isText (htext : IsText text) : TidyRest code (text ++ crlf) :=
  ⟨text, [], htext, List.forall_mem_nil _, by simp⟩

theorem Tidy.append {more : List UInt8} (h : Tidy code bytes) (hmore : Tidy code more) :
    Tidy code (bytes ++ more) := by
  rcases h with ⟨lines, rfl, hlines⟩
  rcases hmore with ⟨lines', rfl, hlines'⟩
  refine ⟨lines ++ lines', ended_append.symm, ?_⟩
  rw [List.forall_mem_append]
  exact ⟨hlines, hlines'⟩

theorem tidy_nil : Tidy code [] := ⟨[], rfl, List.forall_mem_nil _⟩

/-- Pieces that make up whole lines can be followed by the last line. -/
theorem isReply_closed (hcode : IsCode code) (hhead : IsText head) (hbytes : Tidy code bytes)
    (hne : bytes ≠ []) {last : List UInt8} (hlast : IsText last) :
    IsReply (code ++ 45 :: (head ++ bytes ++ (code ++ 32 :: (last ++ crlf)))) := by
  rcases hbytes.cases with rfl | ⟨first, inner, hfirst, hinner, rfl⟩
  · exact absurd rfl hne
  · have hreply := isReply_multi hcode (isText_append.mpr ⟨hhead, hfirst⟩) hinner hlast
    simp only [List.append_assoc] at hreply ⊢
    exact hreply

/-- Without a piece in between there is no second line. -/
theorem not_isReply_closed (hcode : IsCode code) (hhead : IsText head) {last : List UInt8}
    (hlast : IsText last) :
    ¬ IsReply (code ++ 45 :: (head ++ (code ++ 32 :: (last ++ crlf)))) := by
  intro h
  rcases h.multi hcode with ⟨first, inner, last', hinner, hfirst, hlast', heq⟩
  have hline : IsText (head ++ (code ++ 32 :: last)) := by
    rw [isText_append, isText_append]
    exact ⟨hhead, hcode.isText, isText_append (x := [32]).mpr ⟨by decide, hlast⟩⟩
  have hone : (head ++ (code ++ 32 :: last)) ++ crlf ++ [] =
      first ++ crlf ++ (ended inner ++ (code ++ 32 :: (last' ++ crlf))) := by
    simp only [List.append_assoc] at heq ⊢
    rw [← heq]
    simp
  have hnil := (line_cancel hline hfirst hone).2
  simp at hnil

/-- Pieces that make up whole lines are not a reply yet. -/
theorem not_isReply_open (hcode : IsCode code) (hhead : IsText head) (hbytes : Tidy code bytes) :
    ¬ IsReply (code ++ 45 :: (head ++ bytes)) := by
  intro h
  rcases h.multi hcode with ⟨first, inner, last, hinner, hfirst, hlast, heq⟩
  rcases hbytes.cases with rfl | ⟨first', inner', hfirst', hinner', rfl⟩
  · rw [List.append_nil] at heq
    have hmem : 13 ∈ head := by
      rw [heq]
      simp
    exact hhead.1 hmem
  · have hline : IsText (head ++ first') := isText_append.mpr ⟨hhead, hfirst'⟩
    have hlast' : IsText (code ++ 32 :: last) :=
      isText_append.mpr ⟨hcode.isText, isText_append (x := [32]).mpr ⟨by decide, hlast⟩⟩
    have hlines : (head ++ first') ++ crlf ++ ended inner' =
        first ++ crlf ++ ended (inner ++ [code ++ 32 :: last]) := by
      simp only [List.append_assoc] at heq ⊢
      rw [heq]
      simp
    have hrest := ended_injective (fun l hl ↦ (hinner' l hl).1)
      (fun l hl ↦ by
        rcases List.mem_append.mp hl with hl | hl
        · exact (hinner l hl).1
        · rw [List.mem_singleton.mp hl]
          exact hlast')
      (line_cancel hline hfirst hlines).2
    -- the last line would stand inside
    have hinside := hinner' (code ++ 32 :: last) (by rw [hrest]; simp)
    apply hinside.2.2
    rw [List.append_cons code 32 last]
    exact List.prefix_append _ _

/-- A piece with its line end keeps a reply open exactly when it makes up whole lines that can stand
inside the reply.  The piece begins neither like a code nor with a line end. -/
theorem continues_iff {b : UInt8} (hcode : IsCode code) (hhead : IsText head)
    (hbytes : Tidy code bytes) (hb : b ≠ 13) (hb' : code.head? ≠ some b) :
    (∃ more, more ≠ [] ∧ IsReply (code ++ 45 :: (head ++ bytes ++ (b :: x ++ crlf) ++ more))) ↔
      Tidy code (b :: x ++ crlf) := by
  constructor
  · rintro ⟨more, hmore, h⟩
    rcases h.multi hcode with ⟨first, inner, last, hinner, hfirst, hlast, heq⟩
    have hlines : ∀ l ∈ first :: (inner ++ [code ++ 32 :: last]), IsText l := by
      rw [List.forall_mem_cons, List.forall_mem_append, List.forall_mem_singleton, isText_append]
      exact ⟨hfirst, fun l hl ↦ (hinner l hl).1, hcode.isText,
        isText_append (x := [32]).mpr ⟨by decide, hlast⟩⟩
    have hcut : head ++ bytes ++ b :: x ++ crlf ++ more =
        ended (first :: (inner ++ [code ++ 32 :: last])) := by
      simp only [List.append_assoc, List.cons_append] at heq ⊢
      rw [heq]
      simp
    rcases ended_split hlines hcut with ⟨before, after, hboth, hbefore, hafter⟩
    cases before with
    | nil => simp at hbefore
    | cons first' inner' =>
      rcases List.cons.inj hboth with ⟨rfl, htail⟩
      have htail : inner ++ [code ++ 32 :: last] = inner' ++ after := htail
      -- `more` takes the last line at least
      have hinner' : ∀ l ∈ inner', IsText l ∧ Inner code l := by
        intro l hl
        apply hinner l
        have hne : after ≠ [] := by
          rintro rfl
          exact hmore hafter
        have hall : inner = inner' ++ after.dropLast := by
          rw [← List.dropLast_append_of_ne_nil hne, ← htail, List.dropLast_concat]
        rw [hall]
        exact List.mem_append_left _ hl
      rw [ended_cons] at hbefore
      rcases hbytes.cases with rfl | ⟨first', inner₀, hfirst', hinner₀, rfl⟩
      · -- the piece goes on with the first line
        rw [List.append_nil, List.append_assoc] at hbefore
        rcases exists_eq_append_of_isText hhead hbefore with ⟨begun, rfl, hpiece⟩
        refine ⟨begun :: inner', by rw [hpiece, ended_cons], ?_⟩
        rw [List.forall_mem_cons]
        refine ⟨⟨(isText_append.mp hfirst).2, ?_⟩, hinner'⟩
        cases begun with
        | nil => exact absurd (List.cons.inj hpiece).1 hb
        | cons b' begun =>
          have hbegun : b = b' := (List.cons.inj hpiece).1
          exact inner_of_head hcode (hbegun ▸ hb') begun
      · have hline : IsText (head ++ first') := isText_append.mpr ⟨hhead, hfirst'⟩
        simp only [← List.append_assoc] at hbefore
        have hsame : head ++ first' ++ crlf ++ (ended inner₀ ++ (b :: x ++ crlf)) =
            first ++ crlf ++ ended inner' := by
          simp only [← List.append_assoc]
          exact hbefore
        have hrest := (line_cancel hline hfirst hsame).2
        rcases ended_cancel (fun l hl ↦ (hinner₀ l hl).1) (fun l hl ↦ (hinner' l hl).1) hrest with
          ⟨pieces, rfl, hpieces⟩
        exact ⟨pieces, hpieces, fun l hl ↦ hinner' l (List.mem_append_right _ hl)⟩
  · intro h
    refine ⟨code ++ 32 :: ([] ++ crlf), by simp, ?_⟩
    have hclosed := isReply_closed hcode hhead (hbytes.append h) (by simp)
      (show IsText [] by decide)
    simp only [List.append_assoc] at hclosed ⊢
    exact hclosed

end Replies

end YFtp.Theory
