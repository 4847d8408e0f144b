import YFtp.Theory.ReplyGrammar
import YFtp.Exchanges

/-!
# Well-formed replies

The bytes that go out on the control connection for a command: each text that is sent is one reply,
or the pieces of a listing over the control connection make up one together.
-/

namespace YFtp

open Theory

/-! ## Bytes -/

/-- `ws2utf8`. -/
def ws2utf8 (src : WString) : List UInt8 := src.flatMap String.utf8EncodeChar

theorem ws2utf8_append (a b : WString) : ws2utf8 (a ++ b) = ws2utf8 a ++ ws2utf8 b :=
  List.flatMap_append

theorem ws2utf8_cons (c : Char) (w : WString) :
    ws2utf8 (c :: w) = String.utf8EncodeChar c ++ ws2utf8 w := List.flatMap_cons

/-- A byte below 128 stands for the character of that value only. -/
theorem mem_utf8EncodeChar {b : UInt8} (hb : b < 128) (c : Char) :
    b ∈ String.utf8EncodeChar c ↔ c.val.toNat = b.toNat := by
  have hvalid : c.val.toNat < 1114112 := by
    rcases c.valid with h | h
    · exact Nat.lt_trans h (by decide)
    · exact h.2
  have hsmall : b.toNat < 128 := hb
  have hofNat : ∀ n < 256, b = UInt8.ofNat n ↔ b.toNat = n := by
    intro n hn
    rw [← UInt8.toNat_inj, UInt8.toNat_ofNat', Nat.mod_eq_of_lt hn]
  unfold String.utf8EncodeChar
  dsimp only
  split
  · rw [List.mem_singleton, hofNat _ (by omega), eq_comm]
  · split
    · simp only [List.mem_cons, List.not_mem_nil, or_false]
      rw [hofNat _ (by omega), hofNat _ (by omega)]
      omega
    · split
      · simp only [List.mem_cons, List.not_mem_nil, or_false]
        rw [hofNat _ (by omega), hofNat _ (by omega), hofNat _ (by omega)]
        omega
      · simp only [List.mem_cons, List.not_mem_nil, or_false]
        rw [hofNat _ (by omega), hofNat _ (by omega), hofNat _ (by omega), hofNat _ (by omega)]
        omega

theorem mem_ws2utf8 {c : Char} (hc : c.val.toNat < 128) (w : WString) :
    UInt8.ofNat c.val.toNat ∈ ws2utf8 w ↔ c ∈ w := by
  have hbyte : (UInt8.ofNat c.val.toNat).toNat = c.val.toNat := by
    rw [UInt8.toNat_ofNat', Nat.mod_eq_of_lt (by omega)]
  have hb : UInt8.ofNat c.val.toNat < 128 := by
    rw [UInt8.lt_iff_toNat_lt, hbyte]
    exact hc
  unfold ws2utf8
  rw [List.mem_flatMap]
  constructor
  · rintro ⟨d, hd, hmem⟩
    rw [mem_utf8EncodeChar hb, hbyte, UInt32.toNat_inj] at hmem
    rw [← Char.ext hmem]
    exact hd
  · intro hmem
    refine ⟨c, hmem, ?_⟩
    rw [mem_utf8EncodeChar hb, hbyte]

theorem isText_ws2utf8 {w : WString} : IsText (ws2utf8 w) ↔ Plain w := by
  have hcr := mem_ws2utf8 (c := '\r') (by decide) w
  have hlf := mem_ws2utf8 (c := '\n') (by decide) w
  exact and_congr (not_congr hcr) (not_congr hlf)

/-! ## The line of a command -/

theorem toNat_ofNat {n : Nat} (h : n.isValidChar) : (Char.ofNat n).toNat = n := by
  unfold Char.ofNat
  rw [dif_pos h]
  rfl

theorem ofNat_ne {n : Nat} {c : Char} (hn : 128 ≤ n) (hc : c.toNat < 128) (hpos : 0 < c.toNat) :
    c ≠ Char.ofNat n := by
  intro h
  by_cases hvalid : n.isValidChar
  · rw [h, toNat_ofNat hvalid] at hc
    omega
  · rw [h, Char.ofNat, dif_neg hvalid] at hpos
    exact absurd hpos (by decide)

/-- An ASCII character of a decoded line is a byte of the line. -/
theorem mem_utf82ws {line : List UInt8} {c : Char} (hc : c.toNat < 128) (hpos : 0 < c.toNat)
    {text : WString} (h : utf82ws line = some text) (hmem : c ∈ text) :
    UInt8.ofNat c.toNat ∈ line := by
  have hlarge {n : Nat} {rest : WString} (hn : 128 ≤ n) (hmem : c ∈ Char.ofNat n :: rest) :
      c ∈ rest := (List.mem_cons.mp hmem).resolve_left (ofNat_ne hn hc hpos)
  fun_induction utf82ws line generalizing text with
  | case1 =>
    cases h
    cases hmem
  | case2 b rest hb ih =>
    rcases Option.map_eq_some_iff.mp h with ⟨text', htext', rfl⟩
    rcases List.mem_cons.mp hmem with rfl | hmem
    · have hvalid : b.toNat.isValidChar := by
        have hlt : b.toNat < 128 := hb
        left
        omega
      rw [toNat_ofNat hvalid, UInt8.ofNat_toNat]
      exact List.mem_cons_self
    · exact List.mem_cons_of_mem _ (ih htext' hmem)
  | case4 b _ hlead _ b₁ rest hcont ih =>
    rcases Option.map_eq_some_iff.mp h with ⟨text', htext', rfl⟩
    have hlow : 194 ≤ b.toNat := UInt8.not_lt.mp hlead
    have hrest := ih htext' (hlarge (by omega) hmem)
    exact List.mem_cons_of_mem _ (List.mem_cons_of_mem _ hrest)
  | case7 b _ _ _ _ b₁ b₂ rest point hpoint =>
    rename_i ih
    rcases Option.map_eq_some_iff.mp h with ⟨text', htext', rfl⟩
    simp only [Bool.and_eq_true, decide_eq_true_iff] at hpoint
    have hrest := ih htext' (hlarge (by omega) hmem)
    exact List.mem_cons_of_mem _ (List.mem_cons_of_mem _ (List.mem_cons_of_mem _ hrest))
  | case10 b _ _ _ _ _ b₁ b₂ b₃ rest point hpoint =>
    rename_i ih
    rcases Option.map_eq_some_iff.mp h with ⟨text', htext', rfl⟩
    simp only [Bool.and_eq_true, decide_eq_true_iff] at hpoint
    have hrest := ih htext' (hlarge (by omega) hmem)
    exact List.mem_cons_of_mem _ (List.mem_cons_of_mem _ (List.mem_cons_of_mem _
      (List.mem_cons_of_mem _ hrest)))
  | _ => cases h

-- a line without CR and LF has none after it is decoded
theorem plain_of_utf82ws {line : List UInt8} (hline : IsText line) {text : WString}
    (h : utf82ws line = some text) : Plain text := by
  constructor
  · exact fun hmem ↦ hline.1 (mem_utf82ws (c := '\r') (by decide) (by decide) h hmem)
  · exact fun hmem ↦ hline.2 (mem_utf82ws (c := '\n') (by decide) (by decide) h hmem)

/-! ## Replies of one line -/

/-- The bytes of the texts that are sent. -/
def bytesOf (texts : List WString) : List UInt8 := ws2utf8 texts.flatten

theorem bytesOf_cons (t : WString) (texts : List WString) :
    bytesOf (t :: texts) = ws2utf8 t ++ bytesOf texts := ws2utf8_append ..

theorem bytesOf_append (texts texts' : List WString) :
    bytesOf (texts ++ texts') = bytesOf texts ++ bytesOf texts' := by
  unfold bytesOf
  rw [List.flatten_append, ws2utf8_append]

/-- What has been sent is whole replies: each text is one, or all of them together are. -/
def WholeReplies (texts : List WString) : Prop :=
  (∀ t ∈ texts, IsReply (ws2utf8 t)) ∨ IsReply (bytesOf texts)

/-- What has been sent is whole replies, or can become one by what follows. -/
def BegunReplies (texts : List WString) : Prop :=
  (∀ t ∈ texts, IsReply (ws2utf8 t)) ∨ ∃ more, more ≠ [] ∧ IsReply (bytesOf texts ++ more)

theorem utf8EncodeChar_digit {c : Char} (h : c.isDigit = true) :
    ∃ b, 48 ≤ b ∧ b ≤ 57 ∧ String.utf8EncodeChar c = [b] := by
  have hrange : 48 ≤ c.val.toNat ∧ c.val.toNat ≤ 57 := by
    rw [Char.isDigit, Bool.and_eq_true, decide_eq_true_iff, decide_eq_true_iff] at h
    exact h
  refine ⟨UInt8.ofNat c.val.toNat, ?_, ?_, ?_⟩
  · rw [UInt8.le_iff_toNat_le, UInt8.toNat_ofNat', Nat.mod_eq_of_lt (by omega)]
    exact hrange.1
  · rw [UInt8.le_iff_toNat_le, UInt8.toNat_ofNat', Nat.mod_eq_of_lt (by omega)]
    exact hrange.2
  · unfold String.utf8EncodeChar
    dsimp only
    rw [if_pos (by omega)]

theorem ws2utf8_digits {w : WString} (h : ∀ c ∈ w, c.isDigit = true) :
    (ws2utf8 w).length = w.length ∧ ∀ b ∈ ws2utf8 w, 48 ≤ b ∧ b ≤ 57 := by
  induction w with
  | nil => exact ⟨rfl, List.forall_mem_nil _⟩
  | cons c w ih =>
    rw [List.forall_mem_cons] at h
    rcases utf8EncodeChar_digit h.1 with ⟨b, hlow, hhigh, hb⟩
    rcases ih h.2 with ⟨hlength, hall⟩
    rw [ws2utf8_cons, hb, List.singleton_append, List.length_cons, List.length_cons, hlength,
      List.forall_mem_cons]
    exact ⟨rfl, ⟨hlow, hhigh⟩, hall⟩

theorem isCode_decimal {code : Nat} (hlow : 100 ≤ code) (hhigh : code < 600) :
    IsCode (ws2utf8 (decimal code)) := by
  rcases ws2utf8_digits (w := decimal code)
    fun _ hc ↦ Nat.isDigit_of_mem_toDigits (by decide) (by decide) hc with ⟨hlength, hall⟩
  refine ⟨?_, hall⟩
  have hle : (decimal code).length ≤ 3 :=
    (Nat.length_toDigits_le_iff (by decide) (by decide)).mpr (by omega)
  have hlt : ¬ (decimal code).length ≤ 2 := by
    rw [decimal, Nat.length_toDigits_le_iff (by decide) (by decide)]
    omega
  rw [hlength]
  omega

theorem ws2utf8_create {code : Nat} (text : WString) (hcode : 0 < code) :
    ws2utf8 (Reply.create code text).content =
      ws2utf8 (decimal code) ++ 32 :: (ws2utf8 text ++ crlf) := by
  unfold Reply.create
  dsimp only
  rw [if_pos hcode, ws2utf8_append, ws2utf8_append, ws2utf8_cons, List.append_assoc]
  rfl

section Create

variable {code : Nat} {text : WString} {texts : List WString}

theorem isReply_create_iff (hlow : 100 ≤ code) (hhigh : code < 600) :
    IsReply (ws2utf8 (Reply.create code text).content) ↔ Plain text := by
  rw [ws2utf8_create text (by omega), isReply_single_iff (isCode_decimal hlow hhigh),
    isText_ws2utf8]

theorem bytesOf_ne_nil (hne : texts ≠ []) (hempty : ∀ t ∈ texts, t ≠ []) : bytesOf texts ≠ [] := by
  cases texts with
  | nil => exact absurd rfl hne
  | cons t texts =>
    rw [List.forall_mem_cons] at hempty
    rw [bytesOf_cons]
    cases t with
    | nil => exact absurd rfl hempty.1
    | cons c t =>
      rw [ws2utf8_cons, List.append_assoc]
      exact List.append_ne_nil_of_left_ne_nil String.utf8EncodeChar_ne_nil _

theorem wholeReplies_create_cons_iff (hlow : 100 ≤ code) (hhigh : code < 600)
    (hempty : ∀ t ∈ texts, t ≠ []) :
    WholeReplies ((Reply.create code text).content :: texts) ↔
      Plain text ∧ ∀ t ∈ texts, IsReply (ws2utf8 t) := by
  unfold WholeReplies
  rw [List.forall_mem_cons, isReply_create_iff hlow hhigh]
  constructor
  · rintro (hall | htogether)
    · exact hall
    · by_cases hone : texts = []
      · rw [hone] at htogether ⊢
        have hbytes : bytesOf [(Reply.create code text).content] =
            ws2utf8 (Reply.create code text).content := congrArg ws2utf8 (List.append_nil _)
        rw [hbytes, isReply_create_iff hlow hhigh] at htogether
        exact ⟨htogether, List.forall_mem_nil _⟩
      · rw [bytesOf_cons, ws2utf8_create text (by omega)] at htogether
        exact absurd htogether (not_isReply_single_append (isCode_decimal hlow hhigh)
          (bytesOf_ne_nil hone hempty))
  · exact .inl

theorem begunReplies_create_cons_iff (hlow : 100 ≤ code) (hhigh : code < 600) :
    BegunReplies ((Reply.create code text).content :: texts) ↔
      Plain text ∧ ∀ t ∈ texts, IsReply (ws2utf8 t) := by
  unfold BegunReplies
  rw [List.forall_mem_cons, isReply_create_iff hlow hhigh]
  constructor
  · rintro (hall | ⟨more, hmore, htogether⟩)
    · exact hall
    · rw [bytesOf_cons, ws2utf8_create text (by omega), List.append_assoc] at htogether
      exact absurd htogether (not_isReply_single_append (isCode_decimal hlow hhigh)
        (List.append_ne_nil_of_right_ne_nil _ hmore))
  · exact .inl

end Create

/-! ## `process_command` -/

namespace Exchange

/-- Everything that has been sent is whole replies; while a worker goes on, it can become one. -/
def WellFormed : Exchange → Prop
  | .taken _ _ _ => True
  | .working _ texts => BegunReplies texts
  | .answered texts _ | .crashed texts => WholeReplies texts

section Begun

variable {announced : List WString} {arg text : WString} {code : Nat} {reply : Reply}
  {fx : List Effect} {job : Job}

theorem begun_wellFormed_iff (h : startedJobs fx = []) :
    (begun reply fx).WellFormed ↔ WholeReplies (textsOf reply fx) := by
  unfold begun
  rw [h]
  exact Iff.rfl

theorem begun_wellFormed_unanswered (h : Unanswered reply fx) : (begun reply fx).WellFormed := by
  rw [begun_wellFormed_iff h.jobs, h.texts]
  exact .inl (List.forall_mem_nil _)

theorem begun_wellFormed_create_iff (hlow : 100 ≤ code) (hhigh : code < 600)
    (h : startedJobs fx = []) (htexts : textsOf reply fx = [(Reply.create code text).content]) :
    (begun reply fx).WellFormed ↔ Plain text := by
  rw [begun_wellFormed_iff h, htexts, wholeReplies_create_cons_iff hlow hhigh (List.forall_mem_nil _)]
  exact and_iff_left (List.forall_mem_nil _)

theorem begun_wellFormed_proper (harg : Plain arg) (h : Proper arg reply fx) :
    (begun reply fx).WellFormed := by
  rcases h.texts with ⟨code, text, hcode, htext, htexts⟩
  rw [begun_wellFormed_create_iff hcode.le hcode.2 h.jobs htexts]
  exact htext harg

theorem begun_wellFormed_properAfter_iff (hlow : 100 ≤ code) (hhigh : code < 600)
    (harg : Plain arg) (h : ProperAfter [(Reply.create code text).content] arg reply fx) :
    (begun reply fx).WellFormed ↔ Plain text := by
  rcases h.texts with ⟨code', text', hcode', htext', htexts⟩
  have hempty : ∀ t ∈ [(Reply.create code' text').content], t ≠ [] := by
    rw [List.forall_mem_singleton]
    intro hnil
    have hnot := Reply.create_not_empty text' hcode'.pos
    unfold Reply.empty at hnot
    rw [hnil] at hnot
    cases hnot
  have hfinal : IsReply (ws2utf8 (Reply.create code' text').content) :=
    (isReply_create_iff hcode'.le hcode'.2).mpr (htext' harg)
  rw [begun_wellFormed_iff h.jobs, htexts]
  apply (wholeReplies_create_cons_iff hlow hhigh hempty).trans
  rw [List.forall_mem_singleton]
  exact and_iff_left hfinal

theorem begun_wellFormed_starts (h : Starts [] job reply fx) : (begun reply fx).WellFormed := by
  unfold begun
  rw [h.jobs, h.texts]
  exact .inl (List.forall_mem_nil _)

theorem begun_wellFormed_starts_iff (hlow : 100 ≤ code) (hhigh : code < 600)
    (h : Starts [(Reply.create code text).content] job reply fx) :
    (begun reply fx).WellFormed ↔ Plain text := by
  unfold begun
  rw [h.jobs, h.texts]
  apply (begunReplies_create_cons_iff hlow hhigh).trans
  exact and_iff_left (List.forall_mem_nil _)

end Begun

end Exchange

/-- The reply to FEAT has several lines. -/
theorem isReply_featText : IsReply (ws2utf8 FtpServer.featText) := by
  have hcode : IsCode (ws2utf8 "211") := by decide
  have hinner : ∀ l ∈ [" MDTM", " SIZE", " UTF8", " AUTH TLS", " PBSZ", " PROT"].map
      (fun l ↦ ws2utf8 (String.toList l)), Inner (ws2utf8 "211") l := by decide
  exact ⟨_, by decide, @ReplyLines.multi _ (ws2utf8 "Features:") _ (ws2utf8 "End") hcode hinner,
    by decide⟩

namespace Session

/-- The `n`-th path that STOU tries. -/
def triedPath (env : Env) (s : Session) (u : UserNode) (n : Nat) : WString :=
  buildPath env.canonical u.homeDirectory s.currentDirectory
    ("file.".toList ++ decimal (env.rand n))

/-- From the `tried`-th path on, the next `n` are taken and the one behind them is free. -/
def FirstFree (env : Env) (s : Session) (u : UserNode) (tried n : Nat) : Prop :=
  (∀ m < n, (env.getFileStatus (s.triedPath env u (tried + m))).isSome) ∧
    env.getFileStatus (s.triedPath env u (tried + n)) = none

section Search

variable {env : Env} {s : Session} {u : UserNode} {left tried n : Nat}

theorem firstFree_iff_of_free (hfree : env.getFileStatus (s.triedPath env u tried) = none) :
    s.FirstFree env u tried n ↔ n = 0 := by
  constructor
  · intro h
    by_contra hne
    have hsome := h.1 0 (Nat.pos_of_ne_zero hne)
    rw [Nat.add_zero, hfree] at hsome
    cases hsome
  · rintro rfl
    exact ⟨fun m hm ↦ absurd hm (Nat.not_lt_zero m), hfree⟩

theorem firstFree_zero : s.FirstFree env u tried 0 ↔
    env.getFileStatus (s.triedPath env u tried) = none :=
  and_iff_right fun m hm ↦ absurd hm (Nat.not_lt_zero m)

theorem firstFree_succ (htaken : (env.getFileStatus (s.triedPath env u tried)).isSome) :
    s.FirstFree env u tried (n + 1) ↔ s.FirstFree env u (tried + 1) n := by
  have hnext (m : Nat) : tried + 1 + m = tried + (m + 1) := by omega
  unfold FirstFree
  rw [hnext]
  apply and_congr_left'
  constructor
  · intro h m hm
    rw [hnext]
    exact h (m + 1) (Nat.succ_lt_succ hm)
  · intro h m hm
    cases m with
    | zero => exact htaken
    | succ m =>
      rw [← hnext]
      exact h m (Nat.lt_of_succ_lt_succ hm)

-- the search ends at the first path where there is no file
theorem searchUniqueName_iff {unique : WString} :
    (∃ searched, searchUniqueName env u.homeDirectory s.currentDirectory left tried =
      .ok (unique, searched)) ↔
      ∃ n < left, s.FirstFree env u tried n ∧ unique = s.triedPath env u (tried + n) := by
  induction left generalizing tried with
  | zero =>
    constructor
    · rintro ⟨searched, h⟩
      cases h
    · rintro ⟨n, hn, -⟩
      exact absurd hn (Nat.not_lt_zero n)
  | succ left ih =>
    have hpath : buildPath env.canonical u.homeDirectory s.currentDirectory
        ("file.".toList ++ decimal (env.rand tried)) = s.triedPath env u tried := rfl
    rw [searchUniqueName]
    dsimp only
    rw [hpath]
    cases hstatus : env.getFileStatus (s.triedPath env u tried) with
    | none =>
      rw [Option.isSome_none, if_neg Bool.false_ne_true]
      simp only [firstFree_iff_of_free hstatus]
      constructor
      · rintro ⟨searched, h⟩
        cases h
        exact ⟨0, Nat.succ_pos left, rfl, rfl⟩
      · rintro ⟨n, -, rfl, hunique⟩
        rw [hunique]
        exact ⟨_, rfl⟩
    | some st =>
      have htaken : (env.getFileStatus (s.triedPath env u tried)).isSome := by
        rw [hstatus]
        rfl
      rw [Option.isSome_some, if_pos rfl]
      have hnext (n : Nat) : tried + 1 + n = tried + (n + 1) := by omega
      constructor
      · rintro ⟨searched, h⟩
        rcases eq_ok_of_bind h with ⟨⟨found, effects⟩, hfound, h⟩
        cases h
        rcases ih.mp ⟨effects, hfound⟩ with ⟨n, hn, hfirst, hunique⟩
        rw [hnext] at hunique
        exact ⟨n + 1, Nat.succ_lt_succ hn, (firstFree_succ htaken).mpr hfirst, hunique⟩
      · rintro ⟨n, hn, hfirst, hunique⟩
        cases n with
        | zero =>
          have hfree := firstFree_zero.mp hfirst
          rw [hstatus] at hfree
          cases hfree
        | succ n =>
          rw [← hnext] at hunique
          rcases ih.mpr ⟨n, Nat.lt_of_succ_lt_succ hn, (firstFree_succ htaken).mp hfirst, hunique⟩
            with ⟨searched, hfound⟩
          rw [hfound]
          exact ⟨_, rfl⟩

end Search

end Session

namespace FtpServer

variable {build : Build} {env : Env} {σ : FtpServer} {c : ClientRef} {cmd : Command}

/-- What the switch puts into its replies besides its own texts and the argument is of one line:
SIZE finds no size, and the current directory in the reply to PWD and the first free path that STOU
comes to hold no CR and no LF. -/
def AnswersWell (env : Env) (σ : FtpServer) (c : ClientRef) (cmd : Command) : Prop :=
  let s := (σ.nodes c).toSession
  let user := (σ.nodes c).user.map σ.userManager.users
  match cmd.id with
  | .SIZE => ∀ size, ¬ s.Sizes env user cmd.args size
  | .PWD => Plain s.currentDirectory
  | .STOU => ∀ u n, s.StoresTo env σ.sslContext user cmd u → n < env.tries →
      (∀ m < n, (env.getFileStatus (s.triedPath env u m)).isSome) →
      env.getFileStatus (s.triedPath env u n) = none → Plain (s.triedPath env u n)
  | _ => True

/-- The announcement of STOR, APPE and STOU. -/
theorem store_wellFormed_iff {reply : Reply} {fx : List Effect} (harg : Plain cmd.args)
    {s : Session} {user : Option UserNode}
    (h : Proper cmd.args reply fx ∧ (∀ u, ¬ s.StoresTo env σ.sslContext user cmd u) ∨
      ∃ u, s.StoresTo env σ.sslContext user cmd u ∧
        if u.homeDirectory = [] ∨ s.currentDirectory = [] then Unanswered reply fx
        else ∃ unique, s.UniqueName env cmd u unique ∧
          (ProperAfter [Session.storeAnnouncement cmd unique] cmd.args reply fx ∨
            Starts [Session.storeAnnouncement cmd unique] .store reply fx)) :
    (Exchange.begun reply fx).WellFormed ↔
      ∀ u unique, s.StoresTo env σ.sslContext user cmd u → u.homeDirectory ≠ [] →
        s.currentDirectory ≠ [] → s.UniqueName env cmd u unique →
        Plain (if cmd.id = .STOU then "FILE: ".toList ++ unique
          else "Opening data connection.".toList) := by
  rcases h with ⟨hproper, hnever⟩ | ⟨u, hstores, htexts⟩
  · exact iff_of_true (Exchange.begun_wellFormed_proper harg hproper)
      fun u unique hstores ↦ absurd hstores (hnever u)
  · split at htexts
    · rename_i hempty
      apply iff_of_true (Exchange.begun_wellFormed_unanswered htexts)
      intro u' unique hstores' hhome hcurrent
      rw [hstores.unique hstores'] at hhome
      exact absurd hempty (not_or.mpr ⟨hhome, hcurrent⟩)
    · rename_i hpath
      rcases htexts with ⟨unique, hunique, htexts⟩
      have hiff : (Exchange.begun reply fx).WellFormed ↔ Plain (if cmd.id = .STOU then
          "FILE: ".toList ++ unique else "Opening data connection.".toList) := by
        rcases htexts with hproper | hstarts
        · exact Exchange.begun_wellFormed_properAfter_iff (by decide) (by decide) harg hproper
        · exact Exchange.begun_wellFormed_starts_iff (by decide) (by decide) hstarts
      rw [hiff]
      constructor
      · rintro hplain u' unique' hstores' - - hunique'
        rw [hstores.unique hstores'] at hunique'
        rcases hunique with ⟨searched, hsearch⟩
        rcases hunique' with ⟨searched', hsearch'⟩
        rw [hsearch] at hsearch'
        cases hsearch'
        exact hplain
      · exact fun hall ↦ hall u unique hstores (not_or.mp hpath).1 (not_or.mp hpath).2 hunique

theorem wellFormed_iff_answersWell {reply : Reply} {fx : List Effect} (harg : Plain cmd.args)
    (h : Texts build env σ c cmd reply fx) :
    (Exchange.begun reply fx).WellFormed ↔ AnswersWell env σ c cmd := by
  unfold Texts at h
  unfold AnswersWell
  cases hid : cmd.id with
  | USER | SITE =>
    rw [hid] at h
    apply iff_of_true _ trivial
    dsimp only at h
    split at h
    · exact Exchange.begun_wellFormed_unanswered h
    · exact Exchange.begun_wellFormed_proper harg h
  | ABOR =>
    rw [hid] at h
    apply iff_of_true _ trivial
    dsimp only at h
    split at h
    · exact Exchange.begun_wellFormed_proper harg h
    · exact (Exchange.begun_wellFormed_properAfter_iff (by decide) (by decide) harg h).mpr
        (by decide)
  | SIZE =>
    rw [hid] at h
    dsimp only at h ⊢
    rcases h with ⟨hproper, hnone⟩ | ⟨size, hsize, hjobs, htexts⟩
    · exact iff_of_true (Exchange.begun_wellFormed_proper harg hproper) hnone
    · apply iff_of_false _ fun hnone ↦ hnone size hsize
      rw [Exchange.begun_wellFormed_create_iff (by decide) (by decide) hjobs htexts, plain_append]
      exact fun hplain ↦ absurd hplain.2 (by decide)
  | LIST | NLST | MLSD =>
    rw [hid] at h
    apply iff_of_true _ trivial
    rcases h with hproper | hstarts
    · exact Exchange.begun_wellFormed_proper harg hproper
    · exact Exchange.begun_wellFormed_starts hstarts
  | STAT =>
    rw [hid] at h
    apply iff_of_true _ trivial
    rcases h with hproper | ⟨-, hstarts⟩
    · exact Exchange.begun_wellFormed_proper harg hproper
    · exact Exchange.begun_wellFormed_starts hstarts
  | RETR =>
    rw [hid] at h
    apply iff_of_true _ trivial
    rcases h with hproper | hproper | hstarts
    · exact Exchange.begun_wellFormed_proper harg hproper
    · exact (Exchange.begun_wellFormed_properAfter_iff (by decide) (by decide) harg hproper).mpr
        (by decide)
    · exact (Exchange.begun_wellFormed_starts_iff (by decide) (by decide) hstarts).mpr (by decide)
  | STOR | APPE =>
    rw [hid] at h
    apply iff_of_true _ trivial
    apply (store_wellFormed_iff harg h).mpr
    intros
    rw [hid, if_neg (by decide)]
    decide
  | STOU =>
    rw [hid] at h
    apply (store_wellFormed_iff harg h).trans
    have hfile : Plain "FILE: ".toList := by decide
    simp only [hid, if_true, plain_append, hfile, true_and]
    unfold Session.UniqueName
    simp only [hid, if_true, Session.searchUniqueName_iff, Session.FirstFree, Nat.zero_add]
    constructor
    · intro hall u n hstores hn htaken hfree
      by_cases hempty : u.homeDirectory = [] ∨ (σ.nodes c).currentDirectory = []
      · have hnil : (σ.nodes c).toSession.triedPath env u n = [] :=
          (Session.buildPath_eq_nil ..).mpr hempty
        rw [hnil]
        decide
      · rw [not_or] at hempty
        exact hall u _ hstores hempty.1 hempty.2 ⟨n, hn, ⟨htaken, hfree⟩, rfl⟩
    · rintro hall u unique hstores - - ⟨n, hn, ⟨htaken, hfree⟩, rfl⟩
      exact hall u n hstores hn htaken hfree
  | PWD =>
    rw [hid] at h
    rcases h with ⟨rfl, rfl⟩
    unfold plainReply
    rw [hid]
    apply (Exchange.begun_wellFormed_create_iff (by decide) (by decide) rfl rfl).trans
    have hquotes : Plain ['"'] ∧ Plain "\" is current directory.".toList := by decide
    show Plain (['"'] ++ _ ++ _) ↔ _
    rw [plain_append, plain_append, and_iff_left hquotes.2, and_iff_right hquotes.1]
  | FEAT =>
    rw [hid] at h
    apply iff_of_true _ trivial
    rcases h with ⟨rfl, rfl⟩
    rw [Exchange.begun_wellFormed_iff rfl]
    left
    rw [show textsOf (.create 0 featText) [] = [featText] from rfl, List.forall_mem_singleton]
    exact isReply_featText
  | _ =>
    rw [hid] at h
    exact iff_of_true (Exchange.begun_wellFormed_proper harg h) trivial

end FtpServer

/-! ## A listing over the control connection -/

def statusHead : WString := "213-Status follows:"

def statusCode : List UInt8 := ws2utf8 "213"

theorem isCode_statusCode : IsCode statusCode := by decide

/-- A name that can end a line of a listing which is sent as a reply: what it holds of CR and LF are
line ends, and the lines behind the first are neither empty nor the end of the reply. -/
def TidyName (name : WString) : Prop := TidyRest statusCode (ws2utf8 name ++ crlf)

theorem tidyName_of_plain {name : WString} (h : Plain name) : TidyName name :=
  tidyRest_of_isText (isText_ws2utf8.mpr h)

/-- A line of a listing. -/
def IsListLine (text : WString) : Prop :=
  ∃ st letters size now last name, Plain letters ∧
    text = listLine (typeLetter st :: letters) size now last name

/-- The name in a line of a listing is tidy. -/
def TidyEntry (text : WString) : Prop :=
  ∀ st letters size now last name, Plain letters →
    text = listLine (typeLetter st :: letters) size now last name → TidyName name

section ListLines

theorem plain_permissionLetter {c : Char} (hc : Plain [c]) (permissions bit : Nat) :
    Plain [permissionLetter permissions bit c] := by
  unfold permissionLetter
  split
  · exact hc
  · decide

theorem plain_cons {c : Char} {w : WString} : Plain (c :: w) ↔ Plain [c] ∧ Plain w :=
  plain_append (a := [c])

theorem plain_ownerLetters (permissions : Nat) : Plain (ownerLetters permissions) :=
  plain_cons.mpr ⟨plain_permissionLetter (by decide) _ _, plain_cons.mpr
    ⟨plain_permissionLetter (by decide) _ _, plain_permissionLetter (by decide) _ _⟩⟩

-- the group and the others have three letters each
theorem plain_otherLetters (permissions : Nat) : Plain (otherLetters permissions) := by
  have hthree (i j k : Nat) : Plain [permissionLetter permissions i 'r',
      permissionLetter permissions j 'w', permissionLetter permissions k 'x'] :=
    plain_cons.mpr ⟨plain_permissionLetter (by decide) _ _, plain_cons.mpr
      ⟨plain_permissionLetter (by decide) _ _, plain_permissionLetter (by decide) _ _⟩⟩
  have hboth := plain_append.mpr ⟨hthree 0o40 0o20 0o10, hthree 0o4 0o2 0o1⟩
  exact hboth

theorem plain_spacedDecimal (w : Nat) (i : Int) : Plain (spacedDecimal w i) := by
  unfold spacedDecimal
  dsimp only
  rw [plain_append]
  refine ⟨plain_replicate _ (by decide), ?_⟩
  split
  · rw [plain_cons]
    exact ⟨by decide, plain_decimal _⟩
  · exact plain_decimal _

theorem plain_month (n : Nat) : Plain (monthString.getD n []) := by
  have hall : ∀ m ∈ monthString, Plain m := by decide
  rw [List.getD_eq_getElem?_getD]
  cases hmonth : monthString[n]? with
  | none => decide
  | some m => exact hall m (List.mem_of_getElem? hmonth)

theorem plain_yearOrHour (now last : Int) : Plain (yearOrHour now last) := by
  unfold yearOrHour
  dsimp only
  split
  · exact plain_spacedDecimal _ _
  · rw [plain_append, plain_cons]
    exact ⟨plain_paddedDecimal _ _, by decide, plain_paddedDecimal _ _⟩

/-- A line of a listing is one plain text in front of the name. -/
theorem listLine_eq {st : FileStatus} {letters : WString} (hletters : Plain letters) (size : Nat)
    (now last : Int) (name : WString) : ∃ begun, Plain begun ∧
      listLine (typeLetter st :: letters) size now last name =
        typeLetter st :: begun ++ (name ++ ['\r', '\n']) := by
  refine ⟨letters ++ " 1 user group ".toList ++ spacedDecimal 14 size ++
    ' ' :: monthString.getD (gmtime last).mon [] ++ ' ' :: spacedDecimal 2 (gmtime last).mday ++
    ' ' :: yearOrHour now last ++ [' '], ?_, ?_⟩
  · simp only [plain_append]
    rw [plain_cons (w := monthString.getD _ _), plain_cons (w := spacedDecimal _ _),
      plain_cons (w := yearOrHour _ _)]
    have hblank : Plain [' '] ∧ Plain " 1 user group ".toList := by decide
    exact ⟨⟨⟨⟨⟨⟨hletters, hblank.2⟩, plain_spacedDecimal _ _⟩, hblank.1, plain_month _⟩, hblank.1,
      plain_spacedDecimal _ _⟩, hblank.1, plain_yearOrHour _ _⟩, hblank.1⟩
  · unfold listLine
    simp only [List.append_assoc, List.cons_append, List.nil_append]

-- the byte that a line begins with, and the rest in front of the name
theorem ws2utf8_listLine {st : FileStatus} {letters : WString} (hletters : Plain letters)
    (size : Nat) (now last : Int) (name : WString) : ∃ b begun, IsText (b :: begun) ∧ b ≠ 13 ∧
      statusCode.head? ≠ some b ∧ ws2utf8 (listLine (typeLetter st :: letters) size now last name) =
        b :: begun ++ (ws2utf8 name ++ crlf) := by
  rcases listLine_eq hletters size now last name with ⟨begun, hbegun, hline⟩
  have hbyte : ∃ b, ws2utf8 [typeLetter st] = [b] ∧ IsText [b] ∧ b ≠ 13 ∧
      statusCode.head? ≠ some b := by
    unfold typeLetter
    split
    · exact ⟨100, by decide, by decide, by decide, by decide⟩
    · exact ⟨45, by decide, by decide, by decide, by decide⟩
  rcases hbyte with ⟨b, hb, htext, hne, hcode⟩
  refine ⟨b, ws2utf8 begun, isText_append.mpr ⟨htext, isText_ws2utf8.mpr hbegun⟩, hne, hcode, ?_⟩
  rw [hline]
  have hparts : ws2utf8 (typeLetter st :: begun ++ (name ++ ['\r', '\n'])) =
      ws2utf8 [typeLetter st] ++ ws2utf8 begun ++ (ws2utf8 name ++ ws2utf8 ['\r', '\n']) := by
    rw [ws2utf8_append, ws2utf8_append name, ← ws2utf8_append [_]]
    rfl
  rw [hparts, hb]
  rfl

theorem tidy_listLine_iff {st : FileStatus} {letters : WString} (hletters : Plain letters)
    (size : Nat) (now last : Int) (name : WString) :
    Tidy statusCode (ws2utf8 (listLine (typeLetter st :: letters) size now last name)) ↔
      TidyName name := by
  rcases ws2utf8_listLine hletters size now last name with ⟨b, begun, htext, -, hcode, hline⟩
  rw [hline]
  exact tidy_append_iff (by decide) hcode htext

theorem tidy_iff_tidyEntry {text : WString} (h : IsListLine text) :
    Tidy statusCode (ws2utf8 text) ↔ TidyEntry text := by
  constructor
  · rintro htidy st letters size now last name hletters rfl
    exact (tidy_listLine_iff hletters size now last name).mp htidy
  · intro hentry
    rcases h with ⟨st, letters, size, now, last, name, hletters, rfl⟩
    exact (tidy_listLine_iff hletters size now last name).mpr
      (hentry st letters size now last name hletters rfl)

theorem isListLine_single (a : Answers) (opts : ListOptions) (path : WString) (st : FileStatus)
    (name : WString) : IsListLine (singleLine a opts path st name) := by
  refine ⟨st, _, _, _, _, _, ?_, rfl⟩
  exact plain_append.mpr ⟨plain_ownerLetters _, by decide⟩

theorem isListLine_entry (a : Answers) (opts : ListOptions) (e : DirectoryEntry) (st : FileStatus) :
    IsListLine (entryLine a opts e st) := by
  refine ⟨st, _, _, _, _, _, ?_, rfl⟩
  exact plain_append.mpr ⟨plain_ownerLetters _, plain_otherLetters _⟩

end ListLines

section Status

variable {lines : List WString} {text : WString}

theorem bytesOf_status (lines : List WString) : bytesOf (statusHead :: lines) =
    statusCode ++ 45 :: (ws2utf8 "Status follows:" ++ bytesOf lines) := by
  have hhead : ws2utf8 statusHead = statusCode ++ 45 :: ws2utf8 "Status follows:" := by decide
  rw [bytesOf_cons, hhead, List.append_assoc]
  rfl

theorem not_isReply_statusHead : ¬ IsReply (ws2utf8 statusHead) := by
  have hopen := not_isReply_open isCode_statusCode
    (show IsText (ws2utf8 "Status follows:") by decide) tidy_nil
  have hhead : ws2utf8 statusHead = statusCode ++ 45 :: (ws2utf8 "Status follows:" ++ []) := by
    decide
  rw [hhead]
  exact hopen

theorem not_wholeReplies_status (hlines : Tidy statusCode (bytesOf lines)) :
    ¬ WholeReplies (statusHead :: lines) := by
  rintro (hall | htogether)
  · exact not_isReply_statusHead (hall _ List.mem_cons_self)
  · rw [bytesOf_status] at htogether
    exact not_isReply_open (by decide) (by decide) hlines htogether

theorem begunReplies_status (hlines : Tidy statusCode (bytesOf lines)) :
    BegunReplies (statusHead :: lines) := by
  right
  have hmore : Tidy statusCode ([100] ++ crlf) :=
    ⟨[[100]], by decide, by decide⟩
  have hclosed := isReply_closed isCode_statusCode
    (show IsText (ws2utf8 "Status follows:") by decide) (hlines.append hmore) (by simp)
    (show IsText [] by decide)
  refine ⟨[100] ++ crlf ++ (statusCode ++ 32 :: ([] ++ crlf)), by simp, ?_⟩
  rw [bytesOf_status]
  simp only [List.append_assoc, List.cons_append] at hclosed ⊢
  exact hclosed

theorem begunReplies_status_append_iff (hlines : Tidy statusCode (bytesOf lines))
    (hline : IsListLine text) :
    BegunReplies (statusHead :: lines ++ [text]) ↔ TidyEntry text := by
  rw [← tidy_iff_tidyEntry hline]
  rcases hline with ⟨st, letters, size, now, last, name, hletters, rfl⟩
  rcases ws2utf8_listLine hletters size now last name with ⟨b, begun, -, hb, hcode, hbytes⟩
  have hpiece : b :: begun ++ (ws2utf8 name ++ crlf) = b :: (begun ++ ws2utf8 name) ++ crlf := by
    simp only [List.append_assoc, List.cons_append]
  have hiff := continues_iff (x := begun ++ ws2utf8 name) isCode_statusCode
    (show IsText (ws2utf8 "Status follows:") by decide) hlines hb hcode
  have hall : bytesOf (statusHead :: lines ++
      [listLine (typeLetter st :: letters) size now last name]) = statusCode ++ 45 ::
        (ws2utf8 "Status follows:" ++ bytesOf lines ++ (b :: (begun ++ ws2utf8 name) ++ crlf)) := by
    rw [List.cons_append, bytesOf_status, bytesOf_append, bytesOf_cons, hbytes, hpiece]
    rw [show bytesOf [] = [] from rfl, List.append_nil, List.append_assoc]
  rw [hbytes, hpiece, ← hiff]
  unfold BegunReplies
  rw [hall]
  constructor
  · rintro (hevery | ⟨more, hmore, htogether⟩)
    · exact absurd (hevery _ List.mem_cons_self) not_isReply_statusHead
    · exact ⟨more, hmore, by simpa only [List.append_assoc, List.cons_append] using htogether⟩
  · rintro ⟨more, hmore, htogether⟩
    exact .inr ⟨more, hmore, by simpa only [List.append_assoc, List.cons_append] using htogether⟩

theorem wholeReplies_status_end_iff (hlines : Tidy statusCode (bytesOf lines))
    (hempty : ∀ t ∈ lines, t ≠ []) :
    WholeReplies (statusHead :: lines ++ [(Reply.create 213 "End of status.").content]) ↔
      lines ≠ [] := by
  have hend : ws2utf8 (Reply.create 213 "End of status.").content =
      statusCode ++ 32 :: (ws2utf8 "End of status." ++ crlf) := by decide
  have hall : bytesOf (statusHead :: lines ++ [(Reply.create 213 "End of status.").content]) =
      statusCode ++ 45 :: (ws2utf8 "Status follows:" ++ bytesOf lines ++
        (statusCode ++ 32 :: (ws2utf8 "End of status." ++ crlf))) := by
    rw [List.cons_append, bytesOf_status, bytesOf_append, bytesOf_cons, hend]
    rw [show bytesOf [] = [] from rfl, List.append_nil, List.append_assoc]
  constructor
  · rintro hwhole rfl
    rcases hwhole with hevery | htogether
    · exact not_isReply_statusHead (hevery _ List.mem_cons_self)
    · rw [hall] at htogether
      exact not_isReply_closed (by decide) (by decide) (by decide) htogether
  · intro hne
    right
    rw [hall]
    exact isReply_closed (by decide) (by decide) hlines (bytesOf_ne_nil hne hempty) (by decide)

end Status

/-! ## The worker -/

/-- The stage belongs to a listing over the control connection. -/
def Stage.isStatus : Stage → Bool
  | .list cmd _ => cmd.id = .STAT
  | _ => false

/-- What a listing over the control connection has sent. -/
inductive StatusSent : ListStage → List WString → Prop
  | begin : StatusSent .begin []
  | begun {stage lines} (hbegin : stage ≠ .begin) (hannounce : stage ≠ .announce)
      (hlines : Tidy statusCode (bytesOf lines)) (hempty : ∀ t ∈ lines, t ≠ [])
      (hline : ∀ text more, stage = .line text more → IsListLine text) :
      StatusSent stage (statusHead :: lines)

/-- The listing shows tidy names, and at its end it has shown something. -/
def ListStage.ShowsTidy (texts : List WString) : ListStage → Prop
  | .line text _ => TidyEntry text
  | .endOfStatus => texts ≠ [statusHead]
  | _ => True

namespace Exchange

/-- What has been sent when a worker stands at a stage. -/
def Sending (stage : Stage) (texts : List WString) : Prop :=
  (stage.isStatus = false → ∀ t ∈ texts, IsReply (ws2utf8 t)) ∧
  ∀ cmd s, stage = .list cmd s → cmd.id = .STAT → StatusSent s texts

def Formed : Exchange → Prop
  | .taken _ _ l => IsText l.bytes
  | .working stage texts => Sending stage texts
  | x => x.WellFormed

/-- A command whose replies are of one line; and of a listing over the control connection, that the
worker meets what it needs, that it shows tidy names, and that it shows something. -/
def KeepsForm (build : Build) : Exchange → Turn → Prop
  | .taken σ k l, .command => ∀ cmd reply,
      RequestParser.getCommand (σ.nodeFor k).isLogged l.bytes = .ok (cmd, reply) →
      cmd.id ≠ .invalid → FtpServer.Harmless build l.env (σ.clientFor k).1 (σ.clientFor k).2 cmd →
      FtpServer.AnswersWell l.env (σ.clientFor k).1 (σ.clientFor k).2 cmd
  | .working (.list cmd stage) texts, .worker v => cmd.id = .STAT →
      (Stage.list cmd stage).Proceeds v ∧ stage.ShowsTidy texts
  | _, _ => True

section Worker

variable {build : Build} {stage : Stage} {texts : List WString} {v : View} {r : StepResult}

theorem wellFormed_of_formed {x : Exchange} (h : x.Formed) : x.WellFormed := by
  cases x with
  | taken σ k l => trivial
  | working stage texts =>
    cases hstatus : stage.isStatus with
    | false => exact .inl (h.1 hstatus)
    | true =>
      cases stage with
      | list cmd s =>
        have hid : cmd.id = .STAT := of_decide_eq_true hstatus
        cases h.2 cmd s rfl hid with
        | begin => exact .inl (List.forall_mem_nil _)
        | begun hbegin hannounce hlines hempty hline => exact begunReplies_status hlines
      | _ => cases hstatus
  | answered texts isCtrlCanalOpen => exact h
  | crashed texts => exact h

theorem isStatus_of_beyondListing (h : stage.beyondListing = true) : stage.isStatus = false := by
  cases stage with
  | list cmd s => cases h
  | _ => rfl

theorem isReply_finalReply (job : Job) (complete : Bool) :
    IsReply (ws2utf8 (finalReply job complete).content) := by
  rcases finalReply_create job complete with ⟨code, text, hcode, hplain, hreply⟩
  rw [hreply]
  exact (isReply_create_iff hcode.le hcode.2).mpr hplain

-- a listing over a data connection is announced on the control connection and sends no more there
theorem listed_isReply {cmd : Command} {s : ListStage} (hid : cmd.id ≠ .STAT)
    (h : Listed v.answers cmd s r.2.1 r.2.2) :
    (∀ t ∈ repliedTexts r.2.2, IsReply (ws2utf8 t)) ∧ r.2.1.isStatus = false := by
  have hlist (s : ListStage) : (Stage.list cmd s).isStatus = false := decide_eq_false hid
  have hafter : (afterListing cmd).isStatus = false := by
    unfold afterListing
    rw [if_neg hid]
    rfl
  generalize r.2.1 = next, r.2.2 = fx at h
  cases h with
  | announces => exact ⟨List.forall_mem_nil _, hlist _⟩
  | begins hstat => exact absurd hstat hid
  | announced =>
    refine ⟨?_, hlist _⟩
    show ∀ t ∈ [_], _
    rw [List.forall_mem_singleton]
    exact (isReply_create_iff (by decide) (by decide)).mpr (by decide)
  | shows => exact ⟨List.forall_mem_nil _, hlist _⟩
  | enters => exact ⟨List.forall_mem_nil _, hlist _⟩
  | misses =>
    refine ⟨?_, hafter⟩
    split <;> exact List.forall_mem_nil _
  | single => exact ⟨List.forall_mem_nil _, hlist _⟩
  | exhausted => exact ⟨List.forall_mem_nil _, hafter⟩
  | skips => exact ⟨List.forall_mem_nil _, hlist _⟩
  | entry => exact ⟨List.forall_mem_nil _, hlist _⟩
  | line hnext =>
    rw [if_neg hid]
    refine ⟨List.forall_mem_nil _, ?_⟩
    rcases hnext with rfl | ⟨path, -, rfl⟩
    · exact hafter
    · exact hlist _
  | ends =>
    refine ⟨?_, rfl⟩
    show ∀ t ∈ [_], _
    rw [List.forall_mem_singleton]
    exact (isReply_create_iff (by decide) (by decide)).mpr (by decide)

/-- A statement outside the listings over the control connection sends whole replies. -/
theorem replies_isReply (hstatus : stage.isStatus = false)
    (h : stage.step v.answers v.node v.user = .ok r) :
    (∀ t ∈ repliedTexts r.2.2, IsReply (ws2utf8 t)) ∧ r.2.1.isStatus = false := by
  have hsilent (h : repliedTexts r.2.2 = [] ∧ r.2.1.beyondListing = true) :
      (∀ t ∈ repliedTexts r.2.2, IsReply (ws2utf8 t)) ∧ r.2.1.isStatus = false := by
    rw [h.1]
    exact ⟨List.forall_mem_nil _, isStatus_of_beyondListing h.2⟩
  cases stage with
  | list cmd s => exact listed_isReply (of_decide_eq_false hstatus) (list_listed h).2
  | store s => exact hsilent (moved_silent (fun _ ↦ rfl) (store_moved h))
  | retrieve s => exact hsilent (moved_silent (fun _ ↦ rfl) (retrieve_moved h))
  | shutDown job complete =>
    rcases eq_ok_of_liftFault_bind h with ⟨t, -, h⟩
    cases h
    exact hsilent ⟨rfl, rfl⟩
  | closeSocket job complete =>
    rcases eq_ok_of_liftFault_bind h with ⟨t, -, h⟩
    cases h
    exact hsilent ⟨rfl, rfl⟩
  | finish job complete =>
    rw [Stage.step] at h
    split at h
    · cases h
      refine ⟨?_, rfl⟩
      show ∀ t ∈ [_], _
      rw [List.forall_mem_singleton]
      exact isReply_finalReply job complete
    · cases h
      exact ⟨List.forall_mem_nil _, rfl⟩
  | ended =>
    cases h
    exact ⟨List.forall_mem_nil _, rfl⟩

theorem formed_of_replies (hstatus : stage.isStatus = false)
    (htexts : ∀ t ∈ texts, IsReply (ws2utf8 t))
    (h : stage.step v.answers v.node v.user = .ok r) : (continued v stage texts r).Formed := by
  rcases replies_isReply hstatus h with ⟨hreplies, hnext⟩
  have hall : ∀ t ∈ texts ++ repliedTexts r.2.2, IsReply (ws2utf8 t) :=
    List.forall_mem_append.mpr ⟨htexts, hreplies⟩
  unfold continued
  dsimp only
  split
  · exact .inl hall
  · exact .inl hall
  · refine ⟨fun _ ↦ hall, fun cmd s heq hid ↦ ?_⟩
    rw [heq] at hnext
    exact absurd hid (of_decide_eq_false hnext)

theorem status_wellFormed_iff {cmd : Command} {s : ListStage} (hid : cmd.id = .STAT)
    (hsent : StatusSent s texts) (h : Listed v.answers cmd s r.2.1 r.2.2) :
    ((continued v (.list cmd s) texts r).WellFormed ↔ s.ShowsTidy texts) ∧
    ((continued v (.list cmd s) texts r).WellFormed → (continued v (.list cmd s) texts r).Formed) := by
  generalize hnext : r.2.1 = next, hfx : r.2.2 = fx at h
  -- a statement that sends nothing, and leads to one that is still to come
  have hquiet {next' : ListStage} (hsame : next = .list cmd next') (hnone : repliedTexts fx = [])
      (hfollows : StatusSent next' texts) (hshows : s.ShowsTidy texts) :
      ((continued v (.list cmd s) texts r).WellFormed ↔ s.ShowsTidy texts) ∧
      ((continued v (.list cmd s) texts r).WellFormed →
        (continued v (.list cmd s) texts r).Formed) := by
    have hcontinued : continued v (.list cmd s) texts r = .working (.list cmd next') texts := by
      rw [continued_working (fun _ _ h ↦ by cases h) (by rw [hnext, hsame]; exact fun h ↦ by cases h),
        hnext, hfx, hnone, hsame, List.append_nil]
    rw [hcontinued]
    have hformed : (Exchange.working (.list cmd next') texts).Formed := by
      refine ⟨fun hstatus ↦ absurd hid (of_decide_eq_false hstatus), ?_⟩
      rintro _ _ ⟨⟩ -
      exact hfollows
    exact ⟨iff_of_true (wellFormed_of_formed hformed) hshows, fun _ ↦ hformed⟩
  have hfollows {next' : ListStage} (hbegin : s ≠ .begin) (hbegin' : next' ≠ .begin)
      (hannounce' : next' ≠ .announce)
      (hline' : ∀ text more, next' = .line text more → IsListLine text) : StatusSent next' texts := by
    cases hsent with
    | begin => exact absurd rfl hbegin
    | begun _ _ hlines hempty _ => exact .begun hbegin' hannounce' hlines hempty hline'
  have hafter : afterListing cmd = .list cmd .endOfStatus := if_pos hid
  cases h with
  | announces hne => exact absurd hid hne
  | begins =>
    cases hsent with
    | begun hbegin => exact absurd rfl hbegin
    | begin =>
      have hcontinued : continued v (.list cmd .begin) [] r =
          .working (.list cmd .build) [statusHead] := by
        rw [continued_working (fun _ _ h ↦ by cases h) (by rw [hnext]; exact fun h ↦ by cases h),
          hnext, hfx]
        rfl
      rw [hcontinued]
      have hformed : (Exchange.working (.list cmd .build) [statusHead]).Formed := by
        refine ⟨fun hstatus ↦ absurd hid (of_decide_eq_false hstatus), ?_⟩
        rintro _ _ ⟨⟩ -
        exact .begun nofun nofun tidy_nil (List.forall_mem_nil _) nofun
      exact ⟨iff_of_true (wellFormed_of_formed hformed) trivial, fun _ ↦ hformed⟩
  | announced =>
    cases hsent with
    | begun _ hannounce => exact absurd rfl hannounce
  | shows =>
    refine hquiet rfl rfl (hfollows nofun nofun nofun nofun) trivial
  | enters =>
    refine hquiet rfl rfl (hfollows nofun nofun nofun nofun) trivial
  | @misses path =>
    have hnone : repliedTexts (if path = [] then [] else [.status path]) = [] := by
      split <;> rfl
    exact hquiet hafter hnone (hfollows nofun nofun nofun nofun) trivial
  | single =>
    refine hquiet rfl rfl (hfollows nofun nofun nofun ?_) trivial
    rintro _ _ ⟨⟩
    exact isListLine_single ..
  | exhausted => exact hquiet hafter rfl (hfollows nofun nofun nofun nofun) trivial
  | skips => exact hquiet rfl rfl (hfollows nofun nofun nofun nofun) trivial
  | entry hentry htext =>
    refine hquiet rfl rfl (hfollows nofun nofun nofun ?_) trivial
    rintro _ _ ⟨⟩
    rcases htext (by rw [hid]; decide) with ⟨st, rfl⟩
    exact isListLine_entry ..
  | @line text more next hgoes =>
    cases hsent with
    | @begun _ lines _ _ hlines hempty hline =>
      have htext := hline text more rfl
      have hstage : ∃ next', next = .list cmd next' ∧ next' ≠ .begin ∧ next' ≠ .announce ∧
          ∀ text more, next' ≠ .line text more := by
        rcases hgoes with rfl | ⟨path, -, rfl⟩
        · exact ⟨.endOfStatus, hafter, nofun, nofun, nofun⟩
        · exact ⟨.next path, rfl, nofun, nofun, nofun⟩
      rcases hstage with ⟨next', rfl, hbegin', hannounce', hline'⟩
      have hcontinued : continued v (.list cmd (.line text more)) (statusHead :: lines) r =
          .working (.list cmd next') (statusHead :: lines ++ [text]) := by
        rw [continued_working (fun _ _ h ↦ by cases h) (by rw [hnext]; exact fun h ↦ by cases h),
          hnext, hfx, if_pos hid]
        rfl
      rw [hcontinued]
      have hiff := begunReplies_status_append_iff hlines htext
      refine ⟨hiff, fun hwell ↦ ⟨fun hstatus ↦ absurd hid (of_decide_eq_false hstatus), ?_⟩⟩
      rintro _ _ ⟨⟩ -
      have htidy := (tidy_iff_tidyEntry htext).mpr (hiff.mp hwell)
      refine .begun hbegin' hannounce' ?_ ?_ fun _ _ h ↦ absurd h (hline' _ _)
      · show Tidy statusCode (bytesOf (lines ++ [text]))
        rw [bytesOf_append]
        apply hlines.append
        have hone : bytesOf [text] = ws2utf8 text := congrArg ws2utf8 (List.append_nil _)
        rw [hone]
        exact htidy
      · show ∀ t ∈ lines ++ [text], t ≠ []
        rw [List.forall_mem_append, List.forall_mem_singleton]
        refine ⟨hempty, ?_⟩
        rcases htext with ⟨st, letters, size, now, last, name, hletters, rfl⟩
        exact List.cons_ne_nil _ _
  | ends =>
    cases hsent with
    | @begun _ lines _ _ hlines hempty hline =>
      have hcontinued : continued v (.list cmd .endOfStatus) (statusHead :: lines) r =
          .answered (statusHead :: lines ++ [(Reply.create 213 "End of status.").content]) true := by
        unfold continued
        rw [hnext, hfx]
        rfl
      rw [hcontinued]
      have hiff := wholeReplies_status_end_iff hlines hempty
      have hone : statusHead :: lines ≠ [statusHead] ↔ lines ≠ [] := by simp
      exact ⟨hiff.trans hone.symm, id⟩

/-- A statement of the worker. -/
theorem worker_wellFormed_iff {y : Exchange} (hsending : Sending stage texts)
    (h : Exchange.Proceeds build (.working stage texts) (.worker v) y) :
    (y.WellFormed ↔ KeepsForm build (.working stage texts) (.worker v)) ∧
      (y.WellFormed → y.Formed) := by
  have hy : ofStep v stage texts (stage.step v.answers v.node v.user) = y := Option.some.inj h
  rw [← hy]
  cases hstatus : stage.isStatus with
  | false =>
    have hcondition : KeepsForm build (.working stage texts) (.worker v) := by
      cases stage with
      | list cmd s => exact fun hid ↦ absurd hid (of_decide_eq_false hstatus)
      | _ => trivial
    have hformed : (ofStep v stage texts (stage.step v.answers v.node v.user)).Formed := by
      cases hstep : stage.step v.answers v.node v.user with
      | error fault => exact .inl (hsending.1 hstatus)
      | ok r => exact formed_of_replies hstatus (hsending.1 hstatus) hstep
    exact ⟨iff_of_true (wellFormed_of_formed hformed) hcondition, fun _ ↦ hformed⟩
  | true =>
    cases stage with
    | list cmd s =>
      have hid : cmd.id = .STAT := of_decide_eq_true hstatus
      have hsent := hsending.2 cmd s rfl hid
      show (_ ↔ (cmd.id = .STAT → _)) ∧ _
      rw [forall_prop_of_true hid]
      cases hstep : (Stage.list cmd s).step v.answers v.node v.user with
      | error fault =>
        have hfault : ¬ (Stage.list cmd s).Proceeds v := by
          rw [← step_returns_iff, hstep]
          exact not_returns_error _
        have hbroken : ¬ (ofStep v (.list cmd s) texts (.error fault)).WellFormed := by
          cases hsent with
          | begin => exact absurd trivial hfault
          | begun hbegin hannounce hlines hempty hline => exact not_wholeReplies_status hlines
        exact ⟨iff_of_false hbroken fun h ↦ hfault h.1, fun h ↦ absurd h hbroken⟩
      | ok r =>
        have hreturns : (Stage.list cmd s).Proceeds v := by
          rw [← step_returns_iff, hstep]
          exact returns_ok r
        rw [and_iff_right hreturns]
        exact status_wellFormed_iff hid hsent (list_listed hstep).2
    | _ => cases hstatus

end Worker

/-! ## Runs -/

section Command

variable {build : Build} {σ : FtpServer} {k : Connection} {l : Line}

-- the argument of a command is part of the line
theorem plain_args {cmd : Command} {reply : Reply} {loggedon : Bool} {line : List UInt8}
    (hline : IsText line) (h : RequestParser.getCommand loggedon line = .ok (cmd, reply))
    (hid : cmd.id ≠ .invalid) : Plain cmd.args := by
  have hmap {command args : WString} (hargs : Plain args)
      (h : RequestParser.mapCommand loggedon command args = (cmd, reply)) : Plain cmd.args := by
    rcases RequestParser.mapCommand_accepts h hid with ⟨entry, -, hcmd, -⟩
    rw [hcmd]
    exact hargs
  have hnone {r : Reply} (h : Except.ok (ε := Fault) (Command.none, r) = .ok (cmd, reply)) :
      Plain cmd.args := by
    cases h
    exact absurd rfl hid
  unfold RequestParser.getCommand at h
  cases htext : utf82ws line with
  | none =>
    rw [htext] at h
    cases h
  | some text =>
    have hplain : Plain (text.dropWhile (· != ' ')) := by
      have hsub := (List.dropWhile_sublist (· != ' ') (l := text)).subset
      have hall := plain_of_utf82ws hline htext
      exact ⟨fun hmem ↦ hall.1 (hsub hmem), fun hmem ↦ hall.2 (hsub hmem)⟩
    rw [htext] at h
    dsimp only at h
    split at h
    · split at h
      · exact hnone h
      · exact hmap (by decide) (Except.ok.inj h)
    · split at h
      · exact hnone h
      · exact hmap (by decide) (Except.ok.inj h)
    · rename_i hrest
      split at h
      · exact hnone h
      · split at h
        · exact hnone h
        · rw [hrest] at hplain
          exact hmap (plain_cons.mp hplain).2 (Except.ok.inj h)

/-- A line that is no command is answered well. -/
theorem invalid_wellFormed {cmd : Command} {reply : Reply} {loggedon : Bool} {line : List UInt8}
    (h : RequestParser.getCommand loggedon line = .ok (cmd, reply)) (hid : cmd.id = .invalid) :
    (begun reply []).WellFormed := by
  cases htext : utf82ws line with
  | none => exact absurd htext ((RequestParser.getCommand_returns_iff loggedon line).mp ⟨_, h⟩)
  | some text =>
    cases text with
    | nil =>
      rw [RequestParser.getCommand, htext] at h
      cases h
      exact begun_wellFormed_unanswered ⟨rfl, rfl⟩
    | cons first rest =>
      have htexts := RequestParser.getCommand_texts htext (List.cons_ne_nil _ _) h hid
      split at htexts
      · exact begun_wellFormed_unanswered htexts
      · exact begun_wellFormed_proper (by decide) htexts

-- the worker that is started has sent what goes before its first statement
theorem begun_formed {reply : Reply} {fx : List Effect} (hwell : (begun reply fx).WellFormed)
    (hannounced : ∀ job jobs, startedJobs fx = job :: jobs →
      FtpServer.Announced job (textsOf reply fx)) : (begun reply fx).Formed := by
  unfold begun at hwell ⊢
  split at hwell
  · exact hwell
  · rename_i job jobs hjobs
    have hstage := hannounced job jobs hjobs
    change BegunReplies (textsOf reply fx) at hwell
    show Sending job.stage (textsOf reply fx)
    generalize textsOf reply fx = texts at hstage hwell
    cases hstage with
    | list cmd =>
      refine ⟨fun _ ↦ List.forall_mem_nil _, ?_⟩
      rintro _ _ ⟨⟩ -
      exact .begin
    | file text hjob =>
      have hplain : Plain text :=
        ((begunReplies_create_cons_iff (by decide : 100 ≤ 150) (by decide : 150 < 600)).mp
          hwell).1
      have hreply : IsReply (ws2utf8 (Reply.create 150 text).content) :=
        (isReply_create_iff (by decide) (by decide)).mpr hplain
      refine ⟨fun _ ↦ List.forall_mem_singleton.mpr hreply, ?_⟩
      intro cmd s hlist
      rcases hjob with rfl | rfl
      · cases hlist
      · cases hlist

theorem keepsForm_iff {cmd : Command} {reply : Reply}
    (h : RequestParser.getCommand (σ.nodeFor k).isLogged l.bytes = .ok (cmd, reply))
    (hid : cmd.id ≠ .invalid) : KeepsForm build (.taken σ k l) .command ↔
      (FtpServer.Harmless build l.env (σ.clientFor k).1 (σ.clientFor k).2 cmd →
        FtpServer.AnswersWell l.env (σ.clientFor k).1 (σ.clientFor k).2 cmd) := by
  constructor
  · exact fun hall ↦ hall cmd reply h hid
  · intro hcmd cmd' reply' h' _
    rw [h] at h'
    cases h'
    exact hcmd

/-- `process_command` on a line. -/
theorem command_wellFormed_iff {y : Exchange} (hline : IsText l.bytes)
    (h : Proceeds build (.taken σ k l) .command y) :
    (y.WellFormed ↔ KeepsForm build (.taken σ k l) .command) ∧ (y.WellFormed → y.Formed) := by
  have hnothing : WholeReplies [] := .inl (List.forall_mem_nil _)
  cases command_processed h with
  | unread hcommand =>
    have hkeeps : KeepsForm build (.taken σ k l) .command := by
      intro cmd reply h
      rw [hcommand] at h
      cases h
    exact ⟨iff_of_true hnothing hkeeps, fun _ ↦ hnothing⟩
  | declined hcommand hid =>
    have hwell := invalid_wellFormed hcommand hid
    have hkeeps : KeepsForm build (.taken σ k l) .command := by
      intro cmd' reply' h hid'
      rw [hcommand] at h
      cases h
      exact absurd hid hid'
    exact ⟨iff_of_true hwell hkeeps, fun _ ↦ hwell⟩
  | crashed hcommand hid hharmless =>
    rw [keepsForm_iff hcommand hid]
    exact ⟨iff_of_true hnothing fun h ↦ absurd h hharmless, fun _ ↦ hnothing⟩
  | handled hcommand hid hharmless htexts =>
    rw [keepsForm_iff hcommand hid, forall_prop_of_true hharmless]
    exact ⟨FtpServer.wellFormed_iff_answersWell (plain_args hline hcommand hid) htexts,
      fun hwell ↦ begun_formed hwell fun _ _ ↦ FtpServer.announced_of_texts htexts⟩

end Command

variable {build : Build}

theorem proceeds_wellFormed_iff {x y : Exchange} {turn : Turn} (hx : x.Formed)
    (h : Proceeds build x turn y) :
    (y.WellFormed ↔ x.KeepsForm build turn) ∧ (y.WellFormed → y.Formed) := by
  cases x with
  | taken σ k l =>
    cases turn with
    | command => exact command_wellFormed_iff hx h
    | worker v => cases h
  | working stage texts =>
    cases turn with
    | command => cases h
    | worker v => exact worker_wellFormed_iff hx h
  | answered texts isCtrlCanalOpen => cases turn <;> cases h
  | crashed texts => cases turn <;> cases h

/-- For a line without CR and LF, the bytes that go out are well-formed replies exactly when
`process_command` answers well and a listing over the control connection keeps to the form. -/
theorem wellFormed_iff {σ : FtpServer} {k : Connection} {l : Line} (hline : IsText l.bytes)
    {trace : List (Exchange × Turn)} {t : Exchange}
    (run : Run (Proceeds build) (.taken σ k l) trace t) :
    (t.WellFormed ∧ ∀ p ∈ trace, p.1.WellFormed) ↔ ∀ p ∈ trace, p.1.KeepsForm build p.2 := by
  have hall := run.holds_along_iff_of_invariant (I := Formed) (P := WellFormed)
    (Q := fun _ _ ↦ True) (C := KeepsForm build) hline wellFormed_of_formed
    (fun hx h ↦ (and_iff_left trivial).trans (proceeds_wellFormed_iff hx h).1)
    (fun hx hkeeps h ↦
      (proceeds_wellFormed_iff hx h).2 ((proceeds_wellFormed_iff hx h).1.mpr hkeeps))
  simp only [and_true] at hall
  exact hall

end Exchange

namespace Sample

/-- The one entry of a directory, and its line. -/
def entry : DirectoryEntry := ⟨"f", some ⟨.regularFile, 0o644⟩, some 3, some 0⟩

def fileLine : WString := "-rw-r--r-- 1 user group              3 Jan  1 00:00 f\r\n"

theorem isListLine_fileLine : IsListLine fileLine :=
  ⟨⟨.regularFile, 0⟩, "rw-r--r--", 3, 0, 0, "f", by decide, by decide +kernel⟩

theorem tidy_fileLine : Tidy statusCode (ws2utf8 fileLine) :=
  ⟨[ws2utf8 "-rw-r--r-- 1 user group              3 Jan  1 00:00 f"], by decide +kernel,
    by decide +kernel⟩

end Sample

namespace Exchange

/-- bob asks for the status of a directory with one file. -/
theorem wellFormed_status : ∃ trace t,
    Run (Proceeds {}) (Sample.asks "STAT x") trace t ∧ t.WellFormed ∧
    ∀ p ∈ trace, p.1.WellFormed := by
  have hcommand : Proceeds {} (Sample.asks "STAT x") .command
      (.working (.list Sample.statX .begin) []) :=
    proceeds_command {} [.switch Sample.statX, .startList Sample.statX] (by decide +kernel)
  have hbegin : Proceeds {} (.working (.list Sample.statX .begin) [])
      (.worker (Sample.view { env := Sample.env }))
      (.working (.list Sample.statX .build) [statusHead]) := rfl
  have hbuild : Proceeds {} (.working (.list Sample.statX .build) [statusHead])
      (.worker (Sample.view { env := Sample.env }))
      (.working (.list Sample.statX (.next "/srv/bob//x")) [statusHead]) := rfl
  have hentry : Proceeds {} (.working (.list Sample.statX (.next "/srv/bob//x")) [statusHead])
      (.worker (Sample.view { env := Sample.env, nextEntry := some Sample.entry }))
      (.working (.list Sample.statX (.line Sample.fileLine (some "/srv/bob//x"))) [statusHead]) :=
    rfl
  have hline : Proceeds {}
      (.working (.list Sample.statX (.line Sample.fileLine (some "/srv/bob//x"))) [statusHead])
      (.worker (Sample.view { env := Sample.env }))
      (.working (.list Sample.statX (.next "/srv/bob//x")) [statusHead, Sample.fileLine]) := rfl
  have hnext : Proceeds {}
      (.working (.list Sample.statX (.next "/srv/bob//x")) [statusHead, Sample.fileLine])
      (.worker (Sample.view { env := Sample.env }))
      (.working (.list Sample.statX .endOfStatus) [statusHead, Sample.fileLine]) := rfl
  have hend : Proceeds {}
      (.working (.list Sample.statX .endOfStatus) [statusHead, Sample.fileLine])
      (.worker (Sample.view { env := Sample.env }))
      (.answered [statusHead, Sample.fileLine, "213 End of status.\r\n"] true) := rfl
  have run := ((((((Run.refl.snoc hcommand).snoc hbegin).snoc hbuild).snoc hentry).snoc
    hline).snoc hnext).snoc hend
  refine ⟨_, _, run, (wellFormed_iff (by decide +kernel) run).mpr ?_⟩
  have hname : TidyEntry Sample.fileLine :=
    (tidy_iff_tidyEntry Sample.isListLine_fileLine).mp Sample.tidy_fileLine
  have hshown : [statusHead, Sample.fileLine] ≠ [statusHead] := by decide
  simp only [List.forall_mem_cons]
  refine ⟨fun _ ↦ ⟨trivial, hshown⟩, fun _ ↦ ⟨nofun, trivial⟩, fun _ ↦ ⟨nofun, hname⟩,
    fun _ ↦ ⟨nofun, trivial⟩, fun _ ↦ ⟨nofun, trivial⟩, fun _ ↦ ⟨trivial, trivial⟩, ?_,
    List.forall_mem_nil _⟩
  intro cmd reply hcmd _ _
  have hget : (RequestParser.getCommand true (String.toUTF8 "STAT x").toList).map (·.1.id) =
      .ok .STAT := by decide +kernel
  have hcmd : RequestParser.getCommand true (String.toUTF8 "STAT x").toList = .ok (cmd, reply) :=
    hcmd
  rw [hcmd] at hget
  have hid : cmd.id = .STAT := Except.ok.inj hget
  unfold FtpServer.AnswersWell
  rw [hid]
  trivial

/-- The size of a file is followed by an empty line. -/
theorem wellFormed_fails : IsText (String.toUTF8 "SIZE x").toList ∧
    Proceeds {} (Sample.asks "SIZE x") .command (.answered ["213 0\r\n\r\n"] true) ∧
    ¬ (Exchange.answered ["213 0\r\n\r\n"] true).WellFormed := by
  have hcommand : Proceeds {} (Sample.asks "SIZE x") .command
      (begun (.create 213 "0\r\n")
        [.switch { Command.none with id := .SIZE, args := "x", hasArgs := true },
          .fileSize "/srv/bob//x"]) :=
    proceeds_command _ _ (by decide +kernel)
  refine ⟨by decide +kernel, hcommand, ?_⟩
  intro hwell
  have hreply : WholeReplies [(Reply.create 213 "0\r\n").content] := hwell
  have hplain : Plain "0\r\n".toList :=
    ((wholeReplies_create_cons_iff (by decide) (by decide) (List.forall_mem_nil _)).mp hreply).1
  exact absurd hplain (by decide)

end Exchange

end YFtp
