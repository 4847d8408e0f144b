import YFtp.ListOptions
import YFtp.Survival

/-!
# The numbers of PORT and PASV

PASV prints an address and a port as six decimal numbers, and PORT reads six numbers as `%u` of
`swscanf` does, which is more than what PASV prints.
-/

namespace YFtp

/-! ## Printing -/

/-- Decimal numbers with commas between them. -/
def commaList : List Nat → WString
  | [] => []
  | [n] => decimal n
  | n :: ns => decimal n ++ ',' :: commaList ns

/-- The six numbers that PASV prints. -/
def pasvNumbers (ip port : Nat) : WString :=
  commaList [ip / 2 ^ 24 % 256, ip / 2 ^ 16 % 256, ip / 2 ^ 8 % 256, ip % 256, port / 256, port % 256]

/-! ## Reading -/

/-- White space, a sign and digits: whether the sign is a minus, and the magnitude. -/
inductive Numeral : WString → Bool × Nat → Prop
  | mk {blanks sign digits : WString} {negative : Bool} (hblanks : ∀ c ∈ blanks, iswspace c = true)
    (hsign : sign = [] ∧ negative = false ∨ sign = ['+'] ∧ negative = false ∨
      sign = ['-'] ∧ negative = true)
    (hne : digits ≠ []) (hdigits : ∀ c ∈ digits, c.isDigit = true) :
    Numeral (blanks ++ (sign ++ digits)) (negative, digitsValue digits)

/-- The string begins with these numerals, with one comma between them; anything may follow. -/
def BeginsWith : List (Bool × Nat) → WString → Prop
  | [], _ => True
  | [x], s => ∃ t rest, Numeral t x ∧ s = t ++ rest
  | x :: xs, s => ∃ t rest, Numeral t x ∧ s = t ++ ',' :: rest ∧ BeginsWith xs rest

/-- What `%u` stores for a numeral. -/
def stored (x : Bool × Nat) : Nat :=
  (if 2 ^ 64 ≤ x.2 then 2 ^ 64 - 1 else if x.1 then (2 ^ 64 - x.2) % 2 ^ 64 else x.2) % 2 ^ 32

section Scanning

variable {s rest : WString} {x : Bool × Nat} {n : Nat} {values : List Nat}

theorem stored_small (h : n < 2 ^ 32) : stored (false, n) = n := by
  unfold stored
  rw [if_neg (by show ¬ 2 ^ 64 ≤ n; omega), if_neg Bool.false_ne_true]
  exact Nat.mod_eq_of_lt h

theorem scanUnsigned_eq (s : WString) :
    scanUnsigned s = (scanDigits s).map fun y ↦ (stored (y.1, y.2.1), y.2.2) := rfl

theorem digitsValue_decimal (n : Nat) : digitsValue (decimal n) = n := by
  have hfold : digitsValue (decimal n) = Nat.ofDigitChars 10 (decimal n) 0 := by
    unfold digitsValue Nat.ofDigitChars
    congr 1
    funext acc c
    rw [Nat.mul_comm]
  rw [hfold, decimal, Nat.ofDigitChars_ten_toDigits]

theorem isDigit_decimal : ∀ c ∈ decimal n, c.isDigit = true :=
  fun _ hc ↦ Nat.isDigit_of_mem_toDigits (by decide) (by decide) hc

/-- An optional sign taken off: whether it is a minus, and what follows. -/
def splitSign : WString → Bool × WString
  | '-' :: rest => (true, rest)
  | '+' :: rest => (false, rest)
  | rest => (false, rest)

theorem scanDigits_eq (s : WString) :
    scanDigits s = if (splitSign (s.dropWhile iswspace)).2.takeWhile Char.isDigit = [] then none
      else some ((splitSign (s.dropWhile iswspace)).1,
        digitsValue ((splitSign (s.dropWhile iswspace)).2.takeWhile Char.isDigit),
        (splitSign (s.dropWhile iswspace)).2.dropWhile Char.isDigit) := rfl

theorem splitSign_append (s : WString) : ∃ sign, s = sign ++ (splitSign s).2 ∧
    (sign = [] ∧ (splitSign s).1 = false ∨ sign = ['+'] ∧ (splitSign s).1 = false ∨
      sign = ['-'] ∧ (splitSign s).1 = true) := by
  unfold splitSign
  split
  · exact ⟨['-'], rfl, .inr (.inr ⟨rfl, rfl⟩)⟩
  · exact ⟨['+'], rfl, .inr (.inl ⟨rfl, rfl⟩)⟩
  · exact ⟨[], rfl, .inl ⟨rfl, rfl⟩⟩

theorem scanDigits_numeral (h : scanDigits s = some (x.1, x.2, rest)) :
    ∃ t, Numeral t x ∧ s = t ++ rest := by
  have hblanks : s.takeWhile iswspace ++ s.dropWhile iswspace = s := List.takeWhile_append_dropWhile
  rcases splitSign_append (s.dropWhile iswspace) with ⟨sign, hrest, hsign⟩
  rw [scanDigits_eq] at h
  generalize splitSign (s.dropWhile iswspace) = signed at h hrest hsign
  split at h
  · cases h
  · rename_i hne
    rw [Option.some.injEq, Prod.mk.injEq, Prod.mk.injEq] at h
    rcases h with ⟨hnegative, hvalue, hafter⟩
    refine ⟨s.takeWhile iswspace ++ (sign ++ signed.2.takeWhile Char.isDigit), ?_, ?_⟩
    · have hnumeral : Numeral (s.takeWhile iswspace ++ (sign ++ signed.2.takeWhile Char.isDigit))
          (signed.1, digitsValue (signed.2.takeWhile Char.isDigit)) :=
        .mk (fun c hc ↦ List.mem_takeWhile_imp hc) hsign hne fun c hc ↦ List.mem_takeWhile_imp hc
      rwa [hnegative, hvalue] at hnumeral
    · rw [← hafter, List.append_assoc, List.append_assoc, List.takeWhile_append_dropWhile, ← hrest,
        hblanks]

theorem scanUnsigned_numeral {v : Nat} (h : scanUnsigned s = some (v, rest)) :
    ∃ t x, Numeral t x ∧ s = t ++ rest ∧ v = stored x := by
  rw [scanUnsigned_eq, Option.map_eq_some_iff] at h
  rcases h with ⟨⟨negative, value, after⟩, hscan, heq⟩
  rw [Prod.mk.injEq] at heq
  rcases heq with ⟨hv, rfl⟩
  rcases scanDigits_numeral (x := (negative, value)) hscan with ⟨t, ht, hs⟩
  exact ⟨t, (negative, value), ht, hs, hv.symm⟩

/-- What `swscanf` has read. -/
theorem scanUnsignedList_begins (h : scanUnsignedList n s = some values) :
    ∃ xs : List (Bool × Nat), xs.length = n ∧ BeginsWith xs s ∧ values = xs.map stored := by
  induction n generalizing s values with
  | zero =>
    cases h
    exact ⟨[], rfl, trivial, rfl⟩
  | succ n ih =>
    rw [scanUnsignedList] at h
    split at h
    · cases h
    · rename_i v rest hscan
      rcases scanUnsigned_numeral hscan with ⟨t, x, ht, hs, rfl⟩
      split at h
      · rename_i hn
        cases h
        exact ⟨[x], by rw [hn]; rfl, ⟨t, rest, ht, hs⟩, rfl⟩
      · rename_i hn
        split at h
        · rename_i after
          rcases Option.map_eq_some_iff.mp h with ⟨values, hvalues, rfl⟩
          rcases ih hvalues with ⟨xs, hlength, hbegins, rfl⟩
          cases xs with
          | nil => exact absurd hlength.symm hn
          | cons y ys =>
            exact ⟨x :: y :: ys, by rw [List.length_cons, hlength], ⟨t, after, ht, hs, hbegins⟩, rfl⟩
        · cases h

-- a printed number begins with a digit
theorem decimal_append (n : Nat) (rest : WString) :
    ∃ c w, decimal n ++ rest = c :: w ∧ c.isDigit = true := by
  cases hdecimal : decimal n with
  | nil => exact absurd hdecimal Nat.toDigits_ne_nil
  | cons c w => exact ⟨c, w ++ rest, rfl, isDigit_decimal c (hdecimal ▸ List.mem_cons_self)⟩

theorem dropWhile_decimal (n : Nat) (rest : WString) :
    (decimal n ++ rest).dropWhile iswspace = decimal n ++ rest := by
  rcases decimal_append n rest with ⟨c, w, heq, hc⟩
  rw [heq]
  apply List.dropWhile_cons_of_neg
  intro hspace
  have halpha := isAlphanum_eq_false_of_iswspace hspace
  rw [Char.isAlphanum, hc, Bool.or_true] at halpha
  cases halpha

theorem splitSign_decimal (n : Nat) (rest : WString) :
    splitSign (decimal n ++ rest) = (false, decimal n ++ rest) := by
  rcases decimal_append n rest with ⟨c, w, heq, hc⟩
  rw [heq]
  unfold splitSign
  split
  · rename_i hminus
    cases hminus
    cases hc
  · rename_i hplus
    cases hplus
    cases hc
  · rfl

-- a printed number is read back as long as no digit follows
theorem scanUnsigned_decimal (hn : n < 2 ^ 32) (hrest : ∀ c ∈ rest.head?, c.isDigit = false) :
    scanUnsigned (decimal n ++ rest) = some (n, rest) := by
  have htake : (decimal n ++ rest).takeWhile Char.isDigit = decimal n ∧
      (decimal n ++ rest).dropWhile Char.isDigit = rest := by
    rw [List.takeWhile_append_of_pos isDigit_decimal, List.dropWhile_append_of_pos isDigit_decimal]
    cases rest with
    | nil => exact ⟨List.append_nil _, rfl⟩
    | cons c rest =>
      have hc : ¬ c.isDigit = true := by
        rw [hrest c rfl]
        exact Bool.false_ne_true
      rw [List.takeWhile_cons_of_neg hc, List.dropWhile_cons_of_neg hc, List.append_nil]
      exact ⟨rfl, rfl⟩
  have hne : decimal n ≠ [] := Nat.toDigits_ne_nil
  have hscan : scanDigits (decimal n ++ rest) = some (false, n, rest) := by
    rw [scanDigits_eq, dropWhile_decimal, splitSign_decimal, htake.1, htake.2, if_neg hne,
      digitsValue_decimal]
  rw [scanUnsigned_eq, hscan, Option.map_some, stored_small hn]

theorem scanUnsignedList_commaList {ns : List Nat} (h : ∀ n ∈ ns, n < 2 ^ 32) :
    scanUnsignedList ns.length (commaList ns) = some ns := by
  induction ns with
  | nil => rfl
  | cons n ns ih =>
    rw [List.forall_mem_cons] at h
    rw [List.length_cons, scanUnsignedList]
    cases ns with
    | nil =>
      have hscan : scanUnsigned (decimal n ++ []) = some (n, []) :=
        scanUnsigned_decimal h.1 fun c hc ↦ by cases hc
      rw [List.append_nil] at hscan
      rw [commaList, hscan]
      rfl
    | cons m ms =>
      have hscan : scanUnsigned (commaList (n :: m :: ms)) = some (n, ',' :: commaList (m :: ms)) :=
        scanUnsigned_decimal h.1 fun c hc ↦ by
          cases hc
          rfl
      rw [hscan]
      dsimp only
      rw [if_neg (show (m :: ms).length ≠ 0 from Nat.succ_ne_zero _)]
      show (scanUnsignedList (m :: ms).length (commaList (m :: ms))).map _ = _
      rw [ih h.2]
      rfl

end Scanning

/-! ## The handlers -/

namespace Session

variable {s : Session} {arg : WString} {o : Outcome}

theorem pasv_text (ip port : Nat) :
    "Entering Passive Mode (".toList ++ decimal (ip / 2 ^ 24 % 256) ++ [',']
      ++ decimal (ip / 2 ^ 16 % 256) ++ [','] ++ decimal (ip / 2 ^ 8 % 256) ++ [',']
      ++ decimal (ip % 256) ++ [','] ++ decimal ((port - port % 256) / 256) ++ [',']
      ++ decimal (port % 256) ++ ").".toList =
    "Entering Passive Mode (".toList ++ pasvNumbers ip port ++ ").".toList := by
  rw [show (port - port % 256) / 256 = port / 256 by omega]
  simp only [pasvNumbers, commaList, List.append_assoc, List.cons_append, List.nil_append]

theorem processPasvCmd_text {env : Env} {ip : Nat} {ports ports' : DataPorts}
    (h : s.processPasvCmd env ip ports = .ok (o, ports')) (hcode : o.reply.code = 227) :
    o.reply = .create 227 ("Entering Passive Mode (".toList ++
      pasvNumbers ip o.session.dataPort ++ ").".toList) := by
  unfold processPasvCmd at h
  split at h
  · cases h
    cases hcode
  · rcases eq_ok_of_bind h with ⟨t, -, h⟩
    dsimp only at h
    split at h
    · cases h
      cases hcode
    · split at h
      · split at h
        · cases h
          exact congrArg (Reply.create 227) (pasv_text ip _)
        · cases h
          cases hcode
      · split at h
        · cases h
          exact congrArg (Reply.create 227) (pasv_text ip _)
        · cases h
          cases hcode

/-- The numbers are bytes, and neither the address nor the port is 0. -/
def PortRange : List Nat → Prop
  | [ip1, ip2, ip3, ip4, port1, port2] =>
    (ip1 ≤ 255 ∧ ip2 ≤ 255 ∧ ip3 ≤ 255 ∧ ip4 ≤ 255 ∧ port1 ≤ 255 ∧ port2 ≤ 255) ∧
      ¬ (ip1 = 0 ∧ ip2 = 0 ∧ ip3 = 0 ∧ ip4 = 0) ∧ ¬ (port1 = 0 ∧ port2 = 0)
  | _ => False

theorem portNumbers_eq_some {a b c d e f : Nat} :
    portNumbers arg = some (a, b, c, d, e, f) ↔
      scanUnsignedList 6 arg = some [a, b, c, d, e, f] ∧ PortRange [a, b, c, d, e, f] := by
  unfold portNumbers PortRange
  constructor
  · intro h
    split at h
    · rename_i hscan
      split at h
      · rename_i hrange
        cases h
        refine ⟨hscan, ?_, ?_⟩
        · exact ⟨hrange.1, hrange.2.1, hrange.2.2.1, hrange.2.2.2.1, hrange.2.2.2.2.1,
            hrange.2.2.2.2.2.1⟩
        · simpa [Nat.or_eq_zero_iff, and_assoc] using hrange.2.2.2.2.2.2
      · cases h
    · cases h
  · rintro ⟨hscan, ⟨ha, hb, hc, hd, he, hf⟩, hip, hport⟩
    rw [hscan]
    dsimp only
    apply if_pos
    refine ⟨ha, hb, hc, hd, he, hf, ?_, ?_⟩
    · simpa [Nat.or_eq_zero_iff, and_assoc] using hip
    · simpa [Nat.or_eq_zero_iff] using hport

theorem processPortCmd_cases (h : s.processPortCmd arg = .ok o) :
    (o.reply.code ≠ 200 ∧ o.session = s) ∨ o.reply.code = 200 ∧
    ∃ a b c d e f, portNumbers arg = some (a, b, c, d, e, f) ∧ o.session.curDataMode = .port ∧
      o.session.dataIp = a * 2 ^ 24 + b * 2 ^ 16 + c * 2 ^ 8 + d ∧
      o.session.dataPort = (e * 256 + f) % 2 ^ 16 := by
  unfold processPortCmd at h
  split at h
  · cases h
    exact .inl ⟨show (425 : Nat) ≠ 200 by decide, rfl⟩
  · split at h
    · rename_i hnumbers
      rcases eq_ok_of_bind h with ⟨t, -, h⟩
      cases h
      exact .inr ⟨rfl, _, _, _, _, _, _, hnumbers, rfl, rfl, rfl⟩
    · cases h
      exact .inl ⟨show (501 : Nat) ≠ 200 by decide, rfl⟩

theorem portNumbers_pasv {ip port : Nat} (hip : 0 < ip) (hport : 0 < port)
    (hip' : ip < 2 ^ 32) (hport' : port < 2 ^ 16) :
    portNumbers (pasvNumbers ip port) = some (ip / 2 ^ 24 % 256, ip / 2 ^ 16 % 256,
      ip / 2 ^ 8 % 256, ip % 256, port / 256, port % 256) := by
  apply portNumbers_eq_some.mpr
  constructor
  · have hsmall : ∀ n ∈ [ip / 2 ^ 24 % 256, ip / 2 ^ 16 % 256, ip / 2 ^ 8 % 256, ip % 256,
        port / 256, port % 256], n < 2 ^ 32 := by
      intro n hn
      simp only [List.mem_cons, List.not_mem_nil, or_false] at hn
      omega
    exact scanUnsignedList_commaList hsmall
  · unfold PortRange
    omega

theorem processPortCmd_pasv {ip port : Nat} (hip : 0 < ip) (hport : 0 < port)
    (hip' : ip < 2 ^ 32) (hport' : port < 2 ^ 16) (hwaiting : s.curStatus = .waiting)
    (hsafe : s.ResetsSafely) :
    ∃ o, s.processPortCmd (pasvNumbers ip port) = .ok o ∧ o.reply.code = 200 ∧
      o.session.curDataMode = .port ∧ o.session.dataIp = ip ∧ o.session.dataPort = port := by
  rcases (resetDataMode_returns_iff s).mpr hsafe with ⟨t, ht⟩
  unfold processPortCmd
  rw [if_neg (not_not.mpr hwaiting), portNumbers_pasv hip hport hip' hport']
  dsimp only
  rw [ht]
  refine ⟨_, rfl, rfl, rfl, ?_, ?_⟩
  · show ip / 2 ^ 24 % 256 * 2 ^ 24 + ip / 2 ^ 16 % 256 * 2 ^ 16 + ip / 2 ^ 8 % 256 * 2 ^ 8 +
      ip % 256 = ip
    omega
  · show (port / 256 * 256 + port % 256) % 2 ^ 16 = port
    omega

end Session

/-! ## The address format -/

/-- What PASV prints is accepted by PORT and read back; a PORT that is not accepted changes nothing;
one that is accepted begins with six numerals, as `%u` reads them, in the range of the format. -/
theorem port_reads_pasv :
    (∀ ip port, 0 < ip → 0 < port → ip < 2 ^ 32 → port < 2 ^ 16 → ∀ s : Session,
      s.curStatus = .waiting → s.ResetsSafely →
      ∃ o, s.processPortCmd (pasvNumbers ip port) = .ok o ∧ o.reply.code = 200 ∧
        o.session.curDataMode = .port ∧ o.session.dataIp = ip ∧ o.session.dataPort = port) ∧
    (∀ (env : Env) ip ports ports' (s : Session) o,
      s.processPasvCmd env ip ports = .ok (o, ports') → o.reply.code = 227 →
      o.reply = .create 227 ("Entering Passive Mode (".toList ++
        pasvNumbers ip o.session.dataPort ++ ").".toList)) ∧
    (∀ (s : Session) arg o, s.processPortCmd arg = .ok o → o.reply.code ≠ 200 →
      o.session.curDataMode = s.curDataMode ∧ o.session.dataIp = s.dataIp ∧
        o.session.dataPort = s.dataPort) ∧
    (∀ (s : Session) arg o, s.processPortCmd arg = .ok o → o.reply.code = 200 →
      ∃ a b c d e f, BeginsWith [a, b, c, d, e, f] arg ∧
        Session.PortRange ([a, b, c, d, e, f].map stored) ∧ o.session.curDataMode = .port ∧
        o.session.dataIp = stored a * 2 ^ 24 + stored b * 2 ^ 16 + stored c * 2 ^ 8 + stored d ∧
        o.session.dataPort = stored e * 256 + stored f) := by
  refine ⟨?_, ?_, ?_, ?_⟩
  · intro ip port hip hport hip' hport' s hwaiting hsafe
    exact Session.processPortCmd_pasv hip hport hip' hport' hwaiting hsafe
  · intro env ip ports ports' s o h hcode
    exact Session.processPasvCmd_text h hcode
  · intro s arg o h hcode
    rcases Session.processPortCmd_cases h with ⟨-, hsame⟩ | ⟨haccepted, -⟩
    · rw [hsame]
      exact ⟨rfl, rfl, rfl⟩
    · exact absurd haccepted hcode
  · intro s arg o h hcode
    rcases Session.processPortCmd_cases h with ⟨hrefused, -⟩ |
      ⟨-, a, b, c, d, e, f, hnumbers, hmode, hip, hport⟩
    · exact absurd hcode hrefused
    · rcases Session.portNumbers_eq_some.mp hnumbers with ⟨hscan, hrange⟩
      rcases scanUnsignedList_begins hscan with ⟨xs, hlength, hbegins, hvalues⟩
      match xs, hlength, hbegins, hvalues with
      | [x₁, x₂, x₃, x₄, x₅, x₆], _, hbegins, hvalues =>
        cases hvalues
        refine ⟨x₁, x₂, x₃, x₄, x₅, x₆, hbegins, hrange, hmode, hip, ?_⟩
        rw [hport]
        apply Nat.mod_eq_of_lt
        have hbytes := hrange.1
        omega

/-- Six numbers from 0 to 255 with commas between them, and nothing else. -/
def IsSixNumbers (arg : WString) : Prop :=
  ∃ ns : List Nat, ns.length = 6 ∧ (∀ n ∈ ns, n ≤ 255) ∧ arg = commaList ns

theorem commaList_chars (ns : List Nat) : ∀ c ∈ commaList ns, c.isDigit = true ∨ c = ',' := by
  induction ns with
  | nil => exact List.forall_mem_nil _
  | cons n ns ih =>
    cases ns with
    | nil => exact fun c hc ↦ .inl (isDigit_decimal c hc)
    | cons m ms =>
      intro c hc
      rcases List.mem_append.mp hc with hc | hc
      · exact .inl (isDigit_decimal c hc)
      · rcases List.mem_cons.mp hc with rfl | hc
        · exact .inr rfl
        · exact ih c hc

/-- PORT reads over text behind the numbers; and a session that waits with an old data mode may have
no TLS stream to close. -/
theorem port_reads_more :
    (∃ o, Session.processPortCmd "127,0,0,1,7,208 please".toList {} = .ok o ∧ o.reply.code = 200 ∧
      ¬ IsSixNumbers "127,0,0,1,7,208 please".toList) ∧
    Session.processPortCmd (pasvNumbers (127 * 2 ^ 24 + 1) 2000)
      { curDataMode := .port, dataSocket := some .closed, dataUseSsl := true } =
        .error .nullSslSocket := by
  constructor
  · refine ⟨_, rfl, by decide +kernel, ?_⟩
    rintro ⟨ns, -, -, heq⟩
    have hblank := commaList_chars ns ' ' (heq ▸ by decide)
    revert hblank
    decide
  · unfold Session.processPortCmd
    rw [if_neg (by decide), Session.portNumbers_pasv (by decide) (by decide) (by decide) (by decide)]
    rfl

end YFtp
