import YFtp.Conversation
import YFtp.PortNumbers
import YFtp.Theory.Calendar
import YFtp.Theory.Columns

/-!
# Timestamps

What a client can tell from the replies to MDTM and SIZE.  `gmtime` gives no two times the same
fields, and MDTM prints them in columns, so that the time can be read back.
-/

namespace YFtp

open Theory Theory.Calendar

/-! ## `gmtime` and back -/

/-- The day of 1970-01-01, counted from March 1st of the year 0. -/
def epoch : Int := 719468

def Tm.date (t : Tm) : Date := ⟨t.year, t.mon, t.mday⟩

/-- `timegm`. -/
def Tm.seconds (t : Tm) : Int :=
  (daysOf t.date - epoch) * 86400 + t.hour * 3600 + t.min * 60 + t.sec

theorem gmtime_date (t : Int) : (gmtime t).date = dateOf (t / 86400 + epoch) := rfl

/-- The fields of a time are those of a date and of a time of the day. -/
theorem gmtime_fields (t : Int) : (gmtime t).mon ≤ 11 ∧ (gmtime t).mday ≤ 31 ∧
    (gmtime t).hour < 24 ∧ (gmtime t).min < 60 ∧ (gmtime t).sec < 60 := by
  have hdate := dateOf_spec (t / 86400 + epoch)
  rw [← gmtime_date] at hdate
  refine ⟨hdate.1, hdate.2.2, ?_, ?_, ?_⟩
  · show (t % 86400).toNat / 3600 < 24
    omega
  · show (t % 86400).toNat % 3600 / 60 < 60
    omega
  · show (t % 86400).toNat % 60 < 60
    omega

theorem seconds_gmtime (t : Int) : (gmtime t).seconds = t := by
  unfold Tm.seconds
  rw [gmtime_date, daysOf_dateOf]
  show (t / 86400 + epoch - epoch) * 86400 + ((t % 86400).toNat / 3600 : Nat) * 3600
    + ((t % 86400).toNat % 3600 / 60 : Nat) * 60 + ((t % 86400).toNat % 60 : Nat) = t
  omega

/-! ## Columns of digits -/

section Digits

variable {w n : Nat}

theorem length_decimal_le (hw : 0 < w) (hn : n < 10 ^ w) : (decimal n).length ≤ w :=
  (Nat.length_toDigits_le_iff (by decide) hw).mpr hn

theorem paddedDecimal_natCast (w n : Nat) : paddedDecimal w n =
    List.replicate (w - (decimal n).length) '0' ++ decimal n := by
  unfold paddedDecimal
  rw [if_neg (by omega), Int.natAbs_natCast]

theorem length_paddedDecimal (hw : 0 < w) (hn : n < 10 ^ w) : (paddedDecimal w n).length = w := by
  have hle := length_decimal_le hw hn
  rw [paddedDecimal_natCast, List.length_append, List.length_replicate]
  omega

-- zeros in front do not count
theorem digitsValue_zeros (k : Nat) (digits : WString) :
    digitsValue (List.replicate k '0' ++ digits) = digitsValue digits := by
  unfold digitsValue
  rw [List.foldl_append]
  congr 1
  induction k with
  | zero => rfl
  | succ k ih => exact ih

theorem digitsValue_paddedDecimal (w n : Nat) : digitsValue (paddedDecimal w n) = n := by
  rw [paddedDecimal_natCast, digitsValue_zeros, digitsValue_decimal]

end Digits

/-! ## MDTM and SIZE -/

/-- The fields in the columns of a reply to MDTM. -/
def readMdtm (text : WString) : Option Tm :=
  match cutColumns [4, 2, 2, 2, 2, 2] text with
  | [year, mon, mday, hour, min, sec, _] =>
    some { year := digitsValue year, mon := digitsValue mon - 1, mday := digitsValue mday
           hour := digitsValue hour, min := digitsValue min, sec := digitsValue sec }
  | _ => none

theorem readMdtm_mdtmText (t : Int) (hlow : 0 ≤ (gmtime t).year) (hhigh : (gmtime t).year < 10000)
    (rest : WString) : readMdtm (mdtmText (gmtime t) ++ rest) = some (gmtime t) := by
  rcases gmtime_fields t with ⟨hmon, hmday, hhour, hmin, hsec⟩
  generalize gmtime t = fields at *
  rcases fields with ⟨year, mon, mday, hour, min, sec⟩
  rcases Int.eq_ofNat_of_zero_le hlow with ⟨year, rfl⟩
  dsimp only at hlow hhigh hmon hmday hhour hmin hsec
  have htwo {n : Nat} (h : n < 100) : (paddedDecimal 2 n).length = 2 :=
    length_paddedDecimal (by decide) h
  have hyear : (paddedDecimal 4 year).length = 4 := length_paddedDecimal (by decide) (by omega)
  have hcolumns : cutColumns [4, 2, 2, 2, 2, 2]
      ([paddedDecimal 4 year, paddedDecimal 2 (mon + 1 : Nat), paddedDecimal 2 mday,
        paddedDecimal 2 hour, paddedDecimal 2 min, paddedDecimal 2 sec].flatten ++ rest)
      = [paddedDecimal 4 year, paddedDecimal 2 (mon + 1 : Nat), paddedDecimal 2 mday,
        paddedDecimal 2 hour, paddedDecimal 2 min, paddedDecimal 2 sec] ++ [rest] :=
    cutColumns_flatten (.cons hyear (.cons (htwo (by omega)) (.cons (htwo (by omega))
      (.cons (htwo (by omega)) (.cons (htwo (by omega)) (.cons (htwo (by omega)) .nil)))))) rest
  have htext : mdtmText ⟨year, mon, mday, hour, min, sec⟩ =
      [paddedDecimal 4 year, paddedDecimal 2 (mon + 1 : Nat), paddedDecimal 2 mday,
        paddedDecimal 2 hour, paddedDecimal 2 min, paddedDecimal 2 sec].flatten := by
    simp [mdtmText]
  unfold readMdtm
  rw [htext, hcolumns]
  simp only [List.cons_append, List.nil_append, digitsValue_paddedDecimal, Nat.add_sub_cancel]

/-- The number that a text begins with. -/
def readNumber (text : WString) : Nat := digitsValue (text.takeWhile Char.isDigit)

theorem readNumber_decimal (n : Nat) {rest : WString} (h : ∀ c ∈ rest.head?, c.isDigit = false) :
    readNumber (decimal n ++ rest) = n := by
  unfold readNumber
  rw [List.takeWhile_append_of_pos isDigit_decimal]
  cases rest with
  | nil => rw [List.takeWhile_nil, List.append_nil, digitsValue_decimal]
  | cons c rest =>
    have hc : ¬c.isDigit = true := by
      rw [h c rfl]
      exact Bool.false_ne_true
    rw [List.takeWhile_cons_of_neg hc, List.append_nil, digitsValue_decimal]

namespace Session

variable {env : Env} {user : Option UserNode} {arg : WString} {s : Session} {o : Outcome}

/-- The path that the handler of MDTM and SIZE asks about. -/
def pathOf (env : Env) (s : Session) (u : UserNode) (arg : WString) : WString :=
  buildPath env.canonical u.homeDirectory s.currentDirectory arg

theorem processMdtmCmd_tells (h : s.processMdtmCmd env user arg = .ok o)
    (hcode : o.reply.code = 213) : ∃ u last, user = some u ∧
      env.lastWriteTime (s.pathOf env u arg) = some last ∧
      ∃ rest, o.reply.content.drop 4 = mdtmText (gmtime last) ++ rest := by
  unfold processMdtmCmd at h
  split at h
  · rcases eq_ok_of_bind h with ⟨u, hu, h⟩
    dsimp only at h
    split at h
    · split at h
      · rename_i last hlast
        cases h
        exact ⟨u, last, deref_ok hu, hlast, ['\r', '\n'], rfl⟩
      · cases h
        cases hcode
    · cases h
      cases hcode
  · cases h
    cases hcode

theorem processSizeCmd_tells (h : s.processSizeCmd env user arg = .ok o)
    (hcode : o.reply.code = 213) : ∃ u size, user = some u ∧
      env.fileSize (s.pathOf env u arg) = some size ∧
      ∃ rest, o.reply.content.drop 4 = decimal size ++ '\r' :: rest := by
  unfold processSizeCmd at h
  split at h
  · rcases eq_ok_of_bind h with ⟨u, hu, h⟩
    dsimp only at h
    split at h
    · split at h
      · rename_i size hsize
        cases h
        refine ⟨u, size, deref_ok hu, hsize, ['\n', '\r', '\n'], ?_⟩
        show decimal size ++ ['\r', '\n'] ++ ['\r', '\n'] = _
        rw [List.append_assoc]
        rfl
      · cases h
        cases hcode
    · cases h
      cases hcode
  · cases h
    cases hcode

end Session

namespace FtpServer

variable {build : Build} {env : Env} {σ : FtpServer} {c : ClientRef} {cmd : Command} {a : Answer}

/-- What `user_` of a client node points to. -/
def accountOf (σ : FtpServer) (c : ClientRef) : Option UserNode :=
  (σ.nodes c).user.map σ.userManager.users

/-- The client can tell the time of the last write of a file, to the second and as long as the year
has four digits, from the reply 213 to MDTM, and its size from the reply 213 to SIZE. -/
theorem file_facts_told (h : σ.runSwitch build env c cmd = .ok a) (hcode : a.reply.code = 213) :
    (cmd.id = .MDTM → ∃ u last, σ.accountOf c = some u ∧
      env.lastWriteTime ((σ.nodes c).pathOf env u cmd.args) = some last ∧
      (0 ≤ (gmtime last).year → (gmtime last).year < 10000 →
        (readMdtm (a.reply.content.drop 4)).map Tm.seconds = some last)) ∧
    (cmd.id = .SIZE → ∃ u size, σ.accountOf c = some u ∧
      env.fileSize ((σ.nodes c).pathOf env u cmd.args) = some size ∧
      readNumber (a.reply.content.drop 4) = size) := by
  constructor
  · intro hid
    unfold runSwitch sessionHandler at h
    simp only [hid] at h
    rcases eq_ok_of_map h with ⟨o, ho, rfl⟩
    rcases Session.processMdtmCmd_tells ho hcode with ⟨u, last, hu, hlast, rest, htext⟩
    refine ⟨u, last, hu, hlast, ?_⟩
    intro hlow hhigh
    show (readMdtm (o.reply.content.drop 4)).map Tm.seconds = some last
    rw [htext, readMdtm_mdtmText last hlow hhigh, Option.map_some, seconds_gmtime]
  · intro hid
    unfold runSwitch sessionHandler at h
    simp only [hid] at h
    rcases eq_ok_of_map h with ⟨o, ho, rfl⟩
    rcases Session.processSizeCmd_tells ho hcode with ⟨u, size, hu, hsize, rest, htext⟩
    refine ⟨u, size, hu, hsize, ?_⟩
    show readNumber (o.reply.content.drop 4) = size
    rw [htext]
    exact readNumber_decimal size (by simp)

end FtpServer

namespace Sample

/-- The server with a session of `bob`. -/
def inSession : FtpServer := ((talk.after {} 0 login).get (by decide +kernel)).server

/-- The file was last written on 2024-02-29, at 12:34:56. -/
def leapEnv : Env := { env with lastWriteTime := fun _ ↦ some 1709210096 }

end Sample

/-- A leap day is told. -/
theorem FtpServer.file_facts_told_leap : ∃ a, Sample.inSession.runSwitch {} Sample.leapEnv 0
      { Command.none with id := .MDTM, args := "notes" } = .ok a ∧
    (readMdtm (a.reply.content.drop 4)).map Tm.seconds = some 1709210096 := by
  have hrun : (Sample.inSession.runSwitch {} Sample.leapEnv 0
      { Command.none with id := .MDTM, args := "notes" }).toOption.any
      (fun a ↦ decide (a.reply.code = 213)) = true := by decide +kernel
  rw [Option.any_eq_true] at hrun
  rcases hrun with ⟨a, hrun, hcode⟩
  have hrun := eq_ok_of_toOption hrun
  rcases (file_facts_told hrun (of_decide_eq_true hcode)).1 rfl with ⟨u, last, -, hlast, htold⟩
  cases hlast
  exact ⟨a, hrun, htold (by decide) (by decide)⟩

end YFtp
