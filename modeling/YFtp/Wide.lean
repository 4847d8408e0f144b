import Mathlib.Data.List.Basic
import Mathlib.Data.UInt

/-!
# Wide strings

`std::wstring` is a list of characters.  This file holds the conversions of `conversion.cpp`
between bytes and wide strings and the parts of the C library that the command handlers call on
such strings: number scanning, number formatting and `gmtime`.
-/

namespace YFtp

abbrev WString := List Char

instance : Coe String WString := ⟨String.toList⟩

/-- What ends a call of the C++ code other than by returning: a dereferenced null pointer, an
exception, or a search that does not end. -/
inductive Fault
  | nullUser
  | nullDataSocket
  | nullDataAcceptor
  | nullSslSocket
  | rangeError
  | endlessSearch
deriving DecidableEq, Repr

/-! ## UTF-8 -/

def isContinuation (b : UInt8) : Bool := b &&& 0xC0 = 0x80

/-- `std::wstring_convert::from_bytes`: `none` stands for the `std::range_error` thrown on a byte
sequence that is not well-formed UTF-8. -/
def utf82ws : List UInt8 → Option WString
  | [] => some []
  | b :: rest =>
    if b < 0x80 then (utf82ws rest).map (Char.ofNat b.toNat :: ·)
    else if b < 0xC2 then none
    else if b < 0xE0 then
      match rest with
      | b1 :: rest =>
        if isContinuation b1 then
          (utf82ws rest).map (Char.ofNat ((b.toNat - 0xC0) * 64 + (b1.toNat - 0x80)) :: ·)
        else none
      | [] => none
    else if b < 0xF0 then
      match rest with
      | b1 :: b2 :: rest =>
        let point := (b.toNat - 0xE0) * 4096 + (b1.toNat - 0x80) * 64 + (b2.toNat - 0x80)
        -- below 0x800 the form is overlong, from 0xD800 to 0xDFFF it is a surrogate
        if isContinuation b1 && isContinuation b2 && 0x800 ≤ point
            && !(0xD800 ≤ point && point ≤ 0xDFFF) then
          (utf82ws rest).map (Char.ofNat point :: ·)
        else none
      | _ => none
    else if b < 0xF5 then
      match rest with
      | b1 :: b2 :: b3 :: rest =>
        let point := (b.toNat - 0xF0) * 262144 + (b1.toNat - 0x80) * 4096
          + (b2.toNat - 0x80) * 64 + (b3.toNat - 0x80)
        if isContinuation b1 && isContinuation b2 && isContinuation b3
            && 0x10000 ≤ point && point ≤ 0x10FFFF then
          (utf82ws rest).map (Char.ofNat point :: ·)
        else none
      | _ => none
    else none

/-! ## Numbers -/

/-- `%u` and `%llu`. -/
def decimal (n : Nat) : WString := Nat.toDigits 10 n

/-- `%0wd`. -/
def paddedDecimal (w : Nat) (i : Int) : WString :=
  let digits := decimal i.natAbs
  if i < 0 then '-' :: (List.replicate (w - 1 - digits.length) '0' ++ digits)
  else List.replicate (w - digits.length) '0' ++ digits

/-- `iswspace` in the "C" locale. -/
def iswspace (c : Char) : Bool :=
  c = ' ' || c = '\t' || c = '\n' || c = '\x0b' || c = '\x0c' || c = '\r'

def digitsValue (digits : WString) : Nat :=
  digits.foldl (fun acc c ↦ acc * 10 + (c.toNat - '0'.toNat)) 0

/-- The optional blanks and sign and the digits that `strtoul` and `wcstoll` read: whether the sign
is a minus, the magnitude, and what follows. -/
def scanDigits (s : WString) : Option (Bool × Nat × WString) :=
  let s := s.dropWhile iswspace
  let (negative, s) := match s with
    | '-' :: rest => (true, rest)
    | '+' :: rest => (false, rest)
    | rest => (false, rest)
  let digits := s.takeWhile Char.isDigit
  if digits = [] then none
  else some (negative, digitsValue digits, s.dropWhile Char.isDigit)

/-- One `%u` of `swscanf`: `wcstoul` saturates at `ULONG_MAX` and negates modulo 2^64, and the
result is stored in a 32-bit `unsigned int`. -/
def scanUnsigned (s : WString) : Option (Nat × WString) :=
  (scanDigits s).map fun (negative, value, rest) ↦
    let value := if 2 ^ 64 ≤ value then 2 ^ 64 - 1
      else if negative then (2 ^ 64 - value) % 2 ^ 64 else value
    (value % 2 ^ 32, rest)

/-- `wcstoll(s, nullptr, 10)`. -/
def wcstoll (s : WString) : Int :=
  match scanDigits s with
  | none => 0
  | some (negative, value, _) =>
    if negative then max (-(2 ^ 63)) (-(value : Int)) else min (2 ^ 63 - 1) (value : Int)

/-- `swscanf(s, L"%u,%u,…", …)` with `n` conversions, all of which must succeed. -/
def scanUnsignedList : Nat → WString → Option (List Nat)
  | 0, _ => some []
  | n + 1, s =>
    match scanUnsigned s with
    | none => none
    | some (value, rest) =>
      if n = 0 then some [value]
      else match rest with
        | ',' :: rest => (scanUnsignedList n rest).map (value :: ·)
        | _ => none

/-! ## Calendar time -/

/-- The fields of `struct tm` that are printed. -/
structure Tm where
  year : Int
  mon : Nat
  mday : Nat
  hour : Nat
  min : Nat
  sec : Nat

/-- `gmtime`: the proleptic Gregorian date, counted in 400-year eras that begin on March 1st.
`year` is the full year (`tm_year + 1900`) and `mon` counts from 0. -/
def gmtime (t : Int) : Tm :=
  let days := t / 86400
  let secs := (t % 86400).toNat
  let era := (days + 719468) / 146097
  let doe := ((days + 719468) % 146097).toNat
  let yoe := (doe - doe / 1460 + doe / 36524 - doe / 146096) / 365
  let doy := doe - (365 * yoe + yoe / 4 - yoe / 100)
  let mp := (5 * doy + 2) / 153
  let month := if mp < 10 then mp + 3 else mp - 9
  { year := era * 400 + yoe + (if month ≤ 2 then 1 else 0)
    mon := month - 1
    mday := doy - (153 * mp + 2) / 5 + 1
    hour := secs / 3600
    min := secs % 3600 / 60
    sec := secs % 60 }

/-! ## Replies -/

/-- `reply`: the last code given to `create` and the text waiting to be sent. -/
structure Reply where
  code : Nat := 0
  content : WString := []
deriving DecidableEq, Repr

/-- `reply::create`: a code of 0 puts the text in as it is. -/
def Reply.create (code : Nat) (text : WString) : Reply :=
  { code
    content := if 0 < code then decimal code ++ ' ' :: text ++ ['\r', '\n'] else text }

def Reply.clear (r : Reply) : Reply := { r with content := [] }

def Reply.empty (r : Reply) : Bool := r.content.isEmpty

theorem Reply.create_not_empty {code : Nat} (text : WString) (h : 0 < code) :
    (Reply.create code text).empty = false := by
  simp [Reply.create, Reply.empty, h]

end YFtp
