import OperationScan.Number.Binary64
import OperationScan.Text.LetterCase
import OperationScan.Text.Blank

/-!
# Reading numbers

* `Number.readInteger?`: a signed integer, in decimal without leading zeros or with one of the
  marks `0x`, `0o`, `0b`; decimal integers have at most `digitLimit` digits.
* `Number.readCount?`: a signed decimal integer, perhaps with zeros in front.
* `Number.readDecimal?`: a signed decimal with optional point and exponent, an infinity or a
  number that is not a number.
* `Number.joinDigits?`: a number without the single underscores between its digits.

White space around a number is ignored (the separators U+001C to U+001F are not white space
here), and a decimal digit of any script counts as the ASCII digit of its value.
-/

namespace OperationScan.Number

/-- The most digits of a decimal integer that is converted. -/
def digitLimit : Nat := 4300

/-- What is said of an integer that is longer than that. -/
def limitSummary : String :=
  "Exceeds the limit (" ++ toString digitLimit ++ " digits) for integer string conversion"

/-- What can be done about it. -/
def limitAdvice : String := "use sys.set_int_max_str_digits() to increase the limit"

/-- Zeros of the scripts that have decimal digits; each is followed by the other nine. -/
def zeros : List Nat := [
  0x660, 0x6f0, 0x7c0, 0x966, 0x9e6, 0xa66, 0xae6, 0xb66, 0xbe6, 0xc66, 0xce6, 0xd66, 0xde6,
  0xe50, 0xed0, 0xf20, 0x1040, 0x1090, 0x17e0, 0x1810, 0x1946, 0x19d0, 0x1a80, 0x1a90, 0x1b50,
  0x1bb0, 0x1c40, 0x1c50, 0xa620, 0xa8d0, 0xa900, 0xa9d0, 0xa9f0, 0xaa50, 0xabf0, 0xff10,
  0x104a0, 0x10d30, 0x11066, 0x110f0, 0x11136, 0x111d0, 0x112f0, 0x11450, 0x114d0, 0x11650,
  0x116c0, 0x11730, 0x118e0, 0x11950, 0x11c50, 0x11d50, 0x11da0, 0x16a60, 0x16ac0, 0x16b50,
  0x1d7ce, 0x1d7d8, 0x1d7e2, 0x1d7ec, 0x1d7f6, 0x1e140, 0x1e2f0, 0x1e950, 0x1fbf0]

/-- A decimal digit of any script as an ASCII digit; other characters stay. -/
def asciiDigit (c : Char) : Char :=
  if c.toNat < 128 then c
  else
    match zeros.find? fun z => z ≤ c.toNat && c.toNat < z + 10 with
    | some z => Char.ofNat (48 + (c.toNat - z))
    | none => c

/-- The value of a digit in bases up to sixteen. -/
def digitValue? (c : Char) : Option Nat :=
  let n := c.toNat
  if 48 ≤ n && n ≤ 57 then some (n - 48)
  else if 97 ≤ n && n ≤ 102 then some (n - 87)
  else if 65 ≤ n && n ≤ 70 then some (n - 55)
  else none

/-- The number that digits spell in a base, starting from a value. -/
def valueFrom (base : Nat) (start : Nat) : Text → Option Nat
  | [] => some start
  | c :: rest =>
    match digitValue? c with
    | some d => if d < base then valueFrom base (start * base + d) rest else none
    | none => none

/-- The number that digits spell in a base; there is at least one. -/
def valueOf? (base : Nat) (digits : Text) : Option Nat :=
  if digits.isEmpty then none else valueFrom base 0 digits

/-- The base that a letter behind a zero announces. -/
def baseOf? (c : Char) : Option Nat :=
  match c.toLower with
  | 'x' => some 16
  | 'o' => some 8
  | 'b' => some 2
  | _ => none

/-- A decimal number without leading zeros, or zero. -/
def decimalValue? (digits : Text) : Option Nat :=
  match valueOf? 10 digits with
  | some n =>
    if digits.length > digitLimit then none
    else if digits.head? == some '0' && n != 0 then none
    else some n
  | none => none

/-- A number without a sign. -/
def naturalValue? : Text → Option Nat
  | '0' :: c :: rest =>
    match baseOf? c with
    | some base => valueOf? base rest
    | none => decimalValue? ('0' :: c :: rest)
  | digits => decimalValue? digits

/-- The text without the sign in front of it, and whether that was a minus. -/
def splitSign : Text → Bool × Text
  | '-' :: rest => (true, rest)
  | '+' :: rest => (false, rest)
  | t => (false, t)

/-- White space that may surround a number: all but the four separators. -/
def isPadding (c : Char) : Bool := Text.isBlank c && !(28 ≤ c.toNat && c.toNat ≤ 31)

/-- A text as it is compared with the grammar of numbers. -/
def cleaned (t : Text) : Text :=
  Text.dropEndWhile isPadding ((t.map asciiDigit).dropWhile isPadding)

/-- An integer with an optional sign and base mark. -/
def readInteger? (t : Text) : Option Int :=
  let (negative, digits) := splitSign (cleaned t)
  (naturalValue? digits).map fun n => if negative then -Int.ofNat n else Int.ofNat n

/-- A text without its underscores, each of which has to stand between two digits. -/
def joinDigitsFrom (afterDigit : Bool) : Text → Option Text
  | [] => some []
  | c :: rest =>
    if c == '_' then
      if afterDigit && (rest.head?.map Char.isDigit).getD false then joinDigitsFrom false rest
      else none
    else (joinDigitsFrom c.isDigit rest).map (c :: ·)

/-- A number without the single underscores between its digits. -/
def joinDigits? (t : Text) : Option Text := joinDigitsFrom false (cleaned t)

/-- A decimal integer with an optional sign. -/
def readCount? (t : Text) : Option Int :=
  let (negative, digits) := splitSign (cleaned t)
  if digits.length > digitLimit then none
  else (valueOf? 10 digits).map fun n => if negative then -Int.ofNat n else Int.ofNat n

/-- The exponent part of a decimal; the empty text stands for none. -/
def exponentValue? : Text → Option Int
  | [] => some 0
  | c :: rest =>
    if c == 'e' || c == 'E' then
      let (negative, digits) := splitSign rest
      (valueOf? 10 digits).map fun n => if negative then -Int.ofNat n else Int.ofNat n
    else none

/-- The number with the given digits before and behind the point and the given exponent. -/
def decimalNumber? (negative : Bool) (whole fraction exponent : Text) : Option Binary64 :=
  if whole.isEmpty && fraction.isEmpty then none
  else
    match valueFrom 10 0 (whole ++ fraction), exponentValue? exponent with
    | some m, some e => some (Binary64.ofDecimal negative m (e - Int.ofNat fraction.length))
    | _, _ => none

/-- A decimal with an optional sign. -/
def readDecimal? (t : Text) : Option Binary64 :=
  let (negative, body) := splitSign (cleaned t)
  let word := String.ofList (Text.toLower body)
  if word == "inf" || word == "infinity" then some (Binary64.infinity negative)
  else if word == "nan" then some Binary64.nan
  else
    let whole := body.takeWhile Char.isDigit
    match body.dropWhile Char.isDigit with
    | '.' :: rest =>
      decimalNumber? negative whole (rest.takeWhile Char.isDigit) (rest.dropWhile Char.isDigit)
    | rest => decimalNumber? negative whole [] rest

end OperationScan.Number
