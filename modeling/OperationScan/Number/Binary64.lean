import OperationScan.Text.Basic

/-!
# Double precision numbers and their decimal text

A number of the binary64 format is its 64 bits.

* `Binary64.ofDecimal`: the number nearest to `m * 10 ^ e`, a tie going to the even significand.
* `Binary64.shortest`: the fewest decimal digits that read back as the same number, and among
  those the nearest to it.
* `DecimalLayout`: the decisions about the text of the digits; `Binary64.text` writes them.
-/

namespace OperationScan

/-- A number of the binary64 format. -/
structure Binary64 where
  bits : UInt64
  deriving Repr, DecidableEq, Inhabited

namespace Binary64

/-- The weight of the leading bit of a significand. -/
def leadingBit : Nat := 4503599627370496

/-- The weight of the bit for the sign. -/
def signBit : Nat := 9223372036854775808

/-- The sign bit is set. -/
def isNegative (x : Binary64) : Bool := x.bits.toNat / signBit == 1

/-- The biased exponent. -/
def exponentBits (x : Binary64) : Nat := x.bits.toNat / leadingBit % 2048

/-- The bits of the significand behind the point. -/
def fractionBits (x : Binary64) : Nat := x.bits.toNat % leadingBit

/-- The number is not finite and not an infinity. -/
def isNaN (x : Binary64) : Bool := x.exponentBits == 2047 && x.fractionBits != 0

/-- The number is an infinity. -/
def isInfinite (x : Binary64) : Bool := x.exponentBits == 2047 && x.fractionBits == 0

/-- The number is a zero. -/
def isZero (x : Binary64) : Bool := x.exponentBits == 0 && x.fractionBits == 0

/-- The number with a sign, a biased exponent and a fraction. -/
def ofFields (negative : Bool) (exponent fraction : Nat) : Binary64 :=
  ⟨UInt64.ofNat ((if negative then signBit else 0) + exponent * leadingBit + fraction)⟩

/-- The quiet number that is not a number. -/
def nan : Binary64 := ofFields false 2047 (leadingBit / 2)

/-- An infinity. -/
def infinity (negative : Bool) : Binary64 := ofFields negative 2047 0

/-- A zero. -/
def zero (negative : Bool) : Binary64 := ofFields negative 0 0

/-- The integer nearest to a quotient, a tie going to the even one. -/
def roundDiv (num den : Nat) : Nat :=
  let q := num / den
  let twice := 2 * (num % den)
  if twice < den then q else if den < twice then q + 1 else q + q % 2

/-- The number nearest to a positive quotient. -/
def ofQuotient (negative : Bool) (num den : Nat) : Binary64 :=
  let guess : Int := Int.ofNat num.log2 - Int.ofNat den.log2 - 52
  let significandAt (q : Int) : Nat :=
    if q < 0 then roundDiv (num * Nat.pow 2 (-q).toNat) den
    else roundDiv num (den * Nat.pow 2 q.toNat)
  let atLeast (q : Int) : Bool :=
    if q < 0 then den * leadingBit ≤ num * Nat.pow 2 (-q).toNat
    else den * Nat.pow 2 q.toNat * leadingBit ≤ num
  let exact := if atLeast guess then guess else guess - 1
  let q := max exact (-1074)
  let m := significandAt q
  let (m, q) := if m == 2 * leadingBit then (leadingBit, q + 1) else (m, q)
  if m < leadingBit then ofFields negative 0 m
  else if q > 971 then infinity negative
  else ofFields negative (q + 1075).toNat (m - leadingBit)

/-- The number nearest to `m * 10 ^ e`. -/
def ofDecimal (negative : Bool) (m : Nat) (e : Int) : Binary64 :=
  if m == 0 then zero negative
  else
    let magnitude := Int.ofNat (Nat.repr m).length + e
    if magnitude > 310 then infinity negative
    else if magnitude < -330 then zero negative
    else if e < 0 then ofQuotient negative m (Nat.pow 10 (-e).toNat)
    else ofQuotient negative (m * Nat.pow 10 e.toNat) 1

/-- The significand and the exponent of a finite number: its size is `m * 2 ^ q`. -/
def parts (x : Binary64) : Nat × Int :=
  if x.exponentBits == 0 then (x.fractionBits, -1074)
  else (leadingBit + x.fractionBits, Int.ofNat x.exponentBits - 1075)

/-- The integer that a number is; numbers with a fraction and those that are not finite are
none. -/
def integer? (x : Binary64) : Option Int :=
  if x.isNaN || x.isInfinite then none
  else
    let (m, q) := x.parts
    let den := Nat.pow 2 (-q).toNat
    if m % den == 0 then
      let n := Int.ofNat (m / den * Nat.pow 2 q.toNat)
      some (if x.isNegative then -n else n)
    else none

/-- A power as a fraction. -/
def power (base : Nat) (e : Int) : Nat × Nat :=
  if e < 0 then (1, Nat.pow base (-e).toNat) else (Nat.pow base e.toNat, 1)

/-- The numbers that read back as `m * 2 ^ q` lie between `low * 2 ^ (q - 2)` and
`high * 2 ^ (q - 2)`, the ends included when `m` is even. -/
def neighbourhood (m : Nat) (q : Int) : Nat × Nat :=
  (4 * m - (if m == leadingBit && q > -1074 then 1 else 2), 4 * m + 2)

/-- `c * 10 ^ k` reads back as `m * 2 ^ q`. -/
def readsBack (m : Nat) (q : Int) (c : Nat) (k : Int) : Bool :=
  let (low, high) := neighbourhood m q
  let (bn, bd) := power 2 (q - 2)
  let (tn, td) := power 10 k
  let at' := c * tn * bd
  let least := low * bn * td
  let most := high * bn * td
  if m % 2 == 0 then least ≤ at' && at' ≤ most else least < at' && at' < most

/-- The exponent of the leading decimal digit of `m * 2 ^ q`. -/
def leadingExponent (m : Nat) (q : Int) : Int :=
  let (bn, bd) := power 2 q
  let atLeast (k : Int) : Bool :=
    let (tn, td) := power 10 k
    tn * (bd) ≤ m * bn * td
  let guess := (Int.ofNat m.log2 + q) * 30103 / 100000
  if atLeast (guess + 1) then guess + 1 else if atLeast guess then guess else guess - 1

/-- The decimal of `n` digits nearest to `m * 2 ^ q` among the two beside it that read back, as
digits and the exponent of the last of them. -/
def decimalOf? (m : Nat) (q : Int) (n : Nat) : Option (Nat × Int) :=
  let k := leadingExponent m q + 1 - Int.ofNat n
  let (bn, bd) := power 2 q
  let (tn, td) := power 10 k
  let num := m * bn * td
  let den := tn * bd
  let c := num / den
  let down := readsBack m q c k
  let up := readsBack m q (c + 1) k
  if down && up then some (roundDiv num den, k)
  else if down then some (c, k)
  else if up then some (c + 1, k)
  else none

/-- The fewest digits that read back, with the exponent of the last of them. -/
def shortest (x : Binary64) : Nat × Int :=
  let (m, q) := x.parts
  if m == 0 then (0, 0)
  else ((List.range 17).findSome? fun i => decimalOf? m q (i + 1)).getD (m, q)

end Binary64

/-- How the digits of a number are laid out. The point position is the exponent of ten by which
`0.digits` has to be multiplied. -/
structure DecimalLayout where
  leastPositional : Int
  mostPositional : Int
  exponentDigits : Nat
  nan : Text
  infinity : Text

namespace DecimalLayout

/-- Positional notation with a digit on each side of the point for sizes from `0.0001` up to
`10 ^ 16`, otherwise an exponent with a sign and at least two digits. -/
def plain : DecimalLayout := ⟨-3, 16, 2, "nan".toList, "inf".toList⟩

/-- The plain layout with the long names of the numbers that are not finite. -/
def json : DecimalLayout := { plain with nan := "NaN".toList, infinity := "Infinity".toList }

end DecimalLayout

namespace Binary64

/-- The digits without the zeros at their end. -/
def stripZeros (digits : Text) : Text := Text.dropEndWhile (· == '0') digits

/-- The exponent part of a number in exponent notation. -/
def exponentText (layout : DecimalLayout) (e : Int) : Text :=
  let digits := Text.ofNat e.natAbs
  'e' :: (if e < 0 then '-' else '+') ::
    (List.replicate (layout.exponentDigits - digits.length) '0' ++ digits)

/-- The text of a number. -/
def text (layout : DecimalLayout) (x : Binary64) : Text :=
  let sign : Text := if x.isNegative then ['-'] else []
  if x.isNaN then layout.nan
  else if x.isInfinite then sign ++ layout.infinity
  else if x.isZero then sign ++ "0.0".toList
  else
    let (c, k) := x.shortest
    let all := Text.ofNat c
    let point := Int.ofNat all.length + k
    let digits := stripZeros all
    let n := Int.ofNat digits.length
    if layout.leastPositional ≤ point && point ≤ layout.mostPositional then
      if point ≤ 0 then
        sign ++ '0' :: '.' :: (List.replicate (-point).toNat '0' ++ digits)
      else if n ≤ point then
        sign ++ digits ++ List.replicate (point - n).toNat '0' ++ ".0".toList
      else sign ++ digits.take point.toNat ++ '.' :: digits.drop point.toNat
    else
      let tail := digits.drop 1
      sign ++ digits.take 1 ++ (if tail.isEmpty then [] else '.' :: tail) ++
        exponentText layout (point - 1)

end Binary64

end OperationScan
