import OperationScan.Number.Binary64

/-!
# Moments

* `Timestamp`: a date and a time of day, perhaps with the distance from universal time.
* `Timestamp.text`: a moment in the form that is common in data.
* `Timestamp.ofText?`: reads that form, a date alone, or a count of seconds.
* `Timestamp.ofSeconds?`: the moment so many seconds, or milliseconds if they are very many, after
  the start of 1970.
-/

namespace OperationScan

/-- A date and a time of day; the offset counts minutes that the time is ahead of universal
time. -/
structure Timestamp where
  year : Nat
  month : Nat
  day : Nat
  hour : Nat
  minute : Nat
  second : Nat
  microsecond : Nat
  offset : Option Int
  deriving Repr, DecidableEq

namespace Timestamp

/-! ## Writing -/

/-- The text of an offset. -/
def offsetText (minutes : Int) : Text :=
  if minutes == 0 then ['Z']
  else
    (if minutes < 0 then '-' else '+') :: (Text.ofNatPadded 2 (minutes.natAbs / 60) ++
      ':' :: Text.ofNatPadded 2 (minutes.natAbs % 60))

/-- The text of a moment. -/
def text (t : Timestamp) : Text :=
  let date := Text.join ['-']
    [Text.ofNatPadded 4 t.year, Text.ofNatPadded 2 t.month, Text.ofNatPadded 2 t.day]
  let time := Text.join [':']
    [Text.ofNatPadded 2 t.hour, Text.ofNatPadded 2 t.minute, Text.ofNatPadded 2 t.second]
  let fraction := if t.microsecond == 0 then [] else '.' :: Text.ofNatPadded 6 t.microsecond
  date ++ 'T' :: time ++ fraction ++ (t.offset.map offsetText).getD []

/-! ## The calendar -/

/-- A year with a day more than others. -/
def isLeap (year : Nat) : Bool := year % 4 == 0 && (year % 100 != 0 || year % 400 == 0)

/-- The number of days in a month. -/
def daysIn (year month : Nat) : Nat :=
  if month == 2 then (if isLeap year then 29 else 28)
  else if month == 4 || month == 6 || month == 9 || month == 11 then 30
  else 31

/-- The year, month and day so many days after the first of March of the year zero. -/
def dateOfDays (days : Nat) : Nat × Nat × Nat :=
  let era := days / 146097
  let rest := days % 146097
  let yearOfEra := (rest - rest / 1460 + rest / 36524 - rest / 146096) / 365
  let dayOfYear := rest - (365 * yearOfEra + yearOfEra / 4 - yearOfEra / 100)
  let shifted := (5 * dayOfYear + 2) / 153
  let month := if shifted < 10 then shifted + 3 else shifted - 9
  let year := era * 400 + yearOfEra
  (if month ≤ 2 then year + 1 else year, month, dayOfYear - (153 * shifted + 2) / 5 + 1)

/-- The number of days from the first of March of the year zero to the start of 1970. -/
def daysToEpoch : Int := 719468

/-- Counts above this are milliseconds. -/
def mostSeconds : Nat := 20000000000

/-- The first and the last second that are moments, from the start of 1600 to the end of 9999. -/
def bounds : Int × Int := (-11676096000, 253402300799)

/-- The moment a count of seconds or milliseconds, and so many microseconds, after the start of
1970 in universal time. -/
def ofSeconds? (count : Int) (microseconds : Nat) : Option Timestamp :=
  let (second, extra) :=
    if count.natAbs ≤ mostSeconds then (count, 0)
    else (Int.fdiv count 1000, (Int.fmod count 1000).toNat * 1000)
  let total := microseconds + extra
  let second := second + Int.ofNat (total / 1000000)
  if bounds.1 ≤ second && second ≤ bounds.2 then
    let (year, month, day) := dateOfDays (daysToEpoch + Int.fdiv second 86400).toNat
    let time := (Int.fmod second 86400).toNat
    some ⟨year, month, day, time / 3600, time / 60 % 60, time % 60, total % 1000000, some 0⟩
  else none

/-- The quotient of two numbers, to the nearest whole number. -/
def nearest (num den : Nat) : Nat := (2 * num + den) / (2 * den)

/-- The moment that a number of seconds names: its whole part rounded down and its fraction to
the nearest microsecond. -/
def ofNumber? (x : Binary64) : Option Timestamp :=
  if x.isNaN || x.isInfinite then none
  else
    let (m, q) := x.parts
    let den : Nat := Nat.pow 2 (-q).toNat
    let num : Nat := m * Nat.pow 2 q.toNat
    let whole : Int :=
      if x.isNegative then Int.fdiv (-(Int.ofNat num)) (Int.ofNat den)
      else Int.ofNat (num / den)
    ofSeconds? whole (nearest (num % den * 1000000) den)

/-! ## Reading -/

/-- Some digits and what follows them. -/
def digits? (count : Nat) (t : Text) : Option (Nat × Text) :=
  let run := t.take count
  if run.length == count && run.all Char.isDigit then
    some (run.foldl (fun n c => 10 * n + (c.toNat - 48)) 0, t.drop count)
  else none

/-- A literal and what follows it. -/
def expect? (c : Char) : Text → Option Text
  | d :: rest => if c == d then some rest else none
  | [] => none

/-- A date and what follows it. -/
def date? (t : Text) : Option ((Nat × Nat × Nat) × Text) := do
  let (year, t) ← digits? 4 t
  let (month, t) ← digits? 2 (← expect? '-' t)
  let (day, t) ← digits? 2 (← expect? '-' t)
  if 1 ≤ year && 1 ≤ month && month ≤ 12 && 1 ≤ day && day ≤ daysIn year month then
    return ((year, month, day), t)
  else none

/-- The microseconds behind the seconds, and what follows them: any number of digits, of which
six count. -/
def fraction? (t : Text) : Option (Nat × Text) :=
  match t with
  | c :: rest =>
    if c == '.' || c == ',' then
      let run := rest.takeWhile Char.isDigit
      if run.isEmpty then none
      else
        let counted := (run ++ List.replicate 6 '0').take 6
        (digits? 6 counted).map fun (n, _) => (n, rest.drop run.length)
    else some (0, t)
  | [] => some (0, [])

/-- A time of day and what follows it; seconds may be missing. -/
def time? (t : Text) : Option ((Nat × Nat × Nat × Nat) × Text) := do
  let (hour, t) ← digits? 2 t
  let (minute, t) ← digits? 2 (← expect? ':' t)
  if 23 < hour || 59 < minute then none
  else
    match t with
    | ':' :: rest =>
      let (second, rest) ← digits? 2 rest
      if 59 < second then none
      let (microsecond, rest) ← fraction? rest
      return ((hour, minute, second, microsecond), rest)
    | _ => return ((hour, minute, 0, 0), t)

/-- The sign of an offset. -/
def sign? (c : Char) : Option Int :=
  if c == '+' then some 1
  else if c == '-' || c == Char.ofNat 0x2212 then some (-1)
  else none

/-- The offset at the end of a moment, if there is one. -/
def offset? (t : Text) : Option (Option Int) :=
  match t with
  | [] => some none
  | ['Z'] | ['z'] => some (some 0)
  | c :: rest => do
    let sign ← sign? c
    let (hours, rest) ← digits? 2 rest
    let (minutes, rest) ← digits? 2 (if rest.head? == some ':' then rest.drop 1 else rest)
    if rest.isEmpty && minutes < 60 && hours < 24 then
      return some (sign * Int.ofNat (60 * hours + minutes))
    else none

/-- A date and a time of day, or a date alone. -/
def ofDateText? (t : Text) : Option Timestamp := do
  let ((year, month, day), rest) ← date? t
  match rest with
  | [] => return ⟨year, month, day, 0, 0, 0, 0, none⟩
  | c :: rest =>
    if c == 'T' || c == 't' || c == ' ' || c == '_' then
      let ((hour, minute, second, microsecond), rest) ← time? rest
      return ⟨year, month, day, hour, minute, second, microsecond, ← offset? rest⟩
    else none

/-- A count of seconds in decimal digits, perhaps with a sign and a fraction. -/
def ofNumberText? (t : Text) : Option Timestamp :=
  let (negative, body) := match t with
    | '-' :: rest => (true, rest)
    | '+' :: rest => (false, rest)
    | _ => (false, t)
  let whole := body.takeWhile Char.isDigit
  if whole.isEmpty then none
  else
    let n := whole.foldl (fun n c => 10 * n + (c.toNat - 48)) 0
    match body.drop whole.length with
    | [] => ofSeconds? (if negative then -(Int.ofNat n) else n) 0
    | '.' :: digits =>
      if digits.all Char.isDigit then
        let m := digits.foldl (fun n c => 10 * n + (c.toNat - 48)) n
        let den := (if n > mostSeconds then 1000 else 1) * Nat.pow 10 digits.length
        let micros := nearest (m * 1000000) den
        let total : Int := if negative then -(Int.ofNat micros) else micros
        ofSeconds? (Int.fdiv total 1000000) (Int.fmod total 1000000).toNat
      else none
    | _ => none

/-- The moment that a text spells. -/
def ofText? (t : Text) : Option Timestamp := ofDateText? t <|> ofNumberText? t

end Timestamp

end OperationScan
