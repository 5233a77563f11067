import OperationScan.Number.Literal
import OperationScan.Value

/-!
# Reading loosely typed fields

Fields come from files, environments and command lines, so a number may be spelled out in a
text, and a truth value may be a word or a number.

* `Fields.field`, `Fields.required`: the value of a field, read by a reader.
* `readText`, `readFlag`, `readInteger`, `readItems`, `readMembers`: the readers.
* `FieldFault`: the place and the kind of a problem. All faults of a record are reported.
-/

namespace OperationScan

/-- What is wrong with a value. -/
inductive FieldProblem where
  | missing
  | noText
  | noFlag
  | badFlag
  | noInteger
  | badInteger
  | longInteger
  | fraction
  | notFinite
  | tooSmall
  | noTuple
  | noList
  | noMembers
  | unknownWord
  | noTime
  | badTime
  | timeOutOfRange
  deriving Repr, DecidableEq

namespace FieldProblem

/-- The tag of a problem. -/
def tag : FieldProblem → String
  | missing => "missing"
  | noText => "string_type"
  | noFlag => "bool_type"
  | badFlag => "bool_parsing"
  | noInteger => "int_type"
  | badInteger => "int_parsing"
  | longInteger => "int_parsing_size"
  | fraction => "int_from_float"
  | notFinite => "finite_number"
  | tooSmall => "greater_than_equal"
  | noTuple => "tuple_type"
  | noList => "list_type"
  | noMembers => "dict_type"
  | unknownWord => "literal_error"
  | noTime => "datetime_type"
  | badTime => "datetime_from_date_parsing"
  | timeOutOfRange => "datetime_parsing"

end FieldProblem

/-- A problem and the names and indices that lead to it. -/
structure FieldFault where
  location : List Text
  problem : FieldProblem
  deriving Repr, DecidableEq

/-- A value that has been read, or all that is wrong with it. -/
abbrev FieldResult := Except (List FieldFault)

namespace FieldResult

/-- What is wrong. -/
def faults {α : Type} : FieldResult α → List FieldFault
  | .ok _ => []
  | .error fs => fs

/-- A single problem right here. -/
def problem {α : Type} (p : FieldProblem) : FieldResult α := .error [⟨[], p⟩]

/-- The result below a name or an index. -/
def below {α : Type} (name : Text) : FieldResult α → FieldResult α
  | .ok a => .ok a
  | .error fs => .error (fs.map fun f => { f with location := name :: f.location })

/-- Two results, or the faults of both. -/
def both {α β : Type} (a : FieldResult α) (b : FieldResult β) : FieldResult (α × β) :=
  match a, b with
  | .ok x, .ok y => .ok (x, y)
  | _, _ => .error (faults a ++ faults b)

/-- All results, or the faults of all. -/
def all {α : Type} : List (FieldResult α) → FieldResult (List α)
  | [] => .ok []
  | a :: rest => (both a (all rest)).map fun (x, xs) => x :: xs

end FieldResult

/-! ## Readers -/

/-- Reads a text. -/
def readText : Value → FieldResult Text
  | .string t => .ok t
  | _ => .problem .noText

/-- Words that mean yes. -/
def yesWords : List Text := ["1", "on", "t", "true", "y", "yes"].map (·.toList)

/-- Words that mean no. -/
def noWords : List Text := ["0", "off", "f", "false", "n", "no"].map (·.toList)

/-- Integers in a machine word are below this, and not below its negative. -/
def wordLimit : Nat := 9223372036854775808

/-- Reads a truth value. -/
def readFlag : Value → FieldResult Bool
  | .bool b => .ok b
  | .string t =>
    if yesWords.contains (Text.toLower t) then .ok true
    else if noWords.contains (Text.toLower t) then .ok false
    else .problem .badFlag
  | .int n =>
    if n == 0 then .ok false
    else if n == 1 then .ok true
    else if -wordLimit ≤ n && n < wordLimit then .problem .badFlag
    else .problem .noFlag
  | .float x =>
    match x.integer? with
    | some n =>
      if n == 0 then .ok false
      else if n == 1 then .ok true
      else if n.natAbs < wordLimit then .problem .badFlag
      else .problem .noFlag
    | none => .problem .noFlag
  | _ => .problem .noFlag

/-- Digits without the zeros in front, of which one stays if nothing else is left; single
underscores between them go too. -/
def dropZeros? : (afterUnderscore : Bool) → Text → Option Text
  | afterUnderscore, [] => if afterUnderscore then none else some ['0']
  | afterUnderscore, c :: rest =>
    if c == '0' then dropZeros? false rest
    else if c == '_' && !afterUnderscore then dropZeros? true rest
    else if '1' ≤ c && c ≤ '9' then some (c :: rest)
    else if c == '.' then some ('0' :: c :: rest)
    else none

/-- Digits without a point and the zeros behind it. -/
def dropPoint (t : Text) : Text :=
  match t.dropWhile (· != '.') with
  | '.' :: zeros => if zeros.all (· == '0') then t.takeWhile (· != '.') else t
  | _ => t

/-- Digits without the underscores between them. -/
def dropUnderscores (t : Text) : Text :=
  if t.head? == some '_' || t.getLast? == some '_' || Text.contains ['_', '_'] t then t
  else t.filter (· != '_')

/-- An integer that a text spells, perhaps with zeros in front or a point and zeros behind. -/
def integerOf (t : Text) : FieldResult Int :=
  let (negative, body) := Number.splitSign (t.dropWhile Number.isPadding |>
    Text.dropEndWhile Number.isPadding)
  let digits :=
    if body.head? == some '0' then (dropZeros? false (body.drop 1)).getD [] else body
  let digits := dropUnderscores (dropPoint digits)
  if digits.all Char.isDigit then
    if Number.digitLimit < digits.length then .problem .longInteger
    else
      match Number.valueOf? 10 digits with
      | some n => .ok (if negative then -Int.ofNat n else Int.ofNat n)
      | none => .problem .badInteger
  else .problem .badInteger

/-- Reads an integer. -/
def readInteger : Value → FieldResult Int
  | .int n => .ok n
  | .bool b => .ok (if b then 1 else 0)
  | .string t => integerOf t
  | .float x =>
    if x.isNaN || x.isInfinite then .problem .notFinite
    else
      match x.integer? with
      | none => .problem .fraction
      | some n => if n.natAbs < wordLimit then .ok n else .problem .longInteger
  | _ => .problem .noInteger

/-- Reads an integer that is not below a bound. -/
def readIntegerFrom (least : Int) (v : Value) : FieldResult Int :=
  match readInteger v with
  | .ok n => if n < least then .problem .tooSmall else .ok n
  | .error fs => .error fs

/-- Reads texts at their indices. -/
def readItems (items : List Value) : FieldResult (List Text) :=
  .all (items.zipIdx.map fun (v, i) => (readText v).below (Text.ofNat i))

/-- Reads an object. -/
def readMembers : Value → FieldResult (Members Value)
  | .object ms => .ok ms
  | _ => .problem .noMembers

/-- Reads an object of texts. -/
def readTextMembers (v : Value) : FieldResult (Members Text) :=
  match v with
  | .object ms => .all (ms.map fun (name, v) => ((readText v).below name).map (Prod.mk name))
  | _ => .problem .noMembers

/-! ## Fields -/

namespace Fields

/-- The value of a field, or a default if there is no such field. -/
def field {α : Type} (fs : Members Value) (name : String) (read : Value → FieldResult α)
    (default : α) : FieldResult α :=
  match fs.get? name.toList with
  | some v => (read v).below name.toList
  | none => .ok default

/-- The value of a field that has to be there. -/
def required {α : Type} (fs : Members Value) (name : String) (read : Value → FieldResult α) :
    FieldResult α :=
  match fs.get? name.toList with
  | some v => (read v).below name.toList
  | none => (FieldResult.problem .missing).below name.toList

end Fields

end OperationScan
