import OperationScan.Number.Literal
import OperationScan.Value

/-!
# Reading JSON

* `Json.read`: the value of a text, or the cause and the place of the first fault.
* `ReadFault.message`: the wording of a fault, with its line and column.

Besides the standard, `NaN`, `Infinity` and `-Infinity` are numbers. A name that occurs twice in
an object keeps its first position and its last value. Arrays and objects nest at most
`nestingLimit` deep, and integers have at most `Number.digitLimit` digits.
-/

namespace OperationScan.Json

/-- The two kinds of brackets. -/
inductive Container where
  | array
  | object
  deriving Repr, DecidableEq

/-- Why a text is not JSON. -/
inductive FaultCause where
  | byteOrderMark
  | value
  | propertyName
  | colon
  | comma
  | unterminatedString
  | controlCharacter
  | escape
  | unicodeEscape
  | extraData
  | tooManyDigits (count : Nat)
  | tooDeep (container : Container)
  deriving Repr, DecidableEq

/-- A cause with the offset it is reported at. -/
structure ReadFault where
  cause : FaultCause
  index : Nat
  deriving Repr, DecidableEq

/-- How deep arrays and objects may nest. This is left to the stack of the process that reads them,
but a report with values a hundred levels deep can always be read. -/
class Nesting where
  limit : Nat
  le_limit : 104 ≤ limit

/-- A process that has just begun. -/
instance : Nesting := ⟨980, by decide⟩

/-- White space between tokens. -/
def isSpace (c : Char) : Bool := c == ' ' || c == '\t' || c == '\n' || c == '\r'

/-- The place of the next token. -/
def skipSpace (p : Place) : Place := p.skip isSpace

/-- The result of reading at a place. -/
abbrev Reading (α : Type) := Except ReadFault (α × Place)

/-! ## Strings -/

/-- What has been read of a string: its characters, last first, their number, and the surrogate
halves without a partner. -/
structure Spelled where
  backwards : Text
  count : Nat
  halves : List LoneHalf
  deriving Repr, DecidableEq

namespace Spelled

/-- Nothing has been read. -/
def none : Spelled := ⟨[], 0, []⟩

/-- One more character. -/
def push (s : Spelled) (c : Char) : Spelled := ⟨c :: s.backwards, s.count + 1, s.halves⟩

/-- One more code point, possibly a surrogate. -/
def pushCode (s : Spelled) (code : Nat) : Spelled :=
  if 0xd800 ≤ code && code ≤ 0xdfff then
    ⟨Char.ofNat 0xfffd :: s.backwards, s.count + 1, ⟨s.count, code⟩ :: s.halves⟩
  else s.push (Char.ofNat code)

/-- The characters in order. -/
def text (s : Spelled) : Text := s.backwards.reverse

/-- The string that has been read. -/
def value (s : Spelled) : Value :=
  if s.halves.isEmpty then .string s.text else .damaged s.text s.halves.reverse

/-- The name that has been read. A half without a partner stays in it as its escape. -/
def name (s : Spelled) : Text :=
  if s.halves.isEmpty then s.text else LoneHalf.spell s.halves (fun c => [c]) s.text

end Spelled

/-- The character that a letter behind a backslash stands for. -/
def escapeOf? (c : Char) : Option Char :=
  match c with
  | '"' => some '"'
  | '\\' => some '\\'
  | '/' => some '/'
  | 'b' => some (Char.ofNat 8)
  | 'f' => some (Char.ofNat 12)
  | 'n' => some '\n'
  | 'r' => some '\r'
  | 't' => some '\t'
  | _ => none

/-- The number that four hexadecimal digits spell. -/
def fourDigits? : Text → Option (Nat × Text)
  | a :: b :: c :: d :: rest => (Number.valueOf? 16 [a, b, c, d]).map fun n => (n, rest)
  | _ => none

/-- What an escape with four hexadecimal digits stands for. -/
inductive CodeEscape where
  | code (n : Nat) (rest : Text) (length : Nat)
  | fault (index : Nat)

/-- Reads the digits behind `\u`, whose first stands at an index, together with a second escape
if the two are a surrogate pair. At least one character has to follow each escape. -/
def codeEscape (index : Nat) (t : Text) : CodeEscape :=
  match fourDigits? t with
  | none => .fault (index - 1)
  | some (_, []) => .fault (index - 1)
  | some (high, rest) =>
    if 0xd800 ≤ high && high ≤ 0xdbff then
      match rest with
      | '\\' :: 'u' :: more =>
        if (more.drop 4).isEmpty then .code high rest 4
        else
          match fourDigits? more with
          | none => .fault (index + 5)
          | some (low, behind) =>
            if 0xdc00 ≤ low && low ≤ 0xdfff then
              .code (0x10000 + (high - 0xd800) * 0x400 + (low - 0xdc00)) behind 10
            else .code high rest 4
      | _ => .code high rest 4
    else .code high rest 4

/-- Reads a string up to its closing quote. `opening` is the offset of the opening one, and
`skipped` counts characters that belong to an escape already read. -/
def readString (opening : Nat) : Nat → Nat → Text → Spelled → Reading Spelled
  | _, _, [], _ => .error ⟨.unterminatedString, opening⟩
  | index, skipped + 1, _ :: rest, s => readString opening (index + 1) skipped rest s
  | index, 0, c :: rest, s =>
    if c == '"' then .ok (s, ⟨index + 1, rest⟩)
    else if c == '\\' then
      match rest with
      | [] => .error ⟨.unterminatedString, opening⟩
      | 'u' :: digits =>
        match codeEscape (index + 2) digits with
        | .code n _ length => readString opening (index + 1) (1 + length) rest (s.pushCode n)
        | .fault i => .error ⟨.unicodeEscape, i⟩
      | e :: _ =>
        match escapeOf? e with
        | some x => readString opening (index + 1) 1 rest (s.push x)
        | none => .error ⟨.escape, index⟩
    else if c.toNat ≤ 31 then .error ⟨.controlCharacter, index⟩
    else readString opening (index + 1) 0 rest (s.push c)

/-! ## Numbers and words -/

/-- The digits at a place. -/
def digitsAt (t : Text) : Text := t.takeWhile Char.isDigit

/-- The digits behind a point, if there are any. -/
def fractionAt : Text → Text
  | '.' :: rest => digitsAt rest
  | _ => []

/-- The exponent part, if it has digits. -/
def exponentAt : Text → Text
  | c :: rest =>
    if c == 'e' || c == 'E' then
      match rest with
      | s :: more =>
        if s == '+' || s == '-' then
          (if (digitsAt more).isEmpty then [] else c :: s :: digitsAt more)
        else if (digitsAt rest).isEmpty then [] else c :: digitsAt rest
      | [] => []
    else []
  | [] => []

/-- The digits in front of the point: a zero alone, or digits that start with another one. -/
def wholeAt (t : Text) : Text :=
  match t with
  | '0' :: _ => ['0']
  | _ => digitsAt t

/-- Reads a number. -/
def readNumber (p : Place) : Reading Value :=
  let negative := p.rest.head? == some '-'
  let body := if negative then p.rest.drop 1 else p.rest
  let whole := wholeAt body
  if whole.isEmpty then .error ⟨.value, p.index⟩
  else
    let behind := body.drop whole.length
    let fraction := fractionAt behind
    let afterFraction := if fraction.isEmpty then behind else behind.drop (fraction.length + 1)
    let exponent := exponentAt afterFraction
    let rest := afterFraction.drop exponent.length
    let place : Place := ⟨p.index + (p.rest.length - rest.length), rest⟩
    if fraction.isEmpty && exponent.isEmpty then
      if whole.length > Number.digitLimit then
        .error ⟨.tooManyDigits whole.length, p.index⟩
      else
        match Number.valueOf? 10 whole with
        | some n => .ok (.int (if negative then -Int.ofNat n else Int.ofNat n), place)
        | none => .error ⟨.value, p.index⟩
    else
      match Number.decimalNumber? negative whole fraction exponent with
      | some x => .ok (.float x, place)
      | none => .error ⟨.value, p.index⟩

/-- The words and what they stand for. -/
def wordValues : List (Text × Value) := [
  ("null".toList, .null), ("true".toList, .bool true), ("false".toList, .bool false),
  ("NaN".toList, .float Binary64.nan), ("Infinity".toList, .float (Binary64.infinity false)),
  ("-Infinity".toList, .float (Binary64.infinity true))]

/-- Reads one of the words. -/
def readWord? (p : Place) : Option (Value × Place) :=
  wordValues.findSome? fun w => (p.skipLiteral? w.1).map fun q => (w.2, q)

/-! ## Values -/

variable {α : Type}

/-- Reads items with commas between them, from the first on up to a closing bracket. `fuel` bounds
their number. -/
def readItems (right : Char) (item : Place → Reading α) :
    (fuel : Nat) → Place → List α → Reading (List α)
  | 0, p, _ => .error ⟨.comma, p.index⟩
  | fuel + 1, p, done =>
    match item p with
    | .error e => .error e
    | .ok (a, p) =>
      let p := skipSpace p
      if p.rest.head? == some right then .ok ((a :: done).reverse, p.drop 1)
      else if p.rest.head? == some ',' then
        readItems right item fuel (skipSpace (p.drop 1)) (a :: done)
      else .error ⟨.comma, p.index⟩

/-- Reads what stands between two brackets, from the opening one on. -/
def readBrackets (right : Char) (item : Place → Reading α) (p : Place) : Reading (List α) :=
  let p := skipSpace (p.drop 1)
  if p.rest.head? == some right then .ok ([], p.drop 1)
  else readItems right item (p.rest.length + 1) p []

/-- Reads a name, the colon behind it and the value. -/
def readMember (item : Place → Reading Value) (p : Place) : Reading (Text × Value) :=
  match p.rest with
  | '"' :: rest =>
    match readString p.index (p.index + 1) 0 rest .none with
    | .error e => .error e
    | .ok (name, p) =>
      let p := skipSpace p
      match p.rest with
      | ':' :: _ =>
        match item (skipSpace (p.drop 1)) with
        | .error e => .error e
        | .ok (v, p) => .ok ((name.name, v), p)
      | _ => .error ⟨.colon, p.index⟩
  | _ => .error ⟨.propertyName, p.index⟩

/-- Reads a value whose arrays and objects nest at most `depth` deep. -/
def readValue : (depth : Nat) → Place → Reading Value
  | depth, p =>
    match p.rest with
    | '"' :: rest =>
      match readString p.index (p.index + 1) 0 rest .none with
      | .error e => .error e
      | .ok (s, p) => .ok (s.value, p)
    | '[' :: _ =>
      match depth with
      | 0 => .error ⟨.tooDeep .array, p.index⟩
      | depth + 1 => (readBrackets ']' (readValue depth) p).map fun x => (.array x.1, x.2)
    | '\x7b' :: _ =>
      match depth with
      | 0 => .error ⟨.tooDeep .object, p.index⟩
      | depth + 1 =>
        (readBrackets '\x7d' (readMember (readValue depth)) p).map fun x =>
          (.object (Members.ofList x.1), x.2)
    | _ =>
      match readWord? p with
      | some r => .ok r
      | none => readNumber p

/-- Reads a text as one value. -/
def read [Nesting] (t : Text) : Except ReadFault Value :=
  if t.head? == some (Char.ofNat 0xfeff) then .error ⟨.byteOrderMark, 0⟩
  else
    match readValue Nesting.limit (skipSpace (.start t)) with
    | .error e => .error e
    | .ok (v, p) =>
      let p := skipSpace p
      if p.rest.isEmpty then .ok v else .error ⟨.extraData, p.index⟩

/-! ## The wording of faults -/

/-- The number of the line an offset lies on, and of its column; both count from one. -/
def lineAndColumn (t : Text) (index : Nat) : Nat × Nat :=
  let before := t.take index
  (before.count '\n' + 1, (before.reverse.takeWhile (· != '\n')).length + 1)

/-- The wording of a cause that is reported with its place. -/
def FaultCause.summary : FaultCause → String
  | .byteOrderMark => "Unexpected UTF-8 BOM (decode using utf-8-sig)"
  | .value => "Expecting value"
  | .propertyName => "Expecting property name enclosed in double quotes"
  | .colon => "Expecting ':' delimiter"
  | .comma => "Expecting ',' delimiter"
  | .unterminatedString => "Unterminated string starting at"
  | .controlCharacter => "Invalid control character at"
  | .escape => "Invalid \\escape"
  | .unicodeEscape => "Invalid \\uXXXX escape"
  | .extraData => "Extra data"
  | .tooManyDigits count =>
    Number.limitSummary ++ ": value has " ++ toString count ++ " digits; " ++ Number.limitAdvice
  | .tooDeep .array =>
    "maximum recursion depth exceeded while decoding a JSON array from a unicode string"
  | .tooDeep .object =>
    "maximum recursion depth exceeded while decoding a JSON object from a unicode string"

/-- The wording of a fault in a text. -/
def ReadFault.message (t : Text) (fault : ReadFault) : String :=
  match fault.cause with
  | .tooManyDigits _ | .tooDeep _ => fault.cause.summary
  | cause =>
    let (line, column) := lineAndColumn t fault.index
    cause.summary ++ ": line " ++ toString line ++ " column " ++ toString column ++
      " (char " ++ toString fault.index ++ ")"

end OperationScan.Json
