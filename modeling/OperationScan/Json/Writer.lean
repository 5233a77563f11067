import OperationScan.Number.Literal
import OperationScan.Value

/-!
# Writing JSON

* `Json.write`: a value on one line, with a blank behind every comma and colon.
* `Json.writeIndented`: a value over several lines, two blanks for each level.

Characters outside printable ASCII are written as escapes. An integer of more than
`Number.digitLimit` digits cannot be written.
-/

namespace OperationScan.Json

/-- Why a value cannot be written. -/
inductive WriteFault where
  | tooManyDigits
  deriving Repr, DecidableEq

/-- The wording of a fault. -/
def WriteFault.message : WriteFault → String
  | .tooManyDigits => Number.limitSummary ++ "; " ++ Number.limitAdvice

/-- The escape of a code unit. -/
def unitEscape (n : Nat) : Text := '\\' :: 'u' :: Text.hexDigits 4 n

/-- A character inside a string. -/
def encodeChar (c : Char) : Text :=
  let n := c.toNat
  if c == '"' then ['\\', '"']
  else if c == '\\' then ['\\', '\\']
  else if c == '\n' then ['\\', 'n']
  else if c == '\r' then ['\\', 'r']
  else if c == '\t' then ['\\', 't']
  else if n == 12 then ['\\', 'f']
  else if n == 8 then ['\\', 'b']
  else if 32 ≤ n && n ≤ 126 then [c]
  else if n < 0x10000 then unitEscape n
  else
    unitEscape (0xd800 + (n - 0x10000) / 0x400) ++ unitEscape (0xdc00 + (n - 0x10000) % 0x400)

/-- A string between its quotes. -/
def encodeInner (t : Text) : Text := t.flatMap encodeChar

/-- A string. -/
def encode (t : Text) : Text := '"' :: (encodeInner t ++ ['"'])

/-- A string in which lone halves stand at some indices. -/
def encodeDamaged (t : Text) (halves : List LoneHalf) : Text :=
  '"' :: (LoneHalf.spell halves encodeChar t ++ ['"'])

/-- An integer. -/
def writeInt (n : Int) : Except WriteFault Text :=
  let digits := Text.ofNat n.natAbs
  if digits.length > Number.digitLimit then .error .tooManyDigits
  else .ok (if n < 0 then '-' :: digits else digits)

/-- The layout of arrays and objects: what separates items at a level, and what stands behind
the opening and before the closing bracket. -/
structure Layout where
  separator : Nat → Text
  opening : Nat → Text
  closing : Nat → Text

namespace Layout

/-- Everything on one line. -/
def oneLine : Layout := ⟨fun _ => ", ".toList, fun _ => [], fun _ => []⟩

/-- A line break and two blanks for each level. -/
def newline (level : Nat) : Text := '\n' :: List.replicate (2 * level) ' '

/-- A line for every item. -/
def indented : Layout :=
  ⟨fun level => ',' :: newline (level + 1), fun level => newline (level + 1), newline⟩

end Layout

/-- Pieces between brackets. -/
def bracket (layout : Layout) (level : Nat) (left right : Char) (pieces : List Text) : Text :=
  if pieces.isEmpty then [left, right]
  else
    left :: (layout.opening level ++ Text.join (layout.separator level) pieces ++
      layout.closing level ++ [right])

mutual

/-- A value at a level. -/
def writeAt (layout : Layout) (level : Nat) : Value → Except WriteFault Text
  | .null => .ok "null".toList
  | .bool b => .ok (if b then "true".toList else "false".toList)
  | .int n => writeInt n
  | .float x => .ok (x.text .json)
  | .string t => .ok (encode t)
  | .damaged t halves => .ok (encodeDamaged t halves)
  | .array items => do
    let pieces ← writeItems layout (level + 1) items
    return bracket layout level '[' ']' pieces
  | .object members => do
    let pieces ← writeMembers layout (level + 1) members
    return bracket layout level '\x7b' '\x7d' pieces

/-- The items of an array. -/
def writeItems (layout : Layout) (level : Nat) : List Value → Except WriteFault (List Text)
  | [] => .ok []
  | v :: rest => do
    let piece ← writeAt layout level v
    let pieces ← writeItems layout level rest
    return piece :: pieces

/-- The members of an object. -/
def writeMembers (layout : Layout) (level : Nat) :
    List (Text × Value) → Except WriteFault (List Text)
  | [] => .ok []
  | (name, v) :: rest => do
    let piece ← writeAt layout level v
    let pieces ← writeMembers layout level rest
    return (encode name ++ ':' :: ' ' :: piece) :: pieces

end

/-- A value on one line. -/
def write (v : Value) : Except WriteFault Text := writeAt .oneLine 0 v

/-- A value over several lines. -/
def writeIndented (v : Value) : Except WriteFault Text := writeAt .indented 0 v

end OperationScan.Json
