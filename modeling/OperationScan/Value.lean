import OperationScan.Number.Binary64
import OperationScan.Text.Printable

/-!
# Values and members

* `Members`: names with what they stand for, each name once, in the order in which the names
  were first given.
* `Value`: the data of JSON. A string that would hold half of a surrogate pair is kept apart, as
  no text can hold it.
* `Value.display`: a value in a message. A text stands for itself, but inside of arrays and
  objects texts are quoted.
-/

namespace OperationScan

/-- Named entries in the order in which the names were first given. -/
abbrev Members (α : Type) := List (Text × α)

namespace Members

variable {α : Type}

/-- The entry of a name. -/
def get? (ms : Members α) (name : Text) : Option α := List.lookup name ms

/-- A name has an entry. -/
def has (ms : Members α) (name : Text) : Bool := (ms.get? name).isSome

/-- Gives a name an entry in place of the one it has. -/
def put (ms : Members α) (name : Text) (a : α) : Members α :=
  if ms.has name then ms.map fun m => if m.1 = name then (name, a) else m
  else ms ++ [(name, a)]

/-- Gives a name an entry unless it has one. -/
def putNew (ms : Members α) (name : Text) (a : α) : Members α :=
  if ms.has name then ms else ms ++ [(name, a)]

/-- Entries of two lists, the second deciding about names of both. -/
def merge (ms others : Members α) : Members α := others.foldl (fun r m => r.put m.1 m.2) ms

/-- Removes the entry of a name. -/
def erase (ms : Members α) (name : Text) : Members α := ms.filter fun m => m.1 != name

/-- The list with each name once: the last entry at the first position. -/
def ofList (entries : List (Text × α)) : Members α := merge [] entries

end Members

/-- Half of a surrogate pair without the other half, at an index of a text in which a
replacement character stands for it. -/
structure LoneHalf where
  index : Nat
  code : Nat
  deriving Repr, DecidableEq

namespace LoneHalf

/-- The escape of a half. -/
def escape (h : LoneHalf) : Text := '\\' :: 'u' :: Text.hexDigits 4 h.code

/-- Spells a text character by character, with the escapes of halves where they stand. -/
def spell (halves : List LoneHalf) (spellChar : Char → Text) (t : Text) : Text :=
  t.zipIdx.flatMap fun (c, i) =>
    match halves.find? fun h => h.index == i with
    | some h => h.escape
    | none => spellChar c

end LoneHalf

/-- The data of JSON. -/
inductive Value where
  | null
  | bool (b : Bool)
  | int (n : Int)
  | float (x : Binary64)
  | string (t : Text)
  | damaged (t : Text) (halves : List LoneHalf)
  | array (items : List Value)
  | object (members : List (Text × Value))
  deriving Inhabited

namespace Value

/-- The members of an object; other values have none. -/
def membersOrNone : Value → Members Value
  | .object ms => ms
  | _ => []

/-! ## Values in messages -/

mutual

/-- A value inside of others. -/
def displayInner : Value → Text
  | .null => "None".toList
  | .bool b => if b then "True".toList else "False".toList
  | .int n => (toString n).toList
  | .float x => x.text .plain
  | .string t => Text.quoted t
  | .damaged t _ => Text.quoted t
  | .array items => '[' :: (Text.join ", ".toList (displayItems items) ++ [']'])
  | .object ms => '\x7b' :: (Text.join ", ".toList (displayMembers ms) ++ ['\x7d'])

/-- Items of an array. -/
def displayItems : List Value → List Text
  | [] => []
  | v :: rest => displayInner v :: displayItems rest

/-- Members of an object. -/
def displayMembers : List (Text × Value) → List Text
  | [] => []
  | (name, v) :: rest => (Text.quoted name ++ ':' :: ' ' :: displayInner v) :: displayMembers rest

end

/-- A value in a message. -/
def display : Value → Text
  | .string t => t
  | .damaged t _ => t
  | v => displayInner v

end Value

end OperationScan
