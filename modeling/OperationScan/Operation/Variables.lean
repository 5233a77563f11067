import OperationScan.Operation.Head
import OperationScan.Value

/-!
# Placeholder values for variables

* `defaultValue`: the placeholder for a declared type, decided by words in the type's text.
* `declarations`: the names and types in the text of an argument list.
* `inferVariables`: the values of an operation's variables, known ones first.
-/

namespace OperationScan

/-- The placeholder for a type. The order of the tests matters: a list of strings has a string. -/
def defaultValue (type : Text) : Value :=
  let names (word : String) : Bool := Text.contains word.toList type
  if names "String" then .string "sample-string".toList
  else if names "Int" || names "Float" then .int 0
  else if names "Boolean" then .bool false
  else if names "ID" then .string "123".toList
  else if names "[" then .array []
  else .null

/-- A character that can belong to the text of a type. -/
def isTypeChar (c : Char) : Bool := c != ',' && c != '\n' && c != '$'

/-- The text of the type behind a colon. White space in front of it is left out, but where
nothing else is there, the last white space that is not a line feed stands for the type. -/
def typeText? (p : Place) : Option (Text × Place) :=
  let q := p.skipBlanks
  let type := q.run isTypeChar
  if type.isEmpty then
    let blanks := p.run Text.isBlank
    let after := (blanks.reverse.takeWhile (· == '\n')).length
    match blanks.reverse.drop after with
    | c :: before => some ([c], p.drop (before.length + 1))
    | [] => none
  else some (type, q.drop type.length)

/-- The declaration at a place: its name, the text of its type, and the place behind it. -/
def declaration? (p : Place) : Option (Text × Text × Place) :=
  let start := (p.skipLiteral? ['$']).getD p
  match start.name? with
  | none => none
  | some (name, q) =>
    match q.skipBlanks.skipLiteral? [':'] with
    | none => none
    | some r => (typeText? r).map fun (type, s) => (name, type, s)

/-- The declarations in a text behind the first `skipped` characters, last first, in front of
those already found. -/
def declarationsFrom (found : List (Text × Text)) : (skipped : Nat) → Text → List (Text × Text)
  | _, [] => found
  | skipped + 1, _ :: rest => declarationsFrom found skipped rest
  | 0, c :: rest =>
    match declaration? (.start (c :: rest)) with
    | some (name, type, behind) =>
      declarationsFrom ((name, type) :: found) (behind.index - 1) rest
    | none => declarationsFrom found 0 rest

/-- The names and types declared in the text of an argument list, in order. -/
def declarations (args : Text) : List (Text × Text) := (declarationsFrom [] 0 args).reverse

/-- The values of an operation's variables: the known ones, then a placeholder for each name
that is declared and not known. -/
def inferVariables (args : Option Text) (known : Members Value) : Members Value :=
  (declarations (args.getD [])).foldl
    (fun values d => values.putNew d.1 (defaultValue (Text.trim d.2))) known

end OperationScan
