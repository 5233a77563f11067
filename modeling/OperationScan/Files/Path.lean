import OperationScan.Text.LetterCase

/-!
# Paths

A path is its root and the names on the way from there. Empty names and single dots do not
count; two dots do.

* `Path.ofText`, `Path.text`: reading and writing; a path without root and names is a dot.
* `Path.name`, `Path.suffix`: the last name and its ending from the last dot on.
-/

namespace OperationScan

/-- A root, which is empty for a relative path, and the names on the way from there. -/
structure Path where
  root : Text
  parts : List Text
  deriving Repr, DecidableEq

namespace Path

/-- The slashes in front of a path that are its root: exactly two are kept, more count as one. -/
def rootOf (t : Text) : Text :=
  match (t.takeWhile (· == '/')).length with
  | 0 => []
  | 2 => ['/', '/']
  | _ => ['/']

/-- A name that counts. -/
def isPart (name : Text) : Bool := !name.isEmpty && name != ['.']

/-- The path that a text spells. -/
def ofText (t : Text) : Path := ⟨rootOf t, (Text.splitOn '/' t).filter isPart⟩

/-- The text of a path. -/
def text (p : Path) : Text :=
  if p.root.isEmpty && p.parts.isEmpty then ['.'] else p.root ++ Text.join ['/'] p.parts

/-- A path further on. -/
def append (p : Path) (names : List Text) : Path := { p with parts := p.parts ++ names }

/-- The last name. -/
def name (p : Path) : Text := p.parts.getLast?.getD []

/-- The ending of a name from its last dot on, if something stands on both sides of the dot. -/
def suffixOf (name : Text) : Text :=
  let ending := (name.reverse.takeWhile (· != '.')).reverse
  if ending.isEmpty || name.length ≤ ending.length + 1 then [] else '.' :: ending

/-- The ending of the last name. -/
def suffix (p : Path) : Text := suffixOf p.name

/-- The path with another last name. -/
def withName (p : Path) (name : Text) : Path := { p with parts := p.parts.dropLast ++ [name] }

end Path

/-- The grammars of script files. -/
inductive Language where
  | javascript
  | typescript
  | tsx
  deriving Repr, DecidableEq, Inhabited

namespace Language

/-- The name of a grammar. -/
def name : Language → String
  | .javascript => "javascript"
  | .typescript => "typescript"
  | .tsx => "tsx"

/-- The endings of script files with their grammars. -/
def endings : List (Text × Language) := [
  (".js".toList, .javascript), (".jsx".toList, .javascript), (".mjs".toList, .javascript),
  (".cjs".toList, .javascript), (".ts".toList, .typescript), (".mts".toList, .typescript),
  (".cts".toList, .typescript), (".tsx".toList, .tsx)]

/-- The grammar for an ending. -/
def ofSuffix? (suffix : Text) : Option Language := endings.lookup (Text.toLower suffix)

/-- The grammar for a locator; its text from the first question mark on does not count. -/
def ofLocator (locator : Text) : Language :=
  (ofSuffix? (Path.ofText (locator.takeWhile (· != '?'))).suffix).getD .javascript

end Language

end OperationScan
