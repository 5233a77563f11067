import OperationScan.Text.Word

/-!
# Operation keywords

* `Kind`: the four keywords that begin an operation, and the kind of text without one.
* `Kind.at?`: the keyword at the start of a text, as a whole word.
* `keywordPlaces`: the places in a text where a keyword stands as a whole word.
-/

namespace OperationScan

/-- What an operation is. -/
inductive Kind where
  | query
  | mutation
  | subscription
  | fragment
  | unknown
  deriving Repr, DecidableEq, Inhabited

namespace Kind

/-- The word for a kind. -/
def word : Kind → Text
  | .query => "query".toList
  | .mutation => "mutation".toList
  | .subscription => "subscription".toList
  | .fragment => "fragment".toList
  | .unknown => "unknown".toList

/-- The kinds that begin with a keyword. -/
def keywords : List Kind := [.query, .mutation, .subscription, .fragment]

/-- The kind with a word. -/
def ofWord? (t : Text) : Option Kind :=
  [query, mutation, subscription, fragment, unknown].find? fun k => k.word == t

/-- The keyword at a place, which ends a word there, and the place behind it. -/
def at? (p : Place) : Option (Kind × Place) :=
  keywords.findSome? fun k =>
    match p.skipLiteral? k.word with
    | some q => if Text.wordEnds q.rest then some (k, q) else none
    | none => none

end Kind

/-- The first letters of the keywords. -/
def beginsKeyword (c : Char) : Bool := c == 'q' || c == 'm' || c == 's' || c == 'f'

/-- The keyword at a place, as a whole word. -/
def Place.keyword? (before : Option Char) (p : Place) : Option (Kind × Place) :=
  match p.rest with
  | c :: _ => if beginsKeyword c && Text.wordBegins before then Kind.at? p else none
  | [] => none

/-- The places of the keywords among the first `count` characters, last first, in front of those
already found. -/
def keywordPlacesFrom (index : Nat) (before : Option Char) (found : List Place) :
    (count : Nat) → Text → List Place
  | 0, _ => found
  | _, [] => found
  | count + 1, c :: rest =>
    let p : Place := ⟨index, c :: rest⟩
    let found := if (p.keyword? before).isSome then p :: found else found
    keywordPlacesFrom (index + 1) (some c) found count rest

/-- The places of the keywords among the first `count` characters of a text, last first. -/
def keywordPlaces (t : Text) (count : Nat) : List Place := keywordPlacesFrom 0 none [] count t

end OperationScan
