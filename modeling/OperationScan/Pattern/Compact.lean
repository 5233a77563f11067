import OperationScan.Pattern.Scan
import OperationScan.Operation.Head

/-!
# Heads without much spacing, and heads cut off by a semicolon

* `minifiedStep`: a keyword, optionally a name, arguments and a type condition that may touch
  its type, and a brace group that nests at most three levels below its outer braces.
* `splitStep`: a keyword, at most eighty characters without a brace or a semicolon, an opening
  brace, and all up to the next semicolon.
-/

namespace OperationScan

/-- The brace levels allowed below the outer body. -/
def minifiedNesting : Nat := 3

/-- The most characters between a keyword and its body. -/
def splitGapLimit : Nat := 80

namespace Compact

/-- The place of the opening brace, if it comes next. -/
def brace? (p : Place) : Option Place :=
  let q := p.skipBlanks
  if q.head? == some '\x7b' then some q else none

/-- The opening brace behind a type condition whose word `on` stands at a place. -/
def afterOn? (p : Place) : Option Place :=
  match p.skipLiteral? ['o', 'n'] with
  | none => none
  | some q =>
    match q.skipBlanks.name? with
    | none => none
    | some (_, r) => brace? r

/-- The opening brace, read from behind the name: arguments and a type condition may come
before it. -/
def afterName? (p : Place) : Option Place :=
  let q := p.skipBlanks
  let q := match q.parenthesized? with
    | some (_, r) => r.skipBlanks
    | none => q
  (brace? q).or (afterOn? q)

/-- The opening brace when the name at a place is cut into a shorter name, or none, and the word
`on` that begins a type condition. The name is not longer than `fuel`. -/
def insideName? : (fuel : Nat) → Place → Option Place
  | 0, _ => none
  | fuel + 1, p => (afterOn? p).or (insideName? fuel (p.drop 1))

/-- The place of the opening brace of a head whose keyword ends at a place. -/
def afterKeyword? (p : Place) : Option Place :=
  let start := p.skipBlanks
  match start.name? with
  | none => afterName? p
  | some (name, r) => (afterName? r).or (insideName? name.length start)

end Compact

/-- Finds a keyword with a brace group of bounded nesting. -/
def minifiedStep : Stepper Span := fun before p =>
  match p.keyword? before with
  | none => .miss
  | some (_, q) =>
    match Compact.afterKeyword? q with
    | none => .miss
    | some brace =>
      match Braces.length? minifiedNesting brace.rest with
      | none => .miss
      | some n =>
        let stop := brace.index + n
        .hit ⟨p.index, stop, p.rest.take (stop - p.index)⟩ (stop - p.index)

/-- Finds a keyword whose body is followed by a semicolon. -/
def splitStep : Stepper Span := fun before p =>
  match p.keyword? before with
  | none => .miss
  | some (_, q) =>
    let gap := (q.rest.take (splitGapLimit + 1)).takeWhile fun c => c != '\x7b' && c != ';'
    if gap.length > splitGapLimit then .miss
    else
      let brace := q.drop gap.length
      if brace.head? == some '\x7b' then
        let stop := brace.skip (· != ';')
        if stop.rest.isEmpty then .miss
        else
          .hit ⟨p.index, stop.index, p.rest.take (stop.index - p.index)⟩ (stop.index - p.index)
      else .miss

end OperationScan
