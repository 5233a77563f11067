import OperationScan.Pattern.Quoted
import OperationScan.Pattern.Compact
import OperationScan.Operation.Body
import OperationScan.Operation.Head
import OperationScan.Text.LetterCase

/-!
# Patterns for operation-shaped spans

Five patterns, highest confidence first: standard, minified, quoted, escaped, split. The standard
one takes a full head with its balanced body. What the others find is anchored at its keyword
and clipped at the end of its first balanced body; the last three close a body that never
closes.

* `anchor?`: a text from the operation keyword on that belongs to its first brace.
* `repair`: a truncated operation, closed by one brace.
* `Pattern.matchesIn`: all matches of a pattern in a text, in order and without overlap.
* `Pattern.all`, `Pattern.aggressive`: the pattern library.
* `passesScreen`: a text holds one of the words without which no pattern is tried.
-/

namespace OperationScan

/-- A match of a pattern after clipping and repair. -/
structure PatternMatch where
  text : Text
  index : Nat
  name : String
  start : Nat
  stop : Nat
  repaired : Bool
  deriving Repr, DecidableEq

/-- The tag of operations found by a pattern. -/
def PatternMatch.context (m : PatternMatch) : Text := "pattern-".toList ++ Text.ofNat m.index

/-- Finds a full head whose body closes. A head whose body never closes is passed over. -/
def standardStep : Stepper Span := fun before p =>
  match p.keyword? before with
  | none => .miss
  | some _ =>
    match Head.at? p with
    | none => .miss
    | some m =>
      match Body.length? m.brace.rest with
      | none => .pass (m.brace.index - p.index)
      | some n =>
        let stop := m.brace.index + n
        .hit ⟨p.index, stop, p.rest.take (stop - p.index)⟩ (stop - p.index)

/-- Finds a full head, without its body. -/
def headStep : Stepper Span := fun before p =>
  match p.keyword? before with
  | none => .miss
  | some _ =>
    match Head.at? p with
    | none => .miss
    | some m =>
      let n := m.brace.index - p.index
      .hit ⟨p.index, m.brace.index, p.rest.take n⟩ n

/-- How the spans of a pattern become matches. -/
inductive Finish where
  | asFound
  | clipped (repairable : Bool) (minLength : Nat)
  deriving Repr, DecidableEq

/-- A pattern of the library. -/
structure Pattern where
  index : Nat
  name : String
  step : Stepper Span
  finish : Finish

/-- Matches shorter than this are chance hits of a keyword. -/
def minPatternMatchLength : Nat := 30

/-- A text without what stands before its operation keyword. Among the keywords before the first
brace the last one counts whose head ends exactly there; if there is none, the first one. -/
def anchor? (t : Text) : Option Text :=
  match t.findIdx? (· == '\x7b') with
  | none => none
  | some brace =>
    let places := keywordPlaces t brace
    match places.find? fun p => ((Head.at? p).map (·.brace.index)) == some brace with
    | some p => some p.rest
    | none => places.getLast?.map (·.rest)

/-- What is stripped from the end of a truncated operation: blanks, quotes, backslashes, commas
and semicolons. -/
def isResidue (c : Char) : Bool :=
  c == ' ' || c == '\t' || c == '\r' || c == '\n' || c == '"' || c == '\'' || c == '\x60' ||
    c == '\\' || c == ',' || c == ';'

/-- A truncated operation closed by a brace, and whether the brace had to be added. -/
def repair (t : Text) : Text × Bool :=
  let stripped := Text.dropEndWhile isResidue t
  if stripped.getLast? == some '\x7d' then (stripped, false) else (stripped ++ ['\x7d'], true)

/-- The text of a span, anchored and clipped at the end of its first balanced body, and whether a
brace had to be added. -/
def clip? (repairable : Bool) (t : Text) : Option (Text × Bool) :=
  match anchor? t with
  | none => none
  | some anchored =>
    match anchored.findIdx? (· == '\x7b') with
    | none => none
    | some brace =>
      match Body.end? anchored brace with
      | some stop => some (anchored.take stop, false)
      | none => if repairable then some (repair anchored) else none

namespace Pattern

/-- The match that comes from a span. -/
def finished? (p : Pattern) (s : Span) : Option PatternMatch :=
  match p.finish with
  | .asFound => some ⟨s.text, p.index, p.name, s.start, s.stop, false⟩
  | .clipped repairable minLength =>
    match clip? repairable s.text with
    | none => none
    | some (body, repaired) =>
      if body.length < minLength then none
      else some ⟨body, p.index, p.name, s.start, s.stop, repaired⟩

/-- The matches of a pattern in a text. -/
def matchesIn (p : Pattern) (t : Text) : List PatternMatch :=
  (findAll p.step t).filterMap p.finished?

/-- The name of a pattern in diagnostics. -/
def label (p : Pattern) : String :=
  "<OperationPattern " ++ toString p.index ++ ":" ++ p.name ++ ">"

/-- A full head with its balanced body. -/
def standard : Pattern := ⟨1, "standard", standardStep, .asFound⟩

/-- A head without spacing and a body of bounded nesting. -/
def minified : Pattern := ⟨2, "minified", minifiedStep, .clipped false minPatternMatchLength⟩

/-- A quoted span free of backslashes. -/
def quoted : Pattern := ⟨3, "quoted", quotedStep, .clipped true minPatternMatchLength⟩

/-- A quoted span that may hold escaped quotes. -/
def escaped : Pattern := ⟨4, "escaped", escapedStep, .clipped true minPatternMatchLength⟩

/-- A body cut off by a semicolon. -/
def split : Pattern := ⟨5, "split", splitStep, .clipped true minPatternMatchLength⟩

/-- The patterns of the aggressive mode. -/
def aggressive : List Pattern := [minified, quoted, escaped, split]

/-- The library, in order. -/
def all : List Pattern := standard :: aggressive

/-- The pattern with a number. -/
def numbered? (n : Nat) : Option Pattern := all.find? fun p => p.index == n

/-- A pattern that clips with other settings. The standard pattern then finds heads only. -/
def withSettings (p : Pattern) (repairable : Option Bool) (minLength : Option Nat) : Pattern :=
  let finish := match p.finish with
    | .asFound => Finish.clipped (repairable.getD false) (minLength.getD minPatternMatchLength)
    | .clipped r n => Finish.clipped (repairable.getD r) (minLength.getD n)
  { p with step := if p.finish = .asFound then headStep else p.step, finish := finish }

end Pattern

/-- The words of the screen. -/
def screenWords : List Text :=
  ["query", "mutation", "subscription", "fragment", "typename", "edges", "node",
    "pageinfo"].map (·.toList)

/-- Some word of the screen occurs in a text, whatever its letter case. -/
def passesScreen : Text → Bool
  | [] => false
  | c :: rest => screenWords.any (Text.startsFolded · (c :: rest)) || passesScreen rest

end OperationScan
