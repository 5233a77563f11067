import OperationScan.Collector
import OperationScan.Script.Escape

/-!
# Operations in raw text

These scans need no syntax tree.

* `QuotedSpan.all`: the quoted spans of a text. A backslash takes the next character with it; plain
  quotes stop at a line feed, back quotes do not.
* `scanStrings`: records the operations in the quoted spans.
* `scanWholeText`: records the matches of the aggressive patterns in the whole text.
* `scanText`: the scans that follow the structural one, with their diagnostics.
-/

namespace OperationScan

/-- A quoted span. -/
structure QuotedSpan where
  start : Nat
  stop : Nat
  raw : Text
  deriving Repr, DecidableEq

namespace QuotedSpan

/-- The text between the quotes. -/
def content (s : QuotedSpan) : Text := (s.raw.drop 1).dropLast

/-- The number of characters up to the closing quote, added to those counted. -/
def lengthFrom? (quote : Char) : (taken : Bool) → (count : Nat) → Text → Option Nat
  | _, _, [] => none
  | true, count, _ :: rest => lengthFrom? quote false (count + 1) rest
  | false, count, c :: rest =>
    if c == quote then some (count + 1)
    else if c == '\\' then lengthFrom? quote true (count + 1) rest
    else if c == '\n' && quote != '\x60' then none
    else lengthFrom? quote false (count + 1) rest

/-- Finds a quoted span. -/
def step : Stepper QuotedSpan := fun _ p =>
  match p.rest with
  | c :: rest =>
    if isQuote c then
      match lengthFrom? c false 1 rest with
      | some n => .hit ⟨p.index, p.index + n, p.rest.take n⟩ n
      | none => .miss
    else .miss
  | [] => .miss

/-- The quoted spans of a text. -/
def all (t : Text) : List QuotedSpan := findAll step t

end QuotedSpan

/-- The context of operations found in quoted spans. -/
def stringContext : Text := "minified-string".toList

/-- Longer texts with long lines count as minified. -/
def minifiedSizeThreshold : Nat := 5000

/-- The mean line length from which lines count as long. -/
def minifiedLineLength : Nat := 500

/-- A long text whose lines are long on average. -/
def looksMinified (t : Text) : Bool :=
  let n := t.length
  minifiedSizeThreshold < n && minifiedLineLength * (t.count '\n' + 1) < n

/-- Records the matches of the first pattern that has one in the raw span, and counts them. -/
def addFirstPattern (raw : Text) : List Pattern → Collector → Nat × Collector
  | [], c => (0, c)
  | p :: rest, c =>
    let (n, c) := c.addMatches raw stringContext [] [p]
    if n == 0 then addFirstPattern raw rest c else (n, c)

variable [Json.Nesting]

/-- Records the operations of a quoted span and counts them. -/
def scanSpan (aggressive : Bool) (s : QuotedSpan) : Collecting Nat := do
  if passesScreen s.raw then
    let n ← addPayload (Script.cook s.content) stringContext []
    if n == 0 && aggressive then
      Collecting.ofFun (addFirstPattern s.raw Pattern.aggressive)
    else return n
  else return 0

/-- The spans of a list that hold operations, which are recorded. -/
def scanSpans (aggressive : Bool) : List QuotedSpan → Collecting (List QuotedSpan)
  | [] => pure []
  | s :: rest => do
    let n ← scanSpan aggressive s
    let more ← scanSpans aggressive rest
    return if n == 0 then more else s :: more

/-- The quoted spans of a text that hold operations, which are recorded. -/
def scanStrings (t : Text) (aggressive : Bool) : Collecting (List QuotedSpan) :=
  scanSpans aggressive (QuotedSpan.all t)

/-- Two stretches of a text have a character in common. -/
def overlaps (start stop : Nat) (claimed : List (Nat × Nat)) : Bool :=
  claimed.any fun s => start < s.2 && s.1 < stop

/-- Records a match under the pattern's context, unless it overlaps a claimed stretch, and counts
it if it is new. -/
def addUnclaimed (claimed : List (Nat × Nat)) (state : Nat × Collector) (m : PatternMatch) :
    Nat × Collector :=
  if overlaps m.start m.stop claimed then state
  else
    match state.2.add m.text m.context [] with
    | (some _, c) => (state.1 + 1, c)
    | (none, c) => (state.1, c)

/-- Records the matches of the aggressive patterns in a whole text and counts the new ones.
Matches that overlap a claimed stretch are left out, as its operation has already been read from
the text that the escapes stand for. -/
def scanWholeText (t : Text) (claimed : List (Nat × Nat)) (c : Collector) : Nat × Collector :=
  Pattern.aggressive.foldl
    (fun state p => (p.matchesIn t).foldl (addUnclaimed claimed) state) (0, c)

/-- Why quoted spans are scanned. -/
def scanReason (aggressive minified : Bool) : String :=
  if aggressive then "aggressive" else if minified then "minified" else "parse failure"

/-- The scans of quoted spans and, in the aggressive mode, of the whole text, with lines about what
they found. -/
def scanRaw (t : Text) (aggressive : Bool) (reason : String) : Collecting (List Text) := do
  let spans ← scanStrings t aggressive
  let line := "string scan (" ++ reason ++ "): " ++ toString spans.length ++
    " span(s) with operations"
  if aggressive then
    let added ← Collecting.ofFun (scanWholeText t (spans.map fun s => (s.start, s.stop)))
    return [line.toList, ("pattern scan: " ++ toString added ++ " new operation(s)").toList]
  else return [line.toList]

/-- The scans that follow the structural one. -/
def scanText (t : Text) (aggressive parseFailed : Bool) : Collecting (List Text) :=
  let minified := looksMinified t
  if passesScreen t && (aggressive || minified || parseFailed) then
    scanRaw t aggressive (scanReason aggressive minified)
  else return []

end OperationScan
