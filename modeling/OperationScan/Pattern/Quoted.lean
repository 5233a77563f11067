import OperationScan.Pattern.Scan
import OperationScan.Operation.Kind

/-!
# Quoted spans that hold a keyword

* `quotedStep`: a span between two equal quotes that holds no backslash.
* `escapedStep`: a span between two equal quotes, plain or each behind a backslash, in which a
  backslash takes the next character with it.

What is found is the text from the first keyword of the span up to the closing quote.
-/

namespace OperationScan

/-- The three quotes. -/
def isQuote (c : Char) : Bool := c == '"' || c == '\'' || c == '\x60'

/-- A keyword inside a span, and the end of the span. -/
structure QuotedKeyword where
  keyword : Place
  stop : Nat

/-- Reads a plain span up to its closing quote. The first place with a keyword is kept. -/
def readPlain (quote : Char) (keyword : Option Place) :
    (before : Option Char) → (index : Nat) → Text → Option QuotedKeyword
  | _, _, [] => none
  | before, index, c :: rest =>
    if c == quote then keyword.map fun k => ⟨k, index⟩
    else if c == '\\' then none
    else
      let p : Place := ⟨index, c :: rest⟩
      let keyword := keyword.orElse fun _ => (p.keyword? before).map fun _ => p
      readPlain quote keyword (some c) (index + 1) rest

/-- The text between a keyword and the end of its span. -/
def QuotedKeyword.span (q : QuotedKeyword) : Span :=
  ⟨q.keyword.index, q.stop, q.keyword.rest.take (q.stop - q.keyword.index)⟩

/-- Finds a plain span that holds a keyword. -/
def quotedStep : Stepper Span := fun _ p =>
  match p.rest with
  | c :: rest =>
    if isQuote c then
      match readPlain c none (some c) (p.index + 1) rest with
      | some q => .hit q.span (q.stop + 1 - p.index)
      | none => .miss
    else .miss
  | [] => .miss

/-- The quote at a place, behind a backslash or not, and its number of characters. -/
def openingQuote? : Text → Option (Text × Nat)
  | '\\' :: c :: _ => if isQuote c then some (['\\', c], 2) else none
  | c :: _ => if isQuote c then some ([c], 1) else none
  | [] => none

/-- Reads a span with backslashes up to its closing quote. `taken` says that a backslash has just
been read, which takes this character with it. -/
def readEscaped (quote : Text) (keyword : Option Place) :
    (taken : Bool) → (before : Option Char) → (index : Nat) → Text → Option QuotedKeyword
  | _, _, _, [] => none
  | true, _, index, c :: rest => readEscaped quote keyword false (some c) (index + 1) rest
  | false, before, index, c :: rest =>
    if Text.startsWith (c :: rest) quote then keyword.map fun k => ⟨k, index⟩
    else if c == '\\' then readEscaped quote keyword true (some c) (index + 1) rest
    else
      let p : Place := ⟨index, c :: rest⟩
      let keyword := keyword.orElse fun _ => (p.keyword? before).map fun _ => p
      readEscaped quote keyword false (some c) (index + 1) rest

/-- Finds a span with backslashes that holds a keyword. -/
def escapedStep : Stepper Span := fun _ p =>
  match openingQuote? p.rest with
  | some (quote, n) =>
    let start := p.drop n
    match readEscaped quote none false quote.getLast? start.index start.rest with
    | some q => .hit q.span (q.stop + n - p.index)
    | none => .miss
  | none => .miss

end OperationScan
