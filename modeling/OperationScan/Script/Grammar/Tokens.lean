import OperationScan.Script.Tree.Basic
import OperationScan.Files.Path

/-!
# Tokens of scripts

A reader of a script stands at the start of a token: white space and comments in front of it
have been passed. Readers either succeed and move on, or fail and leave the state as it was.

* `Reader`: functions on the state of a reader.
* `eat`, `sign`, `word`, `keyword`: single tokens.
* `close`: makes a node of all that has been read from a place on.
* `many`, `listUntil`: repetition.
-/

namespace OperationScan.Script

/-! ## Characters -/

/-- White space between tokens. -/
def isSpace (c : Char) : Bool :=
  let n := c.toNat
  (9 ≤ n && n ≤ 13) || n == 32 || n == 0xa0 || n == 0x1680 || (0x2000 ≤ n && n ≤ 0x200b) ||
    n == 0x2028 || n == 0x2029 || n == 0x202f || n == 0x205f || n == 0x2060 || n == 0x3000 ||
    n == 0xfeff

/-- Characters that end a line. -/
def isNewline (c : Char) : Bool :=
  let n := c.toNat
  n == 10 || n == 13 || n == 0x2028 || n == 0x2029

/-- ASCII characters that no word holds. -/
def isPunctuation (c : Char) : Bool :=
  ":;\"'@#.,|^&<=>+-*/\\%?!~()[]\x7b\x7d\x60".toList.contains c

/-- Characters that a word can hold. -/
def isWordChar (c : Char) : Bool := !(c.toNat ≤ 0x1f || isSpace c || isPunctuation c)

/-- Characters that a word can begin with. -/
def isWordStart (c : Char) : Bool := isWordChar c && !c.isDigit

/-! ## The state of a reader -/

/-- Where a reader stands: the next token, the offset behind the last one, whether a line ended
between them, whether only a statement or an operand can come next, the number for the next node,
and the comments passed, last first. -/
structure State where
  place : Place
  size : Nat
  stop : Nat
  newline : Bool
  opens : Bool
  nextId : Nat
  comments : List Node

/-- A function on the state that may fail. -/
abbrev Reader := StateT State Option

/-- What a scan over white space and comments is in the middle of. -/
inductive Gap where
  | space
  | lineComment (start : Place)
  | markupComment (start : Place)
  | blockComment (start : Place)

/-- A comment node from a place up to an offset. -/
def commentNode (kind : Kind) (id : Nat) (start : Place) (stop : Nat) : Node :=
  .mk kind id .plain start.index ⟨start.rest, stop - start.index⟩ []

/-- The state with one more comment. -/
def State.withComment (s : State) (kind : Kind) (start : Place) (stop : Nat) : State :=
  { s with nextId := s.nextId + 1, comments := commentNode kind s.nextId start stop :: s.comments }

/-- A comment in the form of HTML begins, which goes on to the end of its line. Elsewhere its signs
are operators. -/
def State.seesMarkupComment (s : State) (t : Text) : Bool :=
  (s.opens && Text.startsWith t "<!--".toList) ||
    ((s.opens || s.newline) && Text.startsWith t "-->".toList)

/-- Passes white space and comments behind the first `skipped` characters. A block comment that
is not closed is not passed. A comment in the form of HTML is kept, but not as a comment: none of
the rules about comments apply to it. -/
def passGap (s : State) : (gap : Gap) → (skipped : Nat) → (index : Nat) → Text → State
  | .space, _, index, [] => { s with place := ⟨index, []⟩ }
  | .lineComment start, _, index, [] =>
    { s.withComment .comment start index with place := ⟨index, []⟩ }
  | .markupComment start, _, index, [] =>
    { s.withComment .other start index with place := ⟨index, []⟩ }
  | .blockComment start, _, _, [] => { s with place := start }
  | gap, skipped + 1, index, _ :: rest => passGap s gap skipped (index + 1) rest
  | .space, 0, index, c :: rest =>
    if isSpace c then
      passGap { s with newline := s.newline || isNewline c } .space 0 (index + 1) rest
    else if c == '/' && rest.head? == some '/' then
      passGap s (.lineComment ⟨index, c :: rest⟩) 1 (index + 1) rest
    else if c == '/' && rest.head? == some '*' then
      passGap s (.blockComment ⟨index, c :: rest⟩) 1 (index + 1) rest
    else if s.seesMarkupComment (c :: rest) then
      passGap s (.markupComment ⟨index, c :: rest⟩) 0 (index + 1) rest
    else { s with place := ⟨index, c :: rest⟩ }
  | .lineComment start, 0, index, c :: rest =>
    if isNewline c then
      passGap { s.withComment .comment start index with newline := true } .space 0 (index + 1) rest
    else passGap s (.lineComment start) 0 (index + 1) rest
  | .markupComment start, 0, index, c :: rest =>
    if isNewline c && c != '\r' then
      passGap { s.withComment .other start index with newline := true } .space 0 (index + 1) rest
    else passGap s (.markupComment start) 0 (index + 1) rest
  | .blockComment start, 0, index, c :: rest =>
    if c == '*' && rest.head? == some '/' then
      passGap (s.withComment .comment start (index + 2)) .space 1 (index + 1) rest
    else
      passGap { s with newline := s.newline || isNewline c } (.blockComment start) 0 (index + 1) rest

/-- The state at the first token behind a place, where a token has ended. -/
def State.behind (s : State) (p : Place) : State :=
  passGap { s with stop := p.index, newline := false } .space 0 p.index p.rest

/-- The state before the first token of a text. A line that begins with `#!` is passed first. -/
def State.initial (t : Text) : State :=
  let start := Place.start t
  let first := if Text.startsWith t ['#', '!'] then start.skip (!isNewline ·) else start
  let s := State.behind ⟨first, t.length, 0, false, true, 0, []⟩ first
  { s with stop := s.place.index }

/-! ## Readers -/

namespace Reader

variable {α β : Type}

/-- Fails. -/
def fail : Reader α := fun _ => none

/-- Succeeds if a condition holds. -/
def check (b : Bool) : Reader Unit := if b then pure () else fail

/-- The place of the next token. -/
def here : Reader Place := fun s => some (s.place, s)

/-- The text from the next token on. -/
def rest : Reader Text := fun s => some (s.place.rest, s)

/-- The first character of the next token. -/
def peek : Reader (Option Char) := fun s => some (s.place.rest.head?, s)

/-- A literal comes next. -/
def sees (literal : String) : Reader Bool := fun s =>
  some (Text.startsWith s.place.rest literal.toList, s)

/-- A line ended before the next token. -/
def onNewLine : Reader Bool := fun s => some (s.newline, s)

/-- The text has been read. -/
def atEnd : Reader Bool := fun s => some (s.place.rest.isEmpty, s)

/-- Tries a reader; when it fails the state is as before. -/
def tryTo (r : Reader α) : Reader (Option α) := fun s =>
  match r s with
  | some (a, s) => some (some a, s)
  | none => some (none, s)

/-- The first of two readers that succeeds. -/
def either (r q : Reader α) : Reader α := fun s =>
  match r s with
  | some x => some x
  | none => q s

/-- The last character of signs behind which only a statement or an operand can come, or the end of
what they open. -/
def isOpening (c : Char) : Bool := "([\x7b,;:=?&|^~*%".toList.contains c

/-- Moves on by a number of characters, to the next token. -/
def eat (n : Nat) : Reader Unit := fun s =>
  let opens := (s.place.drop (n - 1)).rest.head?.any isOpening
  some ((), { s with opens }.behind (s.place.drop n))

/-- Moves on by a number of characters, and not past white space behind them. -/
def eatRaw (n : Nat) : Reader Unit := fun s =>
  let p := s.place.drop n
  some ((), { s with place := p, stop := p.index, newline := false, opens := false })

/-- Passes white space and comments. -/
def toToken : Reader Unit := fun s =>
  let stop := s.stop
  some ((), { s.behind s.place with stop := stop })

/-- Reads a sign. -/
def sign (literal : String) : Reader Unit := do
  check (← sees literal)
  eat literal.length

/-- Reads a sign if it comes next. -/
def sign? (literal : String) : Reader Bool := do
  if ← sees literal then
    eat literal.length
    return true
  else return false

/-- The number of characters of a Unicode escape in a word. -/
def wordEscapeLength : Text → Nat
  | '\\' :: 'u' :: '\x7b' :: rest =>
    let digits := rest.takeWhile fun c => c != '\x7d' && isWordChar c
    if (rest.drop digits.length).head? == some '\x7d' then digits.length + 4 else 0
  | '\\' :: 'u' :: a :: b :: c :: d :: _ =>
    if isWordChar a && isWordChar b && isWordChar c && isWordChar d then 6 else 0
  | _ => 0

/-- The number of characters of the word at the start of a text, behind the first `skipped`. -/
def wordLength (count : Nat) : (skipped : Nat) → Text → Nat
  | _, [] => count
  | skipped + 1, _ :: rest => wordLength (count + 1) skipped rest
  | 0, c :: rest =>
    if isWordChar c then wordLength (count + 1) 0 rest
    else
      match wordEscapeLength (c :: rest) with
      | 0 => count
      | n + 1 => wordLength (count + 1) n rest

/-- The word that comes next; empty if there is none. -/
def peekWord : Reader Text := fun s =>
  let t := s.place.rest
  match t with
  | c :: _ =>
    if isWordStart c || c == '\\' then some (t.take (wordLength 0 0 t), s) else some ([], s)
  | [] => some ([], s)

/-- A given word comes next. -/
def seesWord (w : String) : Reader Bool := do
  return (← peekWord) == w.toList

/-- Reads a given word. -/
def keyword (w : String) : Reader Unit := do
  check (← seesWord w)
  eat w.length

/-- Reads a given word if it comes next. -/
def keyword? (w : String) : Reader Bool := do
  if ← seesWord w then
    eat w.length
    return true
  else return false

/-- A node of a kind that covers all read from a place on. -/
def close (kind : Kind) (start : Place) (children : List Node) : Reader Node := fun s =>
  some
    (.mk kind s.nextId .plain start.index ⟨start.rest, s.stop - start.index⟩ children,
      { s with nextId := s.nextId + 1 })

/-- Reads as often as something is read, last first, at most `fuel` times. -/
def manyFrom (r : Reader (Option α)) : (fuel : Nat) → List α → Reader (List α)
  | 0, _ => fail
  | fuel + 1, done => do
    match ← r with
    | some a => manyFrom r fuel (a :: done)
    | none => return done.reverse

/-- The number of characters that have not been read, and one more. -/
def bound : Reader Nat := fun s => some (s.size - s.place.index + 1, s)

/-- Reads as often as something is read. -/
def many (r : Reader (Option α)) : Reader (List α) := do manyFrom r (← bound) []

/-- Reads items with commas between them up to a closing sign; a comma may precede it. -/
def listUntil (closing : String) (item : Reader α) : Reader (List α) := do
  let items ← many do
    if ← sees closing then return none
    else
      let a ← item
      if ← sees "," then
        eat 1
        return some a
      else
        check (← sees closing)
        return some a
  sign closing
  return items

/-- Folds steps that extend a value, at most `fuel` of them. -/
def extendFrom (step : α → Reader (Option α)) : (fuel : Nat) → α → Reader α
  | 0, _ => fail
  | fuel + 1, a => do
    match ← step a with
    | some b => extendFrom step fuel b
    | none => return a

/-- Extends a value as often as that is possible. -/
def extend (step : α → Reader (Option α)) (a : α) : Reader α := do extendFrom step (← bound) a

/-- Reads the end of a statement: a semicolon, or a place where one is implied. -/
def endOfStatement : Reader Unit := do
  if ← sees ";" then eat 1
  else check ((← onNewLine) || (← atEnd) || (← sees "\x7d"))

end Reader

/-! ## Words -/

/-- Words that are no names. -/
def reservedWords : List Text :=
  ["break", "case", "catch", "class", "const", "continue", "debugger", "default", "delete", "do",
    "else", "export", "extends", "false", "finally", "for", "function", "if", "import", "in",
    "instanceof", "new", "null", "return", "super", "switch", "this", "throw", "true", "try",
    "typeof", "var", "void", "while", "with"].map (·.toList)

/-- A word that can be a name. -/
def isName (w : Text) : Bool := !w.isEmpty && !reservedWords.contains w

namespace Reader

/-- Reads any word as a node of a kind. -/
def anyWord (kind : Kind) : Reader Node := do
  let start ← here
  let w ← peekWord
  check !w.isEmpty
  eat w.length
  close kind start []

/-- Reads a name as a node of a kind. -/
def name (kind : Kind) : Reader Node := do
  check (isName (← peekWord))
  anyWord kind

/-- Reads a name as an identifier. -/
def identifier : Reader Node := name .identifier

end Reader

end OperationScan.Script
