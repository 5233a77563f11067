import OperationScan.Script.Grammar.Tokens
import OperationScan.Script.Escape

/-!
# Goals and literals

The grammar is recursive, but its parts are not: a part that needs another one asks for it as a
`Goal`. `Grammar` holds the reader of goals and the language.

* `Grammar.number`, `Grammar.string`, `Grammar.template`, `Grammar.regex`: literals.
* `Grammar.propertyName`: the names of members.
-/

namespace OperationScan.Script

/-- What is not allowed in an expression: the operator `in`, and an arrow function that declares
the type of its result. -/
structure Limits where
  noIn : Bool
  noResultType : Bool
  deriving Repr, DecidableEq

/-- Nothing is forbidden. -/
def Limits.none : Limits := ⟨false, false⟩

/-- A part of the grammar that other parts refer to. -/
inductive Goal where
  | statement
  | expression (limits : Limits)
  | assignment (limits : Limits)
  | binary (least : Nat) (limits : Limits)
  | unary (limits : Limits)
  | constructed
  | pattern
  | type
  | resultType
  | element
  deriving Repr, DecidableEq

/-- A language with a reader of goals. -/
structure Grammar where
  language : Language
  read : Goal → Reader Node

namespace Grammar

open Reader

variable (g : Grammar)

/-- The language has types. -/
def typed : Bool := g.language != .javascript

/-- Reads an expression, possibly with commas. -/
def expression : Reader Node := g.read (.expression .none)

/-- Reads an expression without commas. -/
def assignment : Reader Node := g.read (.assignment .none)

/-! ## Numbers and regular expressions -/

/-- The number of digits at the start of a text, with single separators between them. -/
def digitsLength (isDigit : Char → Bool) (count : Nat) : Text → Nat
  | [] => count
  | c :: rest =>
    if isDigit c then digitsLength isDigit (count + 1) rest
    else
      match c, rest with
      | '_', d :: _ =>
        if isDigit d && count != 0 then digitsLength isDigit (count + 1) rest else count
      | _, _ => count

/-- The length of the exponent at the start of a text. -/
def exponentLength : Text → Nat
  | e :: rest =>
    if e == 'e' || e == 'E' then
      let signs := match rest with
        | '+' :: _ | '-' :: _ => 1
        | _ => 0
      match digitsLength Char.isDigit 0 (rest.drop signs) with
      | 0 => 0
      | n => n + 1 + signs
    else 0
  | [] => 0

/-- The length of a number without a base mark. -/
def decimalLength (t : Text) : Nat :=
  let whole := digitsLength Char.isDigit 0 t
  let behind := t.drop whole
  match behind with
  | '.' :: rest =>
    let fraction := digitsLength Char.isDigit 0 rest
    if whole == 0 && fraction == 0 then 0
    else whole + 1 + fraction + exponentLength (rest.drop fraction)
  | 'n' :: _ => if whole == 0 then 0 else whole + 1
  | _ => if whole == 0 then 0 else whole + exponentLength behind

/-- The length of the digits behind a base mark, with the mark of a big integer. -/
def markedLength (isDigit : Char → Bool) (t : Text) : Nat :=
  match digitsLength isDigit 0 t with
  | 0 => 0
  | n => n + 2 + (if (t.drop n).head? == some 'n' then 1 else 0)

/-- The length of the number at the start of a text. -/
def numberLength : Text → Nat
  | '0' :: c :: rest =>
    match Number.baseOf? c with
    | some 16 => markedLength isHexDigit rest
    | some 8 => markedLength (fun d => '0' ≤ d && d ≤ '7') rest
    | some _ => markedLength (fun d => d == '0' || d == '1') rest
    | none => decimalLength ('0' :: c :: rest)
  | t => decimalLength t

/-- Reads a number. -/
def number : Reader Node := do
  let start ← here
  let n := numberLength (← rest)
  check (n != 0)
  eat n
  close .number start []

/-- The length of the body of a regular expression and its closing slash; zero if there is
none. -/
def regexLength (inClass taken : Bool) (count : Nat) : Text → Nat
  | [] => 0
  | c :: rest =>
    if c == '\n' then 0
    else if taken then regexLength inClass false (count + 1) rest
    else if c == '\\' then regexLength inClass true (count + 1) rest
    else if inClass then regexLength (c != ']') false (count + 1) rest
    else if c == '[' then regexLength true false (count + 1) rest
    else if c == '/' then count + 1
    else regexLength false false (count + 1) rest

/-- Reads a regular expression. -/
def regex : Reader Node := do
  let start ← here
  let t ← rest
  check (t.head? == some '/')
  let body := t.drop 1
  check (body.head? != some '/' && body.head? != some '*')
  let n := regexLength false false 0 body
  check (n != 0)
  let flags := (body.drop n).takeWhile isWordChar
  eat (n + 1 + flags.length)
  close .other start []

/-! ## Strings and templates -/

/-- The number of characters of the escape whose first character behind the backslash is given;
zero if it is malformed. -/
def escapeLength : Text → Nat
  | [] => 0
  | 'x' :: rest => if (fixedDigits? 2 rest).isSome then 3 else 0
  | 'u' :: rest =>
    match bracedDigits? rest with
    | some digits => digits.length + 3
    | none => if (fixedDigits? 4 rest).isSome then 5 else 0
  | '\r' :: '\n' :: _ => 2
  | _ :: _ => 1

/-- The number of characters up to and with the closing quote, behind the first `skipped`; zero
if the string is not closed on its line or holds a malformed escape. -/
def stringLength (quote : Char) (count : Nat) : (skipped : Nat) → Text → Nat
  | _, [] => 0
  | skipped + 1, _ :: rest => stringLength quote (count + 1) skipped rest
  | 0, c :: rest =>
    if c == quote then count + 1
    else if c == '\n' || c == '\r' then 0
    else if c == '\\' then
      match escapeLength rest with
      | 0 => 0
      | n + 1 => stringLength quote (count + 1) (n + 1) rest
    else stringLength quote (count + 1) 0 rest

/-- Reads a string. -/
def string : Reader Node := do
  let start ← here
  match ← rest with
  | c :: body =>
    check (c == '"' || c == '\'')
    let n := stringLength c 0 0 body
    check (n != 0)
    eat (n + 1)
    close .string start []
  | [] => fail

/-- The next piece of a template. -/
inductive Piece where
  | closing
  | hole
  | malformed
  deriving DecidableEq

/-- The number of characters up to the next piece of a template, behind the first `skipped`. -/
def templateChunk (count : Nat) : (skipped : Nat) → Text → Nat × Piece
  | _, [] => (count, .malformed)
  | skipped + 1, _ :: rest => templateChunk (count + 1) skipped rest
  | 0, c :: rest =>
    if c == '\x60' then (count, .closing)
    else if c == '$' && rest.head? == some '\x7b' then (count, .hole)
    else if c == '\\' then
      match escapeLength rest with
      | 0 => (count, .malformed)
      | n + 1 => templateChunk (count + 1) (n + 1) rest
    else templateChunk (count + 1) 0 rest

/-- Reads the hole of a template at which the reader stands, and not past its closing brace. -/
def hole (inner : Reader Node) : Reader Node := do
  let start ← here
  eat 2
  let node ← inner
  check (← sees "\x7d")
  eatRaw 1
  close .substitution start [node]

/-- Reads a template whose holes hold what a reader reads. -/
def templateOf (kind : Kind) (inner : Reader Node) : Reader Node := do
  let start ← here
  check (← sees "\x60")
  eatRaw 1
  let holes ← many do
    let (n, piece) := templateChunk 0 0 (← rest)
    match piece with
    | .malformed => fail
    | .closing =>
      eatRaw n
      return none
    | .hole =>
      eatRaw n
      return some (← hole inner)
  eat 1
  close kind start holes

/-- Reads a template. -/
def template : Reader Node := templateOf .template g.expression

/-! ## Names of members -/

/-- Reads a private name. -/
def privateName : Reader Node := do
  let start ← here
  check (← sees "#")
  eatRaw 1
  let w ← peekWord
  check !w.isEmpty
  eat w.length
  close .privateName start []

/-- Reads an expression between brackets. -/
def computedName : Reader Node := do
  let start ← here
  sign "["
  let inner ← g.expression
  sign "]"
  close .other start [inner]

/-- Reads the name of a member. -/
def memberName : Reader Node := do
  match ← peek with
  | some '"' | some '\'' => string
  | some '#' => privateName
  | some '[' => g.computedName
  | _ => either number (anyWord .propertyName)

end Grammar

end OperationScan.Script
