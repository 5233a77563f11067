import OperationScan.Collector

/-!
# Operations in comments

* `Comment.clean`: the text of a comment without its delimiters and gutters.
* `Comment.all`: the block comments of a text, then its line comments.
* `scanComments`: records the operations in all comments.
-/

namespace OperationScan

namespace Comment

/-- The context of operations found in comments. -/
def context : Text := "comment".toList

/-- A blank or a tab. -/
def isGap (c : Char) : Bool := c == ' ' || c == '\t'

/-- Applies a function to every line of a text. -/
def mapLines (f : Text → Text) (t : Text) : Text :=
  Text.join ['\n'] ((Text.splitOn '\n' t).map f)

/-- A line without the stars it begins with and one blank behind them. -/
def dropGutter (line : Text) : Text :=
  match line.dropWhile isGap with
  | '*' :: rest =>
    match rest.dropWhile (· == '*') with
    | c :: more => if isGap c then more else c :: more
    | [] => []
  | _ => line

/-- A line without the slashes it begins with and the blanks behind them. -/
def dropSlashes (line : Text) : Text :=
  match line with
  | '/' :: '/' :: rest => rest.dropWhile isGap
  | _ => line

/-- A text, last character first, without the slash and the stars it ends with. -/
def dropClosingReversed (backwards : Text) : Text :=
  match backwards with
  | '/' :: '*' :: rest => rest.dropWhile (· == '*')
  | _ => backwards

/-- A text without the slash and the stars that end it, or end it before a last line feed. -/
def dropClosing (t : Text) : Text :=
  match t.reverse with
  | '\n' :: rest => (('\n' :: dropClosingReversed rest)).reverse
  | backwards => (dropClosingReversed backwards).reverse

/-- The text of a comment without its delimiters and gutters. -/
def clean (comment : Text) : Text :=
  match comment with
  | '/' :: '*' :: rest =>
    Text.trim (mapLines dropGutter (dropClosing (rest.dropWhile (· == '*'))))
  | _ => Text.trim (mapLines dropSlashes comment)

/-- The number of characters up to the first star and slash, added to those counted. -/
def closingFrom? (count : Nat) : Text → Option Nat
  | '*' :: '/' :: _ => some (count + 2)
  | _ :: rest => closingFrom? (count + 1) rest
  | [] => none

/-- Finds a block comment. -/
def blockStep : Stepper Text := fun _ p =>
  match p.rest with
  | '/' :: '*' :: rest =>
    match closingFrom? 2 rest with
    | some n => .hit (p.rest.take n) n
    | none => .miss
  | _ => .miss

/-- Finds a line comment. -/
def lineStep : Stepper Text := fun _ p =>
  match p.rest with
  | '/' :: '/' :: _ =>
    let line := p.run (· != '\n')
    .hit line line.length
  | _ => .miss

/-- The block comments of a text, then its line comments. -/
def all (t : Text) : List Text := findAll blockStep t ++ findAll lineStep t

end Comment

/-- Records the operations of a comment and counts it if it holds some. -/
def scanComment (state : Nat × Collector) (comment : Text) : Nat × Collector :=
  let cleaned := Comment.clean comment
  if passesScreen cleaned then
    let (n, c) := state.2.addMatches cleaned Comment.context [] [.standard]
    (if n == 0 then state.1 else state.1 + 1, c)
  else state

/-- Records the operations in the comments of a text and counts the comments that hold some. -/
def scanComments (t : Text) (c : Collector) : Nat × Collector :=
  (Comment.all t).foldl scanComment (0, c)

end OperationScan
