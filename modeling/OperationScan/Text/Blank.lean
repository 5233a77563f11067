import OperationScan.Text.Basic

/-!
# White space

The white space characters of Unicode together with the four separators U+001C to U+001F.
The zero-width characters U+200B and U+FEFF are not among them.

* `isBlank`: the class.
* `trim`, `trimStart`, `trimEnd`: a text without the white space at its ends.
* `words`: the runs of other characters.
-/

namespace OperationScan.Text

/-- White space. -/
def isBlank (c : Char) : Bool :=
  let n := c.toNat
  (9 ≤ n && n ≤ 13) || (28 ≤ n && n ≤ 32) || n == 0x85 || n == 0xa0 || n == 0x1680 ||
    (0x2000 ≤ n && n ≤ 0x200a) || n == 0x2028 || n == 0x2029 || n == 0x202f || n == 0x205f ||
    n == 0x3000

/-- A text without the white space in front. -/
def trimStart (t : Text) : Text := t.dropWhile isBlank

/-- A text without the white space at the end. -/
def trimEnd (t : Text) : Text := dropEndWhile isBlank t

/-- A text without the white space at its ends. -/
def trim (t : Text) : Text := trimEnd (trimStart t)

/-- Puts a character in front of a list of words: white space closes the first of them. -/
def consWord (c : Char) (state : Text × List Text) : Text × List Text :=
  if isBlank c then
    (if state.1.isEmpty then state else ([], state.1 :: state.2))
  else (c :: state.1, state.2)

/-- The longest runs without white space, in order. -/
def words (t : Text) : List Text :=
  let state := t.foldr consWord ([], [])
  if state.1.isEmpty then state.2 else state.1 :: state.2

/-- White space that ends a line. -/
def isLineBreak (c : Char) : Bool :=
  let n := c.toNat
  (10 ≤ n && n ≤ 13) || (28 ≤ n && n ≤ 30) || n == 0x85 || n == 0x2028 || n == 0x2029

/-- The lines of a text, a carriage return and a line feed counting as one break; a break at
the very end opens no further line. -/
def lines (t : Text) : List Text :=
  let state := t.foldr
    (fun c (s : Option Text × List Text × Bool) =>
      let (line, done, feedFollows) := s
      if c == '\r' && feedFollows then (some [], done, false)
      else if isLineBreak c then
        (some [], (match line with | some l => l :: done | none => done), c == '\n')
      else (some (c :: line.getD []), done, false))
    (none, [], false)
  match state.1 with
  | some line => line :: state.2.1
  | none => state.2.1

end OperationScan.Text
