/-!
# Texts and positions in them

A text is a list of characters, and every offset and length counts characters.

* `Text.startsWith`, `Text.afterStart?`, `Text.contains`: literal matching.
* `Text.atMost`, `Text.listAtMost`: the order of texts, and of lists of them.
* `Place`: what is left of a text together with the offset of its first character; readers
  take a place and give back the place behind what they have read.
* `Excerpt`: a stretch of a text, given by the rest of the text from its first character on
  and the number of characters that belong to it.
-/

namespace OperationScan

/-- A sequence of characters. -/
abbrev Text := List Char

namespace Text

/-- What follows a literal at the start of a text. -/
def afterStart? : Text → Text → Option Text
  | [], t => some t
  | _ :: _, [] => none
  | c :: cs, d :: ds => if c = d then afterStart? cs ds else none

/-- A literal stands at the start of a text. -/
def startsWith (t literal : Text) : Bool := (afterStart? literal t).isSome

/-- A literal stands somewhere in a text. -/
def contains (literal : Text) : Text → Bool
  | [] => literal.isEmpty
  | c :: cs => startsWith (c :: cs) literal || contains literal cs

/-- A text without the characters at its end that satisfy a test. -/
def dropEndWhile (p : Char → Bool) (t : Text) : Text := (t.reverse.dropWhile p).reverse

/-- The characters from one offset up to another. -/
def slice (t : Text) (start stop : Nat) : Text := (t.drop start).take (stop - start)

/-- Puts a character in front of the pieces of a text: a separator opens a new piece. -/
def consPiece (separator c : Char) (pieces : List Text) : List Text :=
  if c = separator then [] :: pieces
  else
    match pieces with
    | piece :: more => (c :: piece) :: more
    | [] => [[c]]

/-- The pieces between the occurrences of a separating character; always at least one. -/
def splitOn (separator : Char) (t : Text) : List Text := t.foldr (consPiece separator) [[]]

/-- The texts of a list one after the other with a separator between each two. -/
def join (separator : Text) (pieces : List Text) : Text := separator.intercalate pieces

/-- The decimal digits of a number. -/
def ofNat (n : Nat) : Text := (toString n).toList

/-- The decimal digits of a number, with zeros in front up to a width. -/
def ofNatPadded (width n : Nat) : Text :=
  List.replicate (width - (ofNat n).length) '0' ++ ofNat n

/-- The last hexadecimal digits of a number, `width` of them. -/
def hexDigits : (width : Nat) → Nat → Text
  | 0, _ => []
  | width + 1, n => hexDigits width (n / 16) ++ [Nat.digitChar (n % 16)]

/-! ## Order -/

/-- One text is at or before another in the order of code points. -/
def atMost : Text → Text → Bool
  | [], _ => true
  | _ :: _, [] => false
  | c :: cs, d :: ds => c.toNat < d.toNat || (c == d && atMost cs ds)

/-- One list of texts is at or before another. -/
def listAtMost : List Text → List Text → Bool
  | [], _ => true
  | _ :: _, [] => false
  | s :: ss, t :: ts => if s = t then listAtMost ss ts else atMost s t

end Text

/-- An offset into a text and the text from there on. -/
structure Place where
  index : Nat
  rest : Text
  deriving Repr, DecidableEq

namespace Place

/-- The start of a text. -/
def start (t : Text) : Place := ⟨0, t⟩

/-- The place a number of characters further on. -/
def drop (p : Place) (n : Nat) : Place := ⟨p.index + n, p.rest.drop n⟩

/-- The longest run of characters that satisfy a test. -/
def run (p : Place) (test : Char → Bool) : Text := p.rest.takeWhile test

/-- The place behind the longest run of characters that satisfy a test. -/
def skip (p : Place) (test : Char → Bool) : Place := p.drop (p.run test).length

/-- The place behind a literal. -/
def skipLiteral? (p : Place) (literal : Text) : Option Place :=
  (Text.afterStart? literal p.rest).map fun rest => ⟨p.index + literal.length, rest⟩

/-- The character at a place. -/
def head? (p : Place) : Option Char := p.rest.head?

end Place

/-- A stretch of a text. -/
structure Excerpt where
  rest : Text
  length : Nat
  deriving Repr, DecidableEq

namespace Excerpt

/-- The characters of a stretch. -/
def text (e : Excerpt) : Text := e.rest.take e.length

/-- The part of a stretch between two offsets counted from its start. -/
def slice (e : Excerpt) (start stop : Nat) : Text := Text.slice e.rest start stop

/-- The stretch that is a whole text. -/
def ofText (t : Text) : Excerpt := ⟨t, t.length⟩

end Excerpt

end OperationScan
