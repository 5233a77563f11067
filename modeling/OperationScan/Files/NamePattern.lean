import OperationScan.Text.Basic

/-!
# Patterns for names

A star stands for any run of characters, a question mark for one character, and brackets for
one character of a class. A bracket that is not closed stands for itself.

* `CharClass.ofText`: the class that is written between brackets.
* `NamePattern.ofText`, `NamePattern.fits`: reading a pattern, and comparing a name with it.
-/

namespace OperationScan

/-- The characters in some ranges, or all others. -/
structure CharClass where
  excluding : Bool
  ranges : List (Char × Char)
  deriving Repr, DecidableEq

namespace CharClass

/-- A character belongs to a class. -/
def has (k : CharClass) (c : Char) : Bool :=
  (k.ranges.any fun r => r.1 ≤ c && c ≤ r.2) != k.excluding

/-- How many characters behind the opening bracket cannot close a class. -/
def guarded : Text → Nat
  | '!' :: ']' :: _ => 2
  | '!' :: _ => 1
  | ']' :: _ => 1
  | _ => 0

/-- Splits what follows an opening bracket at the closing one. -/
def split? (t : Text) : Option (Text × Text) :=
  let inner := t.take (guarded t) ++ (t.drop (guarded t)).takeWhile (· != ']')
  match t.drop inner.length with
  | [] => none
  | _ :: rest => some (inner, rest)

theorem length_of_split? {t inner rest : Text} (h : split? t = some (inner, rest)) :
    rest.length < t.length := by
  unfold split? at h
  dsimp only at h
  split at h
  · cases h
  · rename_i c tail hd
    cases h
    have := congrArg List.length hd
    simp only [List.length_drop, List.length_cons] at this
    omega

/-- Splits at the dashes that make ranges: no dash does among the first `wait` characters, nor
among the first two behind another one that does. -/
def splitDashes : (wait : Nat) → (piece : Text) → Text → List Text
  | _, piece, [] => [piece.reverse]
  | wait, piece, c :: rest =>
    if c == '-' && wait == 0 then piece.reverse :: splitDashes 2 [] rest
    else splitDashes (wait - 1) (c :: piece) rest

/-- A dash at the very end makes no range. -/
def closeDash (pieces : List Text) : List Text :=
  if pieces.getLast? == some [] then
    pieces.dropLast.dropLast ++ [pieces.dropLast.getLast?.getD [] ++ ['-']]
  else pieces

/-- Puts a piece in front of others. A range that would run backwards goes with both its ends. -/
def consPiece (piece : Text) : List Text → List Text
  | [] => [piece]
  | next :: more =>
    match piece.getLast?, next.head? with
    | some a, some b =>
      if b < a then (piece.dropLast ++ next.drop 1) :: more else piece :: next :: more
    | _, _ => piece :: next :: more

/-- The ranges in a row of characters; nothing stands for a dash between two ends. -/
def rangesOf : List (Option Char) → List (Char × Char)
  | [] => []
  | some a :: none :: some b :: rest => (a, b) :: rangesOf rest
  | some a :: rest => (a, a) :: rangesOf rest
  | none :: rest => ('-', '-') :: rangesOf rest

/-- The class that is written between brackets; an exclamation mark in front excludes. -/
def ofText (t : Text) : CharClass :=
  let pieces := closeDash (splitDashes (if t.head? == some '!' then 2 else 1) [] t)
  let row := [none].intercalate ((pieces.foldr consPiece []).map fun p => p.map some)
  match row with
  | some '!' :: rest => ⟨true, rangesOf rest⟩
  | row => ⟨false, rangesOf row⟩

end CharClass

/-- A part of a pattern for names. -/
inductive NamePart where
  | char (c : Char)
  | any
  | oneOf (k : CharClass)
  | run
  deriving Repr, DecidableEq

/-- A pattern for names. -/
abbrev NamePattern := List NamePart

namespace NamePattern

/-- Characters that make a text more than a plain name. -/
def isWildcard (c : Char) : Bool := c == '*' || c == '?' || c == '['

/-- The pattern that a text spells. -/
def ofText (t : Text) : NamePattern :=
  match t with
  | [] => []
  | '*' :: rest => .run :: ofText rest
  | '?' :: rest => .any :: ofText rest
  | '[' :: rest =>
    match h : CharClass.split? rest with
    | some (inner, after) =>
      have := CharClass.length_of_split? h
      .oneOf (.ofText inner) :: ofText after
    | none => .char '[' :: ofText rest
  | c :: rest => .char c :: ofText rest
termination_by t.length

/-- Some rest of a text satisfies a test. -/
def someRest (test : Text → Bool) : Text → Bool
  | [] => test []
  | c :: rest => test (c :: rest) || someRest test rest

/-- A name fits a pattern. -/
def fits : NamePattern → Text → Bool
  | [], t => t.isEmpty
  | .run :: more, t => someRest (fits more) t
  | .char _ :: _, [] => false
  | .char c :: more, d :: t => c == d && fits more t
  | .any :: _, [] => false
  | .any :: more, _ :: t => fits more t
  | .oneOf _ :: _, [] => false
  | .oneOf k :: more, d :: t => k.has d && fits more t

end NamePattern

end OperationScan
