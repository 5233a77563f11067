import OperationScan.Text.Basic

/-!
# Scanning a text from left to right

A stepper looks at a place, knowing the character before it, and says how far to move on and
what was found. `spans` collects what a stepper finds, so that what is found never overlaps.
-/

namespace OperationScan

/-- A stretch of text between two offsets, with the text that was found there. -/
structure Span where
  start : Nat
  stop : Nat
  text : Text
  deriving Repr, DecidableEq

/-- What a stepper finds at a place. The lengths say how far the scan moves on, at least one
character. -/
inductive Step (α : Type) where
  | miss
  | pass (length : Nat)
  | hit (found : α) (length : Nat)

/-- Looks at a place, given the character before it. -/
abbrev Stepper (α : Type) := Option Char → Place → Step α

/-- What a stepper finds behind the first `skipped` characters, last first, in front of what has
been found already. -/
def foundFrom {α : Type} (step : Stepper α) (found : List α) :
    (skipped : Nat) → (before : Option Char) → (index : Nat) → Text → List α
  | _, _, _, [] => found
  | skipped + 1, _, index, c :: rest => foundFrom step found skipped (some c) (index + 1) rest
  | 0, before, index, c :: rest =>
    match step before ⟨index, c :: rest⟩ with
    | .miss => foundFrom step found 0 (some c) (index + 1) rest
    | .pass length => foundFrom step found (length - 1) (some c) (index + 1) rest
    | .hit a length => foundFrom step (a :: found) (length - 1) (some c) (index + 1) rest

/-- All that a stepper finds in a text, in order. -/
def findAll {α : Type} (step : Stepper α) (t : Text) : List α :=
  (foundFrom step [] 0 none 0 t).reverse

/-! ## Brace groups of bounded nesting -/

namespace Braces

/-- The number of characters up to the brace that closes the last of `open'` open groups, of
which at most `most` may be open at a time. -/
def lengthFrom? (most : Nat) : (open' : Nat) → (count : Nat) → Text → Option Nat
  | _, _, [] => none
  | n, count, c :: rest =>
    if c == '\x7b' then
      (if n < most then lengthFrom? most (n + 1) (count + 1) rest else none)
    else if c == '\x7d' then
      (if n ≤ 1 then (if n == 1 then some (count + 1) else none)
       else lengthFrom? most (n - 1) (count + 1) rest)
    else if n == 0 then none
    else lengthFrom? most n (count + 1) rest

/-- The length of the balanced group at the start of a text that nests at most `depth` levels
below its outer braces. -/
def length? (depth : Nat) (t : Text) : Option Nat := lengthFrom? (depth + 1) 0 0 t

/-- Finds the group that begins at a place. -/
def step (depth : Nat) : Stepper Span := fun _ p =>
  match length? depth p.rest with
  | some n => .hit ⟨p.index, p.index + n, p.rest.take n⟩ n
  | none => .miss

/-- All groups of bounded nesting in a text, from left to right. -/
def spans (depth : Nat) (t : Text) : List Span := findAll (step depth) t

end Braces

end OperationScan
