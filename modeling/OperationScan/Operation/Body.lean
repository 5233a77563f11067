import OperationScan.Text.Basic

/-!
# Operation bodies

`Body.length?` measures the balanced body that begins at an opening brace. Double-quoted strings
are skipped, and a backslash always takes the next character with it. Bodies longer than
`Body.limit` characters count as unbalanced.
-/

namespace OperationScan.Body

/-- The greatest length of a body. -/
def limit : Nat := 100000

/-- Where a scan stands: the number of open braces, whether it is inside a string, and whether a
backslash has just been read. -/
structure Scan where
  depth : Int
  inString : Bool
  escaped : Bool
  deriving Repr, DecidableEq

/-- The effect of one character; `none` when it closes the body. -/
def Scan.step (s : Scan) (c : Char) : Option Scan :=
  if s.escaped then some { s with escaped := false }
  else if c == '\\' then some { s with escaped := true }
  else if s.inString then some { s with inString := c != '"' }
  else if c == '"' then some { s with inString := true }
  else if c == '\x7b' then some { s with depth := s.depth + 1 }
  else if c == '\x7d' then
    (if s.depth == 1 then none else some { s with depth := s.depth - 1 })
  else some s

/-- The number of characters up to the closing brace, at most `budget` of them, added to those
already counted. -/
def lengthFrom? : (budget : Nat) → Scan → (count : Nat) → Text → Option Nat
  | 0, _, _, _ => none
  | _, _, _, [] => none
  | budget + 1, s, count, c :: rest =>
    match s.step c with
    | none => some (count + 1)
    | some s => lengthFrom? budget s (count + 1) rest

/-- The length of the balanced body at the start of a text. -/
def length? (t : Text) : Option Nat := lengthFrom? limit ⟨0, false, false⟩ 0 t

/-- The offset behind the body that begins at an offset. -/
def end? (t : Text) (start : Nat) : Option Nat := (length? (t.drop start)).map (start + ·)

/-- The wording for a body that never closes. -/
def unbalancedMessage (start : Nat) : String :=
  "unbalanced body starting at offset " ++ toString start

end OperationScan.Body
