import OperationScan.Number.Literal

/-!
# Escapes in script literals

`cook` replaces the escapes in the text of a string or template by what they stand for. An
escape that names half of a surrogate pair or a code point past the last one is kept as written,
a backslash before a line break disappears together with it, and before any other character
only the backslash disappears.
-/

namespace OperationScan.Script

/-- What one escape becomes, and the number of characters behind the backslash that belong to
it. -/
structure Cooked where
  text : Text
  length : Nat
  deriving Repr, DecidableEq

/-- A hexadecimal digit. -/
def isHexDigit (c : Char) : Bool := (Number.digitValue? c).isSome

/-- A code point spelled by digits, or the escape as written if there is no such character. -/
def cookCode (written : Text) (digits : Text) : Cooked :=
  let n := (Number.valueOf? 16 digits).getD 0
  if n > 0x10ffff || (0xd800 ≤ n && n ≤ 0xdfff) then ⟨'\\' :: written, written.length⟩
  else ⟨[Char.ofNat n], written.length⟩

/-- The characters that a letter behind a backslash stands for. -/
def simpleEscape (c : Char) : Text :=
  match c with
  | 'n' => ['\n']
  | 't' => ['\t']
  | 'r' => ['\r']
  | 'b' => [Char.ofNat 8]
  | 'f' => [Char.ofNat 12]
  | 'v' => [Char.ofNat 11]
  | '0' => [Char.ofNat 0]
  | '\n' => []
  | c => [c]

/-- The digits of an escape that has exactly `n` of them. -/
def fixedDigits? (n : Nat) (t : Text) : Option Text :=
  let digits := (t.take n).takeWhile isHexDigit
  if digits.length == n then some digits else none

/-- The digits of an escape that stand between braces. -/
def bracedDigits? (t : Text) : Option Text :=
  match t with
  | '\x7b' :: rest =>
    let digits := rest.takeWhile isHexDigit
    if !digits.isEmpty && (rest.drop digits.length).head? == some '\x7d' then some digits
    else none
  | _ => none

/-- The escape whose first character behind the backslash is given, with what follows it. -/
def cookEscape (c : Char) (rest : Text) : Cooked :=
  if c == 'u' then
    match bracedDigits? rest with
    | some digits => cookCode ('u' :: '\x7b' :: (digits ++ ['\x7d'])) digits
    | none =>
      match fixedDigits? 4 rest with
      | some digits => cookCode ('u' :: digits) digits
      | none => ⟨['u'], 1⟩
  else if c == 'x' then
    match fixedDigits? 2 rest with
    | some digits => cookCode ('x' :: digits) digits
    | none => ⟨['x'], 1⟩
  else if c == '\r' && rest.head? == some '\n' then ⟨[], 2⟩
  else ⟨simpleEscape c, 1⟩

/-- Cooks a text behind its first `skipped` characters; `done` is what came before, last
character first. -/
def cookFrom (done : Text) : (skipped : Nat) → Text → Text
  | _, [] => done.reverse
  | skipped + 1, _ :: rest => cookFrom done skipped rest
  | 0, c :: rest =>
    if c == '\\' then
      match rest with
      | [] => cookFrom ('\\' :: done) 0 rest
      | e :: more =>
        let cooked := cookEscape e more
        cookFrom (cooked.text.reverse ++ done) cooked.length rest
    else cookFrom (c :: done) 0 rest

/-- The text that a literal with escapes stands for. -/
def cook (raw : Text) : Text := cookFrom [] 0 raw

end OperationScan.Script
