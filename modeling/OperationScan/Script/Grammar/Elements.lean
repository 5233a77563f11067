import OperationScan.Script.Grammar.Expressions

/-!
# Elements

Elements are written like markup: a name between angle brackets with attributes, then text,
expressions between braces and further elements, then the closing name. Text between elements
is passed over as it stands.

* `Grammar.markup`: an element or a fragment.
-/

namespace OperationScan.Script.Grammar

open Reader

variable (g : Grammar)

/-- The length of a name in which hyphens may stand. -/
def hyphenatedLength (t : Text) : Nat := (t.takeWhile fun c => isWordChar c || c == '-').length

/-- Reads a name in which hyphens may stand. -/
def hyphenated (kind : Kind) : Reader Node := do
  let start ← here
  let t ← rest
  check ((t.head?.map isWordStart).getD false)
  eat (hyphenatedLength t)
  close kind start []

/-- Reads the name of an element. -/
def elementName : Reader Node := do
  let start ← here
  let first ← hyphenated .identifier
  if ← sign? ":" then
    let second ← hyphenated .identifier
    close .other start [first, second]
  else
    extend (fun n => do
      if ← sign? "." then
        let p ← anyWord .propertyName
        return some (← close .member start [n, p.as .property])
      else return none) first

/-- Reads an expression between braces, and not past the closing one. It may be spread, and it may
be missing. -/
def braced : Reader Node := do
  let start ← here
  sign "\x7b"
  let inner ← (do
    if ← sees "\x7d" then return []
    else if ← sign? "..." then return [← g.assignment]
    else return [← g.expression])
  check (← sees "\x7d")
  eatRaw 1
  close .other start inner

/-- The length of a reference behind its ampersand and mark: at most some digits and a
semicolon. -/
def markedReference (mark most : Nat) (isDigit : Char → Bool) (t : Text) : Nat :=
  let n := (t.takeWhile isDigit).length
  if 0 < n && n ≤ most && (t.drop n).head? == some ';' then mark + n + 1 else 0

/-- The length of the character reference at the start of a text; zero if there is none. -/
def referenceLength : Text → Nat
  | '&' :: '#' :: 'x' :: rest | '&' :: '#' :: 'X' :: rest => markedReference 3 6 isHexDigit rest
  | '&' :: '#' :: rest => markedReference 2 5 Char.isDigit rest
  | '&' :: rest => markedReference 1 30 Char.isAlpha rest
  | _ => 0

/-- The number of characters up to and with the closing quote of an attribute, behind the first
`skipped`; zero if it is not closed or holds a malformed reference. An ampersand that begins no
reference takes the next character with it. -/
def attributeLength (quote : Char) (count : Nat) : (skipped : Nat) → Text → Nat
  | _, [] => 0
  | skipped + 1, _ :: rest => attributeLength quote (count + 1) skipped rest
  | 0, c :: rest =>
    if c == quote then count + 1
    else if c == '&' then
      match referenceLength (c :: rest) with
      | n + 1 => attributeLength quote (count + 1) n rest
      | 0 =>
        if (rest.head?.map fun d => d == '#' || d.isAlpha).getD true then 0
        else attributeLength quote (count + 1) 1 rest
    else attributeLength quote (count + 1) 0 rest

/-- Reads the string of an attribute, which ends at the next equal quote. -/
def attributeString : Reader Node := do
  let start ← here
  match ← rest with
  | c :: body =>
    check (c == '"' || c == '\'')
    let n := attributeLength c 0 0 body
    check (n != 0)
    eat (n + 1)
    close .string start []
  | [] => fail

/-- Reads an attribute. -/
def elementAttribute : Reader Node := do
  let start ← here
  if ← sees "\x7b" then
    let n ← g.braced
    toToken
    return n
  else
    let first ← hyphenated .propertyName
    let names ← (do
      if ← sign? ":" then
        let second ← hyphenated .identifier
        return [first.withKind .identifier, second]
      else return [first])
    if ← sign? "=" then
      match ← peek with
      | some '\x7b' =>
        let n ← g.braced
        toToken
        close .other start (names ++ [n])
      | some '<' =>
        let n ← g.read .element
        toToken
        close .other start (names ++ [n])
      | _ =>
        let n ← attributeString
        close .other start (names ++ [n])
    else close .other start names

/-- The length of the text up to the next element, expression or character reference. -/
def textLength (t : Text) : Nat :=
  (t.takeWhile fun c => !("<>&\x7b\x7d".toList.contains c)).length

/-- Reads what stands between an opening and a closing name. -/
def elementChildren : Reader (List Node) := do
  let children ← many do
    let t ← rest
    let n := textLength t
    if n != 0 then
      eatRaw n
      return some []
    else if ← sees "&" then
      check (referenceLength t != 0)
      eatRaw (referenceLength t)
      return some []
    else if ← sees "\x7b" then return some [← g.braced]
    else if ← sees "</" then return none
    else return some [← g.read .element]
  return children.flatten

/-- Reads a closing name, and not past its bracket. -/
def closingName (isFragment : Bool) : Reader (List Node) := do
  sign "</"
  let names ← (do
    if isFragment then return []
    else return [← elementName])
  check (← sees ">")
  eatRaw 1
  return names

/-- Reads an element or a fragment, and not past its last bracket. -/
def markup : Reader Node := do
  let start ← here
  sign "<"
  if ← sees ">" then
    eatRaw 1
    let children ← g.elementChildren
    let closing ← closingName true
    close .other start (children ++ closing)
  else
    let tag ← elementName
    let types ← g.typeArguments?
    let attributes ← many do
      if (← sees "/") || (← sees ">") then return none else return some (← g.elementAttribute)
    if ← sign? "/" then
      check (← sees ">")
      eatRaw 1
      close .other start (tag :: types ++ attributes)
    else
      check (← sees ">")
      eatRaw 1
      let children ← g.elementChildren
      let closing ← closingName false
      close .other start (tag :: types ++ attributes ++ children ++ closing)

end OperationScan.Script.Grammar
