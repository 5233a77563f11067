import OperationScan.Script.Grammar.Basic

/-!
# Types, parameters and patterns

A type becomes one node whose descendants are the strings, names and patterns in it.

* `Grammar.type`: types.
* `Grammar.pattern`: the targets of declarations.
* `Grammar.parameters`: parameter lists.
-/

namespace OperationScan.Script.Grammar

open Reader

variable (g : Grammar)

/-! ## Types -/

/-- Reads the type behind a colon, if a colon comes next. -/
def annotation? : Reader (List Node) := do
  if g.typed then
    if ← sign? ":" then return [← g.read .type] else return []
  else return []

/-- Reads the type of a result behind a colon, if a colon comes next. -/
def resultAnnotation? : Reader (List Node) := do
  if g.typed then
    if ← sign? ":" then return [← g.read .resultType] else return []
  else return []

/-- Reads type arguments. -/
def typeArguments : Reader Node := do
  let start ← here
  check (g.typed && !(← sees "<<") && !(← sees "<="))
  sign "<"
  let types ← listUntil ">" (g.read .type)
  check !types.isEmpty
  close .other start types

/-- Reads one type parameter. -/
def typeParameter : Reader Node := do
  let start ← here
  let _ ← many do
    if (← seesWord "const") || (← seesWord "in") then
      let _ ← anyWord .other
      return some ()
    else return none
  let _ ← name .other
  if !((← sees ",") || (← sees ">") || (← sees "=") || (← seesWord "extends")) then
    let _ ← name .other
  let bound ← (do if ← keyword? "extends" then return [← g.read .type] else return [])
  let default ← (do if ← sign? "=" then return [← g.read .type] else return [])
  close .other start (bound ++ default)

/-- Reads type parameters, if there are some. -/
def typeParameters? : Reader (List Node) := do
  if g.typed && (← sees "<") then
    let start ← here
    eat 1
    let ps ← listUntil ">" g.typeParameter
    return [← close .other start ps]
  else return []

/-! ## Patterns -/

/-- Reads the default behind a pattern, if there is one. -/
def withDefault (start : Place) (target : Node) : Reader Node := do
  if (← sees "=") && !(← sees "=>") && !(← sees "==") then
    eat 1
    let value ← g.assignment
    close .other start [target, value]
  else return target

/-- Reads a pattern with an optional default. -/
def element : Reader Node := do
  let start ← here
  if ← sign? "..." then
    let target ← g.read .pattern
    close .other start [target]
  else g.withDefault start (← g.read .pattern)

/-- Reads one member of an object pattern. -/
def patternMember : Reader Node := do
  let start ← here
  if ← sees "..." then g.element
  else
    let key ← g.memberName
    if ← sign? ":" then
      let target ← g.element
      close .other start [key, target]
    else
      check (key.kind == .propertyName && isName key.text)
      g.withDefault start (key.withKind .other)

/-- Reads the items of an array pattern up to its closing bracket. -/
def patternItems : Reader (List Node) := do
  let items ← many do
    if ← sees "]" then return none
    else if ← sign? "," then return some []
    else
      let n ← g.element
      check ((← sees ",") || (← sees "]"))
      let _ ← sign? ","
      return some [n]
  sign "]"
  return items.flatten

/-- Reads the target of a declaration. -/
def pattern : Reader Node := do
  let start ← here
  match ← peek with
  | some '\x7b' =>
    eat 1
    let members ← listUntil "\x7d" g.patternMember
    close .other start members
  | some '[' =>
    eat 1
    let items ← g.patternItems
    close .other start items
  | _ => identifier

/-! ## Parameters -/

/-- Words that may precede a parameter. -/
def parameterModifiers : List Text :=
  ["public", "private", "protected", "override", "readonly"].map (·.toList)

/-- Passes the words in front of a parameter. -/
def skipModifiers : Reader Unit := do
  let _ ← many do
    let w ← peekWord
    if g.typed && parameterModifiers.contains w then
      let s ← tryTo do
        eat w.length
        check !((← sees ",") || (← sees ")") || (← sees ":") || (← sees "=") || (← sees "?"))
      return s
    else return none

/-- Reads a decorator. -/
def decorator : Reader Node := do
  let start ← here
  check ((← sees "@"))
  eat 1
  let target ← g.read (.unary .none)
  close .other start [target]

/-- Reads decorators. -/
def decorators : Reader (List Node) := many do
  if ← sees "@" then return some (← g.decorator) else return none

/-- Reads one parameter. -/
def parameter : Reader Node := do
  let start ← here
  let ds ← g.decorators
  g.skipModifiers
  let rest ← sign? "..."
  let target ← (do
    if g.typed && (← seesWord "this") then anyWord .other else g.read .pattern)
  let target ← (if rest then close .other start [target] else pure target)
  if g.typed then
    let _ ← sign? "?"
  let types ← g.annotation?
  let value ← (do
    if (← sees "=") && !(← sees "=>") then
      eat 1
      return [← g.assignment]
    else return [])
  close .other start (ds ++ target :: types ++ value)

/-- Reads a parameter list. -/
def parameters : Reader Node := do
  let start ← here
  sign "("
  let ps ← listUntil ")" g.parameter
  close .other start ps

/-! ## Object types -/

/-- The next token ends the name of a member. -/
def endsName : Reader Bool := do
  match ← peek with
  | some c => return "(:,;=?!<>)\x7d".toList.contains c
  | none => return true

/-- Passes a word in front of a member if the name of the member follows it. -/
def modifier? (words : List Text) : Reader (Option Text) := do
  let w ← peekWord
  if words.contains w then
    tryTo do
      eat w.length
      check !(← endsName)
      return w
  else return none

/-- Passes the words in front of a member. -/
def modifiers (words : List Text) : Reader (List Text) := many (modifier? words)

/-- Reads an index signature or the head of a mapped type, between its brackets. -/
def indexHead : Reader (List Node) := do
  sign "["
  let key ← anyWord .identifier
  let types ← (do
    if ← sign? ":" then return [key, ← g.read .type]
    else
      keyword "in"
      let source ← g.read .type
      let renamed ← (do if ← keyword? "as" then return [← g.read .type] else return [])
      return source :: renamed)
  sign "]"
  return types

/-- Reads type parameters, parameters and result type of a signature. -/
def signature : Reader (List Node) := do
  let tps ← g.typeParameters?
  let ps ← g.parameters
  let result ← g.resultAnnotation?
  return tps ++ ps :: result

/-- Reads a member of an object type. -/
def typeMember : Reader Node := do
  let start ← here
  let _ ← either (sign "+") (either (sign "-") (pure ()))
  let _ ← modifiers
    (["readonly", "get", "set", "static", "public", "private", "protected"].map (·.toList))
  let _ ← either (sign "+") (either (sign "-") (pure ()))
  let parts ← either
    (do
      let index ← g.indexHead
      let _ ← either (sign "+") (either (sign "-") (pure ()))
      let _ ← sign? "?"
      let types ← g.annotation?
      return index ++ types)
    (do
      if (← sees "(") || (← sees "<") then g.signature
      else
        let viaNew ← tryTo do
          keyword "new"
          check ((← sees "(") || (← sees "<"))
          g.signature
        match viaNew with
        | some parts => return parts
        | none =>
          let key ← g.memberName
          let _ ← sign? "?"
          if (← sees "(") || (← sees "<") then return key :: (← g.signature)
          else return key :: (← g.annotation?))
  close .other start parts

/-- Reads an object type. -/
def objectType : Reader Node := do
  let start ← here
  sign "\x7b"
  let members ← many do
    if ← sees "\x7d" then return none
    else if (← sign? ";") || (← sign? ",") then return some []
    else
      let m ← g.typeMember
      check ((← sees ";") || (← sees ",") || (← sees "\x7d") || (← onNewLine))
      return some [m]
  sign "\x7d"
  close .other start members.flatten

/-! ## Parts of types -/

/-- Reads names with dots between them: all but the last are identifiers or property names. -/
def dottedType : Reader (List Node) := do
  let first ← anyWord .identifier
  let more ← many do
    if ← sign? "." then return some (← anyWord .propertyName) else return none
  if more.isEmpty then return [] else return [first]

/-- Reads names with dots between them as an expression. -/
def dottedName : Reader Node := do
  let start ← here
  let first ← anyWord .identifier
  extend (fun n => do
    if ← sign? "." then
      let p ← either privateName (anyWord .propertyName)
      return some (← close .member start [n, p.as .property])
    else return none) first

/-- Reads type arguments, if there are some. -/
def typeArguments? : Reader (List Node) := do
  if (← sees "<") && !(← onNewLine) then return [← g.typeArguments] else return []

/-- Reads an element of a tuple type. -/
def tupleItem : Reader Node := do
  let start ← here
  let _ ← sign? "..."
  let label ← tryTo do
    let n ← anyWord .identifier
    let _ ← sign? "?"
    sign ":"
    return n
  match label with
  | some n =>
    let t ← g.read .type
    close .other start [n, t]
  | none =>
    let t ← g.read .type
    let _ ← sign? "?"
    close .other start [t]

/-- Reads a type that needs no brackets around it. -/
def primaryType : Reader Node := do
  let start ← here
  match ← peek with
  | some '(' =>
    eat 1
    let t ← g.read .type
    sign ")"
    close .other start [t]
  | some '\x7b' => g.objectType
  | some '[' =>
    eat 1
    let items ← listUntil "]" g.tupleItem
    close .other start items
  | some '\x60' => templateOf .other (g.read .type)
  | some '"' | some '\'' => string
  | some '-' =>
    eat 1
    let n ← number
    close .other start [n]
  | some '*' =>
    eat 1
    close .other start []
  | some '?' =>
    eat 1
    let t ← g.read .type
    close .other start [t]
  | some c =>
    if c.isDigit || c == '.' then number
    else
      let w ← peekWord
      if w == "typeof".toList then
        eat 6
        if ← seesWord "import" then
          let t ← g.read .type
          close .other start [t]
        else
          let n ← dottedName
          let args ← g.typeArguments?
          close .other start (n :: args)
      else if w == "import".toList then
        eat 6
        sign "("
        let source ← string
        sign ")"
        let _ ← many do
          if ← sign? "." then return some (← anyWord .propertyName) else return none
        let args ← g.typeArguments?
        close .other start (source :: args)
      else if ["this", "void", "null", "true", "false"].any (·.toList == w) then
        eat w.length
        close .other start []
      else
        check (isName w)
        let names ← dottedType
        let args ← g.typeArguments?
        close .other start (names ++ args)
  | none => fail

/-- Reads a type followed by brackets. -/
def postfixType : Reader Node := do
  let start ← here
  let first ← g.primaryType
  extend (fun t => do
    if (← sees "[") && !(← onNewLine) then
      eat 1
      if ← sign? "]" then return some (← close .other start [t])
      else
        let index ← g.read .type
        sign "]"
        return some (← close .other start [t, index])
    else return none) first

/-- Words that may precede a type. -/
def typeOperators : List Text := ["keyof", "unique", "readonly"].map (·.toList)

/-- Reads a type with the words in front of it. -/
def unaryType : Reader Node := do
  let start ← here
  let _ ← many do
    let w ← peekWord
    if typeOperators.contains w then
      tryTo do
        eat w.length
        check !((← endsName) && !(← sees "(") && !(← sees "\x7b"))
        check !((← sees ",") || (← sees "|") || (← sees "&"))
    else return none
  if ← seesWord "infer" then
    let inferred ← tryTo do
      eat 5
      let _ ← name .other
      let bound ← tryTo do
        keyword "extends"
        let t ← g.read .type
        check !(← sees "?")
        return t
      close .other start bound.toList
    match inferred with
    | some n => return n
    | none => g.postfixType
  else g.postfixType

/-- Reads types with a sign between them, which may also come first. -/
def joinedTypes (joint double : String) (item : Reader Node) : Reader Node := do
  let start ← here
  if (← sees joint) && !(← sees double) then eat 1
  let first ← item
  extend (fun t => do
    if (← sees joint) && !(← sees double) then
      eat 1
      let u ← item
      return some (← close .other start [t, u])
    else return none) first

/-- Reads a function type or a constructor type. -/
def functionType : Reader Node := do
  let start ← here
  let _ ← keyword? "abstract"
  let _ ← keyword? "new"
  let tps ← g.typeParameters?
  let ps ← g.parameters
  sign "=>"
  let result ← g.read .resultType
  close .other start (tps ++ [ps, result])

/-- A function type may begin here. -/
def seesFunctionType : Reader Bool := do
  return (← sees "(") || (← sees "<") || (← seesWord "new") || (← seesWord "abstract")

/-- Reads a type. -/
def type : Reader Node := do
  let start ← here
  let function ← (do if ← seesFunctionType then tryTo g.functionType else return none)
  match function with
  | some f => return f
  | none =>
    let t ← joinedTypes "|" "||" (joinedTypes "&" "&&" g.unaryType)
    if (← seesWord "extends") && !(← onNewLine) then
      let conditional ← tryTo do
        eat 7
        let bound ← g.read .type
        sign "?"
        let yes ← g.read .type
        sign ":"
        let no ← g.read .type
        close .other start [t, bound, yes, no]
      return conditional.getD t
    else return t

/-- Reads the type of a result: a type, or what the result says about a parameter. -/
def resultType : Reader Node := do
  let start ← here
  let predicate ← tryTo do
    let asserts ← (do
      if ← seesWord "asserts" then
        return (← tryTo do
          eat 7
          check (!(← onNewLine) && !(← peekWord).isEmpty && !(← seesWord "is"))).isSome
      else return false)
    let subject ← (do if ← seesWord "this" then anyWord .other else anyWord .identifier)
    if ← keyword? "is" then
      let t ← g.read .type
      close .other start [subject, t]
    else
      check asserts
      close .other start [subject]
  match predicate with
  | some p => return p
  | none => g.read .type

end OperationScan.Script.Grammar
