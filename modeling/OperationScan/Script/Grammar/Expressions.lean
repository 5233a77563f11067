import OperationScan.Script.Grammar.Types

/-!
# Expressions

* `Grammar.primary`: operands.
* `Grammar.chain`: member accesses, calls and tagged templates behind an operand.
* `Grammar.unaryExpression`, `Grammar.binaryExpression`: operators.
* `Grammar.assignmentExpression`: arrow functions, conditionals and assignments.
* `Grammar.sequence`: expressions with commas.
-/

namespace OperationScan.Script.Grammar

open Reader

variable (g : Grammar)

/-! ## Targets of assignments -/

mutual

/-- An object or array as the target of an assignment: its shorthand members are no references
but targets. -/
def asTarget : Node → Node
  | .mk k i r s e cs =>
    match k with
    | .object | .array | .pair | .spread => .mk .other i r s e (asTargets cs)
    | .shorthand | .shorthandDefault | .assignment => .mk .other i r s e cs
    | k => .mk k i r s e cs

/-- The members of an object or array as targets. -/
def asTargets : List Node → List Node
  | [] => []
  | n :: rest => asTarget n :: asTargets rest

end

/-- A node can stand on the left of an assignment. -/
def isTarget (n : Node) : Bool :=
  match n.kind with
  | .identifier | .member | .object | .array | .parenthesized | .nonNull => true
  | .other => (n.child? .callee).isSome
  | _ => false

/-! ## Functions -/

/-- Reads the statements between braces. -/
def block : Reader Node := do
  let start ← here
  sign "\x7b"
  let body ← many do
    if ← sees "\x7d" then return none else return some (← g.read .statement)
  sign "\x7d"
  close .block start body

/-- Reads a function from its keyword on. `kind` is what it is when it is no generator. -/
def function (kind : Kind) : Reader Node := do
  let start ← here
  let _ ← (do
    if ← seesWord "async" then
      eat 5
      check !(← onNewLine))
  keyword "function"
  let generator ← sign? "*"
  let names ← (do
    if (← sees "(") || (← sees "<") then return []
    else return [(← identifier).as .name])
  let head ← g.signature
  if ← sees "\x7b" then
    let body ← g.block
    close (if generator then .other else kind) start (names ++ head ++ [body])
  else
    check (g.typed && kind == .functionDeclaration)
    endOfStatement
    close .other start (names ++ head)

/-- Reads the body of an arrow function. -/
def arrowBody (limits : Limits) : Reader Node := do
  if ← sees "\x7b" then g.block else g.read (.assignment { limits with noResultType := false })

/-- Reads an arrow function with one bare parameter. -/
def bareArrow (limits : Limits) : Reader Node := do
  let start ← here
  if ← seesWord "async" then
    let _ ← tryTo do
      eat 5
      check (!(← onNewLine) && isName (← peekWord))
  let parameter ← identifier
  check (← sees "=>")
  eat 2
  let body ← g.arrowBody limits
  close .arrow start [parameter, body]

/-- Reads an arrow function with parentheses around its parameters. -/
def arrow (limits : Limits) : Reader Node := do
  let start ← here
  if ← seesWord "async" then
    eat 5
    check !(← onNewLine)
  let tps ← g.typeParameters?
  let ps ← g.parameters
  let result ← (do
    if limits.noResultType then return [] else g.resultAnnotation?)
  sign "=>"
  let body ← g.arrowBody limits
  close .arrow start (tps ++ ps :: result ++ [body])

/-- An arrow function may begin here. -/
def seesArrow : Reader Bool := do
  match ← peek with
  | some '(' => return true
  | some '<' => return g.typed
  | some c =>
    if isWordStart c then
      let w ← peekWord
      let t ← rest
      let behind := passGap ⟨⟨0, []⟩, 0, 0, false, false, 0, []⟩ .space 0 0 (t.drop w.length)
      if Text.startsWith behind.place.rest ['=', '>'] then return isName w
      else return w == "async".toList
    else return false
  | none => return false

/-! ## Objects, arrays and arguments -/

/-- Reads an argument or an item: an expression, or one spread over its place. -/
def item : Reader Node := do
  let start ← here
  if ← sign? "..." then
    let n ← g.assignment
    close .spread start [n]
  else g.assignment

/-- Reads arguments. -/
def arguments : Reader Node := do
  let start ← here
  sign "("
  let items ← listUntil ")" g.item
  close .arguments start items

/-- Reads an array. -/
def array : Reader Node := do
  let start ← here
  sign "["
  let items ← many do
    if ← sees "]" then return none
    else if ← sign? "," then return some []
    else
      let n ← g.item
      check ((← sees ",") || (← sees "]"))
      let _ ← sign? ","
      return some [n]
  sign "]"
  close .array start items.flatten

/-- Reads the rest of a method behind its name. -/
def method (start : Place) (before : List Node) : Reader Node := do
  let head ← g.signature
  let body ← g.block
  close .method start (before ++ head ++ [body])

/-- Words that may precede the name of an object's method. -/
def methodModifiers : List Text := ["async", "get", "set", "static"].map (·.toList)

/-- Reads a member of an object. -/
def objectMember : Reader Node := do
  let start ← here
  if ← sees "..." then g.item
  else
    let ms ← modifiers methodModifiers
    let star ← sign? "*"
    let key ← g.memberName
    if (← sees "(") || (g.typed && (← sees "<")) then g.method start [key.as .name]
    else
      check (ms.isEmpty && !star)
      if ← sign? ":" then
        let value ← g.assignment
        close .pair start [key.as .key, value.as .value]
      else
        check (key.kind == .propertyName && isName key.text)
        if (← sees "=") && !(← sees "==") && !(← sees "=>") then
          eat 1
          let value ← g.assignment
          close .shorthandDefault start [value]
        else return key.withKind .shorthand

/-- Reads an object. -/
def object : Reader Node := do
  let start ← here
  sign "\x7b"
  let members ← listUntil "\x7d" g.objectMember
  close .object start members

/-! ## Classes -/

/-- Words that may precede a member of a class. -/
def memberModifiers : List Text :=
  if g.typed then
    ["static", "async", "get", "set", "accessor", "public", "private", "protected", "readonly",
      "abstract", "override", "declare"].map (·.toList)
  else ["static", "async", "get", "set", "accessor"].map (·.toList)

/-- Reads a static block. -/
def staticBlock : Reader Node := do
  let start ← here
  keyword "static"
  let body ← g.block
  close .other start [body]

/-- Reads a field or a method behind its name. -/
def afterMemberName (start : Place) (before : List Node) : Reader Node := do
  if g.typed then
    let _ ← either (sign "?") (either (do check (!(← sees "!=")); sign "!") (pure ()))
  if (← sees "(") || (g.typed && (← sees "<")) then
    let head ← g.signature
    if ← sees "\x7b" then
      let body ← g.block
      close .method start (before ++ head ++ [body])
    else
      check g.typed
      endOfStatement
      close .other start (before ++ head)
  else
    let types ← g.annotation?
    let value ← (do if ← sign? "=" then return [← g.assignment] else return [])
    endOfStatement
    close .other start (before ++ types ++ value)

/-- Reads a member of a class. -/
def classMember : Reader Node := do
  let start ← here
  let ds ← g.decorators
  match ← tryTo g.staticBlock with
  | some n => return n
  | none =>
    let _ ← modifiers g.memberModifiers
    let index ← (do
      if g.typed && (← sees "[") then
        tryTo do
          let parts ← g.indexHead
          let types ← g.annotation?
          endOfStatement
          close .other start (parts ++ types)
      else return none)
    match index with
    | some n => return n
    | none =>
      let _ ← sign? "*"
      let key ← g.memberName
      g.afterMemberName start (ds ++ [key.as .name])

/-- Reads the body of a class. -/
def classBody : Reader Node := do
  let start ← here
  sign "\x7b"
  let members ← many do
    if ← sees "\x7d" then return none
    else if ← sign? ";" then return some []
    else return some [← g.classMember]
  sign "\x7d"
  close .classBody start members.flatten

/-- Reads the types behind a word, if the word comes next. -/
def heritageTypes (w : String) : Reader (List Node) := do
  if g.typed && (← seesWord w) then
    eat w.length
    let first ← g.read .type
    let more ← many do
      if ← sign? "," then return some (← g.read .type) else return none
    return first :: more
  else return []

/-- Reads a class from its keyword on. -/
def «class» : Reader Node := do
  let start ← here
  let ds ← g.decorators
  let _ ← (do if g.typed then keyword? "abstract" else return false)
  keyword "class"
  let names ← (do
    if (← sees "\x7b") || (← sees "<") || (← seesWord "extends") || (← seesWord "implements") then
      return []
    else return [← name (if g.typed then .other else .identifier)])
  let tps ← g.typeParameters?
  let parent ← (do
    if ← keyword? "extends" then
      let base ← g.read (.unary .none)
      let args ← (do if g.typed then typeArguments? g else return [])
      return base :: args
    else return [])
  let interfaces ← g.heritageTypes "implements"
  let body ← g.classBody
  close .other start (ds ++ names ++ tps ++ parent ++ interfaces ++ [body])

/-! ## Operands -/

/-- Reads an expression between parentheses. -/
def parenthesized : Reader Node := do
  let start ← here
  sign "("
  let inner ← g.expression
  let types ← g.annotation?
  sign ")"
  close .parenthesized start (inner :: types)

/-- Reads an expression whose type is asserted in front of it. -/
def assertion : Reader Node := do
  let start ← here
  let types ← g.typeArguments
  let inner ← g.read (.unary .none)
  close .assertedType start [types, inner]

/-- Reads the operand of `new` with its arguments. -/
def construction : Reader Node := do
  let start ← here
  keyword "new"
  if ← sign? "." then
    let _ ← anyWord .other
    close .other start []
  else
    let target ← g.read .constructed
    let types ← (do
      if g.typed && (← sees "<") then
        return ((← tryTo g.typeArguments).map ([·])).getD []
      else return [])
    let args ← (do if ← sees "(" then return [(← g.arguments).as .arguments] else return [])
    close .other start (target :: types ++ args)

/-- Words that are operands of their own. -/
def wordKinds : List (Text × Kind) :=
  [("true".toList, .trueWord), ("false".toList, .falseWord), ("null".toList, .nullWord),
    ("this".toList, .other), ("super".toList, .other), ("undefined".toList, .other)]

/-- Reads `import` as an operand: of a call, or with a property. -/
def importOperand : Reader Node := do
  let start ← here
  keyword "import"
  if ← sign? "." then
    let _ ← anyWord .other
    close .other start []
  else
    let n ← close .other start []
    check (← sees "(")
    return n

/-- Reads an operand that begins with a word. -/
def wordOperand : Reader Node := do
  let w ← peekWord
  match wordKinds.lookup w with
  | some kind => anyWord kind
  | none =>
    if w == "function".toList then g.function .functionExpression
    else if w == "class".toList then g.class
    else if w == "new".toList then g.construction
    else if w == "import".toList then importOperand
    else if w == "async".toList then
      match ← tryTo (g.function .functionExpression) with
      | some f => return f
      | none => identifier
    else identifier

/-- Reads an operand. -/
def primary : Reader Node := do
  match ← peek with
  | some '(' => g.parenthesized
  | some '[' => g.array
  | some '\x7b' => g.object
  | some '"' | some '\'' => string
  | some '\x60' => g.template
  | some '/' => regex
  | some '#' => privateName
  | some '@' => g.class
  | some '<' =>
    if g.language == .typescript then g.assertion
    else
      let n ← g.read .element
      toToken
      return n
  | some '.' => number
  | some c => if c.isDigit then number else g.wordOperand
  | none => fail

/-! ## Accesses and calls -/

/-- Reads the name behind a dot. -/
def accessName : Reader Node := do
  if ← sees "#" then privateName else anyWord .propertyName

/-- Reads a member access whose dot comes next. -/
def dotted (start : Place) (base : Node) : Reader Node := do
  let p ← accessName
  close .member start [base, p.as .property]

/-- Reads an access with brackets. -/
def indexed (start : Place) (base : Node) : Reader Node := do
  sign "["
  let i ← g.expression
  sign "]"
  close .other start [base.as .callee, i]

/-- Reads the arguments of a call. -/
def called (start : Place) (base : Node) (types : List Node) : Reader Node := do
  let args ← g.arguments
  close .call start (base.as .callee :: types ++ [args.as .arguments])

/-- Reads the template of a tagged template. -/
def tagged (start : Place) (base : Node) (types : List Node) : Reader Node := do
  let t ← g.template
  close .call start (base.as .callee :: types ++ [t.as .arguments])

/-- The next token cannot begin an operand: type arguments in front of it stand for themselves. -/
def seesNoOperand : Reader Bool := do
  if (← onNewLine) || (← atEnd) then return true
  match ← peek with
  | some c => return ")],;:.?\x7d=!&|^".toList.contains c
  | none => return true

/-- Reads type arguments and what they are for. -/
def withTypeArguments (start : Place) (base : Node) : Reader Node := do
  let types ← g.typeArguments
  if ← sees "(" then g.called start base [types]
  else if ← sees "\x60" then g.tagged start base [types]
  else
    check (← seesNoOperand)
    close .other start [base, types]

/-- Reads one access or call behind an operand. -/
def link (start : Place) (base : Node) : Reader (Option Node) := do
  match ← peek with
  | some '.' =>
    if ← sees ".." then return none
    else
      eat 1
      return some (← dotted start base)
  | some '?' =>
    let t ← rest
    if Text.startsWith t ['?', '.'] && !((t.drop 2).head?.map Char.isDigit).getD false then
      eat 2
      if ← sees "(" then return some (← g.called start base [])
      else if ← sees "[" then return some (← g.indexed start base)
      else if g.typed && (← sees "<") then return some (← g.withTypeArguments start base)
      else return some (← dotted start base)
    else return none
  | some '[' => return some (← g.indexed start base)
  | some '(' => return some (← g.called start base [])
  | some '\x60' => return some (← g.tagged start base [])
  | some '!' =>
    if g.typed && !(← onNewLine) && !(← sees "!=") then
      eat 1
      return some (← close .nonNull start [base])
    else return none
  | some '<' => if g.typed then tryTo (g.withTypeArguments start base) else return none
  | _ => return none

/-- Reads an operand with the accesses and calls behind it. -/
def chain : Reader Node := do
  let start ← here
  let base ← g.primary
  extend (g.link start) base

/-- Reads the operand of `new`: no call can belong to it. -/
def constructed : Reader Node := do
  let start ← here
  let base ← g.primary
  extend (fun n => do
    match ← peek with
    | some '.' =>
      eat 1
      return some (← dotted start n)
    | some '[' => return some (← g.indexed start n)
    | some '\x60' => return some (← g.tagged start n [])
    | _ => return none) base

/-! ## Operators -/

/-- Words in front of an operand. -/
def unaryWords : List Text := ["typeof", "void", "delete", "await"].map (·.toList)

/-- Reads an operand with the operators around it. -/
def unaryExpression (limits : Limits) : Reader Node := do
  let start ← here
  if (← sees "++") || (← sees "--") then
    eat 2
    let n ← g.read (.unary limits)
    close .other start [n]
  else if (← sees "!") || (← sees "~") || (← sees "+") || (← sees "-") then
    eat 1
    let n ← g.read (.unary limits)
    close .other start [n]
  else
    let w ← peekWord
    if unaryWords.contains w then
      eat w.length
      let n ← g.read (.unary limits)
      close .other start [n]
    else
      let n ← g.chain
      if ((← sees "++") || (← sees "--")) && !(← onNewLine) then
        eat 2
        close .other start [n]
      else return n

/-- Binary operators with their precedence, longer ones first. -/
def operators : List (Text × Nat) :=
  [(">>>", 9), ("===", 7), ("!==", 7), ("**", 12), ("<<", 9), (">>", 9), ("<=", 8), (">=", 8),
    ("==", 7), ("!=", 7), ("&&", 3), ("||", 2), ("??", 1), ("*", 11), ("/", 11), ("%", 11),
    ("+", 10), ("-", 10), ("<", 8), (">", 8), ("&", 6), ("^", 5), ("|", 4)].map
    fun o => (o.1.toList, o.2)

/-- Signs that begin like a binary operator and are none. -/
def assignmentOperators : List Text :=
  [">>>=", "**=", "<<=", ">>=", "&&=", "||=", "??=", "*=", "/=", "%=", "+=", "-=", "&=", "^=",
    "|=", "=>", "++", "--"].map (·.toList)

/-- The binary operator that comes next, with its precedence. -/
def operator? (limits : Limits) : Reader (Option (Text × Nat)) := do
  let t ← rest
  let w ← peekWord
  if w == "instanceof".toList then return some (w, 8)
  else if w == "in".toList then return (if limits.noIn then none else some (w, 8))
  else if w.isEmpty then
    if assignmentOperators.any (Text.startsWith t) then return none
    else return operators.find? fun o => Text.startsWith t o.1
  else return none

/-- Reads a type behind an expression, if one comes next. -/
def typedBehind? (start : Place) (n : Node) : Reader (Option Node) := do
  let w ← peekWord
  let kind := if w == "as".toList then some Kind.asType
    else if w == "satisfies".toList then some .satisfiesType else none
  match kind with
  | some k =>
    if g.typed && !(← onNewLine) then
      eat w.length
      if ← keyword? "const" then return some (← close k start [n])
      else
        let t ← g.read .type
        return some (← close k start [n, t])
    else return none
  | none => return none

/-- Reads operands with binary operators of at least a precedence between them. A type behind an
expression binds more loosely than all of them. -/
def binaryExpression (least : Nat) (limits : Limits) : Reader Node := do
  let start ← here
  let first ← g.read (.unary limits)
  extend (fun left => do
    match ← operator? limits with
    | some (o, p) =>
      if p < least then return none
      else
        eat o.length
        let right ← g.read (.binary (if p == 12 then p else p + 1) limits)
        return some (← close (.binary o) start [left.as .left, right.as .right])
    | none => if least == 0 then g.typedBehind? start left else return none) first

/-- Reads the branch of a conditional between its two signs. -/
def consequent : Reader Node := do
  let direct : Reader Node := do
    let n ← g.assignment
    sign ":"
    return n
  if g.typed && ((← sees "(") || (← seesWord "async")) then
    either direct do
      let n ← g.read (.assignment ⟨false, true⟩)
      sign ":"
      return n
  else direct

/-- Reads `yield` with what it yields. -/
def yielded (limits : Limits) : Reader Node := do
  let start ← here
  keyword "yield"
  if ← sign? "*" then
    let n ← g.read (.assignment limits)
    close .other start [n]
  else if (← onNewLine) || (← atEnd) then close .other start []
  else
    match ← peek with
    | some c =>
      if ")],;:\x7d".toList.contains c then close .other start []
      else
        let n ← g.read (.assignment limits)
        close .other start [n]
    | none => close .other start []

/-- The sign of an assignment that comes next. -/
def assignmentSign? : Reader (Option Text) := do
  let t ← rest
  if Text.startsWith t ['='] then
    let longer := Text.startsWith t ['=', '='] || Text.startsWith t ['=', '>']
    return (if longer then none else some ['='])
  else
    return (assignmentOperators.take 15).find? (Text.startsWith t)

/-- Reads a conditional or an assignment. -/
def conditional (limits : Limits) : Reader Node := do
  let start ← here
  let first ← g.read (.binary 0 limits)
  if (← sees "?") && !(← sees "??=") then
    eat 1
    let yes ← g.consequent
    let no ← g.read (.assignment limits)
    close .other start [first, yes, no]
  else
    match ← assignmentSign? with
    | some o =>
      check (isTarget first)
      check (o == ['='] || (first.kind != .object && first.kind != .array))
      eat o.length
      let value ← g.read (.assignment limits)
      close .assignment start [asTarget first, value]
    | none => return first

/-- Reads an expression without commas. -/
def assignmentExpression (limits : Limits) : Reader Node := do
  if ← seesWord "yield" then g.yielded limits
  else
    let function ← (do
      if ← g.seesArrow then tryTo (either (g.bareArrow limits) (g.arrow limits)) else return none)
    match function with
    | some f => return f
    | none => g.conditional limits

/-- Reads an expression, possibly with commas. -/
def sequence (limits : Limits) : Reader Node := do
  let start ← here
  let first ← g.read (.assignment limits)
  let more ← many do
    if ← sign? "," then return some (← g.read (.assignment limits)) else return none
  if more.isEmpty then return first else close .other start (first :: more)

end OperationScan.Script.Grammar
