import OperationScan.Script.Grammar.Expressions

/-!
# Statements

* `Grammar.declaration`: variables, functions, classes and the declarations of types.
* `Grammar.importStatement`, `Grammar.exportStatement`: modules.
* `Grammar.statement`: all statements.
-/

namespace OperationScan.Script.Grammar

open Reader

variable (g : Grammar)

/-! ## Variables -/

/-- Reads one declared variable. -/
def declarator (limits : Limits) : Reader Node := do
  let start ← here
  let target ← g.pattern
  if g.typed then
    let _ ← sign? "!"
  let types ← g.annotation?
  let value ← (do
    if (← sees "=") && !(← sees "==") && !(← sees "=>") then
      eat 1
      return [(← g.read (.assignment limits)).as .value]
    else return [])
  close .declarator start (target.as .name :: types ++ value)

/-- Reads declared variables. -/
def declarators (limits : Limits) : Reader (List Node) := do
  let first ← g.declarator limits
  let more ← many do
    if ← sign? "," then return some (← g.declarator limits) else return none
  return first :: more

/-- Reads the word that begins a declaration of variables. -/
def variableWord : Reader Unit := do
  if ← keyword? "var" then return ()
  else if ← keyword? "const" then return ()
  else
    keyword "let"
    check ((← sees "[") || (← sees "\x7b") || isName (← peekWord))

/-- Reads a declaration of variables. -/
def variableStatement : Reader Node := do
  let start ← here
  variableWord
  let ds ← g.declarators .none
  endOfStatement
  close .other start ds

/-! ## Declarations of types -/

/-- Reads an interface. -/
def interface : Reader Node := do
  let start ← here
  keyword "interface"
  let _ ← name .other
  let tps ← g.typeParameters?
  let parents ← g.heritageTypes "extends"
  let body ← g.objectType
  close .other start (tps ++ parents ++ [body])

/-- Reads the declaration of a name for a type. -/
def typeAlias : Reader Node := do
  let start ← here
  keyword "type"
  let _ ← name .other
  let tps ← g.typeParameters?
  sign "="
  let t ← g.read .type
  endOfStatement
  close .other start (tps ++ [t])

/-- Reads a member of an enumeration. -/
def enumMember : Reader Node := do
  let start ← here
  let key ← g.memberName
  let value ← (do if ← sign? "=" then return [← g.assignment] else return [])
  close .other start (key :: value)

/-- Reads an enumeration. -/
def enumeration : Reader Node := do
  let start ← here
  let _ ← keyword? "const"
  keyword "enum"
  let n ← identifier
  sign "\x7b"
  let members ← listUntil "\x7d" g.enumMember
  close .other start (n :: members)

/-- Reads a namespace. -/
def «namespace» : Reader Node := do
  let start ← here
  let ambient ← (do
    if ← keyword? "module" then
      if ((← sees "\"") || (← sees "'")) then return [← string] else return []
    else
      keyword "namespace"
      return [])
  if ambient.isEmpty then
    let n ← dottedName
    let body ← g.block
    close .other start [n, body]
  else
    let body ← (do if ← sees "\x7b" then return [← g.block] else do endOfStatement; return [])
    close .other start (ambient ++ body)

/-- Reads a declaration that begins with a word of the typed languages. -/
def typeDeclaration : Reader Node := do
  let w ← peekWord
  if w == "interface".toList then g.interface
  else if w == "type".toList then g.typeAlias
  else if w == "enum".toList then g.enumeration
  else if w == "const".toList then g.enumeration
  else if w == "namespace".toList || w == "module".toList then g.namespace
  else if w == "abstract".toList then g.class
  else fail

/-- Reads a declaration of something that exists elsewhere. -/
def ambient : Reader Node := do
  let start ← here
  keyword "declare"
  check !(← onNewLine)
  if ← seesWord "global" then
    eat 6
    let body ← g.block
    close .other start [body]
  else
    let n ← either g.typeDeclaration (g.read .statement)
    close .other start [n]

/-! ## Declarations -/

/-- Reads a declaration. -/
def declaration : Reader Node := do
  let w ← peekWord
  let typedFirst ← (do if g.typed then tryTo g.typeDeclaration else return none)
  match typedFirst with
  | some n => return n
  | none =>
    if w == "function".toList || w == "async".toList then g.function .functionDeclaration
    else if w == "class".toList then g.class
    else if w == "var".toList || w == "let".toList || w == "const".toList then g.variableStatement
    else if w == "declare".toList && g.typed then g.ambient
    else if ← sees "@" then g.class
    else fail

/-! ## Modules -/

/-- Reads the name of something imported or exported. -/
def moduleName : Reader Node := do
  if (← sees "\"") || (← sees "'") then string else anyWord .identifier

/-- Reads a name with the name that it has on the other side. -/
def specifier : Reader Node := do
  let start ← here
  if g.typed && (← seesWord "type") then
    let _ ← tryTo do
      eat 4
      check !((← sees ",") || (← sees "\x7d") || (← seesWord "as"))
  let first ← moduleName
  if ← keyword? "as" then
    let second ← moduleName
    close .other start [first, second]
  else close .other start [first]

/-- Reads names between braces. -/
def specifiers : Reader Node := do
  let start ← here
  sign "\x7b"
  let names ← listUntil "\x7d" g.specifier
  close .other start names

/-- Reads the attributes of an import. -/
def attributes : Reader (List Node) := do
  if (← seesWord "with") || ((← seesWord "assert") && !(← onNewLine)) then
    let w ← peekWord
    eat w.length
    return [← g.object]
  else return []

/-- Reads the source of a module. -/
def source : Reader (List Node) := do
  let s ← string
  let with' ← g.attributes
  return s :: with'

/-- Reads what is imported: a name, all names under one, or names between braces. -/
def importClause : Reader (List Node) := do
  if ← sign? "*" then
    keyword "as"
    return [← identifier]
  else if ← sees "\x7b" then return [← g.specifiers]
  else
    let first ← identifier
    if ← sign? "," then
      if ← sign? "*" then
        keyword "as"
        return [first, ← identifier]
      else return [first, ← g.specifiers]
    else return [first]

/-- Reads an import. -/
def importStatement : Reader Node := do
  let start ← here
  keyword "import"
  check !((← sees "(") || (← sees "."))
  if (← sees "\"") || (← sees "'") then
    let s ← g.source
    endOfStatement
    close .other start s
  else
    let ofTypes ← (do
      if g.typed && (← seesWord "type") then
        tryTo do
          eat 4
          let clause ← g.importClause
          keyword "from"
          let s ← g.source
          return clause ++ s
      else return none)
    match ofTypes with
    | some parts =>
      endOfStatement
      close .other start parts
    | none =>
      let named ← (do
        if g.typed then
          tryTo do
            let _ ← (do if ← seesWord "type" then
              tryTo do
                eat 4
                check !(← sees "=") else return none)
            let n ← identifier
            sign "="
            if ← seesWord "require" then
              eat 7
              sign "("
              let s ← string
              sign ")"
              return [n, s]
            else return [n, ← dottedName]
        else return none)
      match named with
      | some parts =>
        endOfStatement
        close .other start parts
      | none =>
        let clause ← g.importClause
        keyword "from"
        let s ← g.source
        endOfStatement
        close .other start (clause ++ s)

/-- Reads an export. -/
def exportStatement : Reader Node := do
  let start ← here
  let ds ← g.decorators
  keyword "export"
  if ← sign? "*" then
    let names ← (do if ← keyword? "as" then return [← moduleName] else return [])
    keyword "from"
    let s ← g.source
    endOfStatement
    close .other start (names ++ s)
  else if ← keyword? "default" then
    let declared ← tryTo do
      if ← seesWord "abstract" then g.class
      else if ← seesWord "interface" then g.typeDeclaration
      else
        let named := (← seesWord "function") || (← seesWord "async") || (← seesWord "class")
        check (named || (← sees "@"))
        g.declaration
    match declared with
    | some n => close .other start (ds ++ [n])
    | none =>
      let n ← g.expression
      let isFunction := n.kind == .functionExpression
      if isFunction then
        let _ ← tryTo endOfStatement
      else endOfStatement
      close .other start (ds ++ [n])
  else if g.typed && (← sees "=") then
    eat 1
    let n ← g.expression
    endOfStatement
    close .other start [n]
  else
    let listed ← tryTo do
      if g.typed then
        let _ ← keyword? "type"
      if g.typed && (← sees "*") then
        eat 1
        keyword "from"
        g.source
      else
        let names ← g.specifiers
        let s ← (do if ← keyword? "from" then g.source else return [])
        return names :: s
    match listed with
    | some parts =>
      endOfStatement
      close .other start parts
    | none =>
      if g.typed && (← seesWord "as") then
        eat 2
        keyword "namespace"
        let n ← identifier
        endOfStatement
        close .other start [n]
      else if g.typed && (← seesWord "import") then
        let n ← g.importStatement
        close .other start [n]
      else
        let n ← g.declaration
        close .other start (ds ++ [n])

/-! ## Control -/

/-- Reads an expression between parentheses, as a statement has it. -/
def condition : Reader Node := do
  let start ← here
  sign "("
  let n ← g.expression
  sign ")"
  close .parenthesized start [n]

/-- Reads a conditional statement. -/
def ifStatement : Reader Node := do
  let start ← here
  keyword "if"
  let test ← g.condition
  let yes ← g.read .statement
  let no ← (do if ← keyword? "else" then return [← g.read .statement] else return [])
  close .other start (test :: yes :: no)

/-- Reads the head and body of a loop over the items or the names of a value. -/
def forInStatement : Reader Node := do
  let start ← here
  keyword "for"
  let _ ← keyword? "await"
  sign "("
  let declared ← tryTo do
    variableWord
    let target ← g.pattern
    let value ← (do
      if (← sees "=") && !(← sees "==") then
        eat 1
        return [← g.read (.assignment ⟨true, false⟩)]
      else return [])
    check ((← seesWord "of") || (← seesWord "in"))
    return target :: value
  let left ← (do
    match declared with
    | some ns => return ns
    | none =>
      let n ← g.chain
      check (isTarget n)
      return [asTarget n])
  let overItems ← keyword? "of"
  if !overItems then keyword "in"
  let right ← g.expression
  sign ")"
  let body ← g.read .statement
  close .forIn start (left ++ [right, body])

/-- Reads a loop with a counter. -/
def forStatement : Reader Node := do
  let start ← here
  keyword "for"
  sign "("
  let first ← (do
    if ← sign? ";" then return []
    else
      let begin ← here
      let declared ← tryTo do
        variableWord
        g.declarators ⟨true, false⟩
      let n ← (do
        match declared with
        | some ds => close .other begin ds
        | none => g.read (.expression ⟨true, false⟩))
      sign ";"
      return [n])
  let test ← (do if ← sees ";" then return [] else return [← g.expression])
  sign ";"
  let step ← (do if ← sees ")" then return [] else return [← g.expression])
  sign ")"
  let body ← g.read .statement
  close .forStatement start (first ++ test ++ step ++ [body])

/-- Reads a loop with a test in front. -/
def whileStatement (w : String) : Reader Node := do
  let start ← here
  keyword w
  let test ← g.condition
  let body ← g.read .statement
  close .other start [test, body]

/-- Reads a loop with a test behind. -/
def doStatement : Reader Node := do
  let start ← here
  keyword "do"
  let body ← g.read .statement
  keyword "while"
  let test ← g.condition
  let _ ← sign? ";"
  close .other start [body, test]

/-- Reads the statements of one case. -/
def caseBody : Reader (List Node) := many do
  if (← sees "\x7d") || (← seesWord "case") || (← seesWord "default") then return none
  else return some (← g.read .statement)

/-- Reads a choice between cases. -/
def switchStatement : Reader Node := do
  let start ← here
  keyword "switch"
  let value ← g.condition
  sign "\x7b"
  let cases ← many do
    let begin ← here
    if ← sees "\x7d" then return none
    else if ← keyword? "default" then
      sign ":"
      let body ← g.caseBody
      return some (← close .other begin body)
    else
      keyword "case"
      let label ← g.expression
      sign ":"
      let body ← g.caseBody
      return some (← close .other begin (label :: body))
  sign "\x7d"
  close .other start (value :: cases)

/-- Reads a block with what handles its failure. -/
def tryStatement : Reader Node := do
  let start ← here
  keyword "try"
  let body ← g.block
  let handler ← (do
    if ← keyword? "catch" then
      let parameter ← (do
        if ← sign? "(" then
          let p ← g.pattern
          let types ← g.annotation?
          sign ")"
          return p :: types
        else return [])
      return parameter ++ [← g.block]
    else return [])
  let last ← (do if ← keyword? "finally" then return [← g.block] else return [])
  check (!(handler.isEmpty && last.isEmpty))
  close .other start (body :: handler ++ last)

/-- Reads a return with an optional expression behind it. -/
def returnStatement : Reader Node := do
  let start ← here
  keyword "return"
  let value ← (do
    if (← onNewLine) || (← atEnd) || (← sees ";") || (← sees "\x7d") then return []
    else return [← g.expression])
  endOfStatement
  close .other start value

/-- Reads a throw with the expression behind it. -/
def throwStatement : Reader Node := do
  let start ← here
  keyword "throw"
  let value ← g.expression
  endOfStatement
  close .other start [value]

/-- Reads a statement that is one word. -/
def debuggerStatement : Reader Node := do
  let start ← here
  keyword "debugger"
  endOfStatement
  close .other start []

/-- Reads a statement that is a word with an optional label behind it. -/
def jump (w : String) : Reader Node := do
  let start ← here
  keyword w
  if !(← onNewLine) && isName (← peekWord) then
    let _ ← anyWord .other
  endOfStatement
  close .other start []

/-- Reads a labelled statement. -/
def labelled : Reader Node := do
  let start ← here
  let _ ← name .other
  sign ":"
  let body ← g.read .statement
  close .other start [body]

/-- Reads an expression as a statement. -/
def expressionStatement : Reader Node := do
  let start ← here
  let n ← g.expression
  endOfStatement
  close .other start [n]

/-! ## Statements -/

/-- Reads a statement that begins with a given word and with no other. -/
def wordStatement? (w : String) : Option (Reader Node) :=
  match w with
  | "if" => some g.ifStatement
  | "for" => some (either g.forInStatement g.forStatement)
  | "while" => some (g.whileStatement "while")
  | "with" => some (g.whileStatement "with")
  | "do" => some g.doStatement
  | "switch" => some g.switchStatement
  | "try" => some g.tryStatement
  | "return" => some (g.returnStatement)
  | "throw" => some (g.throwStatement)
  | "break" => some (jump "break")
  | "continue" => some (jump "continue")
  | "debugger" => some debuggerStatement
  | "export" => some g.exportStatement
  | "import" => some (either g.importStatement g.expressionStatement)
  | "function" => some (either g.declaration g.expressionStatement)
  | "class" => some (either g.declaration g.expressionStatement)
  | "var" => some g.declaration
  | "const" => some g.declaration
  | _ => none

/-- Words that begin a declaration or are names. -/
def declarationWords : List Text :=
  ["let", "async", "interface", "type", "enum", "namespace", "module", "abstract",
    "declare"].map (·.toList)

/-- Reads a statement that begins with a word. -/
def wordStatement (w : Text) : Reader Node :=
  match g.wordStatement? (String.ofList w) with
  | some r => r
  | none =>
    let plain := either g.labelled g.expressionStatement
    if declarationWords.contains w then either g.declaration plain else plain

/-- Reads a statement. -/
def statement : Reader Node := do
  let start ← here
  match ← peek with
  | some '\x7b' => either g.block g.expressionStatement
  | some ';' =>
    eat 1
    close .other start []
  | some '@' => either g.exportStatement g.declaration
  | some _ =>
    let w ← peekWord
    if w.isEmpty then g.expressionStatement else g.wordStatement w
  | none => fail

end OperationScan.Script.Grammar
