import OperationScan.Script.Evaluate
import OperationScan.Script.Parse
import OperationScan.Scan.Strings

/-!
# Operations in a syntax tree

One walk over the tree looks at four shapes: templates tagged as operations, calls of HTTP
clients, variables bound to tagged templates, and, in the aggressive mode, all other strings and
templates.

* `NodeShape.of?`: the shape of a node.
* `visitCall`: the operation that a call sends, with its variables.
* `Structure.scan`: the whole pass over one text.
-/

namespace OperationScan

open Script

/-- The clients whose calls are looked at. -/
def httpClients : List Text := ["fetch", "axios", "request", "post", "ajax"].map (·.toList)

/-- The members of a call's configuration that hold the payload. -/
def bodyKeys : List Text := ["body".toList, "data".toList]

/-- The shapes of nodes that are looked at. -/
inductive NodeShape where
  | taggedLiteral
  | callExpression
  | variableBinding
  | stringLiteral
  deriving Repr, DecidableEq

namespace NodeShape

/-- The context of operations found in a shape. -/
def context : NodeShape → Text
  | taggedLiteral => "tagged-literal".toList
  | callExpression => "http-call-body".toList
  | variableBinding => "variable-binding".toList
  | stringLiteral => "string-literal".toList

/-- The shape of a node. -/
def of? (n : Node) : Option NodeShape :=
  match n.kind with
  | .call =>
    match n.child? .arguments with
    | some a => some (if a.kind == .template then taggedLiteral else callExpression)
    | none => some callExpression
  | .declarator => some variableBinding
  | .string | .template => some stringLiteral
  | _ => none

end NodeShape

/-- A node is the template of a tagged template. -/
def isTagArgument (s : Site) : Bool :=
  match s.above with
  | parent :: _ =>
    parent.kind == .call && ((parent.child? .arguments).map Node.id) == some s.node.id
  | [] => false

/-- Goes on with the result of an evaluation. -/
def Collecting.ofEvaluation {α : Type} (e : Evaluation α) : Collecting α :=
  match e with
  | .ok a => pure a
  | .error fault => throw fault

/-- Records the operations of a text. -/
def recordMatches (t context : Text) : Collecting Unit := do
  let _ ← Collecting.ofFun fun c => c.addMatches t context [] [.standard]

/-- Records the operations of a tagged template. -/
def visitTagged (s : Option Site) (context : Text) : Collecting Unit :=
  match s.bind taggedText? with
  | some t => recordMatches t context
  | none => pure ()

/-- The value of an optional site, if it is an object. -/
def objectOr (x : ScopeIndex) : Option Site → Evaluation (Members Value)
  | none => .ok []
  | some s => do
    match ← staticValue x s with
    | some (.object ms) => return ms
    | _ => return []

/-- The text of a payload with the variables declared next to it. -/
def payloadText (x : ScopeIndex) (payload : Site) : Evaluation (Option Text × Members Value) :=
  match resolve? x payload with
  | none => .ok (none, [])
  | some s =>
    if s.kind == .object then do
      let ms := objectMembers s
      let bindings ← objectOr x (ms.get? "variables".toList)
      match operationKeys.findSome? ms.get? with
      | some operation => return (← staticText x operation, bindings)
      | none => return (none, [])
    else do
      return (← staticText x s, [])

/-- The payload in the configuration of a call. -/
def payloadOf? (config : Site) : Option Site :=
  let ms := objectMembers config
  (bodyKeys.findSome? ms.get?).or
    (if operationKeys.any ms.has then some config else none)

variable [Json.Nesting]

/-- Records the operation that a configuration object sends. -/
def visitConfig (x : ScopeIndex) (config : Site) (context : Text) : Collecting Unit := do
  let declared ← Collecting.ofEvaluation
    (objectOr x ((objectMembers config).get? "variables".toList))
  match payloadOf? config with
  | none => pure ()
  | some payload =>
    let (text, bindings) ← Collecting.ofEvaluation (payloadText x payload)
    match text with
    | some (c :: rest) =>
      let _ ← addPayload (c :: rest) context (declared.merge bindings)
    | _ => pure ()

/-- Records the operation that a call of an HTTP client sends. The second argument, or the only
one, is its configuration; a second argument that is no object is the body itself. -/
def visitCall (x : ScopeIndex) (call : Site) (context : Text) : Collecting Unit :=
  if (calleeName? call).any httpClients.contains then
    match (call.child? .arguments).map Site.parts with
    | none | some [] => pure ()
    | some (first :: more) =>
      match resolve? x (more.head?.getD first) with
      | none => pure ()
      | some config =>
        if config.kind == .object then visitConfig x config context
        else if more.isEmpty then pure ()
        else do
          match ← Collecting.ofEvaluation (staticText x config) with
          | some (c :: rest) =>
            let _ ← addPayload (c :: rest) context []
          | _ => pure ()
  else pure ()

/-- The text of a string or template. -/
def literalText (s : Site) : Text :=
  if s.kind == .template then templateText s.node else stringValue s.node

/-- Records the operations of a string or template that is no tagged one. -/
def visitLiteral (s : Site) (context : Text) : Collecting Unit :=
  if s.kind == .template && isTagArgument s then pure ()
  else if passesScreen (literalText s) then do
    let _ ← addPayload (literalText s) context []
  else pure ()

/-- Records the operations at a site. -/
def visit (x : ScopeIndex) (aggressive : Bool) (s : Site) : Collecting Unit :=
  match NodeShape.of? s.node with
  | none => pure ()
  | some shape =>
    match shape with
    | .taggedLiteral => visitTagged (some s) shape.context
    | .callExpression => visitCall x s shape.context
    | .variableBinding => visitTagged (s.child? .value) shape.context
    | .stringLiteral => if aggressive then visitLiteral s shape.context else pure ()

/-- Records the operations at sites, in order. -/
def visitAll (x : ScopeIndex) (aggressive : Bool) : List Site → Collecting Unit
  | [] => pure ()
  | s :: rest => do
    visit x aggressive s
    visitAll x aggressive rest

/-- What the pass over the tree of one text has found out. -/
structure Structure where
  tree : Option Node
  index : ScopeIndex
  diagnostics : List Text

namespace Structure

/-- The text is not in its language. -/
def parseFailed (s : Structure) : Bool := s.tree.isNone

/-- The pass over a tree. It is never stopped: a fault becomes a diagnostic line. -/
def scanTree (root : Node) (aggressive : Bool) (c : Collector) : Structure × Collector :=
  let x := ScopeIndex.build root
  match (visitAll x aggressive (Site.walk root)).outcome c with
  | (.ok (), c) => (⟨some root, x, []⟩, c)
  | (.error fault, c) =>
    (⟨some root, x, [("structural pass aborted: " ++ fault.line).toList]⟩, c)

/-- The pass over a text. -/
def scan [Parser] (t : Text) (language : Language) (aggressive : Bool) (c : Collector) :
    Structure × Collector :=
  match Parser.parse language t with
  | .ok root => scanTree root aggressive c
  | .error fault =>
    (⟨none, .empty, [("parse failure (" ++ language.name ++ "): " ++ fault.message).toList]⟩, c)

end Structure

end OperationScan
