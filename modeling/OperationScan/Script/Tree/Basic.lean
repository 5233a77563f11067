import OperationScan.Text.Basic

/-!
# Syntax trees of scripts

A node has a kind, a number of its own, the role it plays for its parent, the text it covers and
its named children. Punctuation has no nodes; the operator of a binary expression is part of the
kind. Kinds that the analysis does not tell apart are all `Kind.other`.

* `Node.children`, `Node.child?`: the children, and the child in a role.
* `Kind.opensScope`: the kinds that open a lexical scope.
* `Node.withComments`: the tree with comment nodes, each a child of the innermost node around it.
-/

namespace OperationScan.Script

/-- What a node is. -/
inductive Kind where
  | program
  | block
  | functionDeclaration
  | functionExpression
  | arrow
  | method
  | classBody
  | forStatement
  | forIn
  | declarator
  | call
  | member
  | arguments
  | identifier
  | shorthand
  | propertyName
  | privateName
  | number
  | string
  | template
  | substitution
  | object
  | pair
  | array
  | spread
  | binary (operator : Text)
  | parenthesized
  | asType
  | satisfiesType
  | nonNull
  | assertedType
  | trueWord
  | falseWord
  | nullWord
  | comment
  | assignment
  | shorthandDefault
  | other
  deriving Repr, DecidableEq, Inhabited

namespace Kind

/-- Nodes that open a lexical scope. -/
def opensScope : Kind → Bool
  | program | block | functionDeclaration | functionExpression | arrow | method | classBody
  | forStatement | forIn => true
  | _ => false

/-- Nodes that do not change the value of the expression they hold. -/
def isTransparent : Kind → Bool
  | parenthesized | asType | satisfiesType | nonNull | assertedType => true
  | _ => false

/-- Nodes that name a binding. -/
def isReference : Kind → Bool
  | identifier | shorthand => true
  | _ => false

end Kind

/-- The part that a node plays for its parent. -/
inductive Role where
  | plain
  | name
  | value
  | callee
  | arguments
  | property
  | key
  | left
  | right
  deriving Repr, DecidableEq, Inhabited

/-- A node of a syntax tree. -/
inductive Node where
  | mk (kind : Kind) (id : Nat) (role : Role) (start : Nat) (excerpt : Excerpt)
      (children : List Node)

instance : Inhabited Node := ⟨.mk .other 0 .plain 0 ⟨[], 0⟩ []⟩

namespace Node

/-- What a node is. -/
def kind : Node → Kind
  | mk k _ _ _ _ _ => k

/-- The number that tells a node from all others of its tree. -/
def id : Node → Nat
  | mk _ i _ _ _ _ => i

/-- The part that a node plays for its parent. -/
def role : Node → Role
  | mk _ _ r _ _ _ => r

/-- The offset of the first character of a node. -/
def start : Node → Nat
  | mk _ _ _ s _ _ => s

/-- The stretch of the source that a node covers. -/
def excerpt : Node → Excerpt
  | mk _ _ _ _ e _ => e

/-- The children of a node, in source order. -/
def children : Node → List Node
  | mk _ _ _ _ _ cs => cs

/-- The offset behind the last character of a node. -/
def stop (n : Node) : Nat := n.start + n.excerpt.length

/-- The source text of a node. -/
def text (n : Node) : Text := n.excerpt.text

/-- A node in another role. -/
def as (r : Role) : Node → Node
  | mk k i _ s e cs => mk k i r s e cs

/-- A node of another kind. -/
def withKind (k : Kind) : Node → Node
  | mk _ i r s e cs => mk k i r s e cs

/-- The child in a role. -/
def child? (n : Node) (r : Role) : Option Node := n.children.find? fun c => c.role == r

/-- The children that are no comments. -/
def parts (n : Node) : List Node := n.children.filter fun c => c.kind != .comment

mutual

/-- The number of nodes of a tree. -/
def size : Node → Nat
  | mk _ _ _ _ _ cs => 1 + sizes cs

/-- The number of nodes of trees. -/
def sizes : List Node → Nat
  | [] => 0
  | n :: rest => n.size + sizes rest

end

mutual

/-- Hands comments, in source order, down to the innermost nodes around them. -/
def withComments (comments : List Node) : Node → Node
  | mk k i r s e cs => mk k i r s e (weave comments cs)

/-- Merges comments into a list of siblings. -/
def weave (comments : List Node) : List Node → List Node
  | [] => comments
  | n :: rest =>
    let before := comments.takeWhile fun c => c.start < n.start
    let later := comments.drop before.length
    let inside := later.takeWhile fun c => c.start < n.stop
    before ++ withComments inside n :: weave (later.drop inside.length) rest

end

mutual

/-- Some node of a tree has a property. -/
def anyNode (p : Node → Bool) : Node → Bool
  | mk k i r s e cs => p (mk k i r s e cs) || anyNodes p cs

/-- Some node of trees has a property. -/
def anyNodes (p : Node → Bool) : List Node → Bool
  | [] => false
  | n :: rest => anyNode p n || anyNodes p rest

end

end Node

end OperationScan.Script
