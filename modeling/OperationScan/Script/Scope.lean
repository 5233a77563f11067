import OperationScan.Script.Tree.Site

/-!
# Lexical scopes

Every declared variable with an initial value binds its name in the innermost scope around it.
Hoisting and later assignments do not count.

* `ScopeIndex.build`: the bindings of a tree.
* `ScopeIndex.lookup?`: the initial value that a reference stands for: the nearest scope with a
  binding of the name decides.
-/

namespace OperationScan.Script

/-- A name with its initial value, in a scope. -/
structure Binding where
  scope : Nat
  name : Text
  value : Site

/-- The bindings of a tree, in source order, each name once for a scope. -/
structure ScopeIndex where
  bindings : List Binding

namespace ScopeIndex

/-- The most scopes that are searched for a binding. -/
def maxScopes : Nat := 64

/-- No bindings. -/
def empty : ScopeIndex := ⟨[]⟩

/-- The number of bindings. -/
def size (x : ScopeIndex) : Nat := x.bindings.length

/-- The initial value of a name in a scope. -/
def get? (x : ScopeIndex) (scope : Nat) (name : Text) : Option Site :=
  (x.bindings.find? fun b => b.scope == scope && b.name == name).map (·.value)

/-- The binding that a declared variable makes. -/
def bindingOf? (s : Site) : Option Binding :=
  if s.kind == .declarator then
    match s.node.child? .name, s.child? .value, s.scopes.head? with
    | some name, some value, some scope =>
      if name.kind == .identifier then some ⟨scope.id, name.text, value⟩ else none
    | _, _, _ => none
  else none

/-- Adds a binding, unless its scope binds the name already. -/
def add (x : ScopeIndex) (b : Binding) : ScopeIndex :=
  if (x.get? b.scope b.name).isSome then x else ⟨x.bindings ++ [b]⟩

/-- The bindings of a tree. -/
def build (root : Node) : ScopeIndex := ((Site.walk root).filterMap bindingOf?).foldl add empty

/-- The initial value that a reference stands for. -/
def lookup? (x : ScopeIndex) (s : Site) : Option Site :=
  (s.scopes.take maxScopes).findSome? fun scope => x.get? scope.id s.text

end ScopeIndex

end OperationScan.Script
