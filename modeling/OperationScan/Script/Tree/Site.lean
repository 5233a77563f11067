import OperationScan.Script.Tree.Basic

/-!
# Places in a syntax tree

A site is a node together with the nodes around it, the innermost first.

* `Site.walk`: all sites of a tree, each before those below it and siblings in source order.
* `Site.unwrap?`: the expression inside parentheses and type assertions.
* `Site.scopes`: the scopes around a site, the innermost first.
-/

namespace OperationScan.Script

/-- A node with the nodes around it, the innermost first. -/
structure Site where
  node : Node
  above : List Node
  deriving Inhabited

namespace Site

/-- What the node is. -/
def kind (s : Site) : Kind := s.node.kind

/-- The source text of the node. -/
def text (s : Site) : Text := s.node.text

/-- The site of a child. -/
def below (s : Site) (child : Node) : Site := ⟨child, s.node :: s.above⟩

/-- The sites of the children. -/
def children (s : Site) : List Site := s.node.children.map s.below

/-- The sites of the children that are no comments. -/
def parts (s : Site) : List Site := s.node.parts.map s.below

/-- The site of the child in a role. -/
def child? (s : Site) (r : Role) : Option Site := (s.node.child? r).map s.below

/-- The scopes around a site, the innermost first. -/
def scopes (s : Site) : List Node := s.above.filter fun n => n.kind.opensScope

/-- Walks over the sites on a stack, at most `fuel` of them. What has been passed is kept last
first. -/
def walkFrom : (fuel : Nat) → List Site → List Site → List Site
  | 0, _, passed => passed.reverse
  | _, [], passed => passed.reverse
  | fuel + 1, s :: stack, passed => walkFrom fuel (s.children ++ stack) (s :: passed)

/-- All sites of a tree, each before those below it. -/
def walk (root : Node) : List Site := walkFrom root.size [⟨root, []⟩] []

mutual

/-- The expression inside the wrappers around it, if the node is a wrapper. -/
def unwrapNode? (above : List Node) : Node → Option Site
  | .mk k i r s e cs =>
    if k.isTransparent then unwrapFirst? (.mk k i r s e cs :: above) cs
    else some ⟨.mk k i r s e cs, above⟩

/-- The expression in the first node that is no comment. -/
def unwrapFirst? (above : List Node) : List Node → Option Site
  | [] => none
  | n :: rest =>
    if n.kind == .comment then unwrapFirst? above rest else unwrapNode? above n

end

/-- The expression inside parentheses and type assertions. -/
def unwrap? (s : Site) : Option Site := unwrapNode? s.above s.node

end Site

end OperationScan.Script
