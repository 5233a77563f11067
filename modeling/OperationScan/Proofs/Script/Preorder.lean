import Mathlib.Data.List.Basic
import OperationScan.Script.Tree.Site

/-!
# The walk over a tree

The walk keeps the sites that are still to come on a stack. It passes each site before those below
it, and siblings in source order.

* `Site.preorder`: a site and all those below it in this order, by recursion on the tree.
* `Site.children_induction`: what holds of a site if it holds of its children.
* `Site.walkFrom_eq`, `Site.walk_eq_preorder`: some steps of the walk, and the whole walk.
* `Site.preorder_induction`: what holds at the top of a tree and is handed down to children holds
  everywhere in it.
* `Site.exists_of_mem_above`: what stands around a site is in the tree, too.
-/

namespace OperationScan.Script

namespace Site

mutual

/-- A node and all those below it, given the nodes around it. -/
def preorderNode (above : List Node) : Node → List Site
  | .mk k i r s e cs => ⟨.mk k i r s e cs, above⟩ :: preorderNodes (.mk k i r s e cs :: above) cs

/-- Siblings and all nodes below them, given the nodes around them. -/
def preorderNodes (above : List Node) : List Node → List Site
  | [] => []
  | n :: rest => preorderNode above n ++ preorderNodes above rest

end

/-- A site and all those below it, each before those below it and siblings in source order. -/
def preorder (s : Site) : List Site := preorderNode s.above s.node

variable {s t c : Site}

theorem preorderNodes_eq (s : Site) (nodes : List Node) :
    preorderNodes (s.node :: s.above) nodes = (nodes.map s.below).flatMap preorder := by
  induction nodes with
  | nil => rw [preorderNodes]; rfl
  | cons n rest ih =>
    rw [preorderNodes, ih, List.map_cons, List.flatMap_cons]
    rfl

theorem preorder_eq (s : Site) : s.preorder = s :: s.children.flatMap preorder := by
  obtain ⟨⟨k, i, r, p, e, cs⟩, above⟩ := s
  rw [preorder, preorderNode, children, ← preorderNodes_eq]
  rfl

/-! ## The stack -/

theorem size_le_sizes {n : Node} {nodes : List Node} (h : n ∈ nodes) :
    n.size ≤ Node.sizes nodes := by
  induction nodes with
  | nil => cases h
  | cons m nodes ih =>
    rw [Node.sizes]
    rcases List.mem_cons.mp h with rfl | h
    · exact Nat.le_add_right _ _
    · exact Nat.le_add_left_of_le (ih h)

theorem size_eq (s : Site) : s.node.size = 1 + Node.sizes s.node.children := by
  obtain ⟨⟨k, i, r, p, e, cs⟩, above⟩ := s
  rw [Node.size]
  rfl

theorem size_lt_of_mem_children (h : c ∈ s.children) : c.node.size < s.node.size := by
  obtain ⟨n, hn, rfl⟩ := List.mem_map.mp h
  rw [size_eq s, Nat.lt_one_add_iff]
  exact size_le_sizes hn

/-- What holds of a site if it holds of its children holds of all sites. -/
theorem children_induction {P : Site → Prop} (h : ∀ s, (∀ c ∈ s.children, P c) → P s) (s : Site) :
    P s := by
  induction hsize : s.node.size using Nat.strongRecOn generalizing s with
  | ind n ih => exact h s fun c hc => ih _ (hsize ▸ size_lt_of_mem_children hc) c rfl

/-- A site has as many sites below it, itself included, as its tree has nodes. -/
theorem length_preorder (s : Site) : s.preorder.length = s.node.size := by
  induction s using children_induction with
  | h s ih =>
    have hsum : ∀ nodes : List Node, (∀ n ∈ nodes, (s.below n).preorder.length = n.size) →
        ((nodes.map s.below).flatMap preorder).length = Node.sizes nodes := by
      intro nodes hnodes
      induction nodes with
      | nil => rfl
      | cons n nodes ihn =>
        obtain ⟨hn, hnodes⟩ := List.forall_mem_cons.mp hnodes
        rw [List.map_cons, List.flatMap_cons, List.length_append, ihn hnodes, hn, Node.sizes]
    rw [preorder_eq, List.length_cons, size_eq, Nat.add_comm 1, children,
      hsum _ fun n hn => ih _ (List.mem_map_of_mem hn)]

/-- Each step passes one more site of those on the stack and below. -/
theorem walkFrom_eq (steps : Nat) (stack passed : List Site) :
    walkFrom steps stack passed = passed.reverse ++ (stack.flatMap preorder).take steps := by
  induction steps generalizing stack passed with
  | zero =>
    rw [List.take_zero, List.append_nil]
    cases stack <;> rfl
  | succ steps ih =>
    cases stack with
    | nil =>
      rw [walkFrom, List.flatMap_nil, List.take_nil, List.append_nil]
      omega
    | cons s stack =>
      rw [walkFrom, ih, List.flatMap_append, List.flatMap_cons, preorder_eq, List.cons_append,
        List.take_succ_cons, List.reverse_cons, List.append_assoc, List.singleton_append]

/-- The walk over a tree passes every site once, each before those below it. -/
theorem walk_eq_preorder (root : Node) : walk root = preorder ⟨root, []⟩ := by
  rw [walk, walkFrom_eq, List.reverse_nil, List.nil_append, List.flatMap_singleton,
    List.take_of_length_le (Nat.le_of_eq (length_preorder ⟨root, []⟩))]

/-! ## What is in a tree -/

theorem mem_preorder_iff : t ∈ s.preorder ↔ t = s ∨ ∃ c ∈ s.children, t ∈ c.preorder := by
  rw [preorder_eq, List.mem_cons, List.mem_flatMap]

theorem self_mem_preorder (s : Site) : s ∈ s.preorder := mem_preorder_iff.mpr (.inl rfl)

/-- What holds at the top of a tree and is handed down to children holds everywhere in it. -/
theorem preorder_induction {P : Site → Prop} (hdown : ∀ s, P s → ∀ c ∈ s.children, P c)
    (htop : P s) : ∀ t ∈ s.preorder, P t := by
  induction s using children_induction with
  | h s ih =>
    intro t ht
    rcases mem_preorder_iff.mp ht with rfl | ⟨c, hc, ht⟩
    · exact htop
    · exact ih c hc (hdown s htop c hc) t ht

theorem preorder_subset (h : t ∈ s.preorder) : t.preorder ⊆ s.preorder := by
  refine preorder_induction (P := fun t => t.preorder ⊆ s.preorder) (fun t ht c hc u hu => ?_)
    (List.Subset.refl _) t h
  exact ht (mem_preorder_iff.mpr (.inr ⟨c, hc, hu⟩))

theorem suffix_of_mem_preorder (h : t ∈ s.preorder) : s.above <:+ t.above := by
  refine preorder_induction (P := fun t => s.above <:+ t.above) (fun t ht c hc => ?_)
    (List.suffix_refl s.above) t h
  obtain ⟨n, -, rfl⟩ := List.mem_map.mp hc
  exact ht.trans (List.suffix_cons t.node t.above)

theorem mem_preorder_of_mem_children (h : t ∈ s.preorder) (hc : c ∈ t.children) :
    c ∈ s.preorder :=
  preorder_subset h (mem_preorder_iff.mpr (.inr ⟨c, hc, self_mem_preorder c⟩))

/-- The nodes around a site are in the tree, too, but for those around the tree itself. -/
theorem exists_of_mem_above (h : t ∈ s.preorder) {n : Node} (hn : n ∈ t.above) :
    n ∈ s.above ∨ ∃ u ∈ s.preorder, u.node = n := by
  have hall : t ∈ s.preorder ∧ ∀ n ∈ t.above, n ∈ s.above ∨ ∃ u ∈ s.preorder, u.node = n := by
    refine preorder_induction
      (P := fun t => t ∈ s.preorder ∧ ∀ n ∈ t.above, n ∈ s.above ∨ ∃ u ∈ s.preorder, u.node = n)
      ?_ ⟨self_mem_preorder s, fun n hn => .inl hn⟩ t h
    rintro t ⟨ht, habove⟩ c hc
    obtain ⟨m, -, rfl⟩ := List.mem_map.mp hc
    exact ⟨mem_preorder_of_mem_children ht hc,
      List.forall_mem_cons.mpr ⟨.inr ⟨t, ht, rfl⟩, habove⟩⟩
  exact hall.2 n hn

end Site

end OperationScan.Script
