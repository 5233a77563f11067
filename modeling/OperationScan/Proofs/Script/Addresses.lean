import Mathlib.Data.List.Sort
import OperationScan.Proofs.Script.Preorder

/-!
# Addresses in a tree

A place in a tree is told by the positions of the children on the way down to it. In the
lexicographic order of these addresses each place comes before those below it, and the places below
a child come before those below the children to its right.

* `Site.at?`: the site at an address.
* `Node.addresses`: the addresses in a tree. `mem_addresses_iff` and `pairwise_addresses`: there is
  one for each place, and they are in order.
* `Site.IsListing`: sites listed by their addresses.
* `Site.isListing_iff`: the walk over a tree is the only such listing.
* `Site.mem_before_of_walk`: the walk has passed all sites around a site before it comes to that.
-/

namespace OperationScan.Script

/-- The site at an address, which says at each step down to it which child to take. -/
def Site.at? (s : Site) : List Nat → Option Site
  | [] => some s
  | i :: rest => s.children[i]?.bind fun c => c.at? rest

namespace Node

mutual

/-- The addresses in a tree. -/
def addresses : Node → List (List Nat)
  | .mk _ _ _ _ _ cs => [] :: addressesFrom 0 cs

/-- The addresses in the trees of siblings, the first of which has a position. -/
def addressesFrom (position : Nat) : List Node → List (List Nat)
  | [] => []
  | n :: rest => n.addresses.map (position :: ·) ++ addressesFrom (position + 1) rest

end

variable {n : Node} {nodes : List Node} {position : Nat} {a : List Nat}

theorem addresses_eq (n : Node) : n.addresses = [] :: addressesFrom 0 n.children := by
  cases n
  rw [addresses]
  rfl

/-- What holds of a node if it holds of its children holds of all nodes. -/
theorem children_induction {P : Node → Prop} (h : ∀ n, (∀ c ∈ n.children, P c) → P n) (n : Node) :
    P n :=
  Site.children_induction (P := fun s => P s.node)
    (fun s ih => h s.node fun c hc => ih (s.below c) (List.mem_map_of_mem hc)) ⟨n, []⟩

theorem mem_addressesFrom_iff : a ∈ addressesFrom position nodes ↔
    ∃ i n b, a = (position + i) :: b ∧ nodes[i]? = some n ∧ b ∈ n.addresses := by
  induction nodes generalizing position with
  | nil => simp [addressesFrom]
  | cons n nodes ih =>
    rw [addressesFrom, List.mem_append, List.mem_map, ih]
    constructor
    · rintro (⟨b, hb, rfl⟩ | ⟨i, m, b, rfl, hm, hb⟩)
      · exact ⟨0, n, b, rfl, rfl, hb⟩
      · exact ⟨i + 1, m, b, by rw [Nat.add_assoc, Nat.add_comm 1], hm, hb⟩
    · rintro ⟨i, m, b, rfl, hm, hb⟩
      cases i with
      | zero =>
        cases Option.some.inj hm
        exact .inl ⟨b, hb, rfl⟩
      | succ i => exact .inr ⟨i, m, b, by rw [Nat.add_assoc, Nat.add_comm 1], hm, hb⟩

/-- There is an address for each place in a tree, and no other. -/
theorem mem_addresses_iff (above : List Node) :
    a ∈ n.addresses ↔ (Site.at? ⟨n, above⟩ a).isSome = true := by
  induction a generalizing n above with
  | nil => simp [addresses_eq, Site.at?]
  | cons i a ih =>
    have hchild : (Site.children ⟨n, above⟩)[i]? = n.children[i]?.map (Site.below ⟨n, above⟩) :=
      List.getElem?_map
    have hnil : i :: a ≠ [] := List.cons_ne_nil i a
    rw [addresses_eq, List.mem_cons, or_iff_right hnil, mem_addressesFrom_iff, Site.at?, hchild]
    cases hn : n.children[i]? with
    | none => simp [hn]
    | some m =>
      rw [Option.map_some, Option.bind_some, Site.below, ← ih]
      constructor
      · rintro ⟨j, m', b, hsame, hm', hb⟩
        obtain ⟨rfl, rfl⟩ := List.cons.inj hsame
        rw [Nat.zero_add, hm'] at hn
        exact Option.some.inj hn ▸ hb
      · exact fun ha => ⟨i, m, a, by rw [Nat.zero_add], hn, ha⟩

theorem pairwise_addressesFrom (h : ∀ n ∈ nodes, n.addresses.Pairwise (· < ·)) :
    (addressesFrom position nodes).Pairwise (· < ·) := by
  induction nodes generalizing position with
  | nil => exact .nil
  | cons n nodes ih =>
    obtain ⟨hn, hnodes⟩ := List.forall_mem_cons.mp h
    rw [addressesFrom, List.pairwise_append]
    refine ⟨hn.map _ fun a b hab => List.cons_lt_cons_iff.mpr (.inr ⟨rfl, hab⟩), ih hnodes, ?_⟩
    intro a ha b hb
    obtain ⟨a, -, rfl⟩ := List.mem_map.mp ha
    obtain ⟨i, -, b, rfl, -, -⟩ := mem_addressesFrom_iff.mp hb
    exact List.cons_lt_cons_iff.mpr (.inl (by omega))

/-- The addresses in a tree are in lexicographic order, and each of them is there once. -/
theorem pairwise_addresses (n : Node) : n.addresses.Pairwise (· < ·) := by
  induction n using children_induction with
  | h n ih =>
    rw [addresses_eq, List.pairwise_cons]
    refine ⟨fun a ha => ?_, pairwise_addressesFrom ih⟩
    obtain ⟨i, -, b, rfl, -, -⟩ := mem_addressesFrom_iff.mp ha
    exact List.nil_lt_cons _ _

end Node

namespace Site

/-- Sites are those at the places of a tree, each once, in the lexicographic order of the
addresses. -/
def IsListing (s : Site) (sites : List Site) : Prop :=
  ∃ addresses : List (List Nat), addresses.Pairwise (· < ·) ∧
    (∀ a, a ∈ addresses ↔ (s.at? a).isSome = true) ∧ sites.map some = addresses.map s.at?

theorem IsListing.unique {s : Site} {sites sites' : List Site} (h : s.IsListing sites)
    (h' : s.IsListing sites') : sites = sites' := by
  obtain ⟨addresses, hordered, hplaces, hsites⟩ := h
  obtain ⟨addresses', hordered', hplaces', hsites'⟩ := h'
  have hsame : addresses = addresses' :=
    hordered.eq_of_mem_iff hordered' fun a => (hplaces a).trans (hplaces' a).symm
  rw [← hsame, ← hsites] at hsites'
  exact (List.map_injective_iff.mpr (Option.some_injective Site) hsites').symm

/-- The sites below some children, from a position on, are listed by the addresses there. -/
theorem map_some_flatMap {s : Site} {nodes : List Node} {position : Nat}
    (hnodes : s.node.children.drop position = nodes)
    (h : ∀ n ∈ nodes, (s.below n).preorder.map some = n.addresses.map (s.below n).at?) :
    ((nodes.map s.below).flatMap preorder).map some =
      (Node.addressesFrom position nodes).map s.at? := by
  induction nodes generalizing position with
  | nil => rfl
  | cons n nodes ih =>
    obtain ⟨hn, hlater⟩ := List.forall_mem_cons.mp h
    have hchild : s.children[position]? = some (s.below n) := by
      rw [children, List.getElem?_map, ← List.head?_drop, hnodes]
      rfl
    have hdrop : s.node.children.drop (position + 1) = nodes := by
      rw [← List.drop_drop, hnodes]
      rfl
    have hat : s.at? ∘ (position :: ·) = (s.below n).at? := by
      funext a
      rw [Function.comp_apply, at?, hchild, Option.bind_some]
    rw [Node.addressesFrom, List.map_cons, List.flatMap_cons, List.map_append, List.map_append,
      List.map_map, hat, ih hdrop hlater, hn]

theorem map_some_preorder (s : Site) : s.preorder.map some = s.node.addresses.map s.at? := by
  induction s using children_induction with
  | h s ih =>
    have hbelow : ∀ n ∈ s.node.children,
        (s.below n).preorder.map some = n.addresses.map (s.below n).at? :=
      fun n hn => ih (s.below n) (List.mem_map_of_mem hn)
    rw [preorder_eq, Node.addresses_eq, List.map_cons, List.map_cons, children,
      map_some_flatMap List.drop_zero hbelow]
    rfl

/-- The walk over a tree is the one list of all its sites in the order of their addresses. -/
theorem isListing_iff {root : Node} {sites : List Site} :
    IsListing ⟨root, []⟩ sites ↔ sites = walk root := by
  have hwalk : IsListing ⟨root, []⟩ (walk root) := by
    refine ⟨root.addresses, root.pairwise_addresses, fun a => Node.mem_addresses_iff [], ?_⟩
    rw [walk_eq_preorder]
    exact map_some_preorder ⟨root, []⟩
  exact ⟨fun h => h.unique hwalk, fun h => h ▸ hwalk⟩

/-! ## Parents -/

theorem exists_of_flatMap_eq {α β : Type} {f : α → List β} {as : List α} {b : β}
    {before after : List β} (h : as.flatMap f = before ++ b :: after) :
    ∃ a ∈ as, ∃ inner rest, f a = inner ++ b :: rest ∧ inner ⊆ before := by
  induction as generalizing before with
  | nil => simp at h
  | cons a as ih =>
    have hlater : ∀ {before'}, as.flatMap f = before' ++ b :: after → before' ⊆ before →
        ∃ a' ∈ a :: as, ∃ inner rest, f a' = inner ++ b :: rest ∧ inner ⊆ before := by
      intro before' h hsub
      obtain ⟨a', ha', inner, rest, hsplit, hinner⟩ := ih h
      exact ⟨a', List.mem_cons_of_mem a ha', inner, rest, hsplit, List.Subset.trans hinner hsub⟩
    rw [List.flatMap_cons] at h
    rcases List.append_eq_append_iff.mp h with ⟨more, rfl, hrest⟩ | ⟨more, ha, hrest⟩
    · exact hlater hrest (List.subset_append_right _ _)
    · cases more with
      | nil =>
        have hfirst : as.flatMap f = [] ++ b :: after := hrest.symm
        exact hlater hfirst (List.nil_subset before)
      | cons b' more =>
        obtain ⟨rfl, -⟩ := List.cons.inj hrest
        exact ⟨a, List.mem_cons_self, before, more, ha, List.Subset.refl before⟩

/-- Before it comes to a site, the walk below another has passed all sites around it, but for those
around the other one. -/
theorem mem_before_of_suffix {s t : Site} {before after : List Site} {n : Node} {above : List Node}
    (h : s.preorder = before ++ t :: after) (hn : n :: above <:+ t.above) :
    ⟨n, above⟩ ∈ before ∨ n :: above <:+ s.above := by
  induction s using children_induction generalizing before after with
  | h s ih =>
    rw [preorder_eq] at h
    cases before with
    | nil =>
      obtain ⟨rfl, -⟩ := List.cons.inj h
      exact .inr hn
    | cons u before =>
      obtain ⟨rfl, hbelow⟩ := List.cons.inj h
      obtain ⟨c, hc, inner, rest, hsplit, hinner⟩ := exists_of_flatMap_eq hbelow
      rcases ih c hc hsplit with hmem | hsuffix
      · exact .inl (List.mem_cons_of_mem s (hinner hmem))
      · obtain ⟨m, -, rfl⟩ := List.mem_map.mp hc
        rcases List.suffix_cons_iff.mp hsuffix with heq | hsuffix
        · obtain ⟨rfl, rfl⟩ := List.cons.inj heq
          exact .inl List.mem_cons_self
        · exact .inr hsuffix

/-- The walk has passed all sites around a site before it comes to that. -/
theorem mem_before_of_walk {root : Node} {t : Site} {before after : List Site} {n : Node}
    {above : List Node} (h : walk root = before ++ t :: after) (hn : n :: above <:+ t.above) :
    ⟨n, above⟩ ∈ before := by
  rw [walk_eq_preorder] at h
  refine (mem_before_of_suffix h hn).resolve_right fun hsuffix => ?_
  exact List.cons_ne_nil n above (List.suffix_nil.mp hsuffix)

end Site

end OperationScan.Script
