import OperationScan.Proofs.Scan.Unstopped
import OperationScan.Proofs.Script.Addresses

/-!
# Variables bound to tagged templates

A template that is the initial value of a variable is visited twice: with the declarator, and by
itself. The walk comes to the declarator first, so the operations in the template are bindings, and
the visit of the template finds nothing new.

* `BindsTemplate`: a declarator whose initial value is a template that is tagged as an operation.
* `ComesTo`: the pass over a tree comes to a site, and what is on record then.
* `ComesTo.context_of_binds`, `ComesTo.visit_of_binds`: the two visits of the template.
* `scanTree_preorder_bindings`: the order of the pass, and what it makes of such variables.
-/

namespace OperationScan

open Script Collecting

variable {root : Node} {x : ScopeIndex} {aggressive : Bool} {c c' : Collector}
  {s t d call : Site} {u : Text}

/-! ## Parts of a pass -/

section Passes

variable [Json.Nesting]

theorem visitAll_append (x : ScopeIndex) (aggressive : Bool) (sites sites' : List Site) :
    visitAll x aggressive (sites ++ sites') =
      visitAll x aggressive sites >>= fun _ => visitAll x aggressive sites' := by
  induction sites with
  | nil => rfl
  | cons s rest ih => rw [List.cons_append, visitAll, visitAll, ih, bind_assoc]

theorem signatures_visitAll {sites : List Site} {result : Except Fault Unit}
    (h : (visitAll x aggressive sites).outcome c = (result, c')) :
    c.signatures ⊆ c'.signatures := by
  obtain ⟨_, l, hl⟩ := (sights_visitAll x aggressive sites).steady
  cases (hl c).symm.trans h
  intro t ht
  exact (c.mem_signatures_record l t).mpr (.inl ht)

theorem snd_scanTree (root : Node) (aggressive : Bool) (c : Collector) :
    (Structure.scanTree root aggressive c).2 =
      ((visitAll (.build root) aggressive (Site.walk root)).outcome c).2 := by
  rw [Structure.scanTree]
  split
  · rename_i h
    rw [h]
  · rename_i h
    rw [h]

/-- The pass over a tree comes to a site when it has passed all those in front of it; then the
operations found in these are on record. -/
def ComesTo (root : Node) (aggressive : Bool) (c : Collector) (s : Site) (c' : Collector) : Prop :=
  ∃ before after, Site.walk root = before ++ s :: after ∧
    (visitAll (.build root) aggressive before).outcome c = (.ok (), c')

/-- A pass that is not stopped passes all sites in front of any place. -/
theorem exists_outcome_of_unstopped {before after : List Site}
    (h : (Structure.scanTree root aggressive c).1.diagnostics = [])
    (hwalk : Site.walk root = before ++ after) :
    ∃ c', (visitAll (.build root) aggressive before).outcome c = (.ok (), c') := by
  rw [Structure.scanTree] at h
  split at h
  · rename_i hall
    rw [hwalk, visitAll_append] at hall
    obtain ⟨_, c', hbefore, -⟩ := exists_of_outcome_bind hall
    exact ⟨c', hbefore⟩
  · cases h

/-- A pass that comes to a site goes on with what is on record there. -/
theorem ComesTo.exists_record {l : List Sighting} (h : ComesTo root aggressive c s c')
    (hvisit : (visit (.build root) aggressive s).Records (.ok ()) l) :
    ∃ l', (Structure.scanTree root aggressive c).2 = c'.record (l ++ l') := by
  obtain ⟨before, after, hwalk, hbefore⟩ := h
  obtain ⟨result, l', hl'⟩ := (sights_visitAll (.build root) aggressive after).steady
  refine ⟨l', ?_⟩
  rw [snd_scanTree, hwalk, visitAll_append, outcome_bind_ok hbefore, visitAll, hvisit.bind_ok hl']

/-- A pass that comes to a site has come to the sites around it. -/
theorem ComesTo.exists_of_suffix {l : List Sighting} (h : ComesTo root aggressive c s c')
    (hsuffix : d.node :: d.above <:+ s.above)
    (hvisit : (visit (.build root) aggressive d).Records (.ok ()) l) :
    ∃ c₀, ComesTo root aggressive c d c₀ ∧ (c₀.record l).signatures ⊆ c'.signatures := by
  obtain ⟨before, after, hwalk, hbefore⟩ := h
  obtain ⟨front, between, rfl⟩ := List.append_of_mem (Site.mem_before_of_walk hwalk hsuffix)
  rw [visitAll_append] at hbefore
  obtain ⟨_, c₀, hfront, hrest⟩ := exists_of_outcome_bind hbefore
  refine ⟨c₀, ⟨front, between ++ s :: after, ?_, hfront⟩, ?_⟩
  · rw [hwalk, List.append_assoc, List.cons_append]
  · rw [visitAll, outcome_bind_ok (hvisit c₀)] at hrest
    exact signatures_visitAll hrest

end Passes

/-! ## Initial values -/

/-- What is found in wrappers is none, and it lies below them. -/
theorem Script.Site.of_unwrap? (h : s.unwrap? = some t) :
    t.kind.isTransparent = false ∧ t ∈ s.preorder := by
  induction s using Site.children_induction with
  | h s ih =>
    cases hkind : s.kind.isTransparent with
    | false =>
      rw [Site.unwrap?_eq_self hkind] at h
      cases h
      exact ⟨hkind, Site.self_mem_preorder _⟩
    | true =>
      rw [Site.unwrap?_of_isTransparent hkind] at h
      obtain ⟨first, hfirst, ht⟩ := Option.bind_eq_some_iff.mp h
      obtain ⟨n, hn, rfl⟩ := List.mem_map.mp (List.mem_of_mem_head? hfirst)
      have hchild : s.below n ∈ s.children := List.mem_map_of_mem (List.mem_of_mem_filter hn)
      obtain ⟨hplain, hbelow⟩ := ih _ hchild ht
      exact ⟨hplain, Site.mem_preorder_iff.mpr (.inr ⟨_, hchild, hbelow⟩)⟩

/-- A declarator whose initial value is, inside its wrappers, a template that is tagged as an
operation. -/
structure BindsTemplate (d call : Site) (u : Text) : Prop where
  declares : d.kind = .declarator
  value : (d.child? .value).bind Site.unwrap? = some call
  tagged : taggedText? call = some u

/-- The matches in a template that is the initial value of a variable. -/
def bindingSightings (u : Text) : List Sighting :=
  Sighting.ofMatches u NodeShape.variableBinding.context [] [.standard]

theorem kind_of_taggedText? (hplain : s.kind.isTransparent = false) (h : taggedText? s = some u) :
    s.kind = .call := by
  rw [taggedText?, Site.unwrap?_eq_self hplain] at h
  dsimp only at h
  split at h
  · rename_i hkind
    exact eq_of_beq hkind
  · cases h

namespace BindsTemplate

theorem kind_eq (h : BindsTemplate d call u) : call.kind = .call := by
  obtain ⟨value, -, hunwrap⟩ := Option.bind_eq_some_iff.mp h.value
  exact kind_of_taggedText? (Site.of_unwrap? hunwrap).1 h.tagged

/-- The template lies below a child of the declarator. -/
theorem exists_child (h : BindsTemplate d call u) :
    ∃ value ∈ d.children, call ∈ value.preorder := by
  obtain ⟨value, hvalue, hunwrap⟩ := Option.bind_eq_some_iff.mp h.value
  obtain ⟨n, hn, rfl⟩ := Option.map_eq_some_iff.mp hvalue
  exact ⟨_, List.mem_map_of_mem (List.mem_of_find?_eq_some hn), (Site.of_unwrap? hunwrap).2⟩

theorem mem_preorder (h : BindsTemplate d call u) : call ∈ d.preorder :=
  Site.mem_preorder_iff.mpr (.inr h.exists_child)

/-- The declarator stands around the template. -/
theorem suffix (h : BindsTemplate d call u) : d.node :: d.above <:+ call.above := by
  obtain ⟨value, hvalue, hcall⟩ := h.exists_child
  obtain ⟨n, -, rfl⟩ := List.mem_map.mp hvalue
  exact Site.suffix_of_mem_preorder hcall

theorem taggedText?_value (h : BindsTemplate d call u) :
    (d.child? .value).bind taggedText? = some u := by
  obtain ⟨value, hvalue, hunwrap⟩ := Option.bind_eq_some_iff.mp h.value
  have hself : call.unwrap? = some call := Site.unwrap?_eq_self (by rw [h.kind_eq]; rfl)
  have hsame : SameMeaning .empty value call := .of_unwrap? (hunwrap.trans hself.symm)
  rw [hvalue, Option.bind_some, hsame.tagged, h.tagged]

theorem records_visit [Json.Nesting] (h : BindsTemplate d call u) (x : ScopeIndex)
    (aggressive : Bool) : (visit x aggressive d).Records (.ok ()) (bindingSightings u) := by
  have hshape : NodeShape.of? d.node = some .variableBinding := by
    rw [NodeShape.of?, show d.node.kind = .declarator from h.declares]
  rw [visit, hshape]
  dsimp only
  rw [visitTagged, h.taggedText?_value]
  exact records_recordMatches u _

end BindsTemplate

namespace ComesTo

variable {m : PatternMatch}

/-- An operation that is new when the pass comes to a declarator, and that stands in its template,
is put on record as a binding. -/
theorem context_of_binds [Json.Nesting] (h : ComesTo root aggressive c d c')
    (hbinds : BindsTemplate d call u) (hm : m ∈ Pattern.standard.matchesIn u)
    (hnew : normalize (Text.trim m.text) ∉ c'.signatures) :
    normalize (Text.trim m.text) ∈ (Structure.scanTree root aggressive c).2.signatures ∧
      ∀ o ∈ (Structure.scanTree root aggressive c).2.operations,
        o.signature = normalize (Text.trim m.text) →
          o.context = NodeShape.variableBinding.context := by
  obtain ⟨l', hfinal⟩ := h.exists_record (hbinds.records_visit _ _)
  have hsighting : ⟨m.text, NodeShape.variableBinding.context, []⟩ ∈ bindingSightings u :=
    Sighting.mem_ofMatches_iff.mpr ⟨_, by simp, m, hm, rfl⟩
  rw [hfinal]
  refine ⟨?_, fun o ho hsignature => ?_⟩
  · exact mem_signatures_of_ofMatches_subset hm (List.subset_append_left (bindingSightings u) l') c'
  · obtain ⟨s, hs, hmakes⟩ := Collector.exists_of_mem_record_append ho (hsignature ▸ hnew)
      ⟨_, hsighting, hsignature.symm⟩
    rw [hmakes]
    exact List.mem_singleton.mp (Sighting.isFrom_of_mem hs).context

/-- When the pass comes to the template itself, all in it is on record. -/
theorem visit_of_binds [Json.Nesting] (h : ComesTo root aggressive c call c')
    (hbinds : BindsTemplate d call u) :
    (visit (.build root) aggressive call).outcome c' = (.ok (), c') := by
  obtain ⟨c₀, -, hknown⟩ := h.exists_of_suffix hbinds.suffix (hbinds.records_visit _ _)
  have hself : c'.record (taggedSightings u) = c' := by
    refine Collector.record_eq_self fun s hs => hknown ?_
    obtain ⟨p, hp, m, hm, rfl⟩ := Sighting.mem_ofMatches_iff.mp hs
    cases List.mem_singleton.mp hp
    exact mem_signatures_of_ofMatches_subset hm (List.Subset.refl (bindingSightings u)) c₀
  rw [records_visit_of_tagged hbinds.kind_eq hbinds.tagged, hself]

end ComesTo

/-- The pass over a tree goes through its sites in the order of the recursive listing: however many
steps it is given, it passes the first ones of these, and all of them once it has been given as many
as there are. In this order each site stands once, before those below it, and siblings stand in
source order. So a new operation in a template that is the initial value of a variable is put on
record as a binding, and nothing is new when the pass comes to the template itself. -/
theorem scanTree_preorder_bindings [Json.Nesting] (root : Node) (aggressive : Bool)
    (c : Collector) :
    (∀ steps, Site.walkFrom steps [⟨root, []⟩] [] = (Site.preorder ⟨root, []⟩).take steps) ∧
    Site.walk root = Site.preorder ⟨root, []⟩ ∧ (Site.walk root).length = root.size ∧
    (∀ sites, Site.IsListing ⟨root, []⟩ sites ↔ sites = Site.walk root) ∧
    ∀ d call u, BindsTemplate d call u →
      (∀ c', ComesTo root aggressive c d c' → ∀ m ∈ Pattern.standard.matchesIn u,
        normalize (Text.trim m.text) ∉ c'.signatures →
          normalize (Text.trim m.text) ∈ (Structure.scanTree root aggressive c).2.signatures ∧
          ∀ o ∈ (Structure.scanTree root aggressive c).2.operations,
            o.signature = normalize (Text.trim m.text) →
              o.context = NodeShape.variableBinding.context) ∧
      ∀ c', ComesTo root aggressive c call c' →
        (visit (.build root) aggressive call).outcome c' = (.ok (), c') := by
  refine ⟨fun steps => ?_, Site.walk_eq_preorder root, ?_, fun _ => Site.isListing_iff, ?_⟩
  · rw [Site.walkFrom_eq, List.reverse_nil, List.nil_append, List.flatMap_singleton]
  · rw [Site.walk_eq_preorder]
    exact Site.length_preorder ⟨root, []⟩
  · intro d call u hbinds
    exact ⟨fun c' h m hm hnew => h.context_of_binds hbinds hm hnew,
      fun c' h => h.visit_of_binds hbinds⟩

/-- A variable that is bound to a tagged template in parentheses, behind a comment. -/
def bindingText : Text := "const Q = (/* c */ gql\x60query A \x7b a \x7d\x60);".toList

/-- A site declares no variable. -/
def isNoDeclarator (s : Site) : Bool := s.kind != .declarator

theorem scanTree_preorder_bindings_wrapped : ∃ root d call c' c'' o,
    parse? .javascript bindingText = some root ∧
    BindsTemplate d call "query A \x7b a \x7d".toList ∧
    ComesTo root false (.empty [] []) d c' ∧ c'.signatures = [] ∧
    o ∈ (Structure.scanTree root false (.empty [] [])).2.operations ∧
    o.signature = "query A \x7b a \x7d".toList ∧ o.context = "variable-binding".toList ∧
    ComesTo root false (.empty [] []) call c'' ∧
    (visit (.build root) false call).outcome c'' = (.ok (), c'') := by
  obtain ⟨root, hroot, hfacts⟩ : ∃ root, parse? .javascript bindingText = some root ∧
      decide ((Structure.scanTree root false (.empty [] [])).1.diagnostics = [] ∧
        ((visitAll (.build root) false ((Site.walk root).takeWhile isNoDeclarator)).outcome
          (.empty [] [])).2.signatures = [] ∧
        (((Site.walk root).dropWhile isNoDeclarator).head?.bind fun d =>
          ((d.child? .value).bind Site.unwrap?).bind taggedText?) =
            some "query A \x7b a \x7d".toList) = true := by
    rw [← Option.any_eq_true]
    decide +kernel
  obtain ⟨hdiagnostics, hnone, htagged⟩ := of_decide_eq_true hfacts
  obtain ⟨d, hd, hvalue⟩ := Option.bind_eq_some_iff.mp htagged
  obtain ⟨call, hcall, hu⟩ := Option.bind_eq_some_iff.mp hvalue
  obtain ⟨after, hafter⟩ := List.head?_eq_some_iff.mp hd
  have hkind : isNoDeclarator d = false := by
    have hfirst := List.head?_dropWhile_not isNoDeclarator (Site.walk root)
    rwa [hd] at hfirst
  have hbinds : BindsTemplate d call "query A \x7b a \x7d".toList :=
    ⟨by simpa [isNoDeclarator] using hkind, hcall, hu⟩
  have hwalk : Site.walk root = (Site.walk root).takeWhile isNoDeclarator ++ d :: after := by
    rw [← hafter, List.takeWhile_append_dropWhile]
  obtain ⟨c', hpassed⟩ := exists_outcome_of_unstopped hdiagnostics hwalk
  have hnew : c'.signatures = [] := by rwa [hpassed] at hnone
  have hcomes : ComesTo root false (.empty [] []) d c' := ⟨_, _, hwalk, hpassed⟩
  obtain ⟨-, hpreorder, -, -, hbindings⟩ := scanTree_preorder_bindings root false (.empty [] [])
  -- the template is in the tree, so that the pass comes to it, too
  have hmem : call ∈ Site.walk root := by
    rw [hpreorder]
    refine Site.preorder_subset (hpreorder ▸ ?_) hbinds.mem_preorder
    rw [hwalk]
    exact List.mem_append_cons_self
  obtain ⟨front, behind, hsplit⟩ := List.append_of_mem hmem
  obtain ⟨c'', hfront⟩ := exists_outcome_of_unstopped hdiagnostics hsplit
  have hcomes' : ComesTo root false (.empty [] []) call c'' := ⟨front, behind, hsplit, hfront⟩
  obtain ⟨m, hm, hsignature⟩ := exists_match_shortQuery
  obtain ⟨hbinding, hvisit⟩ := hbindings d call _ hbinds
  obtain ⟨hrecorded, hcontext⟩ := hbinding c' hcomes m hm (by rw [hnew]; exact List.not_mem_nil)
  obtain ⟨o, ho, hsame⟩ := List.mem_map.mp hrecorded
  exact ⟨root, d, call, c', c'', o, hroot, hbinds, hcomes, hnew, ho, hsame.trans hsignature,
    hcontext o ho hsame, hcomes', hvisit c'' hcomes'⟩

end OperationScan
