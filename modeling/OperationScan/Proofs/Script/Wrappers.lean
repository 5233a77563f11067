import OperationScan.Script.Evaluate
import OperationScan.Script.Parse
import OperationScan.Proofs.Script.Trees
import OperationScan.Proofs.Value.Members

/-!
# Expressions in wrappers

Parentheses, type ascriptions and non-null marks stand around an expression without changing what
it is. The one wrapper whose expression does not come first is the type assertion `<T>e`: there the
type is taken for the expression.

* `Wraps`: an expression in wrappers, given by their kinds.
* `Site.bare`: all that an evaluation can see of the place of an expression; `evaluators_congr` says
  that it sees no more.
* `Wraps.transparent_iff`: an expression is found in its wrappers exactly if none of them is a type
  assertion, and then it means the same as without them.
-/

namespace OperationScan.Script

/-! ## Wrappers -/

/-- A wrapper stands around an expression, with comments anywhere in between. What else a wrapper
holds are types: behind the expression, or in front of it in a type assertion. -/
inductive Encloses (w inner : Node) : Prop
  | first {behind : List Node} (hkind : w.kind.isTransparent = true)
      (hother : w.kind ≠ .assertedType) (hparts : w.parts = inner :: behind)
  | second {types : Node} (hkind : w.kind = .assertedType) (hparts : w.parts = [types, inner])
      (htypes : types.kind = .other) (hne : types ≠ inner)

/-- Wrappers around an expression that is none, with their kinds from the outermost on. -/
inductive Wraps : Site → List Kind → Site → Prop
  | bare {e : Site} (he : e.kind.isTransparent = false) : Wraps e [] e
  | around {s e : Site} {inner : Node} {kinds : List Kind} (hs : Encloses s.node inner)
      (h : Wraps (s.below inner) kinds e) : Wraps s (s.kind :: kinds) e

namespace Site

theorem unwrapFirst?_eq (above nodes : List Node) : unwrapFirst? above nodes =
    (nodes.filter fun c => c.kind != .comment).head?.bind (unwrapNode? above) := by
  induction nodes with
  | nil => rw [unwrapFirst?]; rfl
  | cons n nodes ih =>
    rw [unwrapFirst?]
    by_cases h : n.kind = .comment
    · rw [if_pos (by simp [h]), ih, List.filter_cons_of_neg (by simp [h])]
    · rw [if_neg (by simpa using h), List.filter_cons_of_pos (by simpa using h), List.head?_cons,
        Option.bind_some]

/-- A wrapper stands for its first part. -/
theorem unwrap?_of_isTransparent {s : Site} (h : s.kind.isTransparent = true) :
    s.unwrap? = s.parts.head?.bind unwrap? := by
  obtain ⟨⟨k, i, r, p, e, cs⟩, above⟩ := s
  have hk : k.isTransparent = true := h
  rw [unwrap?, unwrapNode?, if_pos hk, unwrapFirst?_eq, parts, List.head?_map, Option.bind_map]
  rfl

theorem unwrap?_eq_self {s : Site} (h : s.kind.isTransparent = false) : s.unwrap? = some s := by
  obtain ⟨⟨k, i, r, p, e, cs⟩, above⟩ := s
  have hk : k.isTransparent = false := h
  rw [unwrap?, unwrapNode?, if_neg (by simp [hk])]

theorem unwrap?_of_parts {s : Site} {n : Node} {behind : List Node}
    (h : s.kind.isTransparent = true) (hparts : s.node.parts = n :: behind) :
    s.unwrap? = (s.below n).unwrap? := by
  rw [unwrap?_of_isTransparent h, parts, hparts]
  rfl

end Site

namespace Wraps

variable {s e : Site} {kinds : List Kind}

theorem isTransparent (h : Wraps s kinds e) : e.kind.isTransparent = false := by
  induction h with
  | bare he => exact he
  | around _ _ ih => exact ih

/-- The expression lies below its wrappers. -/
theorem exists_above (h : Wraps s kinds e) :
    ∃ between, e.above = between ++ s.above ∧ (between = [] → e = s) := by
  induction h with
  | bare => exact ⟨[], rfl, fun _ => rfl⟩
  | @around s e inner kinds _ _ ih =>
    obtain ⟨between, habove, -⟩ := ih
    exact ⟨between ++ [s.node], by rw [habove, List.append_assoc]; rfl, by simp⟩

theorem unwrap?_eq_some (h : Wraps s kinds e) (hkinds : .assertedType ∉ kinds) :
    s.unwrap? = some e := by
  induction h with
  | bare he => exact Site.unwrap?_eq_self he
  | around hs _ ih =>
    rw [List.mem_cons, not_or] at hkinds
    cases hs with
    | first hkind _ hparts => rw [Site.unwrap?_of_parts hkind hparts, ih hkinds.2]
    | second hkind _ _ _ => exact absurd hkind.symm hkinds.1

/-- Of the outermost type assertion the type is found. -/
theorem exists_types (h : Wraps s kinds e) (hkinds : .assertedType ∈ kinds) :
    ∃ types, s.unwrap? = some types ∧ types.kind = .other ∧ types ≠ e := by
  induction h with
  | bare => cases hkinds
  | @around s e inner kinds hs h ih =>
    cases hs with
    | first hkind hother hparts =>
      have hlater := (List.mem_cons.mp hkinds).resolve_left fun heq => hother heq.symm
      rw [Site.unwrap?_of_parts hkind hparts]
      exact ih hlater
    | @second types hkind hparts htypes hne =>
      have hkind' : s.kind.isTransparent = true := by
        rw [show s.kind = .assertedType from hkind]
        rfl
      have hself : (s.below types).kind.isTransparent = false := by
        rw [show (s.below types).kind = .other from htypes]
        rfl
      refine ⟨s.below types, ?_, htypes, ?_⟩
      · rw [Site.unwrap?_of_parts hkind' hparts, Site.unwrap?_eq_self hself]
      · rintro rfl
        obtain ⟨between, habove, hsame⟩ := h.exists_above
        have hnil : between = [] := List.append_left_eq_self.mp habove.symm
        exact hne (congrArg Site.node (hsame hnil))

/-- No wrapper opens a scope. -/
theorem scopes_eq (h : Wraps s kinds e) : e.scopes = s.scopes := by
  induction h with
  | bare => rfl
  | @around s e inner kinds hs _ ih =>
    have hkind : s.node.kind.opensScope = false := by
      cases hs with
      | first hkind _ _ =>
        generalize s.node.kind = k at hkind
        cases k <;> first | rfl | cases hkind
      | second hkind _ _ _ => rw [hkind]; rfl
    rw [ih, Site.scopes, Site.below, List.filter_cons_of_neg (by simp [hkind])]
    rfl

end Wraps

/-! ## What an evaluation sees -/

namespace Site

/-- A site with nothing around it but the scopes. -/
def bare (s : Site) : Site := ⟨s.node, s.scopes⟩

variable {s t : Site}

theorem bare_eq_iff : s.bare = t.bare ↔ s.node = t.node ∧ s.scopes = t.scopes := by
  rw [bare, bare, Site.mk.injEq]

theorem bare_bare (s : Site) : s.bare.bare = s.bare := by
  rw [bare_eq_iff]
  exact ⟨rfl, List.filter_filter.trans (List.filter_congr fun n _ => Bool.and_self _)⟩

theorem bare_below (h : s.bare = t.bare) (n : Node) : (s.below n).bare = (t.below n).bare := by
  obtain ⟨hnode, hscopes⟩ := bare_eq_iff.mp h
  have hbelow : ∀ u : Site, (u.below n).scopes =
      if u.node.kind.opensScope then u.node :: u.scopes else u.scopes :=
    fun u => List.filter_cons
  exact bare_eq_iff.mpr ⟨rfl, by rw [hbelow, hbelow, hnode, hscopes]⟩

theorem map_bare_below (h : s.bare = t.bare) (nodes : List Node) :
    (nodes.map s.below).map bare = (nodes.map t.below).map bare := by
  rw [List.map_map, List.map_map]
  exact List.map_congr_left fun n _ => bare_below h n

theorem map_bare_child? (h : s.bare = t.bare) (r : Role) :
    (s.child? r).map bare = (t.child? r).map bare := by
  rw [child?, child?, (bare_eq_iff.mp h).1, Option.map_map, Option.map_map]
  exact congrArg (Option.map · _) (funext fun n => bare_below h n)

/-- Two optional sites that look alike are both there or both missing. -/
theorem cases_of_map_bare {a b : Option Site} (h : a.map bare = b.map bare) :
    (a = none ∧ b = none) ∨ ∃ s t, a = some s ∧ b = some t ∧ s.bare = t.bare := by
  cases a with
  | none =>
    cases b with
    | none => exact .inl ⟨rfl, rfl⟩
    | some t => cases h
  | some s =>
    cases b with
    | none => cases h
    | some t => exact .inr ⟨s, t, rfl, rfl, Option.some.inj h⟩

/-- What is done with optional sites that look alike has one result if it has one for sites that
look alike. -/
theorem bind_congr_of_bare {α : Type} {f : Site → Option α} {a b : Option Site}
    (h : a.map bare = b.map bare) (hf : ∀ s t : Site, s.bare = t.bare → f s = f t) :
    a.bind f = b.bind f := by
  rcases cases_of_map_bare h with ⟨rfl, rfl⟩ | ⟨s, t, rfl, rfl, hst⟩
  · rfl
  · exact hf s t hst

mutual

theorem map_bare_unwrapNode? {above above' : List Node}
    (h : above.filter (fun n => n.kind.opensScope) = above'.filter fun n => n.kind.opensScope) :
    ∀ n : Node, (unwrapNode? above n).map bare = (unwrapNode? above' n).map bare
  | .mk k i r p e cs => by
    rw [unwrapNode?, unwrapNode?]
    split
    · refine map_bare_unwrapFirst? ?_ cs
      rw [List.filter_cons, List.filter_cons, h]
    · exact congrArg some (bare_eq_iff.mpr ⟨rfl, h⟩)

theorem map_bare_unwrapFirst? {above above' : List Node}
    (h : above.filter (fun n => n.kind.opensScope) = above'.filter fun n => n.kind.opensScope) :
    ∀ nodes : List Node,
      (unwrapFirst? above nodes).map bare = (unwrapFirst? above' nodes).map bare
  | [] => by rw [unwrapFirst?, unwrapFirst?]
  | n :: rest => by
    rw [unwrapFirst?, unwrapFirst?]
    split
    · exact map_bare_unwrapFirst? h rest
    · exact map_bare_unwrapNode? h n

end

theorem map_bare_unwrap? (h : s.bare = t.bare) : s.unwrap?.map bare = t.unwrap?.map bare := by
  obtain ⟨hnode, hscopes⟩ := bare_eq_iff.mp h
  rw [unwrap?, unwrap?, hnode]
  exact map_bare_unwrapNode? hscopes t.node

end Site

variable {x : ScopeIndex} {s t : Site}

theorem lookup?_congr (h : s.bare = t.bare) : x.lookup? s = x.lookup? t := by
  obtain ⟨hnode, hscopes⟩ := Site.bare_eq_iff.mp h
  rw [ScopeIndex.lookup?, ScopeIndex.lookup?, hscopes, Site.text, Site.text, hnode]

theorem map_bare_target (h : s.bare = t.bare) :
    ((s.child? .callee).bind Site.unwrap?).map Site.bare =
      ((t.child? .callee).bind Site.unwrap?).map Site.bare := by
  rw [Option.map_bind, Option.map_bind]
  exact Site.bind_congr_of_bare (Site.map_bare_child? h .callee) fun s t => Site.map_bare_unwrap?

theorem calleeName?_congr (h : s.bare = t.bare) : calleeName? s = calleeName? t := by
  rw [calleeName?, calleeName?]
  rcases Site.cases_of_map_bare (map_bare_target h) with ⟨hs, ht⟩ | ⟨a, b, hs, ht, hab⟩
  · rw [hs, ht]
  · have hnode := (Site.bare_eq_iff.mp hab).1
    have hproperty : (a.child? .property).map Site.text = (b.child? .property).map Site.text := by
      rcases Site.cases_of_map_bare (Site.map_bare_child? hab .property) with
        ⟨ha, hb⟩ | ⟨c, d, ha, hb, hcd⟩
      · rw [ha, hb]
      · rw [ha, hb, Option.map_some, Option.map_some, Site.text, Site.text,
          (Site.bare_eq_iff.mp hcd).1]
    simp only [hs, ht, Site.kind, Site.text, hnode]
    rw [hproperty]

theorem isStringify_congr (h : s.bare = t.bare) : isStringify s = isStringify t := by
  rw [isStringify, isStringify]
  rcases Site.cases_of_map_bare (map_bare_target h) with ⟨hs, ht⟩ | ⟨a, b, hs, ht, hab⟩
  · rw [hs, ht]
  · simp only [hs, ht, Site.kind, Site.text, (Site.bare_eq_iff.mp hab).1]

theorem taggedText?_congr (h : s.bare = t.bare) : taggedText? s = taggedText? t := by
  rw [taggedText?, taggedText?]
  rcases Site.cases_of_map_bare (Site.map_bare_unwrap? h) with ⟨hs, ht⟩ | ⟨a, b, hs, ht, hab⟩
  · rw [hs, ht]
  · rcases Site.cases_of_map_bare (Site.map_bare_child? hab .arguments) with
      ⟨ha, hb⟩ | ⟨c, d, ha, hb, hcd⟩
    · simp only [hs, ht, ha, hb, Site.kind, (Site.bare_eq_iff.mp hab).1]
    · simp only [hs, ht, ha, hb, Site.kind, (Site.bare_eq_iff.mp hab).1,
        (Site.bare_eq_iff.mp hcd).1, calleeName?_congr hab]
      rfl

/-! ## Members -/

/-- Members whose values look alike. -/
def bareMembers (ms : Members Site) : Members Site := ms.map fun m => (m.1, m.2.bare)

theorem has_bareMembers (ms : Members Site) (name : Text) :
    Members.has (bareMembers ms) name = Members.has ms name := by
  induction ms with
  | nil => rfl
  | cons m ms ih =>
    rw [bareMembers, List.map_cons, Members.has_cons, Members.has_cons]
    exact congrArg _ ih

theorem bareMembers_putNew (ms : Members Site) (m : Text × Site) :
    bareMembers (ms.putNew m.1 m.2) = (bareMembers ms).putNew m.1 m.2.bare := by
  rw [Members.putNew, Members.putNew, has_bareMembers]
  split
  · rfl
  · simp [bareMembers]

theorem map_bare_memberOf? (h : s.bare = t.bare) :
    (memberOf? s).map (fun m => (m.1, m.2.bare)) = (memberOf? t).map fun m => (m.1, m.2.bare) := by
  have hnode := (Site.bare_eq_iff.mp h).1
  rw [memberOf?, memberOf?]
  simp only [Site.kind, Site.text, hnode]
  split
  · rcases Site.cases_of_map_bare (Site.map_bare_child? h .value) with
      ⟨hs, ht⟩ | ⟨a, b, hs, ht, hab⟩
    · rw [hs, ht]
    · rw [hs, ht]
      split
      · rename_i hname hvalue
        cases hvalue
        simp only [hname, Option.map_some, hab]
      · rename_i hnone
        cases hname : (t.node.child? .key).bind memberName? with
        | none => rfl
        | some name => exact absurd rfl (hnone name a hname)
  · rw [Option.map_some, Option.map_some, h]
  · rfl

theorem bareMembers_foldl (ms acc : Members Site) :
    bareMembers (ms.foldl (fun r m => r.putNew m.1 m.2) acc) =
      (bareMembers ms).foldl (fun r m => r.putNew m.1 m.2) (bareMembers acc) := by
  induction ms generalizing acc with
  | nil => rfl
  | cons m ms ih => rw [List.foldl_cons, ih, bareMembers_putNew]; rfl

theorem filterMap_congr_of_bare {α : Type} {f : Site → Option α} {as bs : List Site}
    (h : as.map Site.bare = bs.map Site.bare)
    (hf : ∀ s t : Site, s.bare = t.bare → f s = f t) : as.filterMap f = bs.filterMap f := by
  have hbare : ∀ l : List Site, l.filterMap f = (l.map Site.bare).filterMap f := by
    intro l
    rw [List.filterMap_map]
    exact congrArg (List.filterMap · l) (funext fun s => hf s s.bare s.bare_bare.symm)
  rw [hbare as, hbare bs, h]

theorem bareMembers_objectMembers (h : s.bare = t.bare) :
    bareMembers (objectMembers s) = bareMembers (objectMembers t) := by
  have hchildren : s.children.map Site.bare = t.children.map Site.bare := by
    rw [Site.children, Site.children, (Site.bare_eq_iff.mp h).1]
    exact Site.map_bare_below h _
  have hmembers : ∀ l : List Site, bareMembers (l.filterMap memberOf?) =
      l.filterMap fun s => (memberOf? s).map fun m => (m.1, m.2.bare) :=
    fun l => List.map_filterMap
  rw [objectMembers, objectMembers, bareMembers_foldl, bareMembers_foldl, hmembers, hmembers,
    filterMap_congr_of_bare hchildren fun s t => map_bare_memberOf?]

/-! ## Evaluation -/

/-- Evaluators that tell no two sites apart that look alike. -/
structure Evaluators.Blind (e : Evaluators) : Prop where
  text : ∀ s t : Site, s.bare = t.bare → e.text s = e.text t
  value : ∀ s t : Site, s.bare = t.bare → e.value s = e.value t

namespace Evaluators.Blind

variable {lower : Evaluators}

theorem textOf (h : lower.Blind) {a b : Option Site} (hab : a.map Site.bare = b.map Site.bare) :
    lower.textOf a = lower.textOf b := by
  rcases Site.cases_of_map_bare hab with ⟨rfl, rfl⟩ | ⟨s, t, rfl, rfl, hst⟩
  · rfl
  · exact h.text s t hst

theorem valuesOf (h : lower.Blind) {ms ns : Members Site} (hms : bareMembers ms = bareMembers ns) :
    Script.valuesOf lower ms = Script.valuesOf lower ns := by
  induction ms generalizing ns with
  | nil =>
    cases ns with
    | nil => rfl
    | cons n ns => cases hms
  | cons m ms ih =>
    cases ns with
    | nil => cases hms
    | cons n ns =>
      obtain ⟨hhead, htail⟩ := List.cons.inj hms
      obtain ⟨hname, hsite⟩ := Prod.mk.inj hhead
      obtain ⟨name, s⟩ := m
      obtain ⟨name', t⟩ := n
      obtain rfl : name = name' := hname
      rw [Script.valuesOf, Script.valuesOf, h.value s t hsite, ih htail]

theorem itemsOf (h : lower.Blind) {as bs : List Site}
    (has : as.map Site.bare = bs.map Site.bare) :
    Script.itemsOf lower as = Script.itemsOf lower bs := by
  induction as generalizing bs with
  | nil =>
    cases bs with
    | nil => rfl
    | cons b bs => cases has
  | cons a as ih =>
    cases bs with
    | nil => cases has
    | cons b bs =>
      obtain ⟨hhead, htail⟩ := List.cons.inj has
      rw [Script.itemsOf, Script.itemsOf, h.value a b hhead, ih htail]

theorem stringifyWith (h : lower.Blind) (hst : s.bare = t.bare) :
    Script.stringifyWith lower s = Script.stringifyWith lower t := by
  rw [Script.stringifyWith, Script.stringifyWith, isStringify_congr hst]
  rcases Site.cases_of_map_bare (Site.map_bare_child? hst .arguments) with
    ⟨hs, ht⟩ | ⟨a, b, hs, ht, hab⟩
  · rw [hs, ht]
  · have hparts : a.parts.map Site.bare = b.parts.map Site.bare := by
      rw [Site.parts, Site.parts, (Site.bare_eq_iff.mp hab).1]
      exact Site.map_bare_below hab _
    simp only [hs, ht, Site.kind, (Site.bare_eq_iff.mp hab).1]
    cases ha : a.parts with
    | nil =>
      cases hb : b.parts with
      | nil => rfl
      | cons q qs => rw [ha, hb] at hparts; cases hparts
    | cons p ps =>
      cases hb : b.parts with
      | nil => rw [ha, hb] at hparts; cases hparts
      | cons q qs =>
        rw [ha, hb] at hparts
        simp only [h.value p q (List.cons.inj hparts).1]
        rfl

theorem textWith (h : lower.Blind) (hst : s.bare = t.bare) :
    Script.textWith x lower s = Script.textWith x lower t := by
  rw [Script.textWith, Script.textWith]
  rcases Site.cases_of_map_bare (Site.map_bare_unwrap? hst) with ⟨hs, ht⟩ | ⟨a, b, hs, ht, hab⟩
  · rw [hs, ht]
  · simp only [hs, ht, Site.kind, (Site.bare_eq_iff.mp hab).1, lookup?_congr hab,
      taggedText?_congr hab, h.stringifyWith hab, h.textOf (Site.map_bare_child? hab .left),
      h.textOf (Site.map_bare_child? hab .right)]

theorem valueWith (h : lower.Blind) (hst : s.bare = t.bare)
    {text : Site → Evaluation (Option Text)}
    (htext : ∀ s t : Site, s.bare = t.bare → text s = text t) :
    Script.valueWith x lower text s = Script.valueWith x lower text t := by
  rw [Script.valueWith, Script.valueWith]
  rcases Site.cases_of_map_bare (Site.map_bare_unwrap? hst) with ⟨hs, ht⟩ | ⟨a, b, hs, ht, hab⟩
  · rw [hs, ht]
  · have hchildren : a.children.map Site.bare = b.children.map Site.bare := by
      rw [Site.children, Site.children, (Site.bare_eq_iff.mp hab).1]
      exact Site.map_bare_below hab _
    simp only [hs, ht, Site.kind, Site.text, (Site.bare_eq_iff.mp hab).1, lookup?_congr hab,
      htext a b hab, h.itemsOf hchildren, h.valuesOf (bareMembers_objectMembers hab)]

end Evaluators.Blind

/-- Of the place of an expression an evaluation sees the scopes only. -/
theorem evaluators_congr (x : ScopeIndex) (steps : Nat) : (evaluators x steps).Blind := by
  induction steps with
  | zero => exact ⟨fun _ _ _ => rfl, fun _ _ _ => rfl⟩
  | succ steps ih =>
    exact ⟨fun _ _ h => ih.textWith h, fun _ _ h => ih.valueWith h fun _ _ h => ih.textWith h⟩

theorem map_bare_resolve? (h : s.bare = t.bare) :
    (resolve? x s).map Site.bare = (resolve? x t).map Site.bare := by
  rw [resolve?, resolve?]
  generalize maxDepth = steps
  rcases Site.cases_of_map_bare (Site.map_bare_unwrap? h) with ⟨hs, ht⟩ | ⟨a, b, hs, ht, hab⟩
  · rw [hs, ht]
  · rw [hs, ht]
    cases steps with
    | zero =>
      rw [resolveFrom, resolveFrom, Site.kind, Site.kind, (Site.bare_eq_iff.mp hab).1]
      split
      · rfl
      · exact congrArg some hab
    | succ steps =>
      rw [resolveFrom, resolveFrom, Site.kind, Site.kind, (Site.bare_eq_iff.mp hab).1,
        lookup?_congr hab]
      split
      · rfl
      · exact congrArg some hab

/-- Two expressions mean the same: they stand for the same expression in the end, and they have the
same text, with any number of steps, the same value and the same tagged template. -/
structure SameMeaning (x : ScopeIndex) (s t : Site) : Prop where
  resolved : (resolve? x s).map Site.bare = (resolve? x t).map Site.bare
  text : ∀ steps, (evaluators x steps).text s = (evaluators x steps).text t
  value : ∀ steps, (evaluators x steps).value s = (evaluators x steps).value t
  tagged : taggedText? s = taggedText? t

namespace SameMeaning

theorem of_bare (h : s.bare = t.bare) : SameMeaning x s t :=
  ⟨map_bare_resolve? h, fun steps => (evaluators_congr x steps).text s t h,
    fun steps => (evaluators_congr x steps).value s t h, taggedText?_congr h⟩

/-- Every evaluation begins with the expression inside the wrappers. -/
theorem of_unwrap? (h : s.unwrap? = t.unwrap?) : SameMeaning x s t := by
  have htext : ∀ lower, textWith x lower s = textWith x lower t := fun lower => by
    rw [textWith, textWith, h]
  refine ⟨by rw [resolve?, resolve?, h], fun steps => ?_, fun steps => ?_, ?_⟩
  · cases steps with
    | zero => rfl
    | succ steps => exact htext _
  · cases steps with
    | zero => rfl
    | succ steps => simp only [evaluators, valueWith, h]
  · rw [taggedText?, taggedText?, h]

theorem trans {u : Site} (h : SameMeaning x s t) (h' : SameMeaning x t u) : SameMeaning x s u :=
  ⟨h.resolved.trans h'.resolved, fun steps => (h.text steps).trans (h'.text steps),
    fun steps => (h.value steps).trans (h'.value steps), h.tagged.trans h'.tagged⟩

end SameMeaning

/-! ## Wrapped expressions -/

namespace Wraps

variable {e : Site} {kinds : List Kind}

/-- An expression means the same in its place inside the wrappers and in the place of the outermost
one. -/
theorem bare_eq (h : Wraps s kinds e) : e.bare = Site.bare ⟨e.node, s.above⟩ :=
  Site.bare_eq_iff.mpr ⟨rfl, h.scopes_eq⟩

/-- Nothing is known of the type that is found in place of an expression. -/
theorem unknown_of_unwrap? {types : Site} (h : s.unwrap? = some types)
    (htypes : types.kind = .other) (x : ScopeIndex) :
    resolve? x s = some types ∧ taggedText? s = none ∧
      ∀ steps, (evaluators x steps).text s = .ok none ∧ (evaluators x steps).value s = .ok none := by
  have htext : ∀ lower {u : Site}, u.unwrap? = some types → textWith x lower u = .ok none := by
    intro lower u hu
    rw [textWith, hu]
    dsimp only
    rw [htypes]
  refine ⟨?_, ?_, fun steps => ?_⟩
  · rw [resolve?, h, maxDepth, resolveFrom, htypes]
    rfl
  · rw [taggedText?, h]
    dsimp only
    rw [htypes]
    rfl
  · cases steps with
    | zero => exact ⟨rfl, rfl⟩
    | succ steps =>
      have hself : types.unwrap? = some types := Site.unwrap?_eq_self (by rw [htypes]; rfl)
      refine ⟨htext _ h, ?_⟩
      change valueWith x _ _ s = _
      rw [valueWith, h]
      dsimp only
      rw [htypes]
      dsimp only
      rw [htext _ hself]
      rfl

/-- An expression is found in its wrappers exactly if none of them is a type assertion. Then it
means the same as without them; behind a type assertion nothing is known of it. -/
theorem transparent_iff (h : Wraps s kinds e) :
    (s.unwrap? = some e ↔ .assertedType ∉ kinds) ∧
    (.assertedType ∉ kinds →
      ∀ x, SameMeaning x s e ∧ SameMeaning x s ⟨e.node, s.above⟩) ∧
    (.assertedType ∈ kinds → ∃ types, types.kind = .other ∧ ∀ x, resolve? x s = some types ∧
      taggedText? s = none ∧ ∀ steps, (evaluators x steps).text s = .ok none ∧
        (evaluators x steps).value s = .ok none) := by
  refine ⟨⟨fun hfound hassertion => ?_, h.unwrap?_eq_some⟩, fun hnone x => ?_, fun hassertion => ?_⟩
  · obtain ⟨types, htypes, -, hne⟩ := h.exists_types hassertion
    exact hne (Option.some.inj (htypes.symm.trans hfound))
  · have hfound : s.unwrap? = e.unwrap? := by
      rw [h.unwrap?_eq_some hnone, Site.unwrap?_eq_self h.isTransparent]
    have hinside : SameMeaning x s e := .of_unwrap? hfound
    exact ⟨hinside, hinside.trans (.of_bare h.bare_eq)⟩
  · obtain ⟨types, htypes, hkind, -⟩ := h.exists_types hassertion
    exact ⟨types, hkind, unknown_of_unwrap? htypes hkind⟩

/-! ### Two stacks of wrappers -/

/-- A string that holds an operation. -/
def quotedQuery : Node := covering .string "'query A \x7b a \x7d'" []

/-- A type. -/
def namedType : Node := covering .other "T" []

/-- An ascription with a comment in it, marked and put between parentheses. -/
def nestedQuery : Node :=
  covering .parenthesized "(('query A \x7b a \x7d' /* as */ as T)! satisfies T)" [
    covering .satisfiesType "('query A \x7b a \x7d' /* as */ as T)! satisfies T" [
      covering .nonNull "('query A \x7b a \x7d' /* as */ as T)!" [
        covering .parenthesized "('query A \x7b a \x7d' /* as */ as T)" [
          covering .asType "'query A \x7b a \x7d' /* as */ as T" [
            quotedQuery, covering .comment "/* as */" [], namedType]]],
      namedType]]

theorem transparent_iff_nested : ∃ e, Wraps ⟨nestedQuery, []⟩
      [.parenthesized, .satisfiesType, .nonNull, .parenthesized, .asType] e ∧
    e.node = quotedQuery ∧ Site.unwrap? ⟨nestedQuery, []⟩ = some e ∧
    staticText .empty ⟨nestedQuery, []⟩ = .ok (some "query A \x7b a \x7d".toList) := by
  obtain ⟨e, he, h⟩ : ∃ e, e.node = quotedQuery ∧ Wraps ⟨nestedQuery, []⟩
      [.parenthesized, .satisfiesType, .nonNull, .parenthesized, .asType] e := by
    refine ⟨_, ?_, .around (.first rfl (by decide) rfl) <| .around (.first rfl (by decide) rfl) <|
      .around (.first rfl (by decide) rfl) <| .around (.first rfl (by decide) rfl) <|
      .around (.first rfl (by decide) rfl) <| .bare rfl⟩
    rfl
  obtain ⟨hfound, hmeaning, -⟩ := h.transparent_iff
  refine ⟨e, h, he, hfound.mpr (by decide), ?_⟩
  have htext := (hmeaning (by decide) .empty).2.text (maxDepth + 1)
  rw [he] at htext
  exact htext.trans (by decide +kernel)

/-- An operation whose type is asserted in front of it. -/
def assertedQuery : Node :=
  covering .assertedType "<T>'query A \x7b a \x7d'" [covering .other "<T>" [namedType], quotedQuery]

/-- An operation behind a type assertion is not found. -/
theorem not_transparent_asserted : ∃ e, Wraps ⟨assertedQuery, []⟩ [.assertedType] e ∧
    Site.unwrap? ⟨assertedQuery, []⟩ ≠ some e ∧
    staticText .empty ⟨assertedQuery, []⟩ = .ok none ∧
    staticText .empty e = .ok (some "query A \x7b a \x7d".toList) := by
  have hne : covering .other "<T>" [namedType] ≠ quotedQuery := fun h =>
    absurd (congrArg Node.kind h) (by decide)
  refine ⟨⟨quotedQuery, [assertedQuery]⟩, .around (.second rfl rfl rfl hne) (.bare rfl), ?_, ?_⟩
  · intro h
    exact absurd (congrArg (Option.map Site.kind) h) (by decide)
  · exact ⟨by decide +kernel, by decide +kernel⟩

end Wraps

/-- The initial value of the first variable of a script. -/
def initialValue? (language : Language) (t : Text) : Option Site :=
  (parse? language t).bind fun root => (Site.walk root).findSome? fun s => s.child? .value

-- read from a script
example : (initialValue? .typescript "const q = <T>'query A \x7b a \x7d';".toList).map
    (fun s => (s.kind, (staticText .empty s).toOption)) = some (.assertedType, some none) := by
  decide +kernel

end OperationScan.Script
