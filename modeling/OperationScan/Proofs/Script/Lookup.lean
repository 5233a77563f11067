import Mathlib.Data.List.Nodup
import OperationScan.Script.Parse
import OperationScan.Script.Scope
import OperationScan.Proofs.Script.Preorder

/-!
# Looking up names

The index of a tree is filled by one walk, and a name is looked up from the innermost scope on. What
is found is what lexical scoping asks for: the nearest scope around a reference that declares its
name decides, and the first declaration of the name in that scope.

* `Declares`: a variable is declared in a scope, with an initial value.
* `FirstDeclared`, `IsNearest`: the first declaration of a name in a scope, and the innermost scope
  that declares it.
* `ScopeIndex.get?_build_eq_some_iff`: what the index of a tree holds.
* `ScopeIndex.lookup?_lexical`: what is found for a reference.
-/

namespace OperationScan.Script

/-! ## Declarations -/

/-- The numbers of the nodes of a tree tell them apart. -/
def DistinctIds (root : Node) : Prop := ((Site.preorder ⟨root, []⟩).map fun s => s.node.id).Nodup

instance (root : Node) : Decidable (DistinctIds root) :=
  inferInstanceAs (Decidable ((Site.preorder ⟨root, []⟩).map fun s => s.node.id).Nodup)

/-- A variable is declared under a plain name in the innermost scope around it, with an initial
value. -/
structure Declares (d : Site) (name : Text) (scope : Node) (value : Site) : Prop where
  kind : d.kind = .declarator
  name : ∃ n, d.node.child? .name = some n ∧ n.kind = .identifier ∧ n.text = name
  value : d.child? .value = some value
  scope : d.scopes.head? = some scope

/-- A scope of a tree declares a name. -/
def Binds (root : Node) (name : Text) (scope : Node) : Prop :=
  ∃ d ∈ Site.preorder ⟨root, []⟩, ∃ value, Declares d name scope value

/-- The value with which a scope declares a name first, in source order. -/
def FirstDeclared (root : Node) (name : Text) (scope : Node) (value : Site) : Prop :=
  ∃ before d after, Site.preorder ⟨root, []⟩ = before ++ d :: after ∧
    Declares d name scope value ∧ ∀ e ∈ before, ∀ v, ¬ Declares e name scope v

/-- A scope is the first of some scopes that declares a name. -/
def IsNearest (root : Node) (name : Text) (scopes : List Node) (scope : Node) : Prop :=
  ∃ inner outer, scopes = inner ++ scope :: outer ∧ Binds root name scope ∧
    ∀ s ∈ inner, ¬ Binds root name s

variable {root scope scope' : Node} {name : Text} {d r u u' v : Site}

theorem FirstDeclared.binds (h : FirstDeclared root name scope v) : Binds root name scope := by
  obtain ⟨before, d, after, hsplit, hdeclares, -⟩ := h
  exact ⟨d, by rw [hsplit]; simp, v, hdeclares⟩

theorem DistinctIds.eq_of_id_eq (h : DistinctIds root) (hu : u ∈ Site.preorder ⟨root, []⟩)
    (hu' : u' ∈ Site.preorder ⟨root, []⟩) (hid : u.node.id = u'.node.id) : u = u' :=
  List.inj_on_of_nodup_map h hu hu' hid

/-- The scopes around a site of a tree are nodes of the tree. -/
theorem exists_of_mem_scopes (hr : r ∈ Site.preorder ⟨root, []⟩) (hscope : scope ∈ r.scopes) :
    ∃ u ∈ Site.preorder ⟨root, []⟩, u.node = scope :=
  (Site.exists_of_mem_above hr (List.mem_filter.mp hscope).1).resolve_left List.not_mem_nil

theorem DistinctIds.scope_eq (h : DistinctIds root) (hd : d ∈ Site.preorder ⟨root, []⟩)
    (hr : r ∈ Site.preorder ⟨root, []⟩) (hscope : scope ∈ d.scopes) (hscope' : scope' ∈ r.scopes)
    (hid : scope.id = scope'.id) : scope = scope' := by
  obtain ⟨u, hu, rfl⟩ := exists_of_mem_scopes hd hscope
  obtain ⟨u', hu', rfl⟩ := exists_of_mem_scopes hr hscope'
  rw [h.eq_of_id_eq hu hu' hid]

namespace ScopeIndex

/-! ## The index of a tree -/

theorem bindingOf?_eq_some_iff {b : Binding} : bindingOf? d = some b ↔
    ∃ scope, Declares d b.name scope b.value ∧ scope.id = b.scope := by
  unfold bindingOf?
  constructor
  · intro h
    split at h
    · rename_i hkind
      split at h
      · rename_i n value scope hname hvalue hscope
        split at h
        · rename_i hplain
          cases h
          exact ⟨scope, ⟨by simpa using hkind, ⟨n, hname, by simpa using hplain, rfl⟩, hvalue,
            hscope⟩, rfl⟩
        · cases h
      · cases h
    · cases h
  · rintro ⟨scope, ⟨hkind, ⟨n, hname, hplain, htext⟩, hvalue, hscope⟩, hid⟩
    rw [if_pos (by simpa using hkind), hname, hvalue, hscope]
    dsimp only
    rw [if_pos (by simpa using hplain), htext, hid]

/-- The first binding of a name in a scope counts. -/
theorem get?_add (x : ScopeIndex) (b : Binding) (scope : Nat) (name : Text) :
    (x.add b).get? scope name = (x.get? scope name).or
      (if b.scope = scope ∧ b.name = name then some b.value else none) := by
  unfold add
  split
  · rename_i hbound
    split
    · rename_i hsame
      obtain ⟨v, hv⟩ := Option.isSome_iff_exists.mp hbound
      rw [← hsame.1, ← hsame.2, hv]
      rfl
    · rw [Option.or_none]
  · rw [get?, get?, List.find?_append, Option.map_or]
    by_cases hsame : b.scope = scope ∧ b.name = name
    · rw [if_pos hsame, List.find?_cons_of_pos (by simpa using hsame)]
      rfl
    · rw [if_neg hsame, List.find?_cons_of_neg (by simpa using hsame)]
      rfl

theorem get?_foldl_add (x : ScopeIndex) (bs : List Binding) (scope : Nat) (name : Text) :
    (bs.foldl add x).get? scope name = (x.get? scope name).or
      ((bs.find? fun b => b.scope == scope && b.name == name).map (·.value)) := by
  induction bs generalizing x with
  | nil => simp
  | cons b bs ih =>
    rw [List.foldl_cons, ih, get?_add, Option.or_assoc]
    by_cases hsame : b.scope = scope ∧ b.name = name
    · rw [if_pos hsame, List.find?_cons_of_pos (by simpa using hsame)]
      rfl
    · rw [if_neg hsame, List.find?_cons_of_neg (by simpa using hsame), Option.none_or]

/-- The first declaration of a tree that makes a binding decides. -/
theorem get?_build (root : Node) (scope : Nat) (name : Text) :
    (build root).get? scope name =
      (((Site.preorder ⟨root, []⟩).find? fun d =>
        (bindingOf? d).any fun b => b.scope == scope && b.name == name).bind bindingOf?).map
          (·.value) := by
  rw [build, get?_foldl_add, Site.walk_eq_preorder, List.find?_filterMap]
  rfl

/-- A declaration makes a binding for a scope of its tree exactly if it is made in that scope. -/
theorem makes_iff (hids : DistinctIds root) (hd : d ∈ Site.preorder ⟨root, []⟩)
    (hr : r ∈ Site.preorder ⟨root, []⟩) (hscope : scope ∈ r.scopes) :
    ((bindingOf? d).any fun b => b.scope == scope.id && b.name == name) = true ↔
      ∃ v, Declares d name scope v := by
  rw [Option.any_eq_true]
  constructor
  · rintro ⟨b, hb, hsame⟩
    obtain ⟨scope', hdeclares, hid⟩ := bindingOf?_eq_some_iff.mp hb
    rw [Bool.and_eq_true, beq_iff_eq, beq_iff_eq] at hsame
    have hscope' : scope' ∈ d.scopes := List.mem_of_mem_head? hdeclares.scope
    rw [← hids.scope_eq hd hr hscope' hscope (hid.trans hsame.1), ← hsame.2]
    exact ⟨b.value, hdeclares⟩
  · rintro ⟨v, hdeclares⟩
    exact ⟨⟨scope.id, name, v⟩, bindingOf?_eq_some_iff.mpr ⟨scope, hdeclares, rfl⟩, by simp⟩

/-- The index of a tree holds the first declaration of a name in a scope. -/
theorem get?_build_eq_some_iff (hids : DistinctIds root) (hr : r ∈ Site.preorder ⟨root, []⟩)
    (hscope : scope ∈ r.scopes) :
    (build root).get? scope.id name = some v ↔ FirstDeclared root name scope v := by
  have hmakes : ∀ {d}, d ∈ Site.preorder ⟨root, []⟩ →
      (((bindingOf? d).any fun b => b.scope == scope.id && b.name == name) = true ↔
        ∃ v, Declares d name scope v) :=
    fun hd => makes_iff hids hd hr hscope
  have hbinding : ∀ {d v}, Declares d name scope v →
      (bindingOf? d).map (·.value) = some v := by
    intro d v hdeclares
    have hb : bindingOf? d = some ⟨scope.id, name, v⟩ :=
      bindingOf?_eq_some_iff.mpr ⟨scope, hdeclares, rfl⟩
    rw [hb]
    rfl
  rw [get?_build, Option.map_bind, Option.bind_eq_some_iff]
  constructor
  · rintro ⟨d, hfind, hvalue⟩
    obtain ⟨hmade, before, after, hsplit, hbefore⟩ := List.find?_eq_some_iff_append.mp hfind
    obtain ⟨w, hdeclares⟩ := (hmakes (List.mem_of_find?_eq_some hfind)).mp hmade
    obtain rfl : w = v := Option.some.inj ((hbinding hdeclares).symm.trans hvalue)
    refine ⟨before, d, after, hsplit, hdeclares, fun e he u hdeclares' => ?_⟩
    have hmem : e ∈ Site.preorder ⟨root, []⟩ := hsplit ▸ List.mem_append_left _ he
    have hearlier := hbefore e he
    rw [(hmakes hmem).mpr ⟨u, hdeclares'⟩] at hearlier
    cases hearlier
  · rintro ⟨before, d, after, hsplit, hdeclares, hfirst⟩
    have hmem : ∀ e, e ∈ before ++ d :: after → e ∈ Site.preorder ⟨root, []⟩ :=
      fun e he => hsplit ▸ he
    refine ⟨d, List.find?_eq_some_iff_append.mpr
      ⟨(hmakes (hmem d (by simp))).mpr ⟨v, hdeclares⟩, before, after, hsplit, fun e he => ?_⟩,
      hbinding hdeclares⟩
    rw [Bool.not_eq_true', ← Bool.not_eq_true, hmakes (hmem e (by simp [he]))]
    rintro ⟨u, hdeclares'⟩
    exact hfirst e he u hdeclares'

theorem get?_build_eq_none_iff (hids : DistinctIds root) (hr : r ∈ Site.preorder ⟨root, []⟩)
    (hscope : scope ∈ r.scopes) :
    (build root).get? scope.id name = none ↔ ¬ Binds root name scope := by
  rw [Option.eq_none_iff_forall_ne_some]
  constructor
  · rintro hnone ⟨d, hd, v, hdeclares⟩
    -- some declaration makes the binding, so that one of them is the first
    obtain ⟨e, hfind⟩ : ∃ e, (Site.preorder ⟨root, []⟩).find? (fun d =>
        (bindingOf? d).any fun b => b.scope == scope.id && b.name == name) = some e := by
      rw [← Option.isSome_iff_exists, List.find?_isSome]
      exact ⟨d, hd, (makes_iff hids hd hr hscope).mpr ⟨v, hdeclares⟩⟩
    have hmade := List.find?_some hfind
    obtain ⟨b, hb, -⟩ := (Option.any_eq_true _ _).mp hmade
    refine hnone b.value ?_
    rw [get?_build, hfind, Option.bind_some, hb, Option.map_some]
  · intro hnone v hv
    exact hnone ((get?_build_eq_some_iff hids hr hscope).mp hv).binds

/-! ## References -/

/-- A reference stands for the initial value of the first declaration of its name in the nearest
scope that declares it, among the scopes that are searched. If none of them declares it, it stands
for nothing; and a scope that is not around the reference is never asked. -/
theorem lookup?_lexical (hids : DistinctIds root) (hr : r ∈ Site.preorder ⟨root, []⟩) :
    (∀ v, (build root).lookup? r = some v ↔
      ∃ scope, IsNearest root r.text (r.scopes.take maxScopes) scope ∧
        FirstDeclared root r.text scope v) ∧
    ((build root).lookup? r = none ↔
      ∀ scope ∈ r.scopes.take maxScopes, ¬ Binds root r.text scope) ∧
    ∀ v, (build root).lookup? r = some v → ∃ d ∈ Site.preorder ⟨root, []⟩, ∃ scope ∈ r.above,
      Declares d r.text scope v := by
  have hscopes : ∀ {scope}, scope ∈ r.scopes.take maxScopes → scope ∈ r.scopes :=
    fun h => List.mem_of_mem_take h
  have hsome : ∀ v, (build root).lookup? r = some v ↔
      ∃ scope, IsNearest root r.text (r.scopes.take maxScopes) scope ∧
        FirstDeclared root r.text scope v := by
    intro v
    rw [lookup?, List.findSome?_eq_some_iff]
    constructor
    · rintro ⟨inner, scope, outer, hsplit, hv, hinner⟩
      have hmem : ∀ s, s ∈ inner ++ scope :: outer → s ∈ r.scopes :=
        fun s hs => hscopes (hsplit ▸ hs)
      have hfirst := (get?_build_eq_some_iff hids hr (hmem scope (by simp))).mp hv
      refine ⟨scope, ⟨inner, outer, hsplit, hfirst.binds, ?_⟩, hfirst⟩
      exact fun s hs => (get?_build_eq_none_iff hids hr (hmem s (by simp [hs]))).mp (hinner s hs)
    · rintro ⟨scope, ⟨inner, outer, hsplit, -, hinner⟩, hfirst⟩
      have hmem : ∀ s, s ∈ inner ++ scope :: outer → s ∈ r.scopes :=
        fun s hs => hscopes (hsplit ▸ hs)
      refine ⟨inner, scope, outer, hsplit,
        (get?_build_eq_some_iff hids hr (hmem scope (by simp))).mpr hfirst, fun s hs => ?_⟩
      exact (get?_build_eq_none_iff hids hr (hmem s (by simp [hs]))).mpr (hinner s hs)
  refine ⟨hsome, ?_, fun v hv => ?_⟩
  · rw [lookup?, List.findSome?_eq_none_iff]
    exact forall₂_congr fun scope hscope => get?_build_eq_none_iff hids hr (hscopes hscope)
  · obtain ⟨scope, ⟨inner, outer, hsplit, -⟩, before, d, after, hd, hdeclares, -⟩ := (hsome v).mp hv
    have hscope : scope ∈ r.scopes := hscopes (by rw [hsplit]; simp)
    exact ⟨d, by rw [hd]; simp, scope, (List.mem_filter.mp hscope).1, hdeclares⟩

/-- A function that declares the name of a reference twice, inside a script that declares it. -/
def shadowingRoot : Node :=
  (parse? .javascript "let q = 'o'; () => \x7b let q = 'a', q = 'b'; g(q) \x7d".toList).getD default

/-- The last place where the name stands. -/
def lastReference? : Option Site :=
  ((Site.preorder ⟨shadowingRoot, []⟩).filter fun s => s.text == ['q']).getLast?

theorem lookup?_lexical_shadowing : DistinctIds shadowingRoot ∧
    ∃ r ∈ Site.preorder ⟨shadowingRoot, []⟩, ∃ v, r.kind = .identifier ∧
      (build shadowingRoot).lookup? r = some v ∧ v.text = "'a'".toList ∧
      ∃ scope, IsNearest shadowingRoot r.text (r.scopes.take maxScopes) scope ∧
        FirstDeclared shadowingRoot r.text scope v := by
  obtain ⟨hids, hlast⟩ : DistinctIds shadowingRoot ∧
      lastReference?.map Site.kind = some .identifier ∧
      (lastReference?.bind (build shadowingRoot).lookup?).map Site.text = some "'a'".toList := by
    decide +kernel
  cases hfound : lastReference? with
  | none =>
    rw [hfound] at hlast
    cases hlast.1
  | some r =>
    rw [hfound] at hlast
    have hr : r ∈ Site.preorder ⟨shadowingRoot, []⟩ :=
      (List.mem_filter.mp (List.mem_of_getLast? hfound)).1
    obtain ⟨v, hv, htext⟩ := Option.map_eq_some_iff.mp hlast.2
    exact ⟨hids, r, hr, v, Option.some.inj hlast.1, hv, htext,
      ((lookup?_lexical hids hr).1 v).mp hv⟩

end ScopeIndex

end OperationScan.Script
