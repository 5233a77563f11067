import OperationScan.Plugin.Registry
import OperationScan.Proofs.Value.Members

/-!
# Registries as maps

A registry is a map from names to plugins. Loading specs one after the other changes it like a
sequence of assignments: under each name the last spec decides.

* `RegistryCall`, `Registry.after`: a history of registering and unregistering.
* `Registry.keyed_after`: in a registry with a history every plugin stands under its own name.
* `Registry.exists_loadAll`, `Registry.exists_activate`: what is registered after loading.
* `Registry.exists_specs`: the specs of a registry make the same map.
-/

namespace OperationScan

variable {cat : Catalogue} {r : Registry} {name spec : Text} {specs : List Text} {p : Plugin}

namespace Catalogue

/-- The plugin that a spec leads to. -/
def resolve (cat : Catalogue) (spec : Text) : Except PluginFault Plugin := do
  (← cat.offer spec).plugin

/-- Every spec leads to a plugin. -/
def Loadable (cat : Catalogue) (specs : List Text) : Prop :=
  ∀ spec ∈ specs, ∃ p, cat.resolve spec = .ok p

/-- The plugin that a spec leads to, if it has a given name. -/
def named? (cat : Catalogue) (name spec : Text) : Option Plugin :=
  (cat.resolve spec).toOption.filter fun p => p.name == name

/-- Of the plugins with a given name that specs lead to, the one of the last spec. -/
def last? (cat : Catalogue) (name : Text) (specs : List Text) : Option Plugin :=
  (specs.filterMap (cat.named? name)).getLast?

theorem named?_eq_some_iff :
    cat.named? name spec = some p ↔ cat.resolve spec = .ok p ∧ p.name = name := by
  rw [named?, Option.filter_eq_some_iff, beq_iff_eq]
  cases cat.resolve spec with
  | error f => simp [Except.toOption]
  | ok q => simp [Except.toOption]

theorem named?_of_resolve (h : cat.resolve spec = .ok p) :
    cat.named? name spec = if p.name = name then some p else none := by
  split
  · rename_i hname
    exact named?_eq_some_iff.mpr ⟨h, hname⟩
  · rename_i hname
    refine Option.eq_none_iff_forall_ne_some.mpr fun q hq => ?_
    obtain ⟨hresolve, hqname⟩ := named?_eq_some_iff.mp hq
    cases h.symm.trans hresolve
    exact hname hqname

theorem last?_cons (name spec : Text) (specs : List Text) :
    cat.last? name (spec :: specs) = (cat.last? name specs).or (cat.named? name spec) := by
  rw [last?, List.filterMap_cons]
  cases cat.named? name spec with
  | none => rw [Option.or_none]; rfl
  | some p => rw [List.getLast?_cons, Option.or_some]; rfl

theorem last?_append (name : Text) (specs more : List Text) :
    cat.last? name (specs ++ more) = (cat.last? name more).or (cat.last? name specs) := by
  rw [last?, List.filterMap_append, List.getLast?_append]
  rfl

theorem last?_eq_none_iff :
    cat.last? name specs = none ↔ ∀ spec ∈ specs, cat.named? name spec = none := by
  rw [last?, List.getLast?_eq_none_iff, List.filterMap_eq_nil_iff]

theorem exists_of_last? (h : cat.last? name specs = some p) :
    ∃ spec ∈ specs, cat.named? name spec = some p :=
  List.mem_filterMap.mp (List.mem_of_getLast? h)

/-- A plugin that is the only one of its name is also the last one. -/
theorem last?_eq_some (hspec : spec ∈ specs) (hp : cat.named? name spec = some p)
    (hsame : ∀ s ∈ specs, ∀ q, cat.named? name s = some q → q = p) :
    cat.last? name specs = some p := by
  cases hlast : cat.last? name specs with
  | none =>
    rw [last?_eq_none_iff.mp hlast spec hspec] at hp
    cases hp
  | some q =>
    obtain ⟨s, hs, hq⟩ := exists_of_last? hlast
    rw [hsame s hs q hq]

end Catalogue

/-! ## Histories -/

/-- One change of a registry by hand. -/
inductive RegistryCall where
  | register (o : Offer) (spec : Option Text)
  | unregister (name : Text)

namespace Registry

/-- The plugin under a name. -/
def plugin? (r : Registry) (name : Text) : Option Plugin := (r.entries.get? name).map (·.plugin)

/-- A registry after one change; what is no plugin changes nothing. -/
def perform (r : Registry) : RegistryCall → Registry
  | .register o spec =>
    match r.register o spec with
    | .ok (_, after) => after
    | .error _ => r
  | .unregister name => (r.unregister name).2

/-- A registry after changes in order, in a process where some plugins may be advertised. -/
def after (advertised : List Text) (calls : List RegistryCall) : Registry :=
  calls.foldl perform (.empty advertised)

/-- Every plugin stands under its own name, and names are not repeated. -/
structure Keyed (r : Registry) : Prop where
  nodup : r.entries.names.Nodup
  name : ∀ e ∈ r.entries, e.2.plugin.name = e.1

/-- Every plugin has a spec that leads to the same plugin again. -/
def Rebuilds (cat : Catalogue) (r : Registry) : Prop :=
  ∀ e ∈ r.entries, ∃ spec, e.2.spec = some spec ∧ cat.resolve spec = .ok e.2.plugin

theorem keyed_empty (advertised : List Text) : Keyed (.empty advertised) :=
  ⟨List.nodup_nil, List.forall_mem_nil _⟩

theorem Keyed.add (h : r.Keyed) (p : Plugin) (spec : Option Text) : (r.add p spec).Keyed := by
  refine ⟨Members.nodup_names_put h.nodup _ _, ?_⟩
  intro e he
  unfold Registry.add Members.put at he
  dsimp only at he
  split at he
  · obtain ⟨d, hd, rfl⟩ := List.mem_map.mp he
    split
    · rfl
    · exact h.name d hd
  · rcases List.mem_append.mp he with he | he
    · exact h.name e he
    · rw [List.mem_singleton.mp he]

theorem Keyed.unregister (h : r.Keyed) (name : Text) : (r.unregister name).2.Keyed := by
  have hsub : (r.entries.erase name).Sublist r.entries := List.filter_sublist
  exact ⟨h.nodup.sublist (hsub.map Prod.fst), fun e he => h.name e (hsub.subset he)⟩

theorem Keyed.perform (h : r.Keyed) (c : RegistryCall) : (r.perform c).Keyed := by
  cases c with
  | register o spec =>
    rw [Registry.perform, Registry.register]
    cases o.plugin with
    | ok p => exact h.add p _
    | error f => exact h
  | unregister name => exact h.unregister name

theorem advertised_perform (r : Registry) (c : RegistryCall) :
    (r.perform c).advertised = r.advertised := by
  cases c with
  | register o spec =>
    rw [perform, register]
    cases o.plugin with
    | ok p => rfl
    | error f => rfl
  | unregister name => rfl

/-- After any changes plugins stand under their own names. -/
theorem keyed_after (advertised : List Text) (calls : List RegistryCall) :
    (after advertised calls).Keyed :=
  List.foldlRecOn (motive := Keyed) calls _ (keyed_empty advertised) fun _ h c _ => h.perform c

theorem advertised_after (advertised : List Text) (calls : List RegistryCall) :
    (after advertised calls).advertised = advertised :=
  List.foldlRecOn (motive := fun r : Registry => r.advertised = advertised) calls _ rfl
    fun r h c _ => (r.advertised_perform c).trans h

theorem Keyed.plugin?_eq_some_iff (h : r.Keyed) :
    r.plugin? name = some p ↔ ∃ e ∈ r.entries, e.2.plugin = p ∧ p.name = name := by
  rw [plugin?, Option.map_eq_some_iff]
  constructor
  · rintro ⟨x, hx, rfl⟩
    have hmem := (Members.get?_eq_some_iff h.nodup).mp hx
    exact ⟨_, hmem, rfl, h.name _ hmem⟩
  · rintro ⟨e, he, rfl, rfl⟩
    refine ⟨e.2, (Members.get?_eq_some_iff h.nodup).mpr ?_, rfl⟩
    rw [h.name e he]
    exact he

/-! ## Loading -/

theorem load_eq (h : cat.resolve spec = .ok p) :
    r.load cat spec = .ok (p, r.add p (some spec)) := by
  unfold Catalogue.resolve at h
  unfold load register
  cases ho : cat.offer spec with
  | error f =>
    rw [ho] at h
    cases h
  | ok o =>
    rw [ho] at h
    have hp : o.plugin = .ok p := h
    simp [bind, Except.bind, pure, Except.pure, hp]

theorem plugin?_add (r : Registry) (p : Plugin) (spec : Option Text) (name : Text) :
    (r.add p spec).plugin? name = if p.name = name then some p else r.plugin? name := by
  rw [plugin?, add, Members.get?_put]
  by_cases hname : name = p.name
  · rw [if_pos hname, if_pos hname.symm]
    rfl
  · rw [if_neg hname, if_neg (Ne.symm hname)]
    rfl

/-- Loading assigns plugins to their names in the order of the specs. -/
theorem exists_loadAll (hload : cat.Loadable specs) (h : r.Keyed) :
    ∃ r', loadAll cat specs r = (.ok (), r') ∧ r'.Keyed ∧
      ∀ name, r'.plugin? name = (cat.last? name specs).or (r.plugin? name) := by
  induction specs generalizing r with
  | nil => exact ⟨r, rfl, h, fun _ => rfl⟩
  | cons spec specs ih =>
    obtain ⟨⟨p, hp⟩, hrest⟩ := List.forall_mem_cons.mp hload
    obtain ⟨r', hall, hkeyed, hplugin⟩ := ih hrest (h.add p (some spec))
    refine ⟨r', ?_, hkeyed, fun name => ?_⟩
    · rw [loadAll, load_eq hp]
      exact hall
    · rw [hplugin, plugin?_add, Catalogue.last?_cons, Catalogue.named?_of_resolve hp,
        Option.or_assoc]
      congr 1
      split <;> rfl

/-- Activating loads what is advertised and then what is asked for. -/
theorem exists_activate (hload : cat.Loadable (r.advertised ++ specs)) (h : r.Keyed) :
    ∃ r', r.activate cat specs = (.ok (), r') ∧
      ∀ name, r'.plugin? name = (cat.last? name (r.advertised ++ specs)).or (r.plugin? name) := by
  have hadvertised : cat.Loadable r.advertised :=
    fun s hs => hload s (List.mem_append_left _ hs)
  have hspecs : cat.Loadable specs := fun s hs => hload s (List.mem_append_right _ hs)
  have hkeyed : ({ r with advertised := [] } : Registry).Keyed := ⟨h.nodup, h.name⟩
  obtain ⟨r₁, hfirst, hkeyed₁, hplugin₁⟩ := exists_loadAll hadvertised hkeyed
  obtain ⟨r₂, hsecond, -, hplugin₂⟩ := exists_loadAll hspecs hkeyed₁
  refine ⟨r₂, ?_, fun name => ?_⟩
  · rw [activate, hfirst]
    exact hsecond
  · rw [hplugin₂, hplugin₁, Catalogue.last?_append, Option.or_assoc]
    rfl

/-! ## The specs of a registry -/

theorem specsOf_eq {entries : List (Text × Registration)} (h : ∀ e ∈ entries, e.2.spec.isSome) :
    specsOf entries = .ok (entries.filterMap (·.2.spec)) := by
  induction entries with
  | nil => rfl
  | cons e entries ih =>
    obtain ⟨hspec, hrest⟩ := List.forall_mem_cons.mp h
    obtain ⟨spec, hspec⟩ := Option.isSome_iff_exists.mp hspec
    rw [specsOf, hspec, ih hrest, List.filterMap_cons, hspec]
    rfl

/-- The specs of a registry that can be rebuilt lead to its plugins and to no others. -/
theorem exists_specs (hrebuilds : r.Rebuilds cat) (h : r.Keyed) : ∃ specs, r.specs = .ok specs ∧
    cat.Loadable specs ∧
    ∀ name p, r.plugin? name = some p ↔ ∃ spec ∈ specs, cat.named? name spec = some p := by
  refine ⟨r.entries.filterMap (·.2.spec), ?_, ?_, fun name p => ?_⟩
  · refine specsOf_eq fun e he => ?_
    obtain ⟨spec, hspec, -⟩ := hrebuilds e he
    rw [hspec]
    rfl
  · intro spec hmem
    obtain ⟨e, he, hspec⟩ := List.mem_filterMap.mp hmem
    obtain ⟨spec', hspec', hresolve⟩ := hrebuilds e he
    cases hspec.symm.trans hspec'
    exact ⟨_, hresolve⟩
  · rw [h.plugin?_eq_some_iff]
    constructor
    · rintro ⟨e, he, rfl, hname⟩
      obtain ⟨spec, hspec, hresolve⟩ := hrebuilds e he
      exact ⟨spec, List.mem_filterMap.mpr ⟨e, he, hspec⟩,
        Catalogue.named?_eq_some_iff.mpr ⟨hresolve, hname⟩⟩
    · rintro ⟨spec, hmem, hnamed⟩
      obtain ⟨hresolve, hname⟩ := Catalogue.named?_eq_some_iff.mp hnamed
      obtain ⟨e, he, hspec⟩ := List.mem_filterMap.mp hmem
      obtain ⟨spec', hspec', hresolve'⟩ := hrebuilds e he
      cases hspec.symm.trans hspec'
      cases hresolve.symm.trans hresolve'
      exact ⟨e, he, rfl, hname⟩

end Registry

end OperationScan
