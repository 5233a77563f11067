import OperationScan.Proofs.Json.Writable
import OperationScan.Proofs.Value.Members
import OperationScan.Script.Evaluate

/-!
# Values of objects

* `nodup_names_objectMembers`: the members of an object have each name once.
* `nodup_names_of_value`: so have the values of an object that are known.
-/

namespace OperationScan.Script

theorem nodup_names_objectMembers (s : Site) : (Members.names (objectMembers s)).Nodup :=
  Members.nodup_names_addNew (show (Members.names ([] : Members Site)).Nodup from List.nodup_nil)
    (s.children.filterMap memberOf?)

/-- Of some members the values are known. -/
theorem sublist_names_of_valuesOf {lower : Evaluators} {ms : Members Site} {vs : Members Value}
    (h : valuesOf lower ms = .ok vs) : (Members.names vs).Sublist (Members.names ms) := by
  induction ms generalizing vs with
  | nil =>
    cases h
    exact List.Sublist.slnil
  | cons m ms ih =>
    obtain ⟨v, -, h⟩ := exists_of_bind_eq_ok h
    obtain ⟨more, hmore, h⟩ := exists_of_bind_eq_ok h
    cases v with
    | none =>
      cases h
      exact (ih hmore).cons m.1
    | some v =>
      cases h
      exact (ih hmore).cons_cons m.1

/-- The names of an object that is known stand apart. -/
theorem nodup_names_of_value {x : ScopeIndex} {steps : Nat} {s : Site} {ms : Members Value}
    (h : (evaluators x steps).value s = .ok (some (.object ms))) : (Members.names ms).Nodup := by
  induction steps generalizing s with
  | zero => cases h
  | succ steps ih =>
    have href : ∀ {u : Site}, (evaluators x steps).valueOf (x.lookup? u) =
        .ok (some (.object ms)) → (Members.names ms).Nodup := by
      intro u hu
      cases hbound : x.lookup? u with
      | none =>
        rw [hbound] at hu
        cases hu
      | some bound =>
        rw [hbound] at hu
        exact ih hu
    rw [evaluators] at h
    dsimp only at h
    unfold valueWith at h
    split at h
    · cases h
    · rename_i u _
      split at h
      · obtain ⟨vs, hvalues, h⟩ := exists_of_bind_eq_ok h
        cases h
        exact (sublist_names_of_valuesOf hvalues).nodup (nodup_names_objectMembers u)
      · obtain ⟨items, -, h⟩ := exists_of_bind_eq_ok h
        cases h
      · unfold numberValue? at h
        dsimp only at h
        split at h
        · cases h
        · obtain ⟨y, -, hy⟩ := Option.map_eq_some_iff.mp (Except.ok.inj h)
          cases hy
      · cases h
      · cases h
      · cases h
      · exact href h
      · exact href h
      · obtain ⟨t, -, h⟩ := exists_of_bind_eq_ok h
        cases t with
        | none => cases h
        | some t => cases h

end OperationScan.Script
