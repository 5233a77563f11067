import OperationScan.Script.Literal
import OperationScan.Proofs.Value.Members

/-!
# Trees of small scripts

Nodes for examples. The text of a node is given where something is read from it.

* `covering`, `quoted`, `objectOf`, `callOf`, `stringifyOf`: the nodes.
* `objectMembers_objectOf`: the members of an object that has been built.
-/

namespace OperationScan.Script

/-- A node that covers a text. -/
def covering (kind : Kind) (t : String) (children : List Node) : Node :=
  .mk kind 0 .plain 0 (.ofText t.toList) children

/-- A string between double quotes. -/
def quoted (t : String) : Node := covering .string ("\"" ++ t ++ "\"") []

/-- A member of an object. -/
def pairOf (m : String × Node) : Node :=
  covering .pair "" [(covering .propertyName m.1 []).as .key, m.2.as .value]

/-- An object with members in order. -/
def objectOf (members : List (String × Node)) : Node :=
  covering .object "" (members.map pairOf)

/-- A call of a target. -/
def callOf (target : Node) (arguments : List Node) : Node :=
  covering .call "" [target.as .callee, (covering .arguments "" arguments).as .arguments]

/-- An argument as JSON text. -/
def stringifyOf (argument : Node) : Node := callOf (covering .member "JSON.stringify" []) [argument]

theorem memberOf?_pairOf (m : String × Node) (above : List Node) :
    memberOf? ⟨pairOf m, above⟩ = some (m.1.toList, ⟨m.2.as .value, pairOf m :: above⟩) := by
  obtain ⟨name, node⟩ := m
  cases node
  have hname : ((covering .propertyName name []).as .key).text = name.toList := List.take_length
  rw [← hname]
  rfl

/-- The members of an object are those that it has been built from. -/
theorem objectMembers_objectOf (members : List (String × Node))
    (h : (members.map fun m => m.1.toList).Nodup) (role : Role) (above : List Node) :
    objectMembers ⟨(objectOf members).as role, above⟩ = members.map fun m =>
      (m.1.toList, ⟨m.2.as .value, pairOf m :: (objectOf members).as role :: above⟩) := by
  have hnodup : (Members.names (members.map fun m => (m.1.toList,
      (⟨m.2.as .value, pairOf m :: (objectOf members).as role :: above⟩ : Site)))).Nodup := by
    rwa [Members.names, List.map_map]
  have hmembers : (Site.children ⟨(objectOf members).as role, above⟩).filterMap memberOf? =
      members.map fun m =>
        (m.1.toList, ⟨m.2.as .value, pairOf m :: (objectOf members).as role :: above⟩) := by
    rw [Site.children, show ((objectOf members).as role).children = members.map pairOf from rfl,
      List.map_map, List.filterMap_map]
    have hsome : memberOf? ∘ (Site.below ⟨(objectOf members).as role, above⟩ ∘ pairOf) = fun m =>
        some (m.1.toList, ⟨m.2.as .value, pairOf m :: (objectOf members).as role :: above⟩) :=
      funext fun m => memberOf?_pairOf m _
    rw [hsome, List.filterMap_eq_map']
  rw [objectMembers, hmembers]
  exact Members.addNew_nil_eq_self hnodup

end OperationScan.Script
