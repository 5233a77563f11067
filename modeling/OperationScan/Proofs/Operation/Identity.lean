import OperationScan.Proofs.Operation.HeadRespaced
import OperationScan.Proofs.Scan.Sightings

/-!
# Kind and name come from the signature

Two texts with one signature differ in white space only, so that it does not matter which of them
is recorded.

* `Operation.Regular`: kind and name are those of the signature.
* `Collector.Regular.record`: all operations on record are regular.
-/

namespace OperationScan

/-- The kind of the operations with a signature. -/
def kindOf (signature : Text) : Kind := (Head.describe signature).kind

/-- The name of the operations with a signature. -/
def nameOf (signature : Text) : Text :=
  (Head.describe signature).name.getD (placeholderName (kindOf signature).word signature)

namespace Operation

/-- What tells operations apart. -/
def identity (o : Operation) : Text × Kind × Text := (o.signature, o.kind, o.name)

/-- Kind and name are those of the signature. -/
structure Regular (o : Operation) : Prop where
  kind : o.kind = kindOf o.signature
  name : o.name = nameOf o.signature

theorem Regular.identity_eq {o : Operation} (h : o.Regular) :
    o.identity = (o.signature, kindOf o.signature, nameOf o.signature) := by
  rw [identity, h.kind, h.name]

end Operation

namespace Collector

/-- All operations on record are regular. -/
def Regular (c : Collector) : Prop := ∀ o ∈ c.operations, o.Regular

theorem regular_empty (source origin : Text) : (empty source origin).Regular := by
  intro o ho
  cases ho

/-- The signature of a text describes the same head as the text. -/
theorem regular_operationOf (c : Collector) (text context : Text) (known : Members Value) :
    (c.operationOf (Text.trim text) context known).Regular := by
  obtain ⟨hkind, hname, -⟩ := Head.respaced_describe (Text.respaced_normalize_trim text)
  constructor
  · exact hkind
  · simp only [operationOf, nameOf, kindOf]
    rw [hname, hkind]

theorem Regular.see {c : Collector} (h : c.Regular) (s : Sighting) : (c.see s).Regular := by
  rw [Collector.see]
  rcases c.add_cases s.text s.context s.known with ⟨-, hadd⟩ | ⟨-, -, hadd⟩
  · rw [hadd]
    exact h
  · rw [hadd]
    intro o ho
    rcases List.mem_append.mp ho with ho | ho
    · exact h o ho
    · rw [List.mem_singleton] at ho
      rw [ho]
      exact regular_operationOf c s.text s.context s.known

theorem Regular.record {c : Collector} (h : c.Regular) (l : List Sighting) :
    (c.record l).Regular :=
  record_induction (P := Regular) (fun _ s hc => hc.see s) c l h

end Collector

end OperationScan
