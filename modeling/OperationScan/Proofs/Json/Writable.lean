import Mathlib.Data.List.Forall2
import Mathlib.Data.Nat.Digits.Defs
import OperationScan.Json.Writer
import OperationScan.Proofs.Json.Numbers

/-!
# Which values can be written

The only data without JSON text are integers of too many digits, and whatever holds one of them.

* `Fails`: what is done has no result.
* `Value.HoldsLong`: a value that holds an integer of too many digits.
* `Json.fails_write_iff`: exactly these values cannot be written.
-/

namespace OperationScan

/-! ## Failing -/

section Fails

variable {ε α β γ : Type} {e : Except ε α} {e' : Except ε β}

/-- What is done ends with a fault. -/
def Fails (e : Except ε α) : Prop := ∃ fault, e = .error fault

theorem not_fails_ok (a : α) : ¬ Fails (.ok a : Except ε α) := nofun

theorem exists_of_not_fails (h : ¬ Fails e) : ∃ a, e = .ok a := by
  cases e with
  | error fault => exact absurd ⟨fault, rfl⟩ h
  | ok a => exact ⟨a, rfl⟩

/-- What is done with a result has a result only if there is one to begin with. -/
theorem exists_of_bind_eq_ok {f : α → Except ε β} {b : β} (h : (e >>= f) = .ok b) :
    ∃ a, e = .ok a ∧ f a = .ok b := by
  cases e with
  | error fault => cases h
  | ok a => exact ⟨a, rfl, h⟩

theorem fails_bind_iff {f : α → Except ε β} :
    Fails (e >>= f) ↔ Fails e ∨ ∃ a, e = .ok a ∧ Fails (f a) := by
  cases e with
  | error fault => exact iff_of_true ⟨fault, rfl⟩ (.inl ⟨fault, rfl⟩)
  | ok a =>
    constructor
    · intro h
      exact .inr ⟨a, rfl, h⟩
    · rintro (h | ⟨_, h, hf⟩)
      · exact absurd h (not_fails_ok a)
      · cases h
        exact hf

/-- What only works on a result does not fail by itself. -/
theorem fails_map_iff (f : α → β) : Fails (do return f (← e)) ↔ Fails e := by
  rw [fails_bind_iff]
  exact or_iff_left fun ⟨_, _, h⟩ => not_fails_ok _ h

/-- Of two steps that do not depend on each other, one fails if both together do. -/
theorem fails_both_iff (f : α → β → γ) :
    Fails (do let a ← e; let b ← e'; return f a b) ↔ Fails e ∨ Fails e' := by
  rw [fails_bind_iff]
  constructor
  · rintro (h | ⟨a, -, h⟩)
    · exact .inl h
    · exact .inr ((fails_map_iff (f a)).mp h)
  · rintro (h | h)
    · exact .inl h
    · by_cases he : Fails e
      · exact .inl he
      · obtain ⟨a, ha⟩ := exists_of_not_fails he
        exact .inr ⟨a, ha, (fails_map_iff (f a)).mpr h⟩

/-- What is done for one item after another has results if it has one for each. -/
theorem exists_mapM_eq_ok {f : α → Except ε β} {R : α → β → Prop} {as : List α}
    (h : ∀ a ∈ as, ∃ b, f a = .ok b ∧ R a b) :
    ∃ bs, as.mapM f = .ok bs ∧ List.Forall₂ R as bs := by
  induction as with
  | nil => exact ⟨[], rfl, .nil⟩
  | cons a as ih =>
    obtain ⟨ha, has⟩ := List.forall_mem_cons.mp h
    obtain ⟨b, hb, hab⟩ := ha
    obtain ⟨bs, hbs, hall⟩ := ih has
    refine ⟨b :: bs, ?_, .cons hab hall⟩
    rw [List.mapM_cons, hb, hbs]
    rfl

end Fails

/-! ## Long integers -/

/-- A value is an integer of more than `Number.digitLimit` digits, or holds one. -/
inductive Value.HoldsLong : Value → Prop
  | int {n : Int} (h : 10 ^ Number.digitLimit ≤ n.natAbs) : HoldsLong (.int n)
  | item {items : List Value} {v : Value} (hv : v ∈ items) (h : HoldsLong v) :
      HoldsLong (.array items)
  | member {members : List (Text × Value)} {m : Text × Value} (hm : m ∈ members)
      (h : HoldsLong m.2) : HoldsLong (.object members)

theorem Value.holdsLong_array {items : List Value} :
    (Value.array items).HoldsLong ↔ ∃ v ∈ items, v.HoldsLong := by
  constructor
  · rintro (_ | ⟨hv, h⟩ | _)
    exact ⟨_, hv, h⟩
  · rintro ⟨v, hv, h⟩
    exact .item hv h

theorem Value.holdsLong_object {members : List (Text × Value)} :
    (Value.object members).HoldsLong ↔ ∃ m ∈ members, m.2.HoldsLong := by
  constructor
  · rintro (_ | _ | ⟨hm, h⟩)
    exact ⟨_, hm, h⟩
  · rintro ⟨m, hm, h⟩
    exact .member hm h

namespace Json

variable {layout : Layout}

theorem length_ofNat_le_iff {n : Nat} :
    (Text.ofNat n).length ≤ Number.digitLimit ↔ n < 10 ^ Number.digitLimit := by
  rw [Number.ofNat_eq_toDigits]
  exact Nat.length_toDigits_le_iff (by decide) (by decide)

theorem fails_writeInt_iff {n : Int} :
    Fails (writeInt n) ↔ 10 ^ Number.digitLimit ≤ n.natAbs := by
  rw [writeInt]
  split
  · rename_i hlong
    have hlong : ¬ n.natAbs < 10 ^ Number.digitLimit := fun h =>
      Nat.not_lt.mpr (length_ofNat_le_iff.mpr h) hlong
    exact iff_of_true ⟨_, rfl⟩ (Nat.le_of_not_lt hlong)
  · rename_i hshort
    have hshort := length_ofNat_le_iff.mp (Nat.not_lt.mp hshort)
    exact iff_of_false (not_fails_ok _) (Nat.not_le.mpr hshort)

mutual

theorem fails_writeAt_iff (level : Nat) : ∀ v : Value,
    Fails (writeAt layout level v) ↔ v.HoldsLong
  | .null | .bool _ | .float _ | .string _ | .damaged _ _ => by
    rw [writeAt]
    exact iff_of_false (not_fails_ok _) nofun
  | .int n => by
    rw [writeAt, fails_writeInt_iff]
    exact ⟨.int, fun | .int h => h⟩
  | .array items => by
    rw [writeAt, fails_map_iff, fails_writeItems_iff (level + 1) items, Value.holdsLong_array]
  | .object members => by
    rw [writeAt, fails_map_iff, fails_writeMembers_iff (level + 1) members,
      Value.holdsLong_object]

theorem fails_writeItems_iff (level : Nat) : ∀ items : List Value,
    Fails (writeItems layout level items) ↔ ∃ v ∈ items, v.HoldsLong
  | [] => by
    rw [writeItems]
    exact iff_of_false (not_fails_ok _) (by simp)
  | v :: rest => by
    rw [writeItems, fails_both_iff, fails_writeAt_iff level v, fails_writeItems_iff level rest,
      List.exists_mem_cons_iff]

theorem fails_writeMembers_iff (level : Nat) : ∀ members : List (Text × Value),
    Fails (writeMembers layout level members) ↔ ∃ m ∈ members, m.2.HoldsLong
  | [] => by
    rw [writeMembers]
    exact iff_of_false (not_fails_ok _) (by simp)
  | (name, v) :: rest => by
    rw [writeMembers, fails_both_iff, fails_writeAt_iff level v,
      fails_writeMembers_iff level rest, List.exists_mem_cons_iff]

end

theorem fails_write_iff (v : Value) : Fails (write v) ↔ v.HoldsLong := fails_writeAt_iff 0 v

end Json

end OperationScan
