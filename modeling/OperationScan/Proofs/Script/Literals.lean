import Mathlib.Data.List.Forall2
import OperationScan.Proofs.Json.Values
import OperationScan.Proofs.Script.StaticValues
import OperationScan.Proofs.Script.Wrappers

/-!
# Literals

A literal stands for a value that depends on nothing around it. It is evaluated with one step for
each level of the value.

* `Denotes`: a literal stands for a value; numbers with a suffix and comments stand for none.
* `Value.Levels`: a bound on how deep a value nests.
* `value_of_denotes`: the value of a literal.
* `plain_of_denotes`: the value of a literal goes through JSON without loss.
-/

namespace OperationScan

/-- A value nests at most `n` levels deep; one that holds no other has one level. -/
def Value.Levels : (n : Nat) → Value → Prop
  | 0, _ => False
  | n + 1, .array items => ∀ v ∈ items, Levels n v
  | n + 1, .object members => ∀ m ∈ members, Levels n m.2
  | _ + 1, _ => True

theorem Value.Levels.mono {n n' : Nat} {v : Value} (h : v.Levels n) (hle : n ≤ n') :
    v.Levels n' := by
  induction n generalizing n' v with
  | zero => exact h.elim
  | succ n ih =>
    obtain ⟨k, rfl⟩ : ∃ k, n' = k + 1 := ⟨n' - 1, by omega⟩
    have hle : n ≤ k := Nat.le_of_succ_le_succ hle
    cases v with
    | array items => exact fun v hv => ih (h v hv) hle
    | object members => exact fun m hm => ih (h m hm) hle
    | _ => trivial

namespace Script

/-- The members with a known value. -/
def knownMembers (names : List Text) (values : List (Option Value)) : Members Value :=
  (names.zip values).filterMap fun m => m.2.map fun v => (m.1, v)

/-- A literal stands for a value: a string, an integer that can be written in decimal, one of three
words, or an array or object of literals. Numbers with a suffix and comments stand for none; what
is read as a float is no literal here. -/
inductive Denotes : Site → Option Value → Prop
  | string {s t : Site} (hs : s.unwrap? = some t) (hkind : t.kind = .string) :
      Denotes s (some (.string (stringValue t.node)))
  | integer {s t : Site} {n : Int} (hs : s.unwrap? = some t) (hkind : t.kind = .number)
      (hn : numberValue? t.text = some (.int n)) (hlimit : n.natAbs < 10 ^ Number.digitLimit) :
      Denotes s (some (.int n))
  | suffixed {s t : Site} (hs : s.unwrap? = some t) (hkind : t.kind = .number)
      (hn : numberValue? t.text = none) : Denotes s none
  | trueWord {s t : Site} (hs : s.unwrap? = some t) (hkind : t.kind = .trueWord) :
      Denotes s (some (.bool true))
  | falseWord {s t : Site} (hs : s.unwrap? = some t) (hkind : t.kind = .falseWord) :
      Denotes s (some (.bool false))
  | nullWord {s t : Site} (hs : s.unwrap? = some t) (hkind : t.kind = .nullWord) :
      Denotes s (some .null)
  | comment {s : Site} (hkind : s.kind = .comment) : Denotes s none
  | array {s t : Site} {vs : List (Option Value)} (hs : s.unwrap? = some t)
      (hkind : t.kind = .array) (hitems : List.Forall₂ Denotes t.children vs) :
      Denotes s (some (.array (vs.filterMap id)))
  | object {s t : Site} {vs : List (Option Value)} (hs : s.unwrap? = some t)
      (hkind : t.kind = .object)
      (hmembers : List.Forall₂ Denotes ((objectMembers t).map Prod.snd) vs) :
      Denotes s (some (.object (knownMembers (Members.names (objectMembers t)) vs)))

/-! ## Evaluation -/

variable {x : ScopeIndex} {lower : Evaluators} {s t : Site} {v : Option Value}

theorem itemsOf_of_forall₂ {items : List Site} {vs : List (Option Value)}
    (h : List.Forall₂ (fun s v => lower.value s = .ok v) items vs) :
    itemsOf lower items = .ok (vs.filterMap id) := by
  induction h with
  | nil => rfl
  | @cons s v items vs hv _ ih =>
    rw [itemsOf, hv, ih]
    cases v <;> rfl

theorem valuesOf_of_forall₂ {ms : Members Site} {vs : List (Option Value)}
    (h : List.Forall₂ (fun s v => lower.value s = .ok v) (ms.map Prod.snd) vs) :
    valuesOf lower ms = .ok (knownMembers (Members.names ms) vs) := by
  induction ms generalizing vs with
  | nil =>
    cases h
    rfl
  | cons m ms ih =>
    obtain ⟨name, s⟩ := m
    cases h with
    | @cons _ v _ vs hv hvs =>
      dsimp only at hv
      rw [valuesOf, hv, ih hvs]
      cases v <;> rfl

theorem textWith_of_string (hs : s.unwrap? = some t) (hkind : t.kind = .string) :
    textWith x lower s = .ok (some (stringValue t.node)) := by
  simp only [textWith, hs, hkind]

theorem textWith_of_comment (hkind : s.kind = .comment) : textWith x lower s = .ok none := by
  have hs : s.unwrap? = some s := Site.unwrap?_eq_self (by rw [hkind]; rfl)
  simp only [textWith, hs, hkind]

/-- What each item of a container is evaluated to, if there are as many steps as levels. -/
theorem forall₂_value {n : Nat} {ss : List Site} {vs : List (Option Value)}
    (h : List.Forall₂ Denotes ss vs) (hvs : ∀ w ∈ vs.filterMap id, w.Levels n)
    (ih : ∀ {s v}, Denotes s v → (∀ w ∈ v, w.Levels n) → (evaluators x n).value s = .ok v) :
    List.Forall₂ (fun s v => (evaluators x n).value s = .ok v) ss vs := by
  induction h with
  | nil => exact .nil
  | @cons s v ss vs hv _ hrest =>
    cases v with
    | none => exact .cons (ih hv (by simp)) (hrest hvs)
    | some w =>
      obtain ⟨hw, hws⟩ := List.forall_mem_cons.mp hvs
      exact .cons (ih hv (by simpa using hw)) (hrest hws)

/-- The values of known members are the values that are known. -/
theorem map_snd_knownMembers {names : List Text} {vs : List (Option Value)}
    (h : names.length = vs.length) : (knownMembers names vs).map Prod.snd = vs.filterMap id := by
  induction names generalizing vs with
  | nil =>
    cases vs with
    | nil => rfl
    | cons v vs => cases h
  | cons name names ih =>
    cases vs with
    | nil => cases h
    | cons v vs =>
      have hrest := ih (Nat.succ.inj h)
      rw [knownMembers] at hrest
      cases v with
      | none => exact hrest
      | some w => exact congrArg (w :: ·) hrest

/-- A literal is evaluated with one step for each level of its value. -/
theorem value_of_denotes {n : Nat} (h : Denotes s v) (hv : ∀ w ∈ v, w.Levels n) :
    (evaluators x n).value s = .ok v := by
  induction n generalizing s v with
  | zero =>
    cases v with
    | none => rfl
    | some w => exact (hv w rfl).elim
  | succ n ih =>
    change valueWith x (evaluators x n) (textWith x (evaluators x n)) s = .ok v
    cases h with
    | @string _ t hs hkind =>
      have ht : t.unwrap? = some t := Site.unwrap?_eq_self (by rw [hkind]; rfl)
      simp only [valueWith, hs, hkind, textWith_of_string ht hkind]
      rfl
    | integer hs hkind hn _ => simp only [valueWith, hs, hkind, hn]
    | suffixed hs hkind hn => simp only [valueWith, hs, hkind, hn]
    | trueWord hs hkind => simp only [valueWith, hs, hkind]
    | falseWord hs hkind => simp only [valueWith, hs, hkind]
    | nullWord hs hkind => simp only [valueWith, hs, hkind]
    | comment hkind =>
      have hs : s.unwrap? = some s := Site.unwrap?_eq_self (by rw [hkind]; rfl)
      simp only [valueWith, hs, hkind, textWith_of_comment hkind]
      rfl
    | array hs hkind hitems =>
      have hlevels := hv _ rfl
      simp only [valueWith, hs, hkind, itemsOf_of_forall₂ (forall₂_value hitems hlevels ih)]
      rfl
    | @object _ t vs hs hkind hmembers =>
      have hlength : (Members.names (objectMembers t)).length = vs.length := by
        rw [Members.names, List.length_map, ← hmembers.length_eq, List.length_map]
      have hlevels : ∀ w ∈ vs.filterMap id, w.Levels n := by
        rw [← map_snd_knownMembers hlength, List.forall_mem_map]
        exact hv _ rfl
      simp only [valueWith, hs, hkind, valuesOf_of_forall₂ (forall₂_value hmembers hlevels ih)]
      rfl

/-! ## What goes through JSON -/

theorem sublist_names_knownMembers (names : List Text) (vs : List (Option Value)) :
    (Members.names (knownMembers names vs)).Sublist names := by
  induction names generalizing vs with
  | nil => exact List.Sublist.slnil
  | cons name names ih =>
    cases vs with
    | nil => exact List.nil_sublist _
    | cons v vs =>
      cases v with
      | none => exact (ih vs).cons name
      | some w => exact (ih vs).cons_cons name

theorem length_ofNat_le {n : Nat} (h : n < 10 ^ Number.digitLimit) :
    (Text.ofNat n).length ≤ Number.digitLimit := by
  rw [Number.ofNat_eq_toDigits, Nat.length_toDigits_le_iff (by decide) (by decide)]
  exact h

/-- What the known items of a container are. -/
theorem forall_known {P : Value → Prop} {ss : List Site} {vs : List (Option Value)}
    (h : List.Forall₂ Denotes ss vs) (hp : ∀ {s w}, Denotes s (some w) → P w) :
    ∀ w ∈ vs.filterMap id, P w := by
  induction h with
  | nil => simp
  | @cons s v ss vs hv _ ih =>
    cases v with
    | none => exact ih
    | some w => exact List.forall_mem_cons.mpr ⟨hp hv, ih⟩

/-- The value of a literal goes through JSON without loss. -/
theorem plain_of_denotes {n : Nat} {w : Value} (h : Denotes s (some w)) (hw : w.Levels n) :
    w.Plain n := by
  induction n generalizing s w with
  | zero => exact hw.elim
  | succ n ih =>
    -- the items of a container have one level less
    have hitems : ∀ {ss : List Site} {vs : List (Option Value)}, List.Forall₂ Denotes ss vs →
        ∀ w ∈ vs.filterMap id, w.Levels n → w.Plain n := fun h => forall_known h ih
    cases h with
    | string => trivial
    | integer _ _ _ hlimit => exact length_ofNat_le hlimit
    | trueWord => trivial
    | falseWord => trivial
    | nullWord => trivial
    | array _ _ hall => exact fun v hv => hitems hall v hv (hw v hv)
    | @object _ t vs _ _ hall =>
      have hlength : (Members.names (objectMembers t)).length = vs.length := by
        rw [Members.names, List.length_map, ← hall.length_eq, List.length_map]
      have hvalues := map_snd_knownMembers hlength
      refine ⟨(sublist_names_knownMembers _ vs).nodup (nodup_names_objectMembers t), ?_⟩
      intro m hm
      refine hitems hall m.2 ?_ (hw m hm)
      rw [← hvalues]
      exact List.mem_map_of_mem hm

end Script

end OperationScan
