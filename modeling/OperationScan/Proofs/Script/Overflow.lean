import OperationScan.Proofs.Json.Writable
import OperationScan.Proofs.Script.Calls
import OperationScan.Proofs.Script.Wrappers

/-!
# Evaluations that fail

An evaluation that has no result because of what it does itself is one that makes JSON text of an
integer with too many digits. All others that fail have asked for such a one.

* `Overflows`: JSON text is asked for of a value that cannot be written.
* `Asks.failed`, `Call.Failed.cases`: an evaluation fails by itself or through one that it asks for.
* `failed_iff`: an evaluation fails exactly if it leads to JSON text that cannot be written.
* `numberValue?_of_naturalValue?`: the value of a number without a sign.
* `numberValue?_hexPower`: the value of a number with as many digits as one likes.
-/

namespace OperationScan

namespace Number

theorem valueFrom_zeros {base : Nat} (hbase : 0 < base) (start k : Nat) :
    valueFrom base start (List.replicate k '0') = some (start * base ^ k) := by
  induction k generalizing start with
  | zero => rw [List.replicate_zero, valueFrom, Nat.pow_zero, Nat.mul_one]
  | succ k ih =>
    have hzero : digitValue? '0' = some 0 := by decide
    rw [List.replicate_succ, valueFrom, hzero]
    dsimp only
    rw [if_pos hbase, ih, Nat.add_zero, Nat.pow_succ, Nat.mul_assoc, Nat.mul_comm base]

/-- Plain characters are compared with the grammar of numbers as they stand. -/
theorem cleaned_eq_self {t : Text} (h : ∀ c ∈ t, asciiDigit c = c ∧ isPadding c = false) :
    cleaned t = t := by
  have hmap : t.map asciiDigit = t := by
    rw [List.map_congr_left fun c hc => (h c hc).1, List.map_id']
  have hdrop : ∀ u : Text, (∀ c ∈ u, isPadding c = false) → u.dropWhile isPadding = u := by
    intro u hu
    cases u with
    | nil => rfl
    | cons c u => exact List.dropWhile_cons_of_neg (by simp [hu c (by simp)])
  rw [cleaned, hmap, hdrop t fun c hc => (h c hc).2, Text.dropEndWhile,
    hdrop t.reverse fun c hc => (h c (List.mem_reverse.mp hc)).2, List.reverse_reverse]

end Number

namespace Script

/-! ## Evaluators -/

section Evaluators

variable {e : Evaluators}

theorem fails_textOf_iff {o : Option Site} :
    Fails (e.textOf o) ↔ ∃ u, o = some u ∧ Fails (e.text u) := by
  cases o with
  | none => exact iff_of_false (not_fails_ok _) nofun
  | some u => simp [Evaluators.textOf]

theorem fails_valueOf_iff {o : Option Site} :
    Fails (e.valueOf o) ↔ ∃ u, o = some u ∧ Fails (e.value u) := by
  cases o with
  | none => exact iff_of_false (not_fails_ok _) nofun
  | some u => simp [Evaluators.valueOf]

theorem fails_valuesOf_iff {ms : List (Text × Site)} :
    Fails (valuesOf e ms) ↔ ∃ m ∈ ms, Fails (e.value m.2) := by
  induction ms with
  | nil => exact iff_of_false (not_fails_ok _) (by simp)
  | cons m ms ih => rw [valuesOf, fails_both_iff, ih, List.exists_mem_cons_iff]

theorem fails_itemsOf_iff {ss : List Site} :
    Fails (itemsOf e ss) ↔ ∃ s ∈ ss, Fails (e.value s) := by
  induction ss with
  | nil => exact iff_of_false (not_fails_ok _) (by simp)
  | cons s ss ih => rw [itemsOf, fails_both_iff, ih, List.exists_mem_cons_iff]

theorem fails_jsonText_iff {o : Option Value} :
    Fails (jsonText o) ↔ ∃ v, o = some v ∧ v.HoldsLong := by
  cases o with
  | none => exact iff_of_false (not_fails_ok _) nofun
  | some v =>
    have hwrite := Json.fails_write_iff v
    rw [jsonText]
    split
    · rename_i t ht
      rw [ht] at hwrite
      refine iff_of_false (not_fails_ok _) ?_
      rintro ⟨_, ⟨⟩, hlong⟩
      exact not_fails_ok t (hwrite.mpr hlong)
    · rename_i ht
      exact iff_of_true ⟨_, rfl⟩ ⟨v, rfl, hwrite.mp ⟨_, ht⟩⟩

end Evaluators

/-! ## Evaluations -/

/-- An evaluation has no result. To follow a reference never fails. -/
def Call.Failed (x : ScopeIndex) : Call → Prop
  | resolve _ _ => False
  | text d s => Fails (answer x (.text d s))
  | stringify d s => Fails (answer x (.stringify d s))
  | value d s => Fails (answer x (.value d s))

/-- JSON text is asked for of a value that cannot be written. -/
def Overflows (x : ScopeIndex) : Call → Prop
  | .stringify d s =>
    ∃ a v, jsonArgument? s = some a ∧ answer x (.value (d + 1) a) = .ok (some v) ∧ v.HoldsLong
  | _ => False

variable {x : ScopeIndex} {c c' : Call}

/-- What an evaluation asks for must not fail. -/
theorem Asks.failed (h : Asks x c c') (hfailed : c'.Failed x) : c.Failed x := by
  cases h with
  | follow => exact hfailed
  | textBound hd hs ht hb =>
    rw [Call.Failed, answer_text_of_le hd, textWith_of_reference hs ht]
    exact fails_textOf_iff.mpr ⟨_, hb, hfailed⟩
  | operand hd hs ht hrole ho =>
    rw [Call.Failed, answer_text_of_le hd, textWith_of_sum hs ht, fails_both_iff]
    rcases hrole with rfl | rfl
    · exact .inl (fails_textOf_iff.mpr ⟨_, ho, hfailed⟩)
    · exact .inr (fails_textOf_iff.mpr ⟨_, ho, hfailed⟩)
  | json hd hs ht htag =>
    rw [Call.Failed, answer_text_of_le hd, textWith_of_untagged hs ht htag, ← answer_stringify]
    exact hfailed
  | argument ha =>
    rw [Call.Failed, answer_stringify, stringifyWith_of_some ha, fails_bind_iff]
    exact .inl hfailed
  | valueBound hd hs ht hb =>
    rw [Call.Failed, answer_value_of_le hd, valueWith_of_reference hs ht]
    exact fails_valueOf_iff.mpr ⟨_, hb, hfailed⟩
  | member hd hs ht hm =>
    rw [Call.Failed, answer_value_of_le hd, valueWith_of_object hs ht, fails_map_iff]
    exact fails_valuesOf_iff.mpr ⟨_, hm, hfailed⟩
  | item hd hs ht hc =>
    rw [Call.Failed, answer_value_of_le hd, valueWith_of_array hs ht, fails_map_iff]
    exact fails_itemsOf_iff.mpr ⟨_, hc, hfailed⟩
  | textual hd hs ht =>
    rw [Call.Failed, answer_value_of_le hd, valueWith_of_isTextual hs ht, fails_map_iff]
    exact hfailed

theorem Overflows.failed (h : Overflows x c) : c.Failed x := by
  cases c with
  | resolve | text | value => exact h.elim
  | stringify d s =>
    obtain ⟨a, v, ha, hv, hlong⟩ := h
    rw [Call.Failed, answer_stringify, stringifyWith_of_some ha, fails_bind_iff]
    exact .inr ⟨some v, hv, fails_jsonText_iff.mpr ⟨v, rfl, hlong⟩⟩

/-- An evaluation fails by itself or through one that it asks for. -/
theorem Call.Failed.cases (h : c.Failed x) :
    Overflows x c ∨ ∃ c', Asks x c c' ∧ c'.Failed x := by
  cases c with
  | resolve => exact h.elim
  | text d s =>
    rw [Failed] at h
    by_cases hd : d ≤ maxDepth
    · rw [answer_text_of_le hd] at h
      cases hs : s.unwrap? with
      | none =>
        rw [textWith, hs] at h
        exact absurd h (not_fails_ok _)
      | some t =>
        rcases textWith_cases x hs with ⟨hcall, htag⟩ | href | hsum | ⟨v, hv⟩
        · rw [textWith_of_untagged hs hcall htag, ← answer_stringify] at h
          exact .inr ⟨_, .json hd hs hcall htag, h⟩
        · rw [textWith_of_reference hs href] at h
          obtain ⟨b, hb, h⟩ := fails_textOf_iff.mp h
          exact .inr ⟨_, .textBound hd hs href hb, h⟩
        · rw [textWith_of_sum hs hsum, fails_both_iff, fails_textOf_iff, fails_textOf_iff] at h
          rcases h with ⟨o, ho, h⟩ | ⟨o, ho, h⟩
          · exact .inr ⟨_, .operand hd hs hsum (.inl rfl) ho, h⟩
          · exact .inr ⟨_, .operand hd hs hsum (.inr rfl) ho, h⟩
        · rw [hv] at h
          exact absurd h (not_fails_ok v)
    · rw [answer_text_of_lt hd] at h
      exact absurd h (not_fails_ok _)
  | stringify d s =>
    rw [Failed, answer_stringify] at h
    cases ha : jsonArgument? s with
    | none =>
      rw [stringifyWith_of_none ha] at h
      exact absurd h (not_fails_ok _)
    | some a =>
      rw [stringifyWith_of_some ha, fails_bind_iff] at h
      rcases h with h | ⟨o, ho, h⟩
      · exact .inr ⟨_, .argument ha, h⟩
      · obtain ⟨v, rfl, hlong⟩ := fails_jsonText_iff.mp h
        exact .inl ⟨a, v, ha, ho, hlong⟩
  | value d s =>
    rw [Failed] at h
    by_cases hd : d ≤ maxDepth
    · rw [answer_value_of_le hd] at h
      cases hs : s.unwrap? with
      | none =>
        rw [valueWith, hs] at h
        exact absurd h (not_fails_ok _)
      | some t =>
        rcases valueWith_cases x hs with href | hobject | harray | htext | ⟨v, hv⟩
        · rw [valueWith_of_reference hs href] at h
          obtain ⟨b, hb, h⟩ := fails_valueOf_iff.mp h
          exact .inr ⟨_, .valueBound hd hs href hb, h⟩
        · rw [valueWith_of_object hs hobject, fails_map_iff] at h
          obtain ⟨m, hm, h⟩ := fails_valuesOf_iff.mp h
          exact .inr ⟨_, .member hd hs hobject hm, h⟩
        · rw [valueWith_of_array hs harray, fails_map_iff] at h
          obtain ⟨u, hu, h⟩ := fails_itemsOf_iff.mp h
          exact .inr ⟨_, .item hd hs harray hu, h⟩
        · rw [valueWith_of_isTextual hs htext, fails_map_iff] at h
          exact .inr ⟨_, .textual hd hs htext, h⟩
        · rw [hv] at h
          exact absurd h (not_fails_ok v)
    · rw [answer_value_of_lt hd] at h
      exact absurd h (not_fails_ok _)

/-- An evaluation fails exactly if it leads to JSON text that cannot be written. -/
theorem failed_iff (x : ScopeIndex) (c : Call) :
    c.Failed x ↔ ∃ c', Relation.ReflTransGen (Asks x) c c' ∧ Overflows x c' := by
  constructor
  · induction c using (wellFounded_asks x).induction with
    | _ c ih =>
      intro h
      rcases h.cases with hself | ⟨c', hasks, h'⟩
      · exact ⟨c, .refl, hself⟩
      · obtain ⟨c'', hleads, hover⟩ := ih c' hasks h'
        exact ⟨c'', .head hasks hleads, hover⟩
  · rintro ⟨c', hleads, hover⟩
    induction hleads using Relation.ReflTransGen.head_induction_on with
    | refl => exact hover.failed
    | head hasks _ ih => exact hasks.failed ih

/-! ## Numbers -/

theorem answer_value_of_number {d : Nat} {s : Site} (hd : d ≤ maxDepth)
    (hkind : s.kind = .number) : answer x (.value d s) = .ok (numberValue? s.text) := by
  have hself : s.unwrap? = some s := Site.unwrap?_eq_self (by rw [hkind]; rfl)
  rw [answer_value_of_le hd, valueWith, hself]
  dsimp only
  rw [hkind]

/-- A character that white space, signs and digits of other scripts are not. -/
def IsPlain (c : Char) : Prop :=
  Number.asciiDigit c = c ∧ Number.isPadding c = false ∧ c ≠ '-' ∧ c ≠ '+'

instance : DecidablePred IsPlain := fun _ =>
  inferInstanceAs (Decidable (_ ∧ _ ∧ _ ∧ _))

/-- Plain characters are read as a number without a sign. -/
theorem readInteger?_of_isPlain {digits : Text} (hplain : ∀ c ∈ digits, IsPlain c) :
    Number.readInteger? digits = (Number.naturalValue? digits).map Int.ofNat := by
  have hcleaned : Number.cleaned digits = digits :=
    Number.cleaned_eq_self fun c hc => ⟨(hplain c hc).1, (hplain c hc).2.1⟩
  have hsign : Number.splitSign digits = (false, digits) := by
    unfold Number.splitSign
    split
    · exact absurd rfl (hplain '-' List.mem_cons_self).2.2.1
    · exact absurd rfl (hplain '+' List.mem_cons_self).2.2.2
    · rfl
  rw [Number.readInteger?, hcleaned, hsign]
  rfl

/-- A number without a sign has the value that is read, its separators left out. -/
theorem numberValue?_of_naturalValue? {t digits : Text} {n : Nat}
    (hfilter : t.filter (· != '_') = digits) (hplain : ∀ c ∈ digits, IsPlain c)
    (hn : Number.naturalValue? digits = some n) : numberValue? t = some (.int n) := by
  rw [numberValue?, hfilter, readInteger?_of_isPlain hplain, hn]
  rfl

/-- A power of sixteen. -/
def hexPower (k : Nat) : Text := '0' :: 'x' :: '1' :: List.replicate k '0'

theorem forall_mem_hexPower {P : Char → Prop} (hzero : P '0') (hmark : P 'x') (hone : P '1')
    (k : Nat) : ∀ c ∈ hexPower k, P c := by
  rw [hexPower, List.forall_mem_cons, List.forall_mem_cons, List.forall_mem_cons]
  exact ⟨hzero, hmark, hone, fun c hc => List.eq_of_mem_replicate hc ▸ hzero⟩

theorem naturalValue?_hexPower (k : Nat) : Number.naturalValue? (hexPower k) = some (16 ^ k) := by
  have hmark : Number.naturalValue? (hexPower k) =
      Number.valueOf? 16 ('1' :: List.replicate k '0') := rfl
  have hone : Number.digitValue? '1' = some 1 := by decide
  rw [hmark, Number.valueOf?, if_neg (by simp), Number.valueFrom, hone]
  dsimp only
  rw [if_pos (by decide), Number.valueFrom_zeros (by decide), Nat.zero_mul, Nat.zero_add,
    Nat.one_mul]

/-- Other than a decimal integer, a hexadecimal one is read whatever its length. -/
theorem numberValue?_hexPower (k : Nat) :
    numberValue? (hexPower k) = some (.int (16 ^ k : Nat)) := by
  have hfilter : (hexPower k).filter (· != '_') = hexPower k :=
    List.filter_eq_self.mpr (forall_mem_hexPower (by decide) (by decide) (by decide) k)
  exact numberValue?_of_naturalValue? hfilter
    (forall_mem_hexPower (by decide) (by decide) (by decide) k) (naturalValue?_hexPower k)

end Script

end OperationScan
