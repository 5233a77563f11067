import OperationScan.Payload
import OperationScan.Proofs.Json.Values

/-!
# The requests in written data

Data that has been written as JSON is decoded to the requests in it: escapes and nesting are undone,
batches keep their order, and entries that are no requests are passed over.

* `Value.Carries`: an entry is a request.
* `Value.CarryInOrder`: the requests among entries.
* `decodePayload_write`: what written data is decoded to, and when it cannot be decoded.
-/

namespace OperationScan

namespace Value

/-- What stands under `variables` declares the members of an object; anything else declares
none. -/
inductive Declares : Option Value → Members Value → Prop
  | object (bindings : Members Value) : Declares (some (.object bindings)) bindings
  | other {v : Option Value} (h : ∀ ms, v ≠ some (.object ms)) : Declares v []

/-- An entry is a request: an object with a string under `query` or, failing that, with a string
under `mutation`. -/
inductive Carries : Value → Request → Prop
  | query {members bindings : Members Value} {operation : Text}
      (h : members.get? "query".toList = some (.string operation))
      (hbindings : Declares (members.get? "variables".toList) bindings) :
      Carries (.object members) ⟨operation, [], bindings⟩
  | mutation {members bindings : Members Value} {operation : Text}
      (hquery : ∀ t, members.get? "query".toList ≠ some (.string t))
      (h : members.get? "mutation".toList = some (.string operation))
      (hbindings : Declares (members.get? "variables".toList) bindings) :
      Carries (.object members) ⟨operation, [], bindings⟩

/-- The requests among entries, in their order. -/
inductive CarryInOrder : List Value → List Request → Prop
  | nil : CarryInOrder [] []
  | keep {v : Value} {entries : List Value} {r : Request} {rs : List Request} (h : v.Carries r)
      (hrest : CarryInOrder entries rs) : CarryInOrder (v :: entries) (r :: rs)
  | pass {v : Value} {entries : List Value} {rs : List Request} (h : ∀ r, ¬ v.Carries r)
      (hrest : CarryInOrder entries rs) : CarryInOrder (v :: entries) rs

variable {v : Value} {members bindings : Members Value} {depth : Nat} {r : Request}
  {entries : List Value} {rs : List Request}

/-! ## Entries -/

/-- Plain data has no strings but whole ones. -/
theorem string?_eq_some_iff (hv : v.Plain depth) {t : Text} {halves : List LoneHalf} :
    v.string? = some (t, halves) ↔ v = .string t ∧ halves = [] := by
  cases v with
  | string u => simp [string?, eq_comm]
  | damaged u hs => simp [Plain] at hv
  | _ => simp [string?]

theorem plain_of_get? (h : (Value.object members).Plain depth) {name : Text}
    (hget : members.get? name = some v) : v.Plain depth := by
  cases depth with
  | zero => simp [Plain] at h
  | succ depth =>
    have hmem := (Members.get?_eq_some_iff h.1).mp hget
    exact (h.2 _ hmem).mono (Nat.le_succ depth)

theorem declares_iff {v : Option Value} :
    Declares v bindings ↔ (v.getD .null).membersOrNone = bindings := by
  constructor
  · rintro (_ | h)
    · rfl
    · cases v with
      | none => rfl
      | some v =>
        cases v with
        | object ms => exact absurd rfl (h ms)
        | _ => rfl
  · rintro rfl
    cases v with
    | none => exact .other (by simp)
    | some v =>
      cases v with
      | object ms => exact .object ms
      | _ => exact .other (by simp)

/-- The string under a name, in plain data. -/
theorem get?_bind_string?_iff (h : (Value.object members).Plain depth) {name t : Text}
    {halves : List LoneHalf} : (members.get? name).bind string? = some (t, halves) ↔
      members.get? name = some (.string t) ∧ halves = [] := by
  rw [Option.bind_eq_some_iff]
  constructor
  · rintro ⟨v, hget, hv⟩
    obtain ⟨rfl, rfl⟩ := (string?_eq_some_iff (plain_of_get? h hget)).mp hv
    exact ⟨hget, rfl⟩
  · rintro ⟨hget, rfl⟩
    exact ⟨_, hget, rfl⟩

theorem get?_bind_string?_eq_none_iff (h : (Value.object members).Plain depth) {name : Text} :
    (members.get? name).bind string? = none ↔ ∀ t, members.get? name ≠ some (.string t) := by
  rw [Option.eq_none_iff_forall_ne_some]
  constructor
  · intro hnone t ht
    exact hnone (t, []) ((get?_bind_string?_iff h).mpr ⟨ht, rfl⟩)
  · rintro hnone ⟨t, halves⟩ hsome
    exact hnone t ((get?_bind_string?_iff h).mp hsome).1

/-- The string under the first of the two names that has one. -/
theorem findSome?_operationKeys_iff (h : (Value.object members).Plain depth) {t : Text}
    {halves : List LoneHalf} :
    operationKeys.findSome? (fun key => (members.get? key).bind string?) = some (t, halves) ↔
      (members.get? "query".toList = some (.string t) ∨
        (∀ u, members.get? "query".toList ≠ some (.string u)) ∧
          members.get? "mutation".toList = some (.string t)) ∧ halves = [] := by
  have hkeys : operationKeys.findSome? (fun key => (members.get? key).bind string?) =
      ((members.get? "query".toList).bind string?).or
        ((members.get? "mutation".toList).bind string?) := by
    rw [operationKeys, List.findSome?_cons, List.findSome?_cons, List.findSome?_nil]
    cases (members.get? "query".toList).bind string? with
    | some found => rfl
    | none => cases (members.get? "mutation".toList).bind string? <;> rfl
  rw [hkeys, Option.or_eq_some_iff, get?_bind_string?_eq_none_iff h, get?_bind_string?_iff h,
    get?_bind_string?_iff h, ← and_assoc, ← or_and_right]

theorem ofEntry?_eq_some_iff (hv : v.Plain depth) :
    Request.ofEntry? v = some r ↔ v.Carries r := by
  cases v with
  | object members =>
    rw [Request.ofEntry?]
    constructor
    · intro h
      split at h
      · rename_i t halves hfound
        obtain ⟨hstring, rfl⟩ := (findSome?_operationKeys_iff hv).mp hfound
        cases h
        rcases hstring with hquery | ⟨hquery, hmutation⟩
        · exact .query hquery (declares_iff.mpr rfl)
        · exact .mutation hquery hmutation (declares_iff.mpr rfl)
      · cases h
    · rintro (⟨hquery, hbindings⟩ | ⟨hquery, hmutation, hbindings⟩)
      · rw [(findSome?_operationKeys_iff hv).mpr ⟨.inl hquery, rfl⟩, ← declares_iff.mp hbindings]
      · rw [(findSome?_operationKeys_iff hv).mpr ⟨.inr ⟨hquery, hmutation⟩, rfl⟩,
          ← declares_iff.mp hbindings]
  | _ => exact iff_of_false (by rintro ⟨⟩) (by rintro ⟨⟩)

theorem filterMap_ofEntry?_eq_iff (h : ∀ v ∈ entries, v.Plain depth) :
    entries.filterMap Request.ofEntry? = rs ↔ CarryInOrder entries rs := by
  induction entries generalizing rs with
  | nil =>
    constructor
    · rintro rfl
      exact .nil
    · rintro ⟨⟩
      rfl
  | cons v entries ih =>
    obtain ⟨hv, hentries⟩ := List.forall_mem_cons.mp h
    constructor
    · rintro rfl
      have hrest := (ih hentries).mp rfl
      cases hr : Request.ofEntry? v with
      | none =>
        rw [List.filterMap_cons_none hr]
        refine .pass (fun r hcarries => ?_) hrest
        rw [(ofEntry?_eq_some_iff hv).mpr hcarries] at hr
        cases hr
      | some r =>
        rw [List.filterMap_cons_some hr]
        exact .keep ((ofEntry?_eq_some_iff hv).mp hr) hrest
    · rintro (_ | ⟨hcarries, hrest⟩ | ⟨hnone, hrest⟩)
      · rw [List.filterMap_cons_some ((ofEntry?_eq_some_iff hv).mpr hcarries),
          (ih hentries).mpr hrest]
      · have hr : Request.ofEntry? v = none := by
          rw [Option.eq_none_iff_forall_ne_some]
          exact fun r hr => hnone r ((ofEntry?_eq_some_iff hv).mp hr)
        rw [List.filterMap_cons_none hr, (ih hentries).mpr hrest]

theorem plain_of_mem_entries (hv : v.Plain depth) : ∀ e ∈ v.entries, e.Plain depth := by
  cases v with
  | array items =>
    cases depth with
    | zero => simp [Plain] at hv
    | succ depth => exact fun e he => Plain.mono (hv e he) (Nat.le_succ depth)
  | _ => exact List.forall_mem_singleton.mpr hv

theorem CarryInOrder.of_forall₂ (h : List.Forall₂ Carries entries rs) :
    CarryInOrder entries rs := by
  induction h with
  | nil => exact .nil
  | cons hr _ ih => exact .keep hr ih

end Value

open Value

/-! ## Bodies -/

theorem decodePayload_eq_of_read [Json.Nesting] {t : Text} {v : Value} (h : Json.read t = .ok v) :
    decodePayload t = if v.entries.filterMap Request.ofEntry? = [] then .error .noOperation
      else .ok (v.entries.filterMap Request.ofEntry?) := by
  rw [decodePayload, h]
  dsimp only
  split
  · rename_i hnil
    rw [if_pos hnil]
  · rename_i hne
    rw [if_neg hne]

/-- Plain data can be written. What is written is decoded to the requests among the entries of the
data, and it cannot be decoded exactly if there are none; a batch of requests is decoded to all of
them. -/
theorem decodePayload_write [Json.Nesting] {v : Value} (hv : v.Plain Json.Nesting.limit) :
    ∃ t, Json.write v = .ok t ∧
      (∀ rs, decodePayload t = .ok rs ↔ CarryInOrder v.entries rs ∧ rs ≠ []) ∧
      ((∃ fault, decodePayload t = .error fault) ↔ CarryInOrder v.entries []) ∧
      ∀ rs, rs ≠ [] → List.Forall₂ Carries v.entries rs → decodePayload t = .ok rs := by
  obtain ⟨t, hwrite, hread, -⟩ := Json.read_write hv
  have hentries : ∀ rs, v.entries.filterMap Request.ofEntry? = rs ↔ CarryInOrder v.entries rs :=
    fun _ => filterMap_ofEntry?_eq_iff (plain_of_mem_entries hv)
  have hdecode : ∀ rs, decodePayload t = .ok rs ↔ CarryInOrder v.entries rs ∧ rs ≠ [] := by
    intro rs
    rw [decodePayload_eq_of_read hread, ← hentries]
    split
    · rename_i hnil
      rw [hnil]
      exact iff_of_false (by rintro ⟨⟩) fun h => h.2 h.1.symm
    · rename_i hne
      rw [Except.ok.injEq]
      exact ⟨fun h => ⟨h, h ▸ hne⟩, And.left⟩
  refine ⟨t, hwrite, hdecode, ?_, fun rs hne hall => (hdecode rs).mpr ⟨.of_forall₂ hall, hne⟩⟩
  rw [decodePayload_eq_of_read hread, ← hentries]
  split
  · rename_i hnil
    exact iff_of_true ⟨_, rfl⟩ hnil
  · rename_i hne
    exact iff_of_false (by rintro ⟨_, ⟨⟩⟩) hne

/-- Two requests among entries that are none; the first operation has a quote, a line feed and a
character outside the basic plane, and the second stands under `mutation`. -/
def mixedBatch : Value := .array [
  .int 5,
  .object [("query".toList, .string "query A \x7b a(s: \"😀\n\") \x7d".toList),
    ("variables".toList, .object [("n".toList, .array [.int (-7), .null])])],
  .object [("id".toList, .string "query B \x7b b \x7d".toList)],
  .object [("variables".toList, .bool true), ("query".toList, .null),
    ("mutation".toList, .string "mutation M \x7b m \x7d".toList)]]

theorem plain_mixedBatch : mixedBatch.Plain 4 := by
  have hfive : (Text.ofNat 5).length ≤ Number.digitLimit := by decide
  have hseven : (Text.ofNat 7).length ≤ Number.digitLimit := by decide
  simp [mixedBatch, Plain, Members.names, hfive, hseven]

theorem decodePayload_write_mixedBatch : mixedBatch.Plain Json.Nesting.limit ∧
    ∃ t, Json.write mixedBatch = .ok t ∧ decodePayload t = .ok [
      ⟨"query A \x7b a(s: \"😀\n\") \x7d".toList, [],
        [("n".toList, .array [.int (-7), .null])]⟩,
      ⟨"mutation M \x7b m \x7d".toList, [], []⟩] := by
  have hplain : mixedBatch.Plain Json.Nesting.limit := plain_mixedBatch.mono (by decide)
  obtain ⟨t, hwrite, hdecode, -⟩ := decodePayload_write hplain
  refine ⟨hplain, t, hwrite, (hdecode _).mpr ⟨?_, by simp⟩⟩
  exact (filterMap_ofEntry?_eq_iff (plain_of_mem_entries plain_mixedBatch)).mp rfl

end OperationScan
