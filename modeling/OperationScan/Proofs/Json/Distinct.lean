import OperationScan.Payload
import OperationScan.Proofs.Json.Readings

/-!
# What is read has distinct names

* `Value.Distinct`: every object in a value has each name once.
* `Json.distinct_of_read`: the value of a text is such a value.
* `nodup_names_of_decodePayload`: the variables of a decoded body have each name once.
* `looksLikeJson_of_decodePayload`: a text that can be decoded begins like a body.
-/

namespace OperationScan

/-- Every object in a value has each name once. -/
inductive Value.Distinct : Value → Prop
  | null : Distinct .null
  | bool (b : Bool) : Distinct (.bool b)
  | int (n : Int) : Distinct (.int n)
  | float (x : Binary64) : Distinct (.float x)
  | string (t : Text) : Distinct (.string t)
  | damaged (t : Text) (halves : List LoneHalf) : Distinct (.damaged t halves)
  | array {items : List Value} (hitems : ∀ v ∈ items, Distinct v) : Distinct (.array items)
  | object {members : List (Text × Value)} (hnames : (Members.names members).Nodup)
      (hmembers : ∀ m ∈ members, Distinct m.2) : Distinct (.object members)

namespace Json

variable {v : Value}

theorem distinct_of_isBare (h : IsBare v) : v.Distinct := by
  cases v with
  | null => exact .null
  | bool b => exact .bool b
  | int n => exact .int n
  | float x => exact .float x
  | _ => cases h

theorem distinct_of_readIn {w : Text} (h : ReadIn w v) : v.Distinct := by
  induction h with
  | @string _ _ _ s =>
    unfold Spelled.value
    split
    · exact .string _
    · exact .damaged _ _
  | bare hv => exact distinct_of_isBare hv
  | array _ ih => exact .array ih
  | @object entries _ ih =>
    exact .object (Members.nodup_names_ofList entries) (Members.forall_mem_merge (by simp) ih)

/-- The value of a text has distinct names. -/
theorem distinct_of_read [Nesting] {t : Text} (h : read t = .ok v) : v.Distinct :=
  distinct_of_readIn (readIn_of_read h)

/-! ## What begins like a body -/

theorem isBlank_of_isSpace {c : Char} (h : isSpace c = true) : Text.isBlank c = true := by
  simp only [isSpace, Bool.or_eq_true, beq_iff_eq] at h
  rcases h with ((rfl | rfl) | rfl) | rfl <;> decide

/-- Only a text that begins with a bracket is read as an array or an object. -/
theorem looksLikeJson_of_read [Nesting] {t : Text} (h : read t = .ok v)
    (hv : (∃ items, v = .array items) ∨ ∃ members, v = .object members) :
    looksLikeJson t = true := by
  obtain ⟨q, hvalue⟩ := exists_of_read h
  obtain ⟨c, hhead, hc⟩ : ∃ c, (skipSpace (.start t)).rest.head? = some c ∧
      (c = '[' ∨ c = '\x7b') := by
    cases isRead_of_readValue hvalue with
    | @string s =>
      unfold Spelled.value at hv
      split at hv <;> simp at hv
    | bare hbare => rcases hv with ⟨items, rfl⟩ | ⟨members, rfl⟩ <;> cases hbare
    | array hhead => exact ⟨_, hhead, .inl rfl⟩
    | object hhead => exact ⟨_, hhead, .inr rfl⟩
  rw [skipSpace, Place.rest_skip] at hhead
  obtain ⟨u, hcons⟩ : ∃ u, t.dropWhile isSpace = c :: u := List.head?_eq_some_iff.mp hhead
  have hspace : Text.IsBlank (t.takeWhile isSpace) := fun d hd =>
    isBlank_of_isSpace (List.all_eq_true.mp List.all_takeWhile d hd)
  have htrim : Text.trimStart t = c :: u := by
    rw [Text.trimStart, ← List.takeWhile_append_dropWhile (p := isSpace) (l := t), hcons,
      hspace.dropWhile_append, Text.dropWhile_eq_self]
    rcases hc with rfl | rfl <;> rfl
  rw [looksLikeJson, htrim]
  rcases hc with rfl | rfl <;> rfl

end Json

/-! ## Request bodies -/

theorem nodup_names_of_ofEntry? {v : Value} {r : Request} (hv : v.Distinct)
    (h : Request.ofEntry? v = some r) : (Members.names r.bindings).Nodup := by
  unfold Request.ofEntry? at h
  split at h
  · rename_i ms
    split at h
    · cases h
      dsimp only
      cases hget : Members.get? ms "variables".toList with
      | none => exact List.nodup_nil
      | some w =>
        cases hv with
        | object hnames hmembers =>
          have hw := hmembers _ ((Members.get?_eq_some_iff hnames).mp hget)
          cases hw with
          | object hnames _ => exact hnames
          | _ => exact List.nodup_nil
    · cases h
  · cases h

/-- The variables of a decoded body have each name once. -/
theorem nodup_names_of_decodePayload [Json.Nesting] {t : Text} {rs : List Request}
    (h : decodePayload t = .ok rs) : ∀ r ∈ rs, (Members.names r.bindings).Nodup := by
  unfold decodePayload at h
  split at h
  · cases h
  · rename_i v hread
    have hv := Json.distinct_of_read hread
    have hentries : ∀ w ∈ v.entries, w.Distinct := by
      intro w hw
      cases hv with
      | array hitems => exact hitems w hw
      | _ =>
        obtain rfl := List.mem_singleton.mp hw
        exact Json.distinct_of_read hread
    split at h
    · cases h
    · cases h
      intro r hr
      obtain ⟨w, hw, hentry⟩ := List.mem_filterMap.mp hr
      exact nodup_names_of_ofEntry? (hentries w hw) hentry

/-- A text that can be decoded begins like a body. -/
theorem looksLikeJson_of_decodePayload [Json.Nesting] {t : Text} {rs : List Request}
    (h : decodePayload t = .ok rs) : looksLikeJson t = true := by
  unfold decodePayload at h
  split at h
  · cases h
  · rename_i v hread
    refine Json.looksLikeJson_of_read hread ?_
    cases v with
    | array items => exact .inl ⟨items, rfl⟩
    | object members => exact .inr ⟨members, rfl⟩
    | _ => cases h

end OperationScan
