import Mathlib.Data.List.Infix
import OperationScan.Payload
import OperationScan.Proofs.Json.Readings
import OperationScan.Proofs.Text.Retouched
import OperationScan.Script.Escape

/-!
# Words that are written out

A text may be decoded twice before it is searched: the escapes of a script literal first, then
those of a JSON string. Where no escape stands for a letter or for nothing at all, a word of the
decoded text is written out in the literal.

* `Script.escapesOf`, `Script.retouched_cook`: the escapes of a script literal.
* `Json.codesIn`, `Json.retouched_of_readString`: the code units spelled in a JSON text.
* `searchedTexts`: the texts in which a request body is searched for operations.
* `isInfix_of_mem_searchedTexts`: a word of these texts is written out in the body.
-/

namespace OperationScan

open Text

/-! ## Script literals -/

namespace Script

/-- What the escapes behind the first `skipped` characters of a text become, in order. -/
def escapesFrom : (skipped : Nat) → Text → List Text
  | _, [] => []
  | skipped + 1, _ :: rest => escapesFrom skipped rest
  | 0, c :: rest =>
    if c == '\\' then
      match rest with
      | [] => []
      | e :: more => (cookEscape e more).text :: escapesFrom (cookEscape e more).length rest
    else escapesFrom 0 rest

/-- What the escapes of a text become, in order. -/
def escapesOf (t : Text) : List Text := escapesFrom 0 t

theorem retouched_cookFrom (done : Text) {t : Text} {skipped : Nat}
    (h : ∀ m ∈ escapesFrom skipped t, IsMark m) :
    ∃ u, cookFrom done skipped t = done.reverse ++ u ∧ Retouched (t.drop skipped) u := by
  fun_induction cookFrom done skipped t with
  | case1 done skipped => exact ⟨[], by simp, by simpa using .nil⟩
  | case2 done skipped c rest ih => exact ih h
  | case3 done c hc ih =>
    obtain rfl := beq_iff_eq.mp hc
    exact ⟨['\\'], by simp [cookFrom], .keep _ .nil⟩
  | case4 done c hc e more cooked ih =>
    unfold escapesFrom at h
    rw [if_pos hc] at h
    obtain ⟨hmark, hmore⟩ := List.forall_mem_cons.mp h
    obtain ⟨u, hu, hrest⟩ := ih hmore
    refine ⟨cooked.text ++ u, by rw [hu]; simp, ?_⟩
    have hsplit : c :: e :: more = (c :: (e :: more).take cooked.length) ++
        (e :: more).drop cooked.length := by
      rw [List.cons_append, List.take_append_drop]
    rw [List.drop_zero, hsplit]
    exact .mark _ hmark hrest
  | case5 done c rest hc ih =>
    unfold escapesFrom at h
    rw [if_neg hc] at h
    obtain ⟨u, hu, hrest⟩ := ih h
    exact ⟨c :: u, by rw [hu]; simp, .keep c hrest⟩

/-- Where all escapes stand for marks, a literal is retouched. -/
theorem retouched_cook {t : Text} (h : ∀ m ∈ escapesOf t, IsMark m) : Retouched t (cook t) := by
  obtain ⟨u, hu, hrest⟩ := retouched_cookFrom [] h
  rw [cook, hu]
  exact hrest

end Script

/-! ## JSON strings -/

namespace Json

/-- The code unit that an escape at the start of a text spells. -/
def codeAt? : Text → Option Nat
  | '\\' :: 'u' :: rest => (fourDigits? rest).map Prod.fst
  | _ => none

/-- The code units that are spelled by escapes anywhere in a text. -/
def codesIn (t : Text) : List Nat := t.tails.filterMap codeAt?

/-- No letter is spelled by an escape. -/
def SpellsNoLetter (t : Text) : Prop := ∀ n ∈ codesIn t, (Char.ofNat n).isAlpha = false

instance : DecidablePred SpellsNoLetter := fun t => List.decidableBAll _ (codesIn t)

variable {w t digits rest : Text} {opening index i n length : Nat} {s s' : Spelled} {q : Place}

theorem toNat_lt_of_isAlpha {c : Char} (h : c.isAlpha = true) : c.toNat < 128 := by
  have hcase : (c.isUpper || c.isLower) = true := h
  rcases (Bool.or_eq_true_iff ..).mp hcase with hupper | hlower
  · have hle : c.val ≤ 'Z'.val := (of_decide_eq_true hupper).2
    exact Nat.lt_of_le_of_lt (UInt32.le_iff_toNat_le.mp hle) (by decide)
  · have hle : c.val ≤ 'z'.val := of_decide_eq_true ((Bool.and_eq_true_iff ..).mp hlower).2
    exact Nat.lt_of_le_of_lt (UInt32.le_iff_toNat_le.mp hle) (by decide)

/-- Only ASCII characters count as letters. -/
theorem isAlpha_ofNat (h : 128 ≤ n) : (Char.ofNat n).isAlpha = false := by
  by_cases hvalid : n.isValidChar
  · refine Bool.eq_false_iff.mpr fun halpha => ?_
    have hchar : Char.ofNat n = Char.ofNatAux n hvalid := dif_pos hvalid
    rw [hchar] at halpha
    have hlt : n < 128 := toNat_lt_of_isAlpha halpha
    omega
  · have hnull : Char.ofNat n = Char.ofNat 0 := dif_neg hvalid
    rw [hnull]
    decide

/-- An escape stands for a code unit that it spells, or for a code point beyond all letters. -/
theorem noLetter_of_codeEscape (hw : SpellsNoLetter w) (ht : '\\' :: 'u' :: digits <:+ w)
    (h : codeEscape i digits = .code n rest length) : (Char.ofNat n).isAlpha = false := by
  have hfirst : ∀ {m more}, fourDigits? digits = some (m, more) →
      (Char.ofNat m).isAlpha = false := by
    intro m more hm
    refine hw m (List.mem_filterMap.mpr ⟨_, (List.mem_tails _ _).mpr ht, ?_⟩)
    rw [codeAt?, hm]
    rfl
  unfold codeEscape at h
  split at h
  · cases h
  · cases h
  · rename_i high behind _ hhigh
    split at h
    · split at h
      · split at h
        · cases h
          exact hfirst hhigh
        · split at h
          · cases h
          · rename_i low _ _
            split at h
            · rw [← (CodeEscape.code.inj h).1]
              have hlarge : 128 ≤ 0x10000 + (high - 0xd800) * 0x400 + (low - 0xdc00) := by omega
              exact isAlpha_ofNat hlarge
            · cases h
              exact hfirst hhigh
      · cases h
        exact hfirst hhigh
    · cases h
      exact hfirst hhigh

theorem exists_pushCode (h : (Char.ofNat n).isAlpha = false) (s : Spelled) :
    ∃ m, (s.pushCode n).text = s.text ++ m ∧ IsMark m := by
  unfold Spelled.pushCode
  split
  · exact ⟨[Char.ofNat 0xfffd], by simp [Spelled.text], by decide⟩
  · exact ⟨[Char.ofNat n], by simp [Spelled.text, Spelled.push], by simp, by simpa using h⟩

theorem isMark_of_escapeOf? {e x : Char} (h : escapeOf? e = some x) : IsMark [x] := by
  unfold escapeOf? at h
  split at h
  all_goals cases h
  all_goals decide

/-- Where no letter is spelled by an escape, a string is retouched. -/
theorem retouched_of_readString (hw : SpellsNoLetter w) {skipped : Nat} (ht : t <:+ w)
    (h : readString opening index skipped t s = .ok (s', q)) :
    ∃ x u, t.drop skipped = x ++ '"' :: q.rest ∧ s'.text = s.text ++ u ∧ Retouched x u := by
  fun_induction readString opening index skipped t s with
  | case2 index s skipped c rest ih => exact ih ((List.suffix_cons _ _).trans ht) h
  | case3 index c rest s hc =>
    cases h
    exact ⟨[], [], by rw [beq_iff_eq.mp hc]; rfl, by simp, .nil⟩
  | case5 index c s _ hc digits n rest length hcode ih =>
    obtain ⟨x, u, hx, hu, hrest⟩ := ih ((List.suffix_cons _ _).trans ht) h
    obtain rfl := beq_iff_eq.mp hc
    obtain ⟨m, hm, hmark⟩ := exists_pushCode (noLetter_of_codeEscape hw ht hcode) s
    refine ⟨('\\' :: ('u' :: digits).take (1 + length)) ++ x, m ++ u, ?_, ?_, .mark _ hmark hrest⟩
    · rw [List.drop_zero, List.append_assoc, ← hx, List.cons_append, List.take_append_drop]
    · rw [hu, hm, List.append_assoc]
  | case7 index c s _ _ e more _ x he ih =>
    obtain ⟨y, u, hy, hu, hrest⟩ := ih ((List.suffix_cons _ _).trans ht) h
    refine ⟨[c, e] ++ y, [x] ++ u, ?_, ?_, .mark _ (isMark_of_escapeOf? he) hrest⟩
    · rw [List.append_assoc, ← hy]
      rfl
    · rw [hu]
      simp [Spelled.text, Spelled.push]
  | case10 index c rest s _ _ _ ih =>
    obtain ⟨x, u, hx, hu, hrest⟩ := ih ((List.suffix_cons _ _).trans ht) h
    refine ⟨c :: x, c :: u, ?_, ?_, .keep c hrest⟩
    · rw [List.cons_append, ← hx]
      rfl
    · rw [hu]
      simp [Spelled.text, Spelled.push]
  | case1 | case4 | case6 | case8 | case9 => cases h

theorem string?_of_isBare {v : Value} (h : IsBare v) : v.string? = none := by
  cases v with
  | string | damaged => cases h
  | _ => rfl

/-- A string that is read in a text is a retouched stretch of it. -/
theorem exists_retouched_of_readIn (hw : SpellsNoLetter w) {v : Value} (h : ReadIn w v)
    {halves : List LoneHalf} (hv : v.string? = some (t, halves)) :
    ∃ x, x <:+: w ∧ Retouched x t := by
  cases h with
  | @string _ _ rest s q hrest hread =>
    obtain ⟨x, u, hx, hu, hretouched⟩ := retouched_of_readString hw hrest hread
    have ht : s.text = t := by
      unfold Spelled.value at hv
      split at hv
      · exact (Prod.mk.inj (Option.some.inj hv)).1
      · exact (Prod.mk.inj (Option.some.inj hv)).1
    have hwithin : x <:+: rest := ⟨[], _, hx.symm⟩
    refine ⟨x, hwithin.trans hrest.isInfix, ?_⟩
    have hstart : Spelled.none.text ++ u = u := rfl
    rw [← ht, hu, hstart]
    exact hretouched
  | bare hbare =>
    rw [string?_of_isBare hbare] at hv
    cases hv
  | array => cases hv
  | object => cases hv

theorem spelled_ne_container (s : Spelled) :
    (∀ items, s.value ≠ .array items) ∧ ∀ members, s.value ≠ .object members := by
  unfold Spelled.value
  split <;> simp

theorem ReadIn.of_mem_entries {v : Value} (h : ReadIn w v) : ∀ x ∈ v.entries, ReadIn w x := by
  intro x hx
  cases v with
  | array items =>
    generalize hv : Value.array items = v at h
    cases h with
    | string => exact absurd hv.symm ((spelled_ne_container _).1 _)
    | bare hbare =>
      subst hv
      cases hbare
    | array hitems => exact hitems x (Value.array.inj hv ▸ hx)
    | object => cases hv
  | _ => rwa [List.mem_singleton.mp hx]

theorem ReadIn.of_get? {ms : Members Value} (h : ReadIn w (.object ms)) {name : Text} {v : Value}
    (hv : Members.get? ms name = some v) : ReadIn w v := by
  generalize hobject : Value.object ms = x at h
  cases h with
  | string => exact absurd hobject.symm ((spelled_ne_container _).2 _)
  | bare hbare =>
    subst hobject
    cases hbare
  | array => cases hobject
  | @object entries hentries =>
    obtain rfl := Value.object.inj hobject
    have hall : ∀ m ∈ Members.ofList entries, ReadIn w m.2 :=
      Members.forall_mem_merge (by simp) hentries
    exact hall _ ((Members.get?_eq_some_iff (Members.nodup_names_ofList entries)).mp hv)

end Json

/-! ## Request bodies -/

/-- The texts in which a request body is searched for operations. -/
def searchedTexts [Json.Nesting] (t : Text) : List Text :=
  if looksLikeJson t then
    match decodePayload t with
    | .ok requests => requests.map fun r => r.text
    | .error _ => [t]
  else [t]

variable {t u k : Text}

theorem exists_retouched_of_ofEntry? (ht : Json.SpellsNoLetter t) {v : Value}
    (hv : Json.ReadIn t v) {r : Request} (h : Request.ofEntry? v = some r) :
    ∃ x, x <:+: t ∧ Retouched x r.text := by
  unfold Request.ofEntry? at h
  split at h
  · rename_i ms
    split at h
    · rename_i text halves hstring
      cases h
      obtain ⟨key, -, hkey⟩ := List.exists_of_findSome?_eq_some hstring
      obtain ⟨x, hx, hfound⟩ := Option.bind_eq_some_iff.mp hkey
      exact Json.exists_retouched_of_readIn ht (hv.of_get? hx) hfound
    · cases h
  · cases h

theorem exists_retouched_of_decodePayload [Json.Nesting] (ht : Json.SpellsNoLetter t)
    {rs : List Request}
    (h : decodePayload t = .ok rs) : ∀ r ∈ rs, ∃ x, x <:+: t ∧ Retouched x r.text := by
  unfold decodePayload at h
  split at h
  · cases h
  · rename_i v hread
    split at h
    · cases h
    · cases h
      intro r hr
      obtain ⟨x, hx, hentry⟩ := List.mem_filterMap.mp hr
      exact exists_retouched_of_ofEntry? ht ((Json.readIn_of_read hread).of_mem_entries x hx) hentry

/-- Where no letter is spelled by an escape, a word of what is searched is written out. -/
theorem isInfix_of_mem_searchedTexts [Json.Nesting] (ht : Json.SpellsNoLetter t)
    (hu : u ∈ searchedTexts t) (hk : IsWord k) (h : k <:+: u) : k <:+: t := by
  unfold searchedTexts at hu
  split at hu
  · split at hu
    · rename_i rs hdecode
      obtain ⟨r, hr, rfl⟩ := List.mem_map.mp hu
      obtain ⟨x, hx, hretouched⟩ := exists_retouched_of_decodePayload ht hdecode r hr
      exact (hretouched.isInfix hk h).trans hx
    · rwa [← List.mem_singleton.mp hu]
  · rwa [← List.mem_singleton.mp hu]

end OperationScan
