import OperationScan.Text.Basic

/-!
# Texts that differ in marks only

Decoding an escape puts something else in the place of a stretch. If that is no letter, and not
nothing, then no word comes up that has not been written before.

* `Retouched`: some stretches of a text have been replaced by marks.
* `Retouched.isInfix`: a word of the new text stands in the old one.
-/

namespace OperationScan.Text

/-- A text without letters, which is not empty. -/
structure IsMark (t : Text) : Prop where
  ne_nil : t ≠ []
  noLetter : ∀ c ∈ t, c.isAlpha = false

instance : DecidablePred IsMark := fun t =>
  have : Decidable (∀ c ∈ t, c.isAlpha = false) := List.decidableBAll _ t
  decidable_of_iff (t ≠ [] ∧ ∀ c ∈ t, c.isAlpha = false) ⟨fun h => ⟨h.1, h.2⟩, fun h => ⟨h.1, h.2⟩⟩

/-- A text of letters only. -/
def IsWord (t : Text) : Prop := ∀ c ∈ t, c.isAlpha = true

instance : DecidablePred IsWord := fun t => List.decidableBAll _ t

/-- The second text is the first one with some stretches replaced by marks. -/
inductive Retouched : Text → Text → Prop
  | nil : Retouched [] []
  | keep (c : Char) {t u : Text} (h : Retouched t u) : Retouched (c :: t) (c :: u)
  | mark (written : Text) {m t u : Text} (hm : IsMark m) (h : Retouched t u) :
      Retouched (written ++ t) (m ++ u)

namespace Retouched

variable {t u m k : Text}

/-- No word begins with a mark. -/
theorem eq_nil_of_isPrefix (hm : IsMark m) (hk : IsWord k) (h : k <+: m ++ u) : k = [] := by
  obtain ⟨c, m, rfl⟩ := List.exists_cons_of_ne_nil hm.ne_nil
  cases k with
  | nil => rfl
  | cons d k =>
    obtain ⟨rest, hrest⟩ := h
    obtain ⟨rfl, -⟩ := List.cons.inj hrest
    have hletter := hk d (by simp)
    rw [hm.noLetter d (by simp)] at hletter
    cases hletter

theorem isPrefix (h : Retouched t u) (hk : IsWord k) (hstart : k <+: u) : k <+: t := by
  induction h generalizing k with
  | nil => exact hstart
  | keep c _ ih =>
    cases k with
    | nil => exact List.nil_prefix
    | cons d k =>
      obtain ⟨rfl, hrest⟩ := List.cons_prefix_cons.mp hstart
      exact List.cons_prefix_cons.mpr ⟨rfl, ih (fun x hx => hk x (by simp [hx])) hrest⟩
  | mark written hm _ _ =>
    rw [eq_nil_of_isPrefix hm hk hstart]
    exact List.nil_prefix

/-- A word that stands behind a mark, or has it in front, does not reach into it. -/
theorem isInfix_of_append_mark (hm : ∀ c ∈ m, c.isAlpha = false) (hk : IsWord k)
    (h : k <:+: m ++ u) : k <:+: u := by
  induction m with
  | nil => exact h
  | cons c m ih =>
    obtain ⟨hc, hrest⟩ := List.forall_mem_cons.mp hm
    rcases List.infix_cons_iff.mp h with hstart | hwithin
    · have hmark : IsMark [c] := ⟨List.cons_ne_nil _ _, by simpa using hc⟩
      rw [eq_nil_of_isPrefix hmark hk hstart]
      exact List.nil_infix
    · exact ih hrest hwithin

/-- A word of the new text stands in the old one. -/
theorem isInfix (h : Retouched t u) (hk : IsWord k) (hwithin : k <:+: u) : k <:+: t := by
  induction h with
  | nil => exact hwithin
  | @keep c t u hrest ih =>
    rcases List.infix_cons_iff.mp hwithin with hstart | hinner
    · exact ((hrest.keep c).isPrefix hk hstart).isInfix
    · exact (ih hinner).trans (List.suffix_cons _ _).isInfix
  | mark written hm _ ih =>
    exact (ih (isInfix_of_append_mark hm.noLetter hk hwithin)).trans
      (List.suffix_append _ _).isInfix

end Retouched

end OperationScan.Text
