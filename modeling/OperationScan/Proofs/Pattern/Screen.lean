import OperationScan.Proofs.Pattern.Standard
import OperationScan.Proofs.Pattern.Starts

/-!
# What the screen lets through

A text passes the screen if one of its words stands in it. The keywords are such words, and no
pattern matches without a keyword.

* `passesScreen_of_isInfix`: a text with a word of the screen passes it.
* `exists_word_of_mem_matchesIn`: where a pattern matches, a keyword is written out.
* `matchesIn_eq_nil`: a text that does not pass the screen has no match of any pattern.
-/

namespace OperationScan

open Text

variable {t w : Text} {i : Nat}

theorem startsFolded_append (h : startsFolded w t = true) (u : Text) :
    startsFolded w (t ++ u) = true := by
  induction w generalizing t with
  | nil => rfl
  | cons c w ih =>
    cases t with
    | nil => cases h
    | cons d t =>
      rw [startsFolded, Bool.and_eq_true] at h
      rw [List.cons_append, startsFolded, Bool.and_eq_true]
      exact ⟨h.1, ih h.2⟩

theorem startsFolded_screenWord :
    ∀ w ∈ screenWords, w ≠ [] ∧ startsFolded w w = true := by decide

/-- A text with a word of the screen passes it. -/
theorem passesScreen_of_isInfix (hw : w ∈ screenWords) (h : w <:+: t) :
    passesScreen t = true := by
  obtain ⟨u, v, rfl⟩ := h
  obtain ⟨hne, hfolded⟩ := startsFolded_screenWord w hw
  induction u with
  | nil =>
    obtain ⟨c, w', rfl⟩ := List.exists_cons_of_ne_nil hne
    have hany : screenWords.any (startsFolded · (c :: w' ++ v)) = true :=
      List.any_eq_true.mpr ⟨_, hw, startsFolded_append hfolded v⟩
    change (screenWords.any (startsFolded · (c :: w' ++ v)) || passesScreen (w' ++ v)) = true
    rw [hany, Bool.true_or]
  | cons c u ih =>
    change (_ || passesScreen (u ++ w ++ v)) = true
    rw [ih, Bool.or_true]

theorem word_mem_screenWords : ∀ k ∈ Kind.keywords, k.word ∈ screenWords := by decide

theorem BeginsKeyword.exists_word (h : BeginsKeyword t) :
    ∃ k ∈ Kind.keywords, k.word <+: t := by
  obtain ⟨k, hk, rest, rfl, -⟩ := h
  exact ⟨k, hk, List.prefix_append _ _⟩

theorem HasKeywordAt.exists_word (h : HasKeywordAt none 0 t i) :
    ∃ k ∈ Kind.keywords, k.word <:+: t := by
  obtain ⟨u, v, rfl, -, -, hv⟩ := h
  obtain ⟨k, hk, hstart⟩ := hv.exists_word
  exact ⟨k, hk, hstart.isInfix.trans (List.suffix_append u v).isInfix⟩

theorem beginsKeyword_of_standardStep {before : Option Char} {p : Place} {s : Span} {n : Nat}
    (h : standardStep before p = .hit s n) : BeginsKeyword p.rest := by
  unfold standardStep at h
  split at h
  · cases h
  · rename_i hkeyword
    exact (keyword?_isSome_iff.mp (Option.isSome_of_eq_some hkeyword)).2

/-- Where a pattern matches, a keyword is written out. -/
theorem exists_word_of_mem_matchesIn {p : Pattern} (hp : p ∈ Pattern.all) {m : PatternMatch}
    (h : m ∈ p.matchesIn t) : ∃ k ∈ Kind.keywords, k.word <:+: t := by
  rcases List.mem_cons.mp hp with rfl | hp
  · obtain ⟨s, hs, -⟩ := List.mem_filterMap.mp h
    obtain ⟨u, v, n, rfl, hhit⟩ := exists_of_mem_findAll hs
    obtain ⟨k, hk, hstart⟩ := (beginsKeyword_of_standardStep hhit).exists_word
    exact ⟨k, hk, hstart.isInfix.trans (List.suffix_append u v).isInfix⟩
  · exact (hasKeywordAt_of_mem_matchesIn hp h).1.exists_word

/-- A text that does not pass the screen has no match of any pattern. -/
theorem matchesIn_eq_nil {p : Pattern} (hp : p ∈ Pattern.all) (h : passesScreen t = false) :
    p.matchesIn t = [] := by
  refine List.eq_nil_iff_forall_not_mem.mpr fun m hm => ?_
  obtain ⟨k, hk, hwithin⟩ := exists_word_of_mem_matchesIn hp hm
  rw [passesScreen_of_isInfix (word_mem_screenWords k hk) hwithin] at h
  cases h

end OperationScan
