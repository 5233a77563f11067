import Mathlib.Data.List.Basic
import OperationScan.Pattern.Quoted
import OperationScan.Proofs.Operation.HeadSpelling
import OperationScan.Proofs.Pattern.Found

/-!
# Where keywords stand

* `BeginsKeyword`: a keyword stands at the start of a text and ends a word there.
* `HasKeywordAt`: a keyword stands as a whole word at an offset of a text.
* `keyword?_isSome_iff`: the reader of keywords.
* `not_hasKeywordAt_of_keywordPlaces`: a text without keyword places has no keyword.
-/

namespace OperationScan

open Text

/-- A keyword stands at the start of a text and ends a word there. -/
def BeginsKeyword (t : Text) : Prop :=
  ∃ k ∈ Kind.keywords, ∃ rest, t = k.word ++ rest ∧ wordEnds rest = true

/-- A keyword stands as a whole word at an offset, where offsets count from that of the text. -/
def HasKeywordAt (before : Option Char) (index : Nat) (t : Text) (i : Nat) : Prop :=
  ∃ u v, t = u ++ v ∧ index + u.length = i ∧ wordBegins (lastOr before u) = true ∧
    BeginsKeyword v

variable {p q : Place} {before : Option Char} {index i : Nat} {t u : Text}

theorem beginsKeyword_word : ∀ k ∈ Kind.keywords, k.word.head?.any beginsKeyword = true := by
  decide

theorem keyword?_eq_some {k : Kind} (h : p.keyword? before = some (k, q)) :
    wordBegins before = true ∧ Kind.at? p = some (k, q) := by
  unfold Place.keyword? at h
  split at h
  · split at h
    · rename_i hbegins
      rw [Bool.and_eq_true] at hbegins
      exact ⟨hbegins.2, h⟩
    · cases h
  · cases h

theorem keyword?_isSome_iff :
    (p.keyword? before).isSome = true ↔ wordBegins before = true ∧ BeginsKeyword p.rest := by
  constructor
  · intro h
    obtain ⟨⟨k, q⟩, hkq⟩ := Option.isSome_iff_exists.mp h
    obtain ⟨hbefore, hat⟩ := keyword?_eq_some hkq
    obtain ⟨hk, hread, hends⟩ := Head.kindAt?_eq_some_iff.mp hat
    exact ⟨hbefore, k, hk, q.rest, hread.rest, hends⟩
  · rintro ⟨hbefore, k, hk, rest, hrest, hends⟩
    have hread : p.Reads k.word ⟨p.index + k.word.length, rest⟩ := ⟨hrest, rfl⟩
    obtain ⟨c, w, hw⟩ := List.exists_cons_of_ne_nil (Head.word_ne_nil k hk)
    have hbegins := beginsKeyword_word k hk
    rw [hw, List.head?_cons, Option.any_some] at hbegins
    have hcons : p.rest = c :: (w ++ rest) := by rw [hrest, hw, List.cons_append]
    rw [Place.keyword?, hcons]
    dsimp only
    rw [hbegins, hbefore, Head.kindAt?_eq_some_iff.mpr ⟨hk, hread, hends⟩]
    rfl

namespace HasKeywordAt

theorem of_keyword? (h : (p.keyword? before).isSome = true) :
    HasKeywordAt before p.index p.rest p.index :=
  ⟨[], p.rest, rfl, rfl, keyword?_isSome_iff.mp h⟩

theorem append_left (h : HasKeywordAt (lastOr before u) (index + u.length) t i) :
    HasKeywordAt before index (u ++ t) i := by
  obtain ⟨w, v, rfl, hi, hbefore, hv⟩ := h
  refine ⟨u ++ w, v, (List.append_assoc ..).symm, ?_, ?_, hv⟩
  · rw [← hi, List.length_append, Nat.add_assoc]
  · rw [← hbefore, lastOr, lastOr, lastOr, List.getLast?_append, Option.or_assoc]

/-- A keyword behind a text, or in it from some character on. -/
theorem append_cases (h : HasKeywordAt before index (u ++ t) i) :
    HasKeywordAt (lastOr before u) (index + u.length) t i ∨
      ∃ v w, u = v ++ w ∧ w ≠ [] ∧ index + v.length = i ∧ wordBegins (lastOr before v) = true ∧
        BeginsKeyword (w ++ t) := by
  obtain ⟨v, w, huv, hi, hbefore, hw⟩ := h
  rcases List.append_eq_append_iff.mp huv with ⟨x, hv, ht⟩ | ⟨x, hu, hw'⟩
  · refine .inl ⟨x, w, ht, ?_, ?_, hw⟩
    · rw [← hi, hv, List.length_append, Nat.add_assoc]
    · rw [← hbefore, hv, lastOr, lastOr, lastOr, List.getLast?_append, Option.or_assoc]
  · cases x with
    | nil =>
      rw [List.append_nil] at hu
      rw [List.nil_append] at hw'
      rw [hu]
      exact .inl ⟨[], w, by rw [hw', List.nil_append], by simpa using hi, hbefore, hw⟩
    | cons c x => exact .inr ⟨v, c :: x, hu, List.cons_ne_nil c x, hi, hbefore, hw' ▸ hw⟩

end HasKeywordAt

theorem not_isQuote_word : ∀ k ∈ Kind.keywords, k.word.any isQuote = false := by
  decide

theorem BeginsKeyword.head? (h : BeginsKeyword t) : ∀ c ∈ t.head?, isQuote c = false := by
  obtain ⟨k, hk, rest, rfl, -⟩ := h
  intro c hc
  rw [List.head?_append_of_ne_nil _ (Head.word_ne_nil k hk)] at hc
  have hword := not_isQuote_word k hk
  rw [List.any_eq_false] at hword
  simpa using hword c (List.mem_of_mem_head? hc)

/-- A quote does not go on with a keyword. -/
theorem BeginsKeyword.of_append (h : BeginsKeyword (t ++ u))
    (hu : ∀ c ∈ u.head?, isQuote c = true) : BeginsKeyword t := by
  obtain ⟨k, hk, rest, htu, hends⟩ := h
  rcases List.append_eq_append_iff.mp htu with ⟨x, hword, hx⟩ | ⟨x, ht, hx⟩
  · cases x with
    | nil =>
      rw [List.append_nil] at hword
      exact ⟨k, hk, [], by rw [hword, List.append_nil], rfl⟩
    | cons c x =>
      have hquote := hu c (by rw [hx]; rfl)
      have hnone := not_isQuote_word k hk
      rw [List.any_eq_false] at hnone
      exact absurd hquote (hnone c (by simp [hword]))
  · refine ⟨k, hk, x, ht, ?_⟩
    cases x with
    | nil => rfl
    | cons c x => rwa [hx] at hends

/-- The places that are found are those that have been found before and those of the keywords. -/
theorem keywordPlacesFrom_eq_nil {found : List Place} {count : Nat}
    (h : keywordPlacesFrom index before found count t = []) (hcount : t.length ≤ count) :
    found = [] ∧ ∀ i, ¬ HasKeywordAt before index t i := by
  induction t generalizing index before found count with
  | nil =>
    refine ⟨by cases count <;> exact h, ?_⟩
    rintro i ⟨u, v, huv, -, -, k, hk, rest, rfl, -⟩
    obtain ⟨-, hv⟩ := List.append_eq_nil_iff.mp huv.symm
    exact Head.word_ne_nil k hk (List.append_eq_nil_iff.mp hv).1
  | cons c t ih =>
    cases count with
    | zero => cases hcount
    | succ count =>
      obtain ⟨hfound, hlater⟩ := ih h (Nat.le_of_succ_le_succ hcount)
      split at hfound
      · cases hfound
      · rename_i hnone
        refine ⟨hfound, ?_⟩
        rintro i ⟨u, v, huv, hi, hbefore, hv⟩
        cases u with
        | nil =>
          refine hnone (keyword?_isSome_iff.mpr ⟨hbefore, ?_⟩)
          rw [List.nil_append] at huv
          rw [huv]
          exact hv
        | cons d u =>
          cases huv
          rw [lastOr_cons] at hbefore
          exact hlater i ⟨u, v, rfl, by rw [← hi, List.length_cons]; omega, hbefore, hv⟩

theorem not_hasKeywordAt_of_keywordPlaces (h : keywordPlaces t t.length = []) (i : Nat) :
    ¬ HasKeywordAt none 0 t i :=
  (keywordPlacesFrom_eq_nil h (Nat.le_refl _)).2 i

end OperationScan
