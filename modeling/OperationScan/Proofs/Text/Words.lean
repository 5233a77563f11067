import Mathlib.Data.List.Basic
import OperationScan.Proofs.Text.Pieces
import OperationScan.Proofs.Text.Respaced

/-!
# The words of a text

White space separates words, and the signature of a text keeps nothing else of it: it is the words
with one blank between each two.

* `words_eq_filter_splitOnP`: the words are what is not empty of the pieces between white space.
* `words_append_blank`, `IsUnbroken.words_append`: white space cuts a text, and a word is cut off
  where white space follows it.
* `word_induction`: a text is built of white space and words.
* `collapse_eq_join`: the collapsed text, if no white space stands at the end.
* `normalize_eq_iff_words`: which texts have the same signature.
-/

namespace OperationScan.Text

/-- A text that is not empty and has no white space. -/
def IsUnbroken (w : Text) : Prop := w ≠ [] ∧ ∀ c ∈ w, isBlank c = false

/-- A text is empty or begins with white space, so that it goes on with no word. -/
def EndsWord (t : Text) : Prop := ∀ c ∈ t.head?, isBlank c = true

variable {c : Char} {t u w : Text}

/-! ## Cutting a text -/

/-- The word that is being read is the first piece, and what has been read behind it are the pieces
that follow it. -/
theorem foldr_consWord (t : Text) : ∃ first rest, t.splitOnP isBlank = first :: rest ∧
    t.foldr consWord ([], []) = (first, rest.filter (!·.isEmpty)) := by
  induction t with
  | nil => exact ⟨[], [], List.splitOnP_nil .., rfl⟩
  | cons c t ih =>
    obtain ⟨first, rest, hsplit, hfold⟩ := ih
    rw [List.splitOnP_cons_eq_if_modifyHead, hsplit, List.foldr_cons, hfold, consWord]
    by_cases hc : isBlank c = true
    · refine ⟨[], first :: rest, if_pos hc, ?_⟩
      rw [if_pos hc, List.filter_cons]
      cases first with
      | nil => rfl
      | cons d first => rfl
    · exact ⟨c :: first, rest, if_neg hc, if_neg hc⟩

/-- The words are what is not empty of the pieces between white space. -/
theorem words_eq_filter_splitOnP (t : Text) :
    words t = (t.splitOnP isBlank).filter (!·.isEmpty) := by
  obtain ⟨first, rest, hsplit, hfold⟩ := foldr_consWord t
  rw [words, hfold, hsplit, List.filter_cons]
  cases first with
  | nil => rfl
  | cons d first => rfl

/-- White space cuts a text into what stands before it and what stands behind it. -/
theorem words_append_blank (hc : isBlank c = true) (t u : Text) :
    words (t ++ c :: u) = words t ++ words u := by
  rw [words_eq_filter_splitOnP, List.splitOnP_append_cons t u hc, List.filter_append,
    ← words_eq_filter_splitOnP, ← words_eq_filter_splitOnP]

theorem words_cons_blank (hc : isBlank c = true) (t : Text) : words (c :: t) = words t :=
  words_append_blank hc [] t

/-- There is nothing to cut in a word. -/
theorem IsUnbroken.words_eq (h : IsUnbroken w) : words w = [w] := by
  have hne : (!w.isEmpty) = true := by simpa using h.1
  rw [words_eq_filter_splitOnP, List.splitOnP_eq_singleton h.2, List.filter_cons, if_pos hne]
  rfl

/-- A word is cut off where white space follows it. -/
theorem IsUnbroken.words_append (h : IsUnbroken w) (hu : EndsWord u) :
    words (w ++ u) = w :: words u := by
  cases u with
  | nil => rw [List.append_nil, h.words_eq]; rfl
  | cons c u =>
    have hc : isBlank c = true := hu c rfl
    rw [words_append_blank hc, h.words_eq, words_cons_blank hc]
    rfl

/-! ## Texts as white space and words -/

/-- A text that begins with another character begins with a word. -/
theorem exists_isUnbroken_append (hc : isBlank c = false) (t : Text) :
    ∃ w u, IsUnbroken w ∧ EndsWord u ∧ c :: t = w ++ u ∧ u.length ≤ t.length := by
  refine ⟨c :: t.takeWhile (!isBlank ·), t.dropWhile (!isBlank ·), ⟨List.cons_ne_nil _ _, ?_⟩, ?_,
    ?_, t.dropWhile_sublist _ |>.length_le⟩
  · rw [List.forall_mem_cons]
    refine ⟨hc, fun d hd => ?_⟩
    simpa using List.all_eq_true.mp List.all_takeWhile d hd
  · intro d hd
    have hstop := head?_dropWhile (!isBlank ·) t
    rw [Option.mem_def.mp hd] at hstop
    simpa using hstop
  · rw [List.cons_append, List.takeWhile_append_dropWhile]

/-- What is kept by white space and by whole words holds of every text. -/
theorem word_induction {P : Text → Prop} (nil : P [])
    (blank : ∀ c t, isBlank c = true → P t → P (c :: t))
    (word : ∀ w u, IsUnbroken w → EndsWord u → P u → P (w ++ u)) (t : Text) : P t := by
  induction hn : t.length using Nat.strongRecOn generalizing t with
  | ind n ih =>
    cases t with
    | nil => exact nil
    | cons c t =>
      rw [List.length_cons] at hn
      by_cases hc : isBlank c = true
      · exact blank c t hc (ih t.length (by omega) t rfl)
      · obtain ⟨w, u, hw, hu, heq, hle⟩ := exists_isUnbroken_append (Bool.eq_false_iff.mpr hc) t
        rw [heq]
        exact word w u hw hu (ih u.length (by omega) u rfl)

theorem isUnbroken_of_mem_words (h : w ∈ words t) : IsUnbroken w := by
  induction t using word_induction with
  | nil => cases h
  | blank c t hc ih =>
    rw [words_cons_blank hc] at h
    exact ih h
  | word v u hv hu ih =>
    rw [hv.words_append hu] at h
    rcases List.mem_cons.mp h with rfl | h
    · exact hv
    · exact ih h

theorem IsUnbroken.not_isBlank (h : IsUnbroken w) : ¬ IsBlank (w ++ t) := by
  obtain ⟨c, v, rfl⟩ := List.exists_cons_of_ne_nil h.1
  intro hblank
  have hc := h.2 c List.mem_cons_self
  rw [hblank c List.mem_cons_self] at hc
  cases hc

theorem words_eq_nil_iff : words t = [] ↔ IsBlank t := by
  induction t using word_induction with
  | nil => exact ⟨fun _ => isBlank_nil, fun _ => rfl⟩
  | blank c t hc ih =>
    rw [words_cons_blank hc, ih, isBlank_cons]
    exact ⟨fun h => ⟨hc, h⟩, And.right⟩
  | word w u hw hu _ =>
    rw [hw.words_append hu]
    exact ⟨fun h => absurd h (List.cons_ne_nil _ _), fun h => absurd h hw.not_isBlank⟩

theorem IsBlank.words_append (h : IsBlank u) (t : Text) : words (t ++ u) = words t := by
  cases u with
  | nil => rw [List.append_nil]
  | cons c u =>
    rw [isBlank_cons] at h
    rw [words_append_blank h.1, words_eq_nil_iff.mpr h.2, List.append_nil]

theorem IsBlank.append_words (h : IsBlank u) (t : Text) : words (u ++ t) = words t := by
  induction u with
  | nil => rfl
  | cons c u ih =>
    rw [isBlank_cons] at h
    rw [List.cons_append, words_cons_blank h.1, ih h.2]

/-- White space at the ends of a text belongs to no word. -/
theorem words_trim (t : Text) : words (trim t) = words t := by
  obtain ⟨a, b, ha, hb, ht⟩ := exists_eq_trim t
  have hwords : words (a ++ (trim t ++ b)) = words (trim t) := by
    rw [ha.append_words, hb.words_append]
  rw [← hwords, ← ht]

/-- Words with a blank between each two are read as these words. -/
theorem words_join {ws : List Text} (h : ∀ w ∈ ws, IsUnbroken w) : words (join [' '] ws) = ws := by
  induction ws with
  | nil => rfl
  | cons w ws ih =>
    rw [List.forall_mem_cons] at h
    by_cases hws : ws = []
    · subst hws
      rw [join, List.intercalate_singleton]
      exact h.1.words_eq
    · rw [join_cons [' '] w hws, List.singleton_append, words_append_blank isBlank_space,
        h.1.words_eq, ih h.2]
      rfl

/-! ## Signatures -/

theorem IsUnbroken.collapse_append (h : IsUnbroken w) (t : Text) :
    collapse (w ++ t) = w ++ collapse t := by
  obtain ⟨-, hletters⟩ := h
  induction w with
  | nil => rfl
  | cons c w ih =>
    rw [List.forall_mem_cons] at hletters
    rw [List.cons_append, collapse_cons, ih hletters.2, consCollapsed_eq, hletters.1]
    rfl

/-- White space in front of a text shows as one blank; the rest of a collapsed text are its words,
with a blank between each two. -/
theorem collapse_eq_join (h : t.getLast?.any isBlank = false) :
    collapse t = (if t.head?.any isBlank then [' '] else []) ++ join [' '] (words t) := by
  induction t using word_induction with
  | nil => rfl
  | blank c t hc ih =>
    cases t with
    | nil =>
      rw [List.getLast?_singleton, Option.any_some, hc] at h
      cases h
    | cons d t =>
      rw [List.getLast?_cons_cons] at h
      have hsame := (respaced_collapse (d :: t)).head?_isBlank
      rw [collapse_cons, consCollapsed_eq, if_pos hc, words_cons_blank hc, List.head?_cons,
        Option.any_some, hc, if_pos rfl]
      rw [List.head?_cons, Option.any_some] at hsame
      by_cases hd : isBlank d = true
      · rw [ih h, List.head?_cons, Option.any_some, hd]
        simp
      · have hspace : (collapse (d :: t)).head? ≠ some ' ' := by
          intro hhead
          rw [hhead] at hsame
          exact hd hsame
        rw [if_neg hspace, ih h, List.head?_cons, Option.any_some, if_neg hd]
        rfl
  | word w u hw hu ih =>
    obtain ⟨c, v, rfl⟩ := List.exists_cons_of_ne_nil hw.1
    have hfirst : (c :: v ++ u).head?.any isBlank = false := hw.2 c List.mem_cons_self
    rw [hw.collapse_append, hw.words_append hu, hfirst, if_neg Bool.false_ne_true, List.nil_append]
    cases u with
    | nil =>
      have hjoin : join [' '] [c :: v] = c :: v := List.intercalate_singleton
      exact (List.append_nil _).trans hjoin.symm
    | cons d u =>
      rw [List.getLast?_append_of_ne_nil _ (List.cons_ne_nil d u)] at h
      have hsome : words (d :: u) ≠ [] := by
        intro hnone
        have hlast := words_eq_nil_iff.mp hnone _ (List.getLast_mem (List.cons_ne_nil d u))
        rw [List.getLast?_eq_some_getLast (List.cons_ne_nil d u), Option.any_some, hlast] at h
        cases h
      rw [join_cons [' '] _ hsome, ih h, List.head?_cons, Option.any_some, hu d rfl, if_pos rfl]

/-- The signature of a text is its words with a blank between each two. -/
theorem normalize_eq_join (t : Text) : normalize t = join [' '] (words t) := by
  have htrimmed := trimmed_trim t
  rw [← normalize_trim, normalize_eq_collapse htrimmed, collapse_eq_join htrimmed.2, htrimmed.1,
    if_neg Bool.false_ne_true, words_trim]
  rfl

theorem words_normalize (t : Text) : words (normalize t) = words t := by
  rw [normalize_eq_join, words_join fun _ => isUnbroken_of_mem_words]

/-- Two texts have the same signature exactly if white space separates the same words in them. The
signature is the words with a blank between each two, so it is its own signature, and it is empty
only if there is nothing but white space. -/
theorem normalize_eq_iff_words (t u : Text) :
    (normalize t = normalize u ↔ words t = words u) ∧
    words t = (t.splitOnP isBlank).filter (!·.isEmpty) ∧
    normalize t = join [' '] (words t) ∧
    normalize (normalize t) = normalize t ∧
    (normalize t = [] ↔ ∀ c ∈ t, isBlank c = true) := by
  have hiff : ∀ a b : Text, normalize a = normalize b ↔ words a = words b := by
    intro a b
    constructor
    · intro h
      rw [← words_normalize a, h, words_normalize]
    · intro h
      rw [normalize_eq_join, h, ← normalize_eq_join]
  refine ⟨hiff t u, words_eq_filter_splitOnP t, normalize_eq_join t, ?_, ?_⟩
  · rw [hiff, words_normalize]
  · exact (hiff t []).trans words_eq_nil_iff

/-- Texts that are spelled with different white space, the words of which are the same. -/
example : normalize "  query\tA \x7b\n a \x7d".toList =
    normalize "query A\u00a0\x7b a \x7d\r\n".toList := by decide +kernel

end OperationScan.Text
