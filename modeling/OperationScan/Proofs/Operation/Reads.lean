import OperationScan.Proofs.Operation.HeadRespaced

/-!
# Reading names and parentheses

Each reader is described by what it reads and by what must stand behind that.

* `Place.name?_eq_some_iff`, `Place.name?_eq_none_iff`: a name.
* `Place.parenthesized?_eq_some_iff`: a text between parentheses.
-/

namespace OperationScan

open Text

namespace Text

/-- A name begins with a letter or an underscore, and digits may follow. -/
def IsName : Text → Prop
  | [] => False
  | c :: rest => isNameStart c = true ∧ ∀ d ∈ rest, isNameChar d = true

/-- No parenthesis stands in a text. -/
def IsInside (t : Text) : Prop := ∀ c ∈ t, Place.isInside c = true

theorem isNameChar_of_isNameStart {c : Char} (h : isNameStart c = true) : isNameChar c = true := by
  rw [isNameStart, Bool.or_eq_true] at h
  rw [isNameChar, Char.isAlphanum]
  rcases h with h | h
  · simp [h]
  · simp [h]

theorem IsName.isNameChar {t : Text} (h : IsName t) : ∀ c ∈ t, Text.isNameChar c = true := by
  cases t with
  | nil => exact h.elim
  | cons c rest =>
    intro d hd
    rcases List.mem_cons.mp hd with rfl | hd
    · exact isNameChar_of_isNameStart h.1
    · exact h.2 d hd

theorem IsName.append {t u : Text} (ht : IsName t) (hu : ∀ c ∈ u, Text.isNameChar c = true) :
    IsName (t ++ u) := by
  cases t with
  | nil => exact ht.elim
  | cons c t =>
    refine ⟨ht.1, fun d hd => ?_⟩
    rcases List.mem_append.mp hd with hd | hd
    · exact ht.2 d hd
    · exact hu d hd

theorem IsName.of_append {t u : Text} (h : IsName (t ++ u)) (ht : t ≠ []) : IsName t := by
  cases t with
  | nil => exact absurd rfl ht
  | cons c t => exact ⟨h.1, fun d hd => h.2 d (List.mem_append_left u hd)⟩

theorem isBlank_of_isNameChar {c : Char} (h : isNameChar c = true) : isBlank c = false := by
  cases hc : isBlank c with
  | false => rfl
  | true =>
    rw [isNameChar_of_isBlank hc] at h
    cases h

end Text

namespace Place

variable {p q : Place}

/-! ## Readers -/

theorem skipBlanks_eq_iff :
    p.skipBlanks = q ↔ ∃ t, p.Reads t q ∧ IsBlank t ∧ q.rest.head?.any isBlank = false :=
  skip_eq_iff isBlank

theorem name?_eq_some_iff {name : Text} :
    p.name? = some (name, q) ↔
      IsName name ∧ p.Reads name q ∧ q.rest.head?.any isNameChar = false := by
  constructor
  · intro h
    have hread := name?_eq_some h
    have hskip : p.skip isNameChar = q := by rw [hread.2, hread.1]; rfl
    obtain ⟨t, ht, hall, hstop⟩ := (skip_eq_iff isNameChar).mp hskip
    have hname : name = t := by
      rw [hread.1, ht.rest]
      exact takeWhile_eq_of_append hall hstop
    refine ⟨?_, hname ▸ ht, hstop⟩
    unfold name? at h
    split at h
    · rename_i c rest hrest
      split at h
      · rename_i hc
        have hrun : name = c :: rest.takeWhile isNameChar := by
          rw [hread.1, hrest, List.takeWhile_cons, if_pos (isNameChar_of_isNameStart hc)]
        rw [hrun]
        exact ⟨hc, fun d hd => List.all_eq_true.mp List.all_takeWhile d hd⟩
      · cases h
    · cases h
  · rintro ⟨hname, h, hstop⟩
    cases name with
    | nil => exact hname.elim
    | cons c name =>
      have hrun : p.run isNameChar = c :: name := by
        rw [run, h.rest]
        exact takeWhile_eq_of_append hname.isNameChar hstop
      have hrest : p.rest = c :: (name ++ q.rest) := h.rest
      rw [name?, hrest]
      dsimp only
      rw [if_pos hname.1, hrun, ← h.eq_drop]

theorem name?_eq_none_iff : p.name? = none ↔ p.rest.head?.any isNameStart = false := by
  unfold name?
  split
  · rename_i c rest hrest
    rw [hrest]
    split
    · rename_i hc
      simp [hc]
    · rename_i hc
      simpa using hc
  · rename_i hrest
    simp [hrest]

theorem parenthesized?_eq_some_iff {inside : Text} :
    p.parenthesized? = some (inside, q) ↔
      IsInside inside ∧ p.Reads ('(' :: (inside ++ [')'])) q := by
  obtain ⟨i, t⟩ := p
  constructor
  · intro h
    by_cases ht : t.head? = some '('
    · obtain ⟨u, rfl⟩ := List.head?_eq_some_iff.mp ht
      rw [parenthesized?_cons] at h
      split at h
      · rename_i hclose
        cases h
        obtain ⟨v, hv⟩ := List.head?_eq_some_iff.mp hclose
        refine ⟨fun c hc => List.all_eq_true.mp List.all_takeWhile c hc, ?_, ?_⟩
        · dsimp only
          rw [hv, List.tail_cons, List.cons_append, List.append_assoc, List.singleton_append, ← hv,
            List.takeWhile_append_dropWhile]
        · simp
      · cases h
    · rw [parenthesized?_eq_none ht] at h
      cases h
  · rintro ⟨hinside, h⟩
    have hrest : t = '(' :: (inside ++ ')' :: q.rest) := by simpa using h.rest
    have htake : (inside ++ ')' :: q.rest).takeWhile isInside = inside :=
      takeWhile_eq_of_append hinside rfl
    have hdrop : (inside ++ ')' :: q.rest).dropWhile isInside = ')' :: q.rest := by
      rw [List.dropWhile_append_of_pos hinside]
      rfl
    rw [hrest, parenthesized?_cons, htake, hdrop, List.head?_cons, if_pos rfl]
    obtain ⟨j, rest⟩ := q
    have hindex : j = i + ('(' :: (inside ++ [')'])).length := h.index
    simp [hindex]

end Place

end OperationScan
