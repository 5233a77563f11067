import OperationScan.Proofs.Text.Respaced

/-!
# Reading a text at a place

`p.Reads t q` says that the text `t` stands at the place `p` and that `q` is the place behind it.
A reader is described by what it reads and by what must stand behind that.

* `Place.skip_eq_iff`: a run of characters.
* `Place.skipLiteral?_eq_some_iff`: a literal.
-/

namespace OperationScan

open Text

namespace Text

theorem drop_takeWhile (p : Char → Bool) (t : Text) :
    t.drop (t.takeWhile p).length = t.dropWhile p := by
  induction t with
  | nil => rfl
  | cons c t ih =>
    rw [List.takeWhile_cons, List.dropWhile_cons]
    split
    · simpa using ih
    · rfl

/-- Texts with the same run at the start and without a longer one. -/
theorem takeWhile_eq_of_append {p : Char → Bool} {t u : Text} (ht : ∀ c ∈ t, p c = true)
    (hu : u.head?.any p = false) : (t ++ u).takeWhile p = t := by
  have hstop : u.takeWhile p = [] := by
    cases u with
    | nil => rfl
    | cons c u =>
      have hc : p c = false := by simpa using hu
      simp [hc]
  rw [List.takeWhile_append_of_pos ht, hstop, List.append_nil]

end Text

namespace Place

theorem rest_skip (p : Place) (test : Char → Bool) :
    (p.skip test).rest = p.rest.dropWhile test :=
  drop_takeWhile test p.rest

/-- A text stands at a place, and another place is the one behind it. -/
structure Reads (p : Place) (t : Text) (q : Place) : Prop where
  rest : p.rest = t ++ q.rest
  index : q.index = p.index + t.length

namespace Reads

variable {p q r : Place} {t u : Text}

theorem refl (p : Place) : p.Reads [] p := ⟨rfl, rfl⟩

theorem trans (h : p.Reads t q) (h' : q.Reads u r) : p.Reads (t ++ u) r := by
  constructor
  · rw [h.rest, h'.rest, List.append_assoc]
  · rw [h'.index, h.index, List.length_append, Nat.add_assoc]

/-- The place behind a text is found by counting. -/
theorem eq_drop (h : p.Reads t q) : q = p.drop t.length := by
  obtain ⟨i, rest⟩ := q
  have hrest : p.rest = t ++ rest := h.rest
  have hindex : i = p.index + t.length := h.index
  rw [Place.drop, hrest, List.drop_left, hindex]

theorem eq_of_reads (h : p.Reads t q) (h' : p.Reads t r) : q = r := by
  rw [h.eq_drop, h'.eq_drop]

/-- What is read first and what is read from there on. -/
theorem append_cases (h : p.Reads (t ++ u) r) : ∃ q, p.Reads t q ∧ q.Reads u r := by
  have hrest : p.rest = t ++ (u ++ r.rest) := by rw [h.rest, List.append_assoc]
  refine ⟨⟨p.index + t.length, u ++ r.rest⟩, ⟨hrest, rfl⟩, rfl, ?_⟩
  rw [h.index, List.length_append, ← Nat.add_assoc]

end Reads

variable {p q : Place}

theorem skip_eq_iff (test : Char → Bool) :
    p.skip test = q ↔
      ∃ t, p.Reads t q ∧ (∀ c ∈ t, test c = true) ∧ q.rest.head?.any test = false := by
  constructor
  · rintro rfl
    refine ⟨p.run test, ⟨?_, rfl⟩, fun c hc => List.all_eq_true.mp List.all_takeWhile c hc, ?_⟩
    · rw [rest_skip]
      exact List.takeWhile_append_dropWhile.symm
    · rw [rest_skip]
      exact head?_dropWhile test p.rest
  · rintro ⟨t, h, ht, hq⟩
    have hrun : p.run test = t := by
      rw [run, h.rest]
      exact takeWhile_eq_of_append ht hq
    rw [skip, hrun, ← h.eq_drop]

theorem afterStart?_eq_some_iff {literal t rest : Text} :
    afterStart? literal t = some rest ↔ t = literal ++ rest := by
  induction literal generalizing t with
  | nil => simp [afterStart?, eq_comm]
  | cons c literal ih =>
    cases t with
    | nil => simp [afterStart?]
    | cons d t =>
      rw [afterStart?]
      split
      · rename_i hcd
        simp [ih, hcd]
      · rename_i hcd
        simp [Ne.symm hcd]

theorem skipLiteral?_eq_some_iff {literal : Text} :
    p.skipLiteral? literal = some q ↔ p.Reads literal q := by
  obtain ⟨j, rest⟩ := q
  rw [skipLiteral?, Option.map_eq_some_iff]
  constructor
  · rintro ⟨a, ha, hq⟩
    cases hq
    exact ⟨afterStart?_eq_some_iff.mp ha, rfl⟩
  · rintro ⟨hrest, hindex⟩
    refine ⟨rest, afterStart?_eq_some_iff.mpr hrest, ?_⟩
    dsimp only at hindex
    rw [hindex]

/-- A literal does not stand where another character does. -/
theorem skipLiteral?_eq_none {c : Char} {literal : Text} (h : p.rest.head? ≠ some c) :
    p.skipLiteral? (c :: literal) = none := by
  cases hq : p.skipLiteral? (c :: literal) with
  | none => rfl
  | some q =>
    rw [skipLiteral?_eq_some_iff] at hq
    rw [hq.rest] at h
    exact absurd rfl h

end Place

end OperationScan
