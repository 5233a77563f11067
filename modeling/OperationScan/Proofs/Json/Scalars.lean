import OperationScan.Proofs.Json.Numbers

/-!
# Texts that spell a value

* `Spells`: a text that is read as a value wherever it stands.
* `spells_null`, `spells_bool`, `spells_int`, `spells_string`: what is written for a value without
  parts spells it.
-/

namespace OperationScan.Json

/-! ## Texts of values -/

/-- A value may begin with this character. -/
def Opens (c : Char) : Prop := isSpace c = false ∧ c ≠ ']' ∧ c ≠ '\x7d' ∧ c ≠ Char.ofNat 0xfeff

instance : DecidablePred Opens := fun c =>
  inferInstanceAs (Decidable (isSpace c = false ∧ c ≠ ']' ∧ c ≠ '\x7d' ∧ c ≠ Char.ofNat 0xfeff))

/-- A text that a reader takes for something wherever it stands. -/
structure Spells {α : Type} (item : Place → Reading α) (a : α) (t : Text) : Prop where
  first : ∃ c u, t = c :: u ∧ Opens c
  read : ∀ {p q : Place}, p.Reads t q → Ends q.rest → item p = .ok (a, q)

variable {depth : Nat}

/-- No string and no bracket opens here. -/
def IsScalar (t : Text) : Prop := ∀ c ∈ t.head?, c ≠ '"' ∧ c ≠ '[' ∧ c ≠ '\x7b'

theorem readValue_scalar {p : Place} (h : IsScalar p.rest) : readValue depth p =
    match readWord? p with
    | some r => .ok r
    | none => readNumber p := by
  unfold readValue
  split
  · rename_i hp
    exact absurd rfl (h '"' (by rw [hp]; rfl)).1
  · rename_i hp
    exact absurd rfl (h '[' (by rw [hp]; rfl)).2.1
  · rename_i hp
    exact absurd rfl (h '\x7b' (by rw [hp]; rfl)).2.2
  · rfl

theorem readWord?_null {p q : Place} (h : p.Reads "null".toList q) :
    readWord? p = some (.null, q) := by
  rw [readWord?, wordValues, List.findSome?_cons, Place.skipLiteral?_eq_some_iff.mpr h]
  rfl

theorem readWord?_true {p q : Place} (h : p.Reads "true".toList q) :
    readWord? p = some (.bool true, q) := by
  have hn : p.rest.head? ≠ some 'n' := by simp [h.rest]
  have hnull : p.skipLiteral? "null".toList = none := Place.skipLiteral?_eq_none hn
  rw [readWord?, wordValues, List.findSome?_cons, hnull, List.findSome?_cons,
    Place.skipLiteral?_eq_some_iff.mpr h]
  rfl

theorem readWord?_false {p q : Place} (h : p.Reads "false".toList q) :
    readWord? p = some (.bool false, q) := by
  have hn : p.rest.head? ≠ some 'n' := by simp [h.rest]
  have hnull : p.skipLiteral? "null".toList = none := Place.skipLiteral?_eq_none hn
  have ht : p.rest.head? ≠ some 't' := by simp [h.rest]
  have htrue : p.skipLiteral? "true".toList = none := Place.skipLiteral?_eq_none ht
  rw [readWord?, wordValues, List.findSome?_cons, hnull, List.findSome?_cons, htrue,
    List.findSome?_cons, Place.skipLiteral?_eq_some_iff.mpr h]
  rfl

/-- A word is read where it stands. -/
theorem spells_word {v : Value} {c : Char} {word : Text} (hfirst : Opens c)
    (hscalar : IsScalar (c :: word))
    (hread : ∀ {p q : Place}, p.Reads (c :: word) q → readWord? p = some (v, q)) :
    Spells (readValue depth) v (c :: word) := by
  refine ⟨⟨c, word, rfl, hfirst⟩, fun {p q} h _ => ?_⟩
  have hp : IsScalar p.rest := by
    rw [h.rest]
    exact hscalar
  rw [readValue_scalar hp, hread h]

theorem spells_null : Spells (readValue depth) .null "null".toList :=
  spells_word (c := 'n') (by decide) (by rintro c ⟨⟩; decide) readWord?_null

theorem spells_bool (b : Bool) :
    Spells (readValue depth) (.bool b) (if b then "true".toList else "false".toList) := by
  cases b with
  | true => exact spells_word (c := 't') (by decide) (by rintro c ⟨⟩; decide) readWord?_true
  | false => exact spells_word (c := 'f') (by decide) (by rintro c ⟨⟩; decide) readWord?_false

theorem spells_int {n : Int} {t : Text} (ht : writeInt n = .ok t) :
    Spells (readValue depth) (.int n) t := by
  have hother : ∀ c, c = '-' ∨ c.isDigit = true → Opens c ∧ c ≠ '"' ∧ c ≠ '[' ∧ c ≠ '\x7b' := by
    rintro c (rfl | hc)
    · decide
    · have hne : ∀ d : Char, d.isDigit = false → c ≠ d := by
        rintro d hd rfl
        rw [hd] at hc
        cases hc
      refine ⟨⟨?_, hne _ rfl, hne _ rfl, hne _ (by decide)⟩, hne _ rfl, hne _ rfl, hne _ rfl⟩
      simp [isSpace, hne ' ' rfl, hne '\t' rfl, hne '\n' rfl, hne '\r' rfl]
  refine ⟨?_, fun {p q} h hq => ?_⟩
  · have hstart := startsNumber_writeInt ht []
    rw [List.append_nil] at hstart
    obtain ⟨c, u, rfl, hc⟩ := exists_of_startsNumber hstart
    exact ⟨c, u, rfl, (hother c hc).1⟩
  · have hstart : startsNumber p.rest = true := by
      rw [h.rest]
      exact startsNumber_writeInt ht q.rest
    obtain ⟨c, u, hcons, hc⟩ := exists_of_startsNumber hstart
    have hscalar : IsScalar p.rest := by
      rw [hcons]
      rintro d ⟨⟩
      exact (hother c hc).2
    rw [readValue_scalar hscalar, readWord?_of_startsNumber hstart]
    exact readNumber_writeInt ht h hq

theorem spells_string (t : Text) : Spells (readValue depth) (.string t) (encode t) := by
  refine ⟨⟨'"', _, rfl, by decide⟩, fun {p q} h _ => ?_⟩
  obtain ⟨rest, hrest, hread⟩ := readString_encode h
  unfold readValue
  split
  · rename_i hp
    rw [hrest] at hp
    cases hp
    rw [hread]
    dsimp only
    rw [value_foldl_push]
  · rename_i hp
    rw [hrest] at hp
    cases hp
  · rename_i hp
    rw [hrest] at hp
    cases hp
  · rename_i hp _ _
    exact absurd hrest (hp rest)

end OperationScan.Json
