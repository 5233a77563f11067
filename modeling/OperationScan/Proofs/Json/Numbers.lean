import Mathlib.Data.List.Basic
import Mathlib.Data.Nat.Digits.Defs
import OperationScan.Proofs.Json.Strings

/-!
# Integers of JSON are read as they were written

* `Number.valueOf?_ofNat`: decimal digits spell the number that they were written for.
* `Ends`: what may follow a value.
* `readNumber_writeInt`: a written integer is read as the integer that it was written for.
* `startsNumber_writeInt`: a written integer is not taken for one of the words.
-/

namespace OperationScan

/-! ## Decimal digits -/

namespace Number

theorem ofNat_eq_toDigits (n : Nat) : Text.ofNat n = Nat.toDigits 10 n := by
  rw [Text.ofNat, Nat.toString_eq_ofList_toDigits, String.toList_ofList]

theorem valueFrom_toDigits (n : Nat) : valueFrom 10 0 (Nat.toDigits 10 n) = some n := by
  induction n using Nat.strongRecOn with
  | ind n ih =>
    by_cases hn : n < 10
    · rw [Nat.toDigits_of_lt_base hn, valueFrom_digitChar (by decide) hn, Nat.zero_mul,
        Nat.zero_add]
    · rw [Nat.toDigits_of_base_le (by decide) (Nat.not_lt.mp hn), valueFrom_append,
        ih (n / 10) (by omega), Option.bind_some,
        valueFrom_digitChar (by decide) (Nat.mod_lt n (by decide)), Nat.mul_comm, Nat.div_add_mod]

theorem valueOf?_ofNat (n : Nat) : valueOf? 10 (Text.ofNat n) = some n := by
  rw [ofNat_eq_toDigits, valueOf?, if_neg (by simp), valueFrom_toDigits]

theorem isDigit_ofNat (n : Nat) : ∀ c ∈ Text.ofNat n, c.isDigit = true := by
  intro c hc
  rw [ofNat_eq_toDigits] at hc
  exact Nat.isDigit_of_mem_toDigits (by decide) (Nat.le_refl 10) hc

theorem digitChar_ne_zero : ∀ d < 10, d ≠ 0 → Nat.digitChar d ≠ '0' := by
  decide

/-- No zero stands in front of other digits. -/
theorem head?_ofNat {n : Nat} (hn : n ≠ 0) : (Text.ofNat n).head? ≠ some '0' := by
  rw [ofNat_eq_toDigits]
  induction n using Nat.strongRecOn with
  | ind n ih =>
    by_cases hlt : n < 10
    · rw [Nat.toDigits_of_lt_base hlt, List.head?_cons]
      exact fun h => digitChar_ne_zero n hlt hn (Option.some.inj h)
    · rw [Nat.toDigits_of_base_le (by decide) (Nat.not_lt.mp hlt),
        List.head?_append_of_ne_nil _ Nat.toDigits_ne_nil]
      exact ih (n / 10) (by omega) (by omega)

end Number

namespace Json

/-! ## Numbers -/

/-- The characters that may follow a value: a comma, a closing bracket and white space. -/
def stops : List Char := [',', ']', '\x7d', ' ', '\t', '\n', '\r']

/-- Nothing follows, or something that may follow a value does. -/
def Ends (t : Text) : Prop := ∀ c ∈ t.head?, c ∈ stops

theorem mem_stops_of_isSpace {c : Char} (h : isSpace c = true) : c ∈ stops := by
  simp only [isSpace, Bool.or_eq_true, beq_iff_eq] at h
  simp only [stops, List.mem_cons]
  tauto

theorem Ends.head?_any {t : Text} (h : Ends t) {test : Char → Bool}
    (htest : stops.any test = false) : t.head?.any test = false := by
  cases t with
  | nil => rfl
  | cons c t => exact eq_false_of_ne_true (List.any_eq_false.mp htest c (h c rfl))

theorem Ends.fractionAt {t : Text} (h : Ends t) : fractionAt t = [] := by
  unfold Json.fractionAt
  split
  · exact absurd (h '.' rfl) (by decide)
  · rfl

theorem Ends.exponentAt {t : Text} (h : Ends t) : exponentAt t = [] := by
  have hmark : t.head?.any (fun c => c == 'e' || c == 'E') = false := h.head?_any rfl
  cases t with
  | nil => rfl
  | cons c t =>
    have hmark : (c == 'e' || c == 'E') = false := hmark
    unfold Json.exponentAt
    dsimp only
    rw [hmark, if_neg Bool.false_ne_true]

theorem digitsAt_ofNat {n : Nat} {rest : Text} (h : Ends rest) :
    digitsAt (Text.ofNat n ++ rest) = Text.ofNat n :=
  Text.takeWhile_eq_of_append (Number.isDigit_ofNat n) (h.head?_any rfl)

theorem wholeAt_ofNat {n : Nat} {rest : Text} (h : Ends rest) :
    wholeAt (Text.ofNat n ++ rest) = Text.ofNat n := by
  unfold wholeAt
  split
  · rename_i u hu
    by_cases hn : n = 0
    · subst hn
      rfl
    · refine absurd ?_ (Number.head?_ofNat hn)
      have hne : Text.ofNat n ≠ [] := by
        rw [Number.ofNat_eq_toDigits]
        exact Nat.toDigits_ne_nil
      rw [← List.head?_append_of_ne_nil _ hne, hu]
      rfl
  · exact digitsAt_ofNat h

theorem head?_ofNat_append (n : Nat) (rest : Text) :
    ∃ c u, Text.ofNat n ++ rest = c :: u ∧ c.isDigit = true := by
  obtain ⟨c, u, hcons⟩ : ∃ c u, Text.ofNat n = c :: u := by
    rw [Number.ofNat_eq_toDigits]
    exact List.exists_cons_of_ne_nil Nat.toDigits_ne_nil
  rw [hcons]
  exact ⟨c, u ++ rest, rfl, Number.isDigit_ofNat n c (by simp [hcons])⟩

/-- What a number looks like to its reader, with the sign taken off. -/
theorem readNumber_digits {p q : Place} {n : Nat} (negative : Bool)
    (hsign : (p.rest.head? == some '-') = negative)
    (hbody : (if negative then p.rest.drop 1 else p.rest) = Text.ofNat n ++ q.rest)
    (hindex : q.index = p.index + (p.rest.length - q.rest.length)) (hq : Ends q.rest)
    (hlimit : (Text.ofNat n).length ≤ Number.digitLimit) :
    readNumber p = .ok (.int (if negative then -Int.ofNat n else Int.ofNat n), q) := by
  obtain ⟨c, u, hcons, -⟩ := head?_ofNat_append n []
  have hne : (Text.ofNat n).isEmpty = false := by
    rw [List.append_nil] at hcons
    rw [hcons]
    rfl
  obtain ⟨j, rest⟩ := q
  unfold readNumber
  simp only [hsign, hbody, wholeAt_ofNat hq, hne, List.drop_left, hq.fractionAt, hq.exponentAt,
    List.isEmpty_nil, List.length_nil, List.drop_zero, Bool.and_self, if_true,
    Nat.not_lt.mpr hlimit, Number.valueOf?_ofNat, if_false, Bool.false_eq_true]
  rw [← hindex]

theorem readNumber_writeInt {n : Int} {t : Text} {p q : Place} (ht : writeInt n = .ok t)
    (h : p.Reads t q) (hq : Ends q.rest) : readNumber p = .ok (.int n, q) := by
  have hindex : q.index = p.index + (p.rest.length - q.rest.length) := by
    rw [h.index, h.rest, List.length_append, Nat.add_sub_cancel]
  unfold writeInt at ht
  dsimp only at ht
  split at ht
  · cases ht
  rename_i hlimit
  have hrest := h.rest
  by_cases hn : n < 0
  · rw [if_pos hn] at ht
    cases ht
    have hint : n = -Int.ofNat n.natAbs := by
      rw [Int.ofNat_eq_natCast]
      omega
    conv =>
      rhs
      rw [hint]
    refine readNumber_digits true ?_ ?_ hindex hq (Nat.not_lt.mp hlimit)
    · rw [hrest]
      rfl
    · rw [hrest]
      rfl
  · rw [if_neg hn] at ht
    cases ht
    have hint : n = Int.ofNat n.natAbs := by
      rw [Int.ofNat_eq_natCast]
      omega
    conv =>
      rhs
      rw [hint]
    refine readNumber_digits false ?_ ?_ hindex hq (Nat.not_lt.mp hlimit)
    · obtain ⟨c, u, hcons, hc⟩ := head?_ofNat_append n.natAbs q.rest
      rw [hrest, hcons, List.head?_cons]
      simp only [beq_eq_false_iff_ne, ne_eq, Option.some.injEq]
      rintro rfl
      cases hc
    · rw [hrest]
      rfl
/-! ## How numbers begin -/

/-- A digit comes first, perhaps behind a minus. -/
def startsNumber : Text → Bool
  | '-' :: c :: _ => c.isDigit
  | c :: _ => c.isDigit
  | [] => false

theorem startsNumber_word (u : Text) : ∀ w ∈ wordValues, startsNumber (w.1 ++ u) = false := by
  simp only [wordValues, List.forall_mem_cons]
  exact ⟨rfl, rfl, rfl, rfl, rfl, rfl, by simp⟩

theorem readWord?_of_startsNumber {p : Place} (h : startsNumber p.rest = true) :
    readWord? p = none := by
  rw [readWord?, List.findSome?_eq_none_iff]
  intro w hw
  cases hq : p.skipLiteral? w.1 with
  | none => rfl
  | some q =>
    rw [(Place.skipLiteral?_eq_some_iff.mp hq).rest, startsNumber_word _ w hw] at h
    cases h

theorem exists_of_startsNumber {t : Text} (h : startsNumber t = true) :
    ∃ c u, t = c :: u ∧ (c = '-' ∨ c.isDigit = true) := by
  unfold startsNumber at h
  split at h
  · exact ⟨_, _, rfl, .inl rfl⟩
  · exact ⟨_, _, rfl, .inr h⟩
  · cases h

theorem startsNumber_writeInt {n : Int} {t : Text} (h : writeInt n = .ok t) (u : Text) :
    startsNumber (t ++ u) = true := by
  unfold writeInt at h
  dsimp only at h
  split at h
  · cases h
  obtain ⟨c, v, hcons, hc⟩ := head?_ofNat_append n.natAbs u
  split at h
  · cases h
    rw [List.cons_append, hcons]
    exact hc
  · cases h
    rw [hcons]
    unfold startsNumber
    split
    · rename_i heq
      cases heq
      cases hc
    · rename_i heq
      cases heq
      exact hc
    · rename_i heq
      cases heq

theorem isDigit_printable {c : Char} (h : c.isDigit = true) : IsPrintableAscii c := by
  rw [Char.isDigit, Bool.and_eq_true, decide_eq_true_eq, decide_eq_true_eq] at h
  have hlow : 48 ≤ c.toNat := h.1
  have hhigh : c.toNat ≤ 57 := h.2
  exact ⟨by omega, by omega⟩

theorem printable_writeInt {n : Int} {t : Text} (h : writeInt n = .ok t) :
    ∀ c ∈ t, IsPrintableAscii c := by
  have hdigits : ∀ c ∈ Text.ofNat n.natAbs, IsPrintableAscii c :=
    fun c hc => isDigit_printable (Number.isDigit_ofNat _ c hc)
  unfold writeInt at h
  dsimp only at h
  split at h
  · cases h
  split at h
  · cases h
    exact List.forall_mem_cons.mpr ⟨by decide, hdigits⟩
  · cases h
    exact hdigits

end Json

end OperationScan
