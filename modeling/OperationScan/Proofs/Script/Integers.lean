import Mathlib.Data.Nat.Digits.Defs
import OperationScan.Proofs.Script.Overflow
import OperationScan.Proofs.Script.Spelling

/-!
# Integers as they are written

An integer is written in decimal without zeros in front, or in one of three other bases behind a
zero and a letter. A separator may stand between any two digits.

* `HexDigit.numeral`: the number that digits spell in a base. `HexDigit.valueFrom_text_eq` says that
  this is what is read.
* `Separated`: digits with separators between some of them.
* `IntegerSpelling`: what an integer may be written as.
* `numberValue?_of_spelling`: an integer has its exact value, however it is written.
* `numberValue?_ne_int_of_long`: a decimal integer beyond the limit of digits has none.
-/

namespace OperationScan.Script

/-! ## Digits -/

namespace HexDigit

variable {base : Nat} {d : HexDigit} {ds : List HexDigit}

/-- The number that digits spell in a base. -/
def numeral (base : Nat) (ds : List HexDigit) : Nat :=
  Nat.ofDigits base (ds.map fun d => d.value.val).reverse

theorem numeral_cons (base : Nat) (d : HexDigit) (ds : List HexDigit) :
    numeral base (d :: ds) = numeral base ds + base ^ ds.length * d.value := by
  rw [numeral, List.map_cons, Nat.ofDigits_reverse_cons, List.length_map]
  rfl

/-- Digits are read from the left; each moves those in front of it up by one place. -/
theorem valueFrom_text_eq (hdigits : ∀ d ∈ ds, d.value.val < base) (start : Nat) :
    Number.valueFrom base start (text ds) =
      some (start * base ^ ds.length + numeral base ds) := by
  induction ds generalizing start with
  | nil => simp [text, Number.valueFrom, numeral]
  | cons d ds ih =>
    obtain ⟨hd, hds⟩ := List.forall_mem_cons.mp hdigits
    have hvalue : (start * base + d.value) * base ^ ds.length + numeral base ds =
        start * base ^ (ds.length + 1) + (numeral base ds + base ^ ds.length * d.value) := by
      ring
    rw [text, List.map_cons, Number.valueFrom, digitValue?_char]
    dsimp only
    rw [if_pos hd, ← text, ih hds, hvalue, numeral_cons, List.length_cons]

theorem valueOf?_text_eq (hdigits : ∀ d ∈ ds, d.value.val < base) (hne : ds ≠ []) :
    Number.valueOf? base (text ds) = some (numeral base ds) := by
  rw [Number.valueOf?, if_neg (by simpa [text] using hne), valueFrom_text_eq hdigits,
    Nat.zero_mul, Nat.zero_add]

theorem isPlain_char (d : HexDigit) : IsPlain d.char ∧ d.char ≠ '_' := by
  have hall : ∀ (v : Fin 16) (b : Bool), IsPlain (char ⟨v, b⟩) ∧ char ⟨v, b⟩ ≠ '_' := by decide
  exact hall d.value d.capital

theorem isPlain_of_mem_text : ∀ c ∈ text ds, IsPlain c := by
  intro c hc
  obtain ⟨d, -, rfl⟩ := List.mem_map.mp hc
  exact (isPlain_char d).1

theorem char_eq_zero_iff (d : HexDigit) : d.char = '0' ↔ d.value.val = 0 := by
  have hall : ∀ (v : Fin 16) (b : Bool), char ⟨v, b⟩ = '0' ↔ v.val = 0 := by decide
  exact hall d.value d.capital

end HexDigit

open HexDigit

/-! ## Spellings -/

/-- Digits with a separator between some of them. -/
inductive Separated : List HexDigit → Text → Prop
  | last (d : HexDigit) : Separated [d] [d.char]
  | adjacent {ds : List HexDigit} {t : Text} (d : HexDigit) (h : Separated ds t) :
      Separated (d :: ds) (d.char :: t)
  | apart {ds : List HexDigit} {t : Text} (d : HexDigit) (h : Separated ds t) :
      Separated (d :: ds) (d.char :: '_' :: t)

/-- Digits do not begin with a zero, but for a single one. -/
def NoLeadingZero (ds : List HexDigit) : Prop :=
  ds.length = 1 ∨ ∀ d ∈ ds.head?, d.value.val ≠ 0

/-- The letters that announce a base behind a zero. -/
def baseLetters : List (Char × Nat) :=
  [('x', 16), ('X', 16), ('o', 8), ('O', 8), ('b', 2), ('B', 2)]

/-- What an integer may be written as. -/
inductive IntegerSpelling (n : Nat) : Text → Prop
  | decimal {ds : List HexDigit} {t : Text} (h : Separated ds t)
      (hdigits : ∀ d ∈ ds, d.value.val < 10) (hlead : NoLeadingZero ds)
      (hlength : ds.length ≤ Number.digitLimit) (hn : numeral 10 ds = n) : IntegerSpelling n t
  | marked {ds : List HexDigit} {t : Text} {letter : Char} {base : Nat} (h : Separated ds t)
      (hletter : (letter, base) ∈ baseLetters) (hdigits : ∀ d ∈ ds, d.value.val < base)
      (hn : numeral base ds = n) : IntegerSpelling n ('0' :: letter :: t)

variable {ds : List HexDigit} {t : Text} {n : Nat}

namespace Separated

theorem ne_nil (h : Separated ds t) : ds ≠ [] := by
  cases h <;> exact List.cons_ne_nil _ _

/-- The digits are what is left without the separators. -/
theorem filter_eq (h : Separated ds t) : t.filter (· != '_') = text ds := by
  have hkept : ∀ (d : HexDigit) (rest : Text),
      (d.char :: rest).filter (· != '_') = d.char :: rest.filter (· != '_') :=
    fun d rest => List.filter_cons_of_pos (by simpa using (isPlain_char d).2)
  induction h with
  | last d => rw [hkept]; rfl
  | adjacent d _ ih => rw [hkept, ih]; rfl
  | apart d _ ih => rw [hkept, List.filter_cons_of_neg (by simp), ih]; rfl

end Separated

/-! ## Reading -/

/-- A decimal integer that begins with zero is zero. -/
theorem NoLeadingZero.eq_nil {rest : Text} (hlead : NoLeadingZero ds)
    (h : text ds = '0' :: rest) : rest = [] ∧ numeral 10 ds = 0 := by
  cases ds with
  | nil => cases h
  | cons d ds =>
    obtain ⟨hchar, rfl⟩ := List.cons.inj h
    have hvalue : d.value.val = 0 := (char_eq_zero_iff d).mp hchar
    have hlength : (d :: ds).length = 1 := hlead.resolve_right fun hne => hne d rfl hvalue
    obtain rfl : ds = [] := List.length_eq_zero_iff.mp (Nat.succ.inj hlength)
    refine ⟨rfl, ?_⟩
    rw [numeral_cons, hvalue]
    rfl

theorem naturalValue?_eq_decimalValue? (hlead : NoLeadingZero ds) :
    Number.naturalValue? (text ds) = Number.decimalValue? (text ds) := by
  unfold Number.naturalValue?
  split
  · rename_i htext
    cases (hlead.eq_nil htext).1
  · rfl

theorem naturalValue?_decimal (hdigits : ∀ d ∈ ds, d.value.val < 10) (hne : ds ≠ [])
    (hlead : NoLeadingZero ds) (hlength : ds.length ≤ Number.digitLimit) :
    Number.naturalValue? (text ds) = some (numeral 10 ds) := by
  have hlimit : ¬ (text ds).length > Number.digitLimit := by
    rw [text, List.length_map]
    exact Nat.not_lt.mpr hlength
  have hzero : ¬ ((text ds).head? == some '0' && numeral 10 ds != 0) = true := by
    rw [Bool.and_eq_true, beq_iff_eq, bne_iff_ne]
    rintro ⟨hhead, hne⟩
    obtain ⟨rest, htext⟩ := List.head?_eq_some_iff.mp hhead
    exact hne (hlead.eq_nil htext).2
  rw [naturalValue?_eq_decimalValue? hlead, Number.decimalValue?, valueOf?_text_eq hdigits hne]
  dsimp only
  rw [if_neg hlimit, if_neg hzero]

theorem naturalValue?_marked {letter : Char} {base : Nat} (hletter : (letter, base) ∈ baseLetters)
    (hdigits : ∀ d ∈ ds, d.value.val < base) (hne : ds ≠ []) :
    Number.naturalValue? ('0' :: letter :: text ds) = some (numeral base ds) := by
  have hall : ∀ m ∈ baseLetters, Number.baseOf? m.1 = some m.2 := by decide
  rw [Number.naturalValue?, hall _ hletter]
  exact valueOf?_text_eq hdigits hne

/-- An integer has its exact value, of any size, in each of the ways to write it. -/
theorem numberValue?_of_spelling (h : IntegerSpelling n t) :
    numberValue? t = some (.int n) ∧
      ∀ (x : ScopeIndex) (s : Site), s.kind = .number → s.text = t →
        staticValue x s = .ok (some (.int n)) := by
  have hvalue : numberValue? t = some (.int n) := by
    cases h with
    | decimal h hdigits hlead hlength hn =>
      refine numberValue?_of_naturalValue? h.filter_eq isPlain_of_mem_text ?_
      rw [naturalValue?_decimal hdigits h.ne_nil hlead hlength, hn]
    | @marked ds t letter base h hletter hdigits hn =>
      have hplain : ∀ m ∈ baseLetters, IsPlain m.1 ∧ m.1 ≠ '_' := by decide
      obtain ⟨hletter', hne⟩ := hplain _ hletter
      have hfilter : ('0' :: letter :: t).filter (· != '_') = '0' :: letter :: text ds := by
        rw [List.filter_cons_of_pos (by decide), List.filter_cons_of_pos (by simpa using hne),
          h.filter_eq]
      refine numberValue?_of_naturalValue? hfilter ?_ ?_
      · rw [List.forall_mem_cons, List.forall_mem_cons]
        exact ⟨by decide, hletter', isPlain_of_mem_text⟩
      · rw [naturalValue?_marked hletter hdigits h.ne_nil, hn]
  refine ⟨hvalue, fun x s hkind htext => ?_⟩
  rw [← hvalue, ← htext]
  exact answer_value_of_number (Nat.zero_le maxDepth) hkind

/-- Numbers with separators, one of them too long for a float. -/
theorem numberValue?_of_spelling_separated :
    numberValue? "9_007_199_254_740_993".toList = some (.int 9007199254740993) ∧
    numberValue? "0X00_fF".toList = some (.int 255) ∧
    numberValue? "0o1_7".toList = some (.int 15) ∧
    numberValue? "0B1_0".toList = some (.int 2) ∧
    staticValue .empty ⟨covering .number "0B1_0" [], []⟩ = .ok (some (.int 2)) := by
  have hdecimal : IntegerSpelling 9007199254740993 "9_007_199_254_740_993".toList :=
    .decimal (.apart ⟨9, false⟩ <| .adjacent ⟨0, false⟩ <| .adjacent ⟨0, false⟩ <|
      .apart ⟨7, false⟩ <| .adjacent ⟨1, false⟩ <| .adjacent ⟨9, false⟩ <|
      .apart ⟨9, false⟩ <| .adjacent ⟨2, false⟩ <| .adjacent ⟨5, false⟩ <|
      .apart ⟨4, false⟩ <| .adjacent ⟨7, false⟩ <| .adjacent ⟨4, false⟩ <|
      .apart ⟨0, false⟩ <| .adjacent ⟨9, false⟩ <| .adjacent ⟨9, false⟩ <|
      .last ⟨3, false⟩) (by decide) (.inr (by decide)) (by decide) (by decide)
  have hhex : IntegerSpelling 255 "0X00_fF".toList :=
    .marked (.adjacent ⟨0, false⟩ <| .apart ⟨0, false⟩ <| .adjacent ⟨15, false⟩ <|
      .last ⟨15, true⟩) (show ('X', 16) ∈ baseLetters by decide) (by decide) (by decide)
  have hoctal : IntegerSpelling 15 "0o1_7".toList :=
    .marked (.apart ⟨1, false⟩ <| .last ⟨7, false⟩) (show ('o', 8) ∈ baseLetters by decide)
      (by decide) (by decide)
  have hbinary : IntegerSpelling 2 "0B1_0".toList :=
    .marked (.apart ⟨1, false⟩ <| .last ⟨0, false⟩) (show ('B', 2) ∈ baseLetters by decide)
      (by decide) (by decide)
  exact ⟨(numberValue?_of_spelling hdecimal).1, (numberValue?_of_spelling hhex).1,
    (numberValue?_of_spelling hoctal).1, (numberValue?_of_spelling hbinary).1,
    (numberValue?_of_spelling hbinary).2 .empty _ rfl (by decide +kernel)⟩

/-- A decimal integer of more digits has no value that is an integer. -/
theorem numberValue?_ne_int_of_long (h : Separated ds t) (hdigits : ∀ d ∈ ds, d.value.val < 10)
    (hlead : NoLeadingZero ds) (hlong : Number.digitLimit < ds.length) (i : Int) :
    numberValue? t ≠ some (.int i) := by
  have hlimit : (text ds).length > Number.digitLimit := by
    rwa [text, List.length_map]
  have hnone : Number.naturalValue? (text ds) = none := by
    rw [naturalValue?_eq_decimalValue? hlead, Number.decimalValue?,
      valueOf?_text_eq hdigits h.ne_nil]
    dsimp only
    rw [if_pos hlimit]
  rw [numberValue?, h.filter_eq, readInteger?_of_isPlain isPlain_of_mem_text, hnone]
  intro hvalue
  obtain ⟨_, -, hfloat⟩ := Option.map_eq_some_iff.mp hvalue
  cases hfloat

end OperationScan.Script
