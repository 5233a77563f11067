import OperationScan.Script.Escape

/-!
# Spellings of a text in a literal

A literal is made of units, one after the other: a character as it is, an escape for it, or a
continued line. What a unit stands for does not depend on the units around it.

* `HexDigit.number`: the number that hexadecimal digits spell, in either letter case.
* `Spelling`: the units, each with what it stands for.
* `Spelled`: a literal with the text that its units stand for.
* `cookFrom_spelling`, `cookFrom_spelled`: cooking takes one unit off, and all of them.
* `cook_eq_of_spelled`: a literal stands for the text that it spells.
-/

namespace OperationScan.Script

/-! ## Digits -/

/-- A hexadecimal digit in one of the two letter cases. -/
structure HexDigit where
  value : Fin 16
  capital : Bool

namespace HexDigit

/-- The character of a digit. -/
def char (d : HexDigit) : Char :=
  if d.capital then (Nat.digitChar d.value).toUpper else Nat.digitChar d.value

/-- The number that digits spell behind others that spell `start`. -/
def numberFrom (start : Nat) (ds : List HexDigit) : Nat :=
  ds.foldl (fun n d => n * 16 + d.value) start

/-- The number that digits spell. -/
def number (ds : List HexDigit) : Nat := numberFrom 0 ds

/-- Digits as they stand in a text. -/
def text (ds : List HexDigit) : Text := ds.map char

variable {ds : List HexDigit}

theorem digitValue?_char (d : HexDigit) : Number.digitValue? d.char = some d.value.val := by
  have hall : ∀ (v : Fin 16) (b : Bool),
      Number.digitValue? (char ⟨v, b⟩) = some v.val := by decide
  exact hall d.value d.capital

theorem isHexDigit_char (d : HexDigit) : isHexDigit d.char = true := by
  rw [isHexDigit, digitValue?_char]
  rfl

theorem isHexDigit_of_mem_text : ∀ c ∈ text ds, isHexDigit c = true := by
  intro c hc
  obtain ⟨d, -, rfl⟩ := List.mem_map.mp hc
  exact isHexDigit_char d

theorem valueFrom_text (start : Nat) :
    Number.valueFrom 16 start (text ds) = some (numberFrom start ds) := by
  induction ds generalizing start with
  | nil => rfl
  | cons d ds ih =>
    have hd : d.value.val < 16 := d.value.isLt
    change Number.valueFrom 16 start (d.char :: text ds) = _
    simp only [Number.valueFrom, digitValue?_char, hd, if_true, ih]
    rfl

theorem valueOf?_text (hne : ds ≠ []) : Number.valueOf? 16 (text ds) = some (number ds) := by
  have hempty : (text ds).isEmpty = false := by
    cases ds with
    | nil => exact absurd rfl hne
    | cons d ds => rfl
  rw [Number.valueOf?, hempty]
  exact valueFrom_text 0

end HexDigit

open HexDigit

/-! ## Units -/

/-- The letters that stand for other characters behind a backslash. -/
def letterEscapes : List (Char × Char) := [
  ('n', '\n'), ('t', '\t'), ('r', '\r'), ('b', Char.ofNat 8), ('f', Char.ofNat 12),
  ('v', Char.ofNat 11), ('0', Char.ofNat 0)]

/-- The characters that do not stand for themselves behind a backslash. -/
def reservedEscapes : List Char := ['n', 't', 'r', 'b', 'f', 'v', '0', 'u', 'x', '\n', '\r']

/-- The escape with digits between braces. -/
def bracedEscape (ds : List HexDigit) : Text := '\\' :: 'u' :: '\x7b' :: (text ds ++ ['\x7d'])

/-- A unit of a literal and what it stands for. -/
inductive Spelling : Text → Text → Prop
  | raw {c : Char} (hc : c ≠ '\\') : Spelling [c] [c]
  | letter {e c : Char} (h : (e, c) ∈ letterEscapes) : Spelling ['\\', e] [c]
  | twoDigits {ds : List HexDigit} {c : Char} (hlength : ds.length = 2)
      (hc : number ds = c.toNat) : Spelling ('\\' :: 'x' :: text ds) [c]
  | fourDigits {ds : List HexDigit} {c : Char} (hlength : ds.length = 4)
      (hc : number ds = c.toNat) : Spelling ('\\' :: 'u' :: text ds) [c]
  | braced {ds : List HexDigit} {c : Char} (hne : ds ≠ []) (hc : number ds = c.toNat) :
      Spelling (bracedEscape ds) [c]
  | itself {c : Char} (hc : c ∉ reservedEscapes) : Spelling ['\\', c] [c]
  | lineFeed : Spelling ['\\', '\n'] []
  | returnFeed : Spelling ['\\', '\r', '\n'] []
  | beyond {ds : List HexDigit} (h : 0x10ffff < number ds) :
      Spelling (bracedEscape ds) (bracedEscape ds)

/-- Units one after the other and what they stand for. -/
inductive Spelled : Text → Text → Prop
  | nil : Spelled [] []
  | cons {t s u v : Text} (h : Spelling t s) (hrest : Spelled u v) : Spelled (t ++ u) (s ++ v)

variable {t s u v done rest : Text} {ds : List HexDigit}

/-! ## Cooking a unit -/

theorem cookFrom_skip (done t rest : Text) :
    cookFrom done t.length (t ++ rest) = cookFrom done 0 rest := by
  induction t with
  | nil => rfl
  | cons c t ih => exact ih

/-- An escape is taken off as a whole if it does not depend on what follows it. -/
theorem cookFrom_escape {e : Char} (h : cookEscape e (t ++ rest) = ⟨s, t.length + 1⟩)
    (done : Text) :
    cookFrom done 0 ('\\' :: e :: t ++ rest) = cookFrom (s.reverse ++ done) 0 rest := by
  have hstep : cookFrom done 0 ('\\' :: e :: t ++ rest) =
      cookFrom ((cookEscape e (t ++ rest)).text.reverse ++ done)
        (cookEscape e (t ++ rest)).length (e :: t ++ rest) := rfl
  rw [hstep, h]
  exact cookFrom_skip _ (e :: t) rest

theorem cookFrom_raw {c : Char} (hc : c ≠ '\\') (done rest : Text) :
    cookFrom done 0 (c :: rest) = cookFrom (c :: done) 0 rest := by
  simp [cookFrom, hc]

/-- Only the two letters that announce digits and the carriage return look at what follows. -/
theorem cookEscape_simple {e : Char} (hu : e ≠ 'u') (hx : e ≠ 'x') (hr : e ≠ '\r')
    (rest : Text) : cookEscape e rest = ⟨simpleEscape e, 1⟩ := by
  simp [cookEscape, hu, hx, hr]

theorem simpleEscape_letter : ∀ x ∈ letterEscapes,
    simpleEscape x.1 = [x.2] ∧ x.1 ≠ 'u' ∧ x.1 ≠ 'x' ∧ x.1 ≠ '\r' := by decide

theorem simpleEscape_itself {c : Char} (hc : c ∉ reservedEscapes) : simpleEscape c = [c] := by
  simp only [reservedEscapes, List.mem_cons, List.not_mem_nil, or_false, not_or] at hc
  unfold simpleEscape
  split <;> simp_all

theorem fixedDigits?_text {n : Nat} (hlength : ds.length = n) (rest : Text) :
    fixedDigits? n (text ds ++ rest) = some (text ds) := by
  have hn : (text ds).length = n := by rw [text, List.length_map, hlength]
  have htake : (text ds ++ rest).take n = text ds := List.take_left' hn
  have hdigits : (text ds).takeWhile isHexDigit = text ds := by
    rw [← List.append_nil (text ds), List.takeWhile_append_of_pos isHexDigit_of_mem_text,
      List.takeWhile_nil]
  rw [fixedDigits?, htake, hdigits, hn]
  simp

theorem bracedDigits?_text (hne : ds ≠ []) (rest : Text) :
    bracedDigits? ('\x7b' :: (text ds ++ '\x7d' :: rest)) = some (text ds) := by
  have hdigits : (text ds ++ '\x7d' :: rest).takeWhile isHexDigit = text ds := by
    rw [List.takeWhile_append_of_pos isHexDigit_of_mem_text, List.takeWhile_cons_of_neg (by decide),
      List.append_nil]
  have hempty : (text ds).isEmpty = false := by
    cases ds with
    | nil => exact absurd rfl hne
    | cons d ds => rfl
  simp [bracedDigits?, hdigits, hempty]

theorem bracedDigits?_eq_none {t : Text} (h : t.head? ≠ some '\x7b') : bracedDigits? t = none := by
  unfold bracedDigits?
  split
  · exact absurd rfl h
  · rfl

/-- The code of a character is spelled by digits. -/
theorem cookCode_char {c : Char} (hne : ds ≠ []) (hc : number ds = c.toNat) (written : Text) :
    cookCode written (text ds) = ⟨[c], written.length⟩ := by
  have hvalid : ¬(c.toNat > 0x10ffff ∨ (0xd800 ≤ c.toNat ∧ c.toNat ≤ 0xdfff)) := by
    rcases c.valid with h | ⟨h, h'⟩
    · have hlt : c.toNat < 0xd800 := h
      omega
    · have hgt : 0xdfff < c.toNat := h
      have hlt : c.toNat < 0x110000 := h'
      omega
  rw [cookCode, valueOf?_text hne, hc, Option.getD_some, if_neg (by simpa using hvalid),
    Char.ofNat_toNat]

/-- Digits that spell no character leave the escape as it is. -/
theorem cookCode_kept (hne : ds ≠ [])
    (h : 0x10ffff < number ds ∨ (0xd800 ≤ number ds ∧ number ds ≤ 0xdfff)) (written : Text) :
    cookCode written (text ds) = ⟨'\\' :: written, written.length⟩ := by
  rw [cookCode, valueOf?_text hne, Option.getD_some, if_pos (by simpa using h)]

theorem cookEscape_braced (hne : ds ≠ []) (rest : Text) :
    cookEscape 'u' ('\x7b' :: (text ds ++ ['\x7d']) ++ rest) =
      cookCode ('u' :: '\x7b' :: (text ds ++ ['\x7d'])) (text ds) := by
  have hdigits := bracedDigits?_text hne rest
  rw [cookEscape, if_pos (by decide)]
  simp only [List.cons_append, List.append_assoc, List.nil_append, hdigits]

theorem cookEscape_fourDigits (hlength : ds.length = 4) (rest : Text) :
    cookEscape 'u' (text ds ++ rest) = cookCode ('u' :: text ds) (text ds) := by
  have hhead : (text ds ++ rest).head? ≠ some '\x7b' := by
    cases ds with
    | nil => cases hlength
    | cons d ds =>
      intro h
      have hd : isHexDigit '\x7b' = true := by
        rw [← Option.some.inj h]
        exact isHexDigit_char d
      exact absurd hd (by decide)
  rw [cookEscape, if_pos (by decide), bracedDigits?_eq_none hhead]
  dsimp only
  rw [fixedDigits?_text hlength]

theorem cookEscape_twoDigits (hlength : ds.length = 2) (rest : Text) :
    cookEscape 'x' (text ds ++ rest) = cookCode ('x' :: text ds) (text ds) := by
  rw [cookEscape, if_neg (by decide), if_pos (by decide), fixedDigits?_text hlength]

theorem ne_nil_of_length {n : Nat} (h : ds.length = n + 1) : ds ≠ [] := by
  rintro rfl
  cases h

/-- Cooking takes one unit off, whatever follows it. -/
theorem cookFrom_spelling (h : Spelling t s) (done rest : Text) :
    cookFrom done 0 (t ++ rest) = cookFrom (s.reverse ++ done) 0 rest := by
  cases h with
  | raw hc => exact cookFrom_raw hc done rest
  | @letter e c hmem =>
    obtain ⟨hletter, hu, hx, hr⟩ := simpleEscape_letter _ hmem
    refine cookFrom_escape (t := []) ?_ done
    rw [cookEscape_simple hu hx hr, hletter]
    rfl
  | @twoDigits ds c hlength hc =>
    refine cookFrom_escape ?_ done
    rw [cookEscape_twoDigits hlength, cookCode_char (ne_nil_of_length hlength) hc]
    rfl
  | @fourDigits ds c hlength hc =>
    refine cookFrom_escape ?_ done
    rw [cookEscape_fourDigits hlength, cookCode_char (ne_nil_of_length hlength) hc]
    rfl
  | @braced ds c hne hc =>
    refine cookFrom_escape ?_ done
    rw [cookEscape_braced hne, cookCode_char hne hc]
    rfl
  | @itself c hc =>
    have hne : ∀ r ∈ reservedEscapes, c ≠ r := by
      rintro r hr rfl
      exact hc hr
    refine cookFrom_escape (t := []) ?_ done
    rw [cookEscape_simple (hne 'u' (by decide)) (hne 'x' (by decide)) (hne '\r' (by decide)),
      simpleEscape_itself hc]
    rfl
  | lineFeed => exact cookFrom_escape (t := []) rfl done
  | returnFeed => exact cookFrom_escape (t := ['\n']) rfl done
  | @beyond ds hbeyond =>
    have hne : ds ≠ [] := by
      rintro rfl
      exact absurd hbeyond (by decide)
    refine cookFrom_escape ?_ done
    rw [cookEscape_braced hne, cookCode_kept hne (.inl hbeyond)]
    rfl

theorem spelled_flatMap {α : Type} {f g : α → Text} {as : List α}
    (h : ∀ a ∈ as, Spelling (f a) (g a)) : Spelled (as.flatMap f) (as.flatMap g) := by
  induction as with
  | nil => exact .nil
  | cons a as ih =>
    obtain ⟨ha, has⟩ := List.forall_mem_cons.mp h
    exact .cons ha (ih has)

/-- Cooking takes all units off, in order. -/
theorem cookFrom_spelled (h : Spelled t s) (done : Text) :
    cookFrom done 0 t = done.reverse ++ s := by
  induction h generalizing done with
  | nil => simp [cookFrom]
  | @cons t s u v hunit _ ih =>
    rw [cookFrom_spelling hunit, ih, List.reverse_append, List.reverse_reverse, List.append_assoc]

/-- A literal stands for the text that it spells, character by character and in whatever way. -/
theorem cook_eq_of_spelled (h : Spelled t s) : cook t = s :=
  cookFrom_spelled h []

/-- Units of every kind. Some are followed by characters that could belong to them: more digits, a
brace, a letter behind a backslash that stands for itself. -/
def mixedUnits : List (Text × Text) := [
  ("A".toList, "A".toList), ("\\n".toList, "\n".toList), ("\\x4a".toList, "J".toList),
  ("b".toList, "b".toList), ("\\u00E9".toList, "é".toList), ("1".toList, "1".toList),
  ("\\u\x7b0001f600\x7d".toList, "😀".toList), ("\x7d".toList, "\x7d".toList),
  ("\\\\".toList, "\\".toList), ("n".toList, "n".toList), ("\\\n".toList, []),
  ("\\\r\n".toList, []), ("\\q".toList, "q".toList),
  ("\\u\x7b110000\x7d".toList, "\\u\x7b110000\x7d".toList)]

theorem spelling_mixedUnits : ∀ x ∈ mixedUnits, Spelling x.1 x.2 := by
  simp only [mixedUnits, List.forall_mem_cons, List.not_mem_nil, false_implies, implies_true,
    and_true]
  refine ⟨.raw (by decide), .letter (by decide), ?_, .raw (by decide), ?_, .raw (by decide), ?_,
    .raw (by decide), .itself (by decide), .raw (by decide), .lineFeed, .returnFeed,
    .itself (by decide), ?_⟩
  · exact @Spelling.twoDigits [⟨4, false⟩, ⟨10, false⟩] _ rfl (by decide)
  · exact @Spelling.fourDigits [⟨0, false⟩, ⟨0, false⟩, ⟨14, true⟩, ⟨9, false⟩] _ rfl (by decide)
  · exact @Spelling.braced [⟨0, false⟩, ⟨0, false⟩, ⟨0, false⟩, ⟨1, false⟩, ⟨15, false⟩,
      ⟨6, false⟩, ⟨0, false⟩, ⟨0, false⟩] _ (by decide) (by decide)
  · exact @Spelling.beyond [⟨1, false⟩, ⟨1, false⟩, ⟨0, false⟩, ⟨0, false⟩, ⟨0, false⟩,
      ⟨0, false⟩] (by decide)

theorem cook_eq_of_spelled_mixed :
    Spelled (mixedUnits.flatMap Prod.fst) (mixedUnits.flatMap Prod.snd) ∧
      cook (mixedUnits.flatMap Prod.fst) = mixedUnits.flatMap Prod.snd :=
  ⟨spelled_flatMap spelling_mixedUnits, cook_eq_of_spelled (spelled_flatMap spelling_mixedUnits)⟩

end OperationScan.Script
