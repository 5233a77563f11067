import Mathlib.Algebra.Ring.Nat
import OperationScan.Json.Reader
import OperationScan.Json.Writer
import OperationScan.Proofs.Text.Reads

/-!
# Strings of JSON are read as they were written

* `encodeChar_cases`: the four ways in which a character is written.
* `fourDigits?_hexDigits`, `codeEscape_pair`: the digits of an escape are read back.
* `readString_encode`: a written string is read as the text that it was written for.
-/

namespace OperationScan

namespace Number

theorem valueFrom_append (base start : Nat) (t u : Text) :
    valueFrom base start (t ++ u) = (valueFrom base start t).bind (valueFrom base · u) := by
  induction t generalizing start with
  | nil => rfl
  | cons c t ih =>
    rw [List.cons_append, valueFrom, valueFrom]
    split
    · split
      · exact ih _
      · rfl
    · rfl

theorem digitValue?_digitChar : ∀ d < 16, digitValue? (Nat.digitChar d) = some d := by
  decide

theorem valueFrom_digitChar {base d : Nat} (hbase : base ≤ 16) (hd : d < base) (start : Nat) :
    valueFrom base start [Nat.digitChar d] = some (start * base + d) := by
  rw [valueFrom, digitValue?_digitChar d (by omega)]
  dsimp only
  rw [if_pos hd]
  rfl

theorem valueFrom_hexDigits (width n : Nat) :
    valueFrom 16 0 (Text.hexDigits width n) = some (n % 16 ^ width) := by
  induction width generalizing n with
  | zero => simp [Text.hexDigits, valueFrom, Nat.mod_one]
  | succ width ih =>
    rw [Text.hexDigits, valueFrom_append, ih, Option.bind_some,
      valueFrom_digitChar (Nat.le_refl 16) (Nat.mod_lt n (by decide)), Nat.pow_succ',
      Nat.mod_mul, Nat.mul_comm, Nat.add_comm]

end Number

namespace Json

/-- A blank or a visible character of ASCII. -/
def IsPrintableAscii (c : Char) : Prop := 32 ≤ c.toNat ∧ c.toNat ≤ 126

instance : DecidablePred IsPrintableAscii := fun c =>
  inferInstanceAs (Decidable (32 ≤ c.toNat ∧ c.toNat ≤ 126))

theorem printable_of_all {t : Text} (h : t.all (fun c => decide (IsPrintableAscii c)) = true) :
    ∀ c ∈ t, IsPrintableAscii c := by
  simpa using h

/-! ## Escapes -/

theorem fourDigits?_hexDigits {n : Nat} (hn : n < 0x10000) (rest : Text) :
    fourDigits? (Text.hexDigits 4 n ++ rest) = some (n, rest) := by
  have hvalue := Number.valueFrom_hexDigits 4 n
  rw [Nat.mod_eq_of_lt (by simpa using hn)] at hvalue
  have hfour : fourDigits? (Text.hexDigits 4 n ++ rest) =
      (Number.valueFrom 16 0 (Text.hexDigits 4 n)).map fun n => (n, rest) := rfl
  rw [hfour, hvalue]
  rfl

theorem length_hexDigits (width n : Nat) : (Text.hexDigits width n).length = width := by
  induction width generalizing n with
  | zero => rfl
  | succ width ih => rw [Text.hexDigits, List.length_append, ih, List.length_singleton]

variable {rest : Text}

theorem codeEscape_single {n : Nat} (hn : n < 0x10000) (hplain : ¬ (0xd800 ≤ n ∧ n ≤ 0xdbff))
    (hrest : rest ≠ []) (index : Nat) :
    codeEscape index (Text.hexDigits 4 n ++ rest) = .code n rest 4 := by
  obtain ⟨c, rest, rfl⟩ := List.exists_cons_of_ne_nil hrest
  rw [codeEscape, fourDigits?_hexDigits hn]
  dsimp only
  rw [if_neg (by simpa using hplain)]

theorem codeEscape_pair {high low : Nat} (hhigh : 0xd800 ≤ high ∧ high ≤ 0xdbff)
    (hlow : 0xdc00 ≤ low ∧ low ≤ 0xdfff) (hrest : rest ≠ []) (index : Nat) :
    codeEscape index (Text.hexDigits 4 high ++ (unitEscape low ++ rest)) =
      .code (0x10000 + (high - 0xd800) * 0x400 + (low - 0xdc00)) rest 10 := by
  have hdrop : (Text.hexDigits 4 low ++ rest).drop 4 = rest :=
    List.drop_left' (length_hexDigits 4 low)
  rw [codeEscape, fourDigits?_hexDigits (by omega), unitEscape]
  dsimp only [List.cons_append]
  rw [if_pos (by simpa using hhigh)]
  change (if ((Text.hexDigits 4 low ++ rest).drop 4).isEmpty then _ else _) = _
  rw [hdrop, if_neg (by simpa using hrest), fourDigits?_hexDigits (by omega)]
  dsimp only
  rw [if_pos (by simpa using hlow)]

/-- A character is written as a short escape, as it is, or by its code units. -/
theorem encodeChar_cases (c : Char) :
    (∃ e, encodeChar c = ['\\', e] ∧ escapeOf? e = some c ∧ e ≠ 'u' ∧ IsPrintableAscii e) ∨
    (encodeChar c = [c] ∧ c ≠ '"' ∧ c ≠ '\\' ∧ IsPrintableAscii c) ∨
    (encodeChar c = unitEscape c.toNat ∧ c.toNat < 0x10000) ∨
    (encodeChar c = unitEscape (0xd800 + (c.toNat - 0x10000) / 0x400) ++
      unitEscape (0xdc00 + (c.toNat - 0x10000) % 0x400) ∧ 0x10000 ≤ c.toNat) := by
  have hcode : ∀ n, c.toNat = n → c = Char.ofNat n := by
    rintro n rfl
    exact (Char.ofNat_toNat c).symm
  by_cases hquote : c = '"'
  · exact .inl ⟨'"', by rw [hquote]; rfl, by rw [hquote]; rfl, by decide⟩
  by_cases hbackslash : c = '\\'
  · exact .inl ⟨'\\', by rw [hbackslash]; rfl, by rw [hbackslash]; rfl, by decide⟩
  by_cases hfeed : c = '\n'
  · exact .inl ⟨'n', by rw [hfeed]; rfl, by rw [hfeed]; rfl, by decide⟩
  by_cases hreturn : c = '\r'
  · exact .inl ⟨'r', by rw [hreturn]; rfl, by rw [hreturn]; rfl, by decide⟩
  by_cases htab : c = '\t'
  · exact .inl ⟨'t', by rw [htab]; rfl, by rw [htab]; rfl, by decide⟩
  by_cases hform : c.toNat = 12
  · exact .inl ⟨'f', by rw [hcode 12 hform]; rfl, by rw [hcode 12 hform]; rfl, by decide⟩
  by_cases hback : c.toNat = 8
  · exact .inl ⟨'b', by rw [hcode 8 hback]; rfl, by rw [hcode 8 hback]; rfl, by decide⟩
  have hother : encodeChar c = if 32 ≤ c.toNat && c.toNat ≤ 126 then [c]
      else if c.toNat < 0x10000 then unitEscape c.toNat
      else unitEscape (0xd800 + (c.toNat - 0x10000) / 0x400) ++
        unitEscape (0xdc00 + (c.toNat - 0x10000) % 0x400) := by
    simp only [encodeChar, beq_iff_eq, hquote, hbackslash, hfeed, hreturn, htab, hform, hback,
      if_false]
  rw [hother]
  by_cases hplain : (32 ≤ c.toNat && c.toNat ≤ 126) = true
  · rw [if_pos hplain]
    exact .inr (.inl ⟨rfl, hquote, hbackslash, by simpa [IsPrintableAscii] using hplain⟩)
  rw [if_neg hplain]
  by_cases hsmall : c.toNat < 0x10000
  · rw [if_pos hsmall]
    exact .inr (.inr (.inl ⟨rfl, hsmall⟩))
  · rw [if_neg hsmall]
    exact .inr (.inr (.inr ⟨rfl, Nat.not_lt.mp hsmall⟩))

theorem printable_digitChar : ∀ d < 16, IsPrintableAscii (Nat.digitChar d) := by
  decide

theorem printable_hexDigits (width n : Nat) :
    ∀ c ∈ Text.hexDigits width n, IsPrintableAscii c := by
  induction width generalizing n with
  | zero => simp [Text.hexDigits]
  | succ width ih =>
    intro c hc
    rcases List.mem_append.mp hc with hc | hc
    · exact ih _ c hc
    · rw [List.mem_singleton.mp hc]
      exact printable_digitChar _ (Nat.mod_lt n (by decide))

theorem printable_unitEscape (n : Nat) : ∀ c ∈ unitEscape n, IsPrintableAscii c := by
  rw [unitEscape, List.forall_mem_cons, List.forall_mem_cons]
  exact ⟨by decide, by decide, printable_hexDigits 4 n⟩

/-- Only printable characters of ASCII are written. -/
theorem printable_encodeChar (c : Char) :
    ∀ d ∈ encodeChar c, IsPrintableAscii d := by
  rcases encodeChar_cases c with ⟨e, h, -, -, he⟩ | ⟨h, -, -, hc⟩ | ⟨h, -⟩ | ⟨h, -⟩
  · rw [h, List.forall_mem_cons, List.forall_mem_singleton]
    exact ⟨by decide, he⟩
  · rw [h, List.forall_mem_singleton]
    exact hc
  · rw [h]
    exact printable_unitEscape _
  · rw [h, List.forall_mem_append]
    exact ⟨printable_unitEscape _, printable_unitEscape _⟩

theorem printable_encode (t : Text) : ∀ c ∈ encode t, IsPrintableAscii c := by
  intro c hc
  simp only [encode, encodeInner, List.mem_cons, List.mem_append, List.mem_flatMap,
    List.not_mem_nil, or_false] at hc
  rcases hc with rfl | ⟨d, -, hc⟩ | rfl
  · decide
  · exact printable_encodeChar d c hc
  · decide

/-! ## Reading -/

variable {opening index : Nat} {s : Spelled}

theorem readString_skip (t : Text) : readString opening index t.length (t ++ rest) s =
    readString opening (index + t.length) 0 rest s := by
  induction t generalizing index with
  | nil => rfl
  | cons c t ih =>
    rw [List.length_cons, List.cons_append, readString, ih, Nat.add_assoc, Nat.add_comm 1]

theorem readString_quote :
    readString opening index 0 ('"' :: rest) s = .ok (s, ⟨index + 1, rest⟩) := by
  unfold readString
  rfl

theorem readString_plain {c : Char} (hquote : c ≠ '"') (hbackslash : c ≠ '\\')
    (hcontrol : 32 ≤ c.toNat) : readString opening index 0 (c :: rest) s =
      readString opening (index + 1) 0 rest (s.push c) := by
  have hlow : ¬ c.toNat ≤ 31 := by omega
  conv =>
    lhs
    unfold readString
  rw [if_neg (by simpa using hquote), if_neg (by simpa using hbackslash), if_neg hlow]

theorem readString_escape {e x : Char} (he : escapeOf? e = some x) (hu : e ≠ 'u') :
    readString opening index 0 ('\\' :: e :: rest) s =
      readString opening (index + 2) 0 rest (s.push x) := by
  conv =>
    lhs
    unfold readString
  rw [if_neg (by decide), if_pos (beq_self_eq_true _)]
  split
  · rename_i h
    cases h
  · rename_i h
    cases h
    exact absurd rfl hu
  · rename_i h
    cases h
    rw [he]
    exact readString_skip [e]

/-- An escape of code units is taken as a whole. -/
theorem readString_code {n : Nat} {t : Text}
    (h : ∀ i, codeEscape i (t ++ rest) = .code n rest t.length) :
    readString opening index 0 ('\\' :: 'u' :: (t ++ rest)) s =
      readString opening (index + (t.length + 2)) 0 rest (s.pushCode n) := by
  conv =>
    lhs
    unfold readString
  rw [if_neg (by decide), if_pos (beq_self_eq_true _)]
  have hskip : readString opening (index + 1) (t.length + 1) ('u' :: (t ++ rest)) (s.pushCode n) =
      readString opening (index + 1 + (t.length + 1)) 0 rest (s.pushCode n) :=
    readString_skip ('u' :: t)
  split
  · rename_i hnil
    cases hnil
  · rename_i digits hdigits
    cases hdigits
    rw [h]
    dsimp only
    rw [Nat.add_comm 1, hskip, Nat.add_assoc, Nat.add_comm 1]
  · rename_i hu hother
    cases hother
    exact (hu rfl).elim

theorem toNat_cases (c : Char) :
    c.toNat < 0xd800 ∨ (0xdfff < c.toNat ∧ c.toNat < 0x110000) := c.valid

theorem pushCode_toNat (s : Spelled) (c : Char) : s.pushCode c.toNat = s.push c := by
  have hvalid : ¬ (0xd800 ≤ c.toNat ∧ c.toNat ≤ 0xdfff) := by
    have := toNat_cases c
    omega
  rw [Spelled.pushCode, if_neg (by simpa using hvalid), Char.ofNat_toNat]

theorem codeEscape_toNat {c : Char} (hc : c.toNat < 0x10000) (hrest : rest ≠ []) (i : Nat) :
    codeEscape i (Text.hexDigits 4 c.toNat ++ rest) = .code c.toNat rest 4 := by
  refine codeEscape_single hc ?_ hrest i
  have := toNat_cases c
  omega

/-- The two halves of a pair give the code point back. -/
theorem codeEscape_halves {n : Nat} (hn : 0x10000 ≤ n) (hlt : n < 0x110000) (hrest : rest ≠ [])
    (i : Nat) : codeEscape i (Text.hexDigits 4 (0xd800 + (n - 0x10000) / 0x400) ++
      (unitEscape (0xdc00 + (n - 0x10000) % 0x400) ++ rest)) = .code n rest 10 := by
  have hcode : 0x10000 + (0xd800 + (n - 0x10000) / 0x400 - 0xd800) * 0x400 +
      (0xdc00 + (n - 0x10000) % 0x400 - 0xdc00) = n := by
    omega
  rw [codeEscape_pair (by omega) (by omega) hrest, hcode]

/-- A written character is read as that character. -/
theorem readString_encodeChar (c : Char) (hrest : rest ≠ []) :
    readString opening index 0 (encodeChar c ++ rest) s =
      readString opening (index + (encodeChar c).length) 0 rest (s.push c) := by
  rcases encodeChar_cases c with ⟨e, h, he, hu, -⟩ | ⟨h, hquote, hbackslash, hc, -⟩ |
    ⟨h, hc⟩ | ⟨h, hc⟩
  · rw [h]
    exact readString_escape he hu
  · rw [h]
    exact readString_plain hquote hbackslash hc
  · rw [h, ← pushCode_toNat]
    exact readString_code fun i => codeEscape_toNat hc hrest i
  · rw [h, ← pushCode_toNat]
    have hlt := toNat_cases c
    generalize hhigh : 0xd800 + (c.toNat - 0x10000) / 0x400 = high
    generalize hlow : 0xdc00 + (c.toNat - 0x10000) % 0x400 = low
    have hread : ∀ i, codeEscape i (Text.hexDigits 4 high ++ unitEscape low ++ rest) =
        .code c.toNat rest (Text.hexDigits 4 high ++ unitEscape low).length := by
      intro i
      rw [List.append_assoc, ← hhigh, ← hlow]
      exact codeEscape_halves hc (by omega) hrest i
    exact readString_code hread

theorem readString_encodeInner (t : Text) (hrest : rest ≠ []) :
    readString opening index 0 (encodeInner t ++ rest) s =
      readString opening (index + (encodeInner t).length) 0 rest (t.foldl Spelled.push s) := by
  induction t generalizing index s with
  | nil => rfl
  | cons c t ih =>
    have hsplit : encodeInner (c :: t) = encodeChar c ++ encodeInner t := rfl
    have hmore : encodeInner t ++ rest ≠ [] := by simp [hrest]
    rw [hsplit, List.append_assoc, readString_encodeChar c hmore, ih, List.length_append,
      Nat.add_assoc]
    rfl

theorem foldl_push (t : Text) (s : Spelled) :
    t.foldl Spelled.push s = ⟨t.reverse ++ s.backwards, s.count + t.length, s.halves⟩ := by
  induction t generalizing s with
  | nil => rfl
  | cons c t ih =>
    rw [List.foldl_cons, ih]
    simp [Spelled.push, Nat.add_assoc, Nat.add_comm 1]

theorem value_foldl_push (t : Text) : (t.foldl Spelled.push .none).value = .string t := by
  rw [foldl_push]
  simp [Spelled.value, Spelled.text, Spelled.none]

theorem name_foldl_push (t : Text) : (t.foldl Spelled.push .none).name = t := by
  rw [foldl_push]
  simp [Spelled.name, Spelled.text, Spelled.none]

/-- A written string is read as the text that it was written for. -/
theorem readString_encode {p q : Place} {t : Text} (h : p.Reads (encode t) q) :
    ∃ rest, p.rest = '"' :: rest ∧ readString p.index (p.index + 1) 0 rest .none =
      .ok (t.foldl Spelled.push .none, q) := by
  obtain ⟨j, u⟩ := q
  have hindex : j = p.index + (encode t).length := h.index
  refine ⟨encodeInner t ++ '"' :: u, by simpa [encode] using h.rest, ?_⟩
  rw [readString_encodeInner t (List.cons_ne_nil _ _), readString_quote, hindex, encode,
    List.length_cons, List.length_append, List.length_singleton]
  congr 3
  omega

end Json

end OperationScan
