import Mathlib.Tactic.NormNum
import OperationScan.Text.Utf8

/-!
# UTF-8 is read as it was written

The decoder is a machine that takes one byte at a time. Between two characters it owes nothing, and
the bytes of a character take it from there to the same state with the character on its record.

* `foldl_step_encodeChar`: the bytes of one character.
* `decode_encode`: the bytes of a text.
* `length_encode`, `extract_encode`: the number of bytes of a text, and the bytes of a part of it.
-/

namespace OperationScan.Text.Utf8

theorem toNat_toUInt8 {n : Nat} (hn : n < 0x100) : n.toUInt8.toNat = n := by
  simp [Nat.toUInt8, Nat.mod_eq_of_lt hn]

/-! ## First bytes -/

theorem lead_one {n : Nat} (hn : n < 0x80) : lead n.toUInt8 = .whole (Char.ofNat n) := by
  rw [lead, toNat_toUInt8 (by omega)]
  simp [hn]

theorem lead_two {n : Nat} (hlow : 0xc2 ≤ n) (hhigh : n < 0xe0) :
    lead n.toUInt8 = .opens ⟨n - 0xc0, 1, 0x80, 0xbf⟩ := by
  rw [lead, toNat_toUInt8 (by omega)]
  rw [if_neg (by omega), if_neg (by omega), if_pos hhigh]

theorem lead_three {n : Nat} (hlow : 0xe0 ≤ n) (hhigh : n < 0xf0) :
    lead n.toUInt8 = .opens
      ⟨n - 0xe0, 2, if n == 0xe0 then 0xa0 else 0x80, if n == 0xed then 0x9f else 0xbf⟩ := by
  rw [lead, toNat_toUInt8 (by omega)]
  rw [if_neg (by omega), if_neg (by omega), if_neg (by omega), if_pos hhigh]

theorem lead_four {n : Nat} (hlow : 0xf0 ≤ n) (hhigh : n < 0xf5) :
    lead n.toUInt8 = .opens
      ⟨n - 0xf0, 3, if n == 0xf0 then 0x90 else 0x80, if n == 0xf4 then 0x8f else 0xbf⟩ := by
  rw [lead, toNat_toUInt8 (by omega)]
  rw [if_neg (by omega), if_neg (by omega), if_neg (by omega), if_neg (by omega), if_pos hhigh]

/-! ## Further bytes -/

variable {n bits k least most : Nat} {done : Text}

/-- The last byte of a character. -/
theorem step_last (hn : n < 0x40) (hleast : least ≤ 0x80 + n) (hmost : 0x80 + n ≤ most) :
    step (some ⟨bits, 1, least, most⟩, done) (0x80 + n).toUInt8 =
      (none, Char.ofNat (bits * 0x40 + n) :: done) := by
  rw [step, toNat_toUInt8 (by omega)]
  simp [hleast, hmost]

/-- A byte with more to come. -/
theorem step_more (hn : n < 0x40) (hleast : least ≤ 0x80 + n) (hmost : 0x80 + n ≤ most) :
    step (some ⟨bits, k + 2, least, most⟩, done) (0x80 + n).toUInt8 =
      (some ⟨bits * 0x40 + n, k + 1, 0x80, 0xbf⟩, done) := by
  rw [step, toNat_toUInt8 (by omega)]
  simp [hleast, hmost]

/-! ## Characters and texts -/

theorem foldl_step_encodeChar (c : Char) (done : Text) :
    (encodeChar c).foldl step (none, done) = (none, c :: done) := by
  have hcode : ∀ n, n = c.toNat → Char.ofNat n = c := by
    rintro n rfl
    exact Char.ofNat_toNat c
  have hvalid : c.toNat < 0xd800 ∨ (0xdfff < c.toNat ∧ c.toNat < 0x110000) := c.valid
  unfold encodeChar
  dsimp only
  split
  · rename_i hone
    rw [List.foldl_cons, step, startByte, lead_one hone, hcode _ rfl, List.foldl_nil]
  split
  · rename_i hone htwo
    rw [List.foldl_cons, step, startByte, lead_two (by omega) (by omega)]
    dsimp only
    rw [List.foldl_cons, step_last (by omega) (by omega) (by omega), hcode _ (by omega),
      List.foldl_nil]
  -- the bounds of the second byte keep out long forms, halves of pairs and codes that are too large
  split
  · rename_i hone htwo hthree
    have hleast : (if 0xe0 + c.toNat / 0x1000 == 0xe0 then 0xa0 else 0x80) ≤
        0x80 + c.toNat / 0x40 % 0x40 := by
      simp only [beq_iff_eq]
      split <;> omega
    have hmost : 0x80 + c.toNat / 0x40 % 0x40 ≤
        if 0xe0 + c.toNat / 0x1000 == 0xed then 0x9f else 0xbf := by
      simp only [beq_iff_eq]
      split <;> omega
    rw [List.foldl_cons, step, startByte, lead_three (by omega) (by omega)]
    dsimp only
    rw [List.foldl_cons, step_more (k := 0) (by omega) hleast hmost,
      List.foldl_cons, step_last (by omega) (by omega) (by omega), hcode _ (by omega),
      List.foldl_nil]
  · rename_i hone htwo hthree
    have hleast : (if 0xf0 + c.toNat / 0x40000 == 0xf0 then 0x90 else 0x80) ≤
        0x80 + c.toNat / 0x1000 % 0x40 := by
      simp only [beq_iff_eq]
      split <;> omega
    have hmost : 0x80 + c.toNat / 0x1000 % 0x40 ≤
        if 0xf0 + c.toNat / 0x40000 == 0xf4 then 0x8f else 0xbf := by
      simp only [beq_iff_eq]
      split <;> omega
    rw [List.foldl_cons, step, startByte, lead_four (by omega) (by omega)]
    dsimp only
    rw [List.foldl_cons, step_more (k := 1) (by omega) hleast hmost,
      List.foldl_cons, step_more (k := 0) (by omega) (by omega) (by omega),
      List.foldl_cons, step_last (by omega) (by omega) (by omega), hcode _ (by omega),
      List.foldl_nil]

theorem foldl_step_encode (t done : Text) :
    (encode t).foldl step (none, done) = (none, t.reverse ++ done) := by
  induction t generalizing done with
  | nil => rfl
  | cons c t ih =>
    have hsplit : encode (c :: t) = encodeChar c ++ encode t := rfl
    rw [hsplit, List.foldl_append, foldl_step_encodeChar, ih, List.reverse_cons, List.append_assoc]
    rfl

/-- The bytes of a text are read as the text. -/
theorem decode_encode (t : Text) : decode (encode t) = t := by
  rw [decode, foldl_step_encode, finish, List.append_nil, List.reverse_reverse]

/-! ## Parts of a text -/

theorem encode_append (s t : Text) : encode (s ++ t) = encode s ++ encode t :=
  List.flatMap_append

theorem length_encodeChar (c : Char) : (encodeChar c).length = width c := by
  unfold encodeChar width
  dsimp only
  split
  · rfl
  split
  · rfl
  split
  · rfl
  · rfl

theorem length_encode (t : Text) : (encode t).length = size t := by
  have hfold : ∀ k, t.foldl (fun total c => total + width c) k = k + (encode t).length := by
    induction t with
    | nil => exact fun k => rfl
    | cons c t ih =>
      intro k
      have hsplit : encode (c :: t) = encodeChar c ++ encode t := rfl
      rw [List.foldl_cons, ih, hsplit, List.length_append, length_encodeChar, Nat.add_assoc]
  rw [size, hfold, Nat.zero_add]

theorem size_append (s t : Text) : size (s ++ t) = size s + size t := by
  rw [← length_encode, encode_append, List.length_append, length_encode, length_encode]

/-- Between the offsets of two characters stand the bytes of the text between them. -/
theorem extract_encode (before inside after : Text) :
    (encode (before ++ (inside ++ after))).extract (size before) (size (before ++ inside)) =
      encode inside := by
  rw [List.extract, encode_append, encode_append, ← length_encode before, List.drop_left,
    size_append, ← length_encode before, ← length_encode inside, Nat.add_sub_cancel_left,
    List.take_left]

end OperationScan.Text.Utf8
