import OperationScan.Proofs.Json.Values
import OperationScan.Proofs.Script.Spelling
import OperationScan.Script.Literal

/-!
# JSON strings as script literals

What JSON writes for a text is also a literal of a script, with the same quotes around it. The two
readings of it differ in one point: for JSON the escapes of two code units may be a pair, and the
script reads one escape at a time, so that both halves of a pair stay as they are written.

* `cookFrom_encodeChar`: how a character comes back that JSON has written.
* `readings_agree_iff`: the two readings agree exactly on texts without pairs.
* `not_readings_agree_pair`: a text of one character outside the basic plane.
-/

namespace OperationScan.Script

open HexDigit Json

/-! ## Digits of a number -/

/-- The last digits of a number, `width` of them. -/
def HexDigit.digits : (width : Nat) → Nat → List HexDigit
  | 0, _ => []
  | width + 1, n => digits width (n / 16) ++ [⟨⟨n % 16, Nat.mod_lt n (by decide)⟩, false⟩]

theorem text_digits (width n : Nat) : text (digits width n) = Text.hexDigits width n := by
  induction width generalizing n with
  | zero => rfl
  | succ width ih =>
    rw [digits, Text.hexDigits, ← ih, text, List.map_append]
    rfl

theorem number_digits (width n : Nat) : number (digits width n) = n % 16 ^ width := by
  apply Option.some.inj
  rw [number, ← valueFrom_text, text_digits, Number.valueFrom_hexDigits]

theorem length_digits (width n : Nat) : (digits width n).length = width := by
  have hlength := congrArg List.length (text_digits width n)
  rwa [text, List.length_map, length_hexDigits] at hlength

/-! ## Escapes of code units -/

/-- The escape of a character of the basic plane. -/
theorem spelling_unitEscape {c : Char} (hc : c.toNat < 0x10000) :
    Spelling (unitEscape c.toNat) [c] := by
  have hnumber : number (digits 4 c.toNat) = c.toNat := by
    rw [number_digits]
    exact Nat.mod_eq_of_lt hc
  have h := Spelling.fourDigits (length_digits 4 c.toNat) hnumber
  rwa [text_digits] at h

theorem spelling_escapeOf {e c : Char} (h : escapeOf? e = some c) :
    Spelling ['\\', e] [c] ∧ c.toNat < 0x10000 := by
  unfold escapeOf? at h
  split at h <;> cases h
  -- the quotation mark, the backslash and the slash stand for themselves in a script
  · exact ⟨.itself (by decide), by decide⟩
  · exact ⟨.itself (by decide), by decide⟩
  · exact ⟨.itself (by decide), by decide⟩
  · exact ⟨.letter (by decide), by decide⟩
  · exact ⟨.letter (by decide), by decide⟩
  · exact ⟨.letter (by decide), by decide⟩
  · exact ⟨.letter (by decide), by decide⟩
  · exact ⟨.letter (by decide), by decide⟩

/-- Half of a pair is kept, whatever follows it. -/
theorem cookFrom_half {n : Nat} (hlow : 0xd800 ≤ n) (hhigh : n ≤ 0xdfff) (done rest : Text) :
    cookFrom done 0 (unitEscape n ++ rest) = cookFrom ((unitEscape n).reverse ++ done) 0 rest := by
  have hnumber : number (digits 4 n) = n := by
    rw [number_digits]
    exact Nat.mod_eq_of_lt (by omega)
  have hlength := length_digits 4 n
  have hkept := cookCode_kept (ne_nil_of_length hlength) (.inr (by rw [hnumber]; omega))
    ('u' :: text (digits 4 n))
  have hescape : cookEscape 'u' (text (digits 4 n) ++ rest) =
      ⟨unitEscape n, (text (digits 4 n)).length + 1⟩ := by
    rw [cookEscape_fourDigits hlength, hkept, text_digits]
    rfl
  have h := cookFrom_escape hescape done
  rwa [text_digits] at h

/-! ## Characters and texts -/

/-- What the script makes of a character that JSON has written: a character outside the basic plane
stays a pair of escapes. -/
def recooked (c : Char) : Text := if c.toNat < 0x10000 then [c] else encodeChar c

theorem recooked_of_spelling {c : Char} (hc : c.toNat < 0x10000)
    (h : Spelling (encodeChar c) [c]) (done rest : Text) :
    cookFrom done 0 (encodeChar c ++ rest) = cookFrom ((recooked c).reverse ++ done) 0 rest := by
  rw [recooked, if_pos hc]
  exact cookFrom_spelling h done rest

theorem cookFrom_encodeChar (c : Char) (done rest : Text) :
    cookFrom done 0 (encodeChar c ++ rest) = cookFrom ((recooked c).reverse ++ done) 0 rest := by
  rcases encodeChar_cases c with ⟨e, h, he, -⟩ | ⟨h, -, hbackslash, -, hc⟩ | ⟨h, hc⟩ | ⟨h, hc⟩
  · obtain ⟨hspelling, hc⟩ := spelling_escapeOf he
    exact recooked_of_spelling hc (h ▸ hspelling) done rest
  · exact recooked_of_spelling (by omega) (h ▸ .raw hbackslash) done rest
  · exact recooked_of_spelling hc (h ▸ spelling_unitEscape hc) done rest
  · have hlt := toNat_cases c
    rw [recooked, if_neg (Nat.not_lt.mpr hc), h, List.append_assoc,
      cookFrom_half (by omega) (by omega), cookFrom_half (by omega) (by omega),
      List.reverse_append, List.append_assoc]

theorem cookFrom_encodeInner (t done : Text) :
    cookFrom done 0 (encodeInner t) = done.reverse ++ t.flatMap recooked := by
  induction t generalizing done with
  | nil => simp [encodeInner, cookFrom]
  | cons c t ih =>
    have hsplit : encodeInner (c :: t) = encodeChar c ++ encodeInner t := rfl
    rw [hsplit, cookFrom_encodeChar, ih, List.reverse_append, List.reverse_reverse,
      List.flatMap_cons, List.append_assoc]

theorem unquoted_encode (t : Text) : unquoted (encode t) = encodeInner t := by
  simp [unquoted, encode]

/-- Where a pair has been kept, a backslash stands in place of the character. -/
theorem flatMap_recooked_eq_iff (t : Text) :
    t.flatMap recooked = t ↔ ∀ c ∈ t, c.toNat < 0x10000 := by
  induction t with
  | nil => simp
  | cons c t ih =>
    rw [List.flatMap_cons, List.forall_mem_cons, ← ih]
    by_cases hc : c.toNat < 0x10000
    · simp [recooked, hc]
    · refine iff_of_false (fun h => hc ?_) (fun h => hc h.1)
      have hescape : ∃ u, encodeChar c = '\\' :: u := by
        rcases encodeChar_cases c with ⟨e, h, -⟩ | ⟨-, -, -, -, h⟩ | ⟨h, -⟩ | ⟨h, -⟩
        · exact ⟨_, h⟩
        · exact absurd (by omega) hc
        · exact ⟨_, h⟩
        · exact ⟨_, h⟩
      obtain ⟨u, hu⟩ := hescape
      rw [recooked, if_neg hc, hu] at h
      rw [← (List.cons.inj h).1]
      decide

/-- A written text is read back by JSON. The script reads it as the same text, except that each
character outside the basic plane stays a pair of escapes; so the two agree exactly if there is no
such character. -/
theorem readings_agree_iff [Nesting] (t : Text) : ∃ written, write (.string t) = .ok written ∧
    read written = .ok (.string t) ∧
    cook (unquoted written) = t.flatMap recooked ∧
    (read written = .ok (.string (cook (unquoted written))) ↔ ∀ c ∈ t, c.toNat < 0x10000) := by
  obtain ⟨written, hwrite, hread, -⟩ := read_write (Value.plain_string _ t)
  have hwritten : encode t = written := Except.ok.inj hwrite
  have hcook : cook (unquoted written) = t.flatMap recooked := by
    rw [← hwritten, unquoted_encode]
    exact cookFrom_encodeInner t []
  refine ⟨written, hwrite, hread, hcook, ?_⟩
  rw [hread, hcook, ← flatMap_recooked_eq_iff, Except.ok.injEq, Value.string.injEq, eq_comm]

/-- JSON writes one character outside the basic plane as two escapes of six characters each; the
script leaves both as they are. -/
theorem not_readings_agree_pair :
    let written := "\"\\ud83d\\ude00\"".toList
    write (.string ['😀']) = .ok written ∧ read written = .ok (.string ['😀']) ∧
    cook (unquoted written) = "\\ud83d\\ude00".toList ∧
    read written ≠ .ok (.string (cook (unquoted written))) := by
  intro written
  obtain ⟨t, hwrite, hread, -⟩ := read_write (Value.plain_string _ ['😀'])
  have hencode : encode ['😀'] = written := by decide +kernel
  have ht : write (.string ['😀']) = .ok written := congrArg Except.ok hencode
  have hcook : cook (unquoted written) = "\\ud83d\\ude00".toList := by decide +kernel
  cases hwrite.symm.trans ht
  refine ⟨ht, hread, hcook, ?_⟩
  rw [hread, hcook, ne_eq, Except.ok.injEq, Value.string.injEq]
  decide

end OperationScan.Script
