import OperationScan.Proofs.Script.Spelling

/-!
# Escaping for a script literal and back

* `escapeFor`: a text with a backslash in front of every backslash and every quote of one kind.
* `inlineFor`: such a text whose line feeds are written as escapes, too.
* `spelled_escapeFor`, `spelled_inlineFor`: both spell the text that has been escaped.
* `cook_escapeFor`: cooking takes the escapes out again.
-/

namespace OperationScan.Script

/-- What a character becomes in a literal between two equal quotes. -/
def escapeChar (quote c : Char) : Text := if c = '\\' ∨ c = quote then ['\\', c] else [c]

/-- A text as it stands in a literal between two equal quotes. -/
def escapeFor (quote : Char) (t : Text) : Text := t.flatMap (escapeChar quote)

/-- What a character becomes in a literal on one line. -/
def inlineChar (quote c : Char) : Text := if c = '\n' then ['\\', 'n'] else escapeChar quote c

/-- A text as it stands in a literal on one line. -/
def inlineFor (quote : Char) (t : Text) : Text := t.flatMap (inlineChar quote)

/-- One of the quotes that end at a line break. -/
def IsPlainQuote (quote : Char) : Prop := quote = '"' ∨ quote = '\''

instance (quote : Char) : Decidable (IsPlainQuote quote) :=
  inferInstanceAs (Decidable (quote = '"' ∨ quote = '\''))

variable {quote : Char}

theorem escapeFor_append (t u : Text) :
    escapeFor quote (t ++ u) = escapeFor quote t ++ escapeFor quote u := List.flatMap_append

theorem escapeChar_cases (quote c : Char) :
    ((c = '\\' ∨ c = quote) ∧ escapeChar quote c = ['\\', c]) ∨
      (c ≠ '\\' ∧ c ≠ quote ∧ escapeChar quote c = [c]) := by
  by_cases h : c = '\\' ∨ c = quote
  · exact .inl ⟨h, if_pos h⟩
  · obtain ⟨hbackslash, hquote⟩ := not_or.mp h
    exact .inr ⟨hbackslash, hquote, if_neg h⟩

/-! ## Spelling -/

/-- Behind a backslash, backslashes and quotes stand for themselves. -/
theorem spelling_escapeChar (hquote : quote ∉ reservedEscapes) (c : Char) :
    Spelling (escapeChar quote c) [c] := by
  rcases escapeChar_cases quote c with ⟨hc, heq⟩ | ⟨hc, -, heq⟩
  · rw [heq]
    rcases hc with rfl | rfl
    · exact .itself (by decide)
    · exact .itself hquote
  · rw [heq]
    exact .raw hc

theorem spelling_inlineChar (hquote : quote ∉ reservedEscapes) (c : Char) :
    Spelling (inlineChar quote c) [c] := by
  by_cases hfeed : c = '\n'
  · subst hfeed
    exact .letter (by decide)
  · rw [inlineChar, if_neg hfeed]
    exact spelling_escapeChar hquote c

theorem spelled_escapeFor (hquote : quote ∉ reservedEscapes) (t : Text) :
    Spelled (escapeFor quote t) t := by
  have h := spelled_flatMap fun c (_ : c ∈ t) => spelling_escapeChar hquote c
  rwa [List.flatMap_singleton'] at h

theorem spelled_inlineFor (hquote : quote ∉ reservedEscapes) (t : Text) :
    Spelled (inlineFor quote t) t := by
  have h := spelled_flatMap fun c (_ : c ∈ t) => spelling_inlineChar hquote c
  rwa [List.flatMap_singleton'] at h

/-- Cooking gives an escaped text back. -/
theorem cook_escapeFor (hquote : IsPlainQuote quote) (t : Text) :
    cook (escapeFor quote t) = t := by
  have hreserved : quote ∉ reservedEscapes := by
    rcases hquote with rfl | rfl <;> decide
  exact cookFrom_spelled (spelled_escapeFor hreserved t) []

end OperationScan.Script
