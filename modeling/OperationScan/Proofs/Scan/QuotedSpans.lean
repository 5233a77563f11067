import OperationScan.Proofs.Operation.Keywords
import OperationScan.Proofs.Pattern.Found
import OperationScan.Proofs.Script.Escape
import OperationScan.Scan.Strings

/-!
# The quoted spans of a text made of literals

* `Encloses`: a text that can stand between two equal quotes.
* `Literal`: an escaped text between two equal quotes, and what follows up to the next literal.
* `spliced`: literals one after the other, with text in front.
* `QuotedSpan.all_spliced`: the quoted spans of such a text are its literals.
* `exists_span_of_hasKeywordAt`: if its other stretches are quiet, all keywords of such a text lie
  strictly inside of its literals.
-/

namespace OperationScan

open Script Text

/-- A text without quotes. -/
def IsUnquoted (t : Text) : Prop := ∀ c ∈ t, isQuote c = false

instance : DecidablePred IsUnquoted := fun t => List.decidableBAll _ t

/-! ## Quoted spans -/

/-- A text in which no quoted span ends: a quote, a backslash or a line feed stands there only
behind a backslash. -/
inductive Encloses (quote : Char) : Text → Prop
  | nil : Encloses quote []
  | plain {c : Char} {t : Text} (hquote : c ≠ quote) (hbackslash : c ≠ '\\') (hfeed : c ≠ '\n')
      (h : Encloses quote t) : Encloses quote (c :: t)
  | escaped {c : Char} {t : Text} (h : Encloses quote t) : Encloses quote ('\\' :: c :: t)

namespace QuotedSpan

variable {quote : Char} {t gap : Text}

/-- The span that a text at an offset is. -/
def ofRaw (index : Nat) (raw : Text) : QuotedSpan := ⟨index, index + raw.length, raw⟩

theorem ne_backslash_of_isQuote (h : isQuote quote = true) : quote ≠ '\\' := by
  rintro rfl
  cases h

theorem lengthFrom?_of_encloses (hquote : isQuote quote = true) (h : Encloses quote t)
    (count : Nat) (rest : Text) : lengthFrom? quote false count (t ++ quote :: rest) =
      some (count + t.length + 1) := by
  induction h generalizing count with
  | nil => simp [lengthFrom?]
  | plain hne hbackslash hfeed _ ih =>
    simp [lengthFrom?, hne, hbackslash, hfeed, ih]
    omega
  | escaped _ ih =>
    have hbackslash := (ne_backslash_of_isQuote hquote).symm
    simp [lengthFrom?, hbackslash, ih]
    omega

theorem step_unquoted {c : Char} (hc : isQuote c = false) (before : Option Char) (index : Nat)
    (rest : Text) : step before ⟨index, c :: rest⟩ = .miss := by
  rw [step]
  dsimp only
  rw [hc]
  rfl

theorem missesIn_step (h : IsUnquoted t) : MissesIn step t :=
  fun c hc before index rest => step_unquoted (h c hc) before index rest

/-- A text between two equal quotes is a quoted span, whatever stands around it. -/
theorem isFound_quoted (hquote : isQuote quote = true) (ht : Encloses quote t)
    (hgap : IsUnquoted gap) :
    Stretch.IsFound step QuotedSpan.ofRaw ⟨quote :: (t ++ [quote]), gap⟩ where
  ne_nil := List.cons_ne_nil _ _
  hit := by
    intro before index rest
    have hlength := lengthFrom?_of_encloses hquote ht 1 rest
    have hcount : 1 + t.length + 1 = (quote :: (t ++ [quote])).length := by
      simp only [List.length_cons, List.length_append, List.length_nil]
      omega
    have htext : quote :: (t ++ [quote]) ++ rest = quote :: (t ++ quote :: rest) := by
      simp
    rw [hcount] at hlength
    rw [step, htext]
    dsimp only
    rw [if_pos hquote, hlength, ← htext]
    dsimp only
    rw [List.take_left]
    rfl
  gap := missesIn_step hgap

end QuotedSpan

/-! ## Literals -/

/-- An escaped text between two equal quotes, and the text behind it up to the next literal. -/
structure Literal where
  quote : Char
  body : Text
  gap : Text

/-- A text without quotes and without keywords. -/
structure IsQuiet (t : Text) : Prop where
  unquoted : IsUnquoted t
  noKeyword : ∀ i, ¬ HasKeywordAt none 0 t i

theorem isQuiet_of_keywordPlaces {t : Text} (hunquoted : t.any isQuote = false)
    (hkeyword : keywordPlaces t t.length = []) : IsQuiet t := by
  refine ⟨fun c hc => ?_, not_hasKeywordAt_of_keywordPlaces hkeyword⟩
  rw [List.any_eq_false] at hunquoted
  simpa using hunquoted c hc

namespace Literal

/-- The literal with its quotes. -/
def text (l : Literal) : Text := l.quote :: (escapeFor l.quote l.body ++ [l.quote])

/-- The literal with its quotes and what follows it. -/
def stretch (l : Literal) : Stretch := ⟨l.text, l.gap⟩

/-- The quotes are plain ones, the body is on one line, and what follows is quiet. -/
structure Valid (l : Literal) : Prop where
  quote : IsPlainQuote l.quote
  body : '\n' ∉ l.body
  gap : IsQuiet l.gap

end Literal

/-- Literals one after the other, with text in front. -/
def spliced (first : Text) : List Literal → Text
  | [] => first
  | l :: rest => first ++ (l.text ++ spliced l.gap rest)

/-- The spans of literals, the first of which begins at an offset. -/
def spansFrom (index : Nat) : List Literal → List QuotedSpan
  | [] => []
  | l :: rest => ⟨index, index + l.text.length, l.text⟩ ::
      spansFrom (index + l.text.length + l.gap.length) rest

theorem spliced_eq_interleaved (first : Text) (ls : List Literal) :
    spliced first ls = interleaved first (ls.map Literal.stretch) := by
  induction ls generalizing first with
  | nil => rfl
  | cons l ls ih =>
    rw [spliced, ih]
    rfl

theorem spansFrom_eq_foundOf (index : Nat) (ls : List Literal) :
    spansFrom index ls = foundOf QuotedSpan.ofRaw index (ls.map Literal.stretch) := by
  induction ls generalizing index with
  | nil => rfl
  | cons l ls ih =>
    rw [spansFrom, ih]
    rfl

theorem isQuote_of_isPlainQuote {c : Char} (h : IsPlainQuote c) : isQuote c = true := by
  rcases h with rfl | rfl <;> rfl

theorem encloses_append {quote : Char} {t u : Text} (ht : Encloses quote t)
    (hu : Encloses quote u) : Encloses quote (t ++ u) := by
  induction ht with
  | nil => exact hu
  | plain hquote hbackslash hfeed _ ih => exact .plain hquote hbackslash hfeed ih
  | escaped _ ih => exact .escaped ih

theorem encloses_flatMap {quote : Char} {f : Char → Text} {t : Text}
    (h : ∀ c ∈ t, Encloses quote (f c)) : Encloses quote (t.flatMap f) := by
  induction t with
  | nil => exact .nil
  | cons c t ih =>
    obtain ⟨hc, ht⟩ := List.forall_mem_cons.mp h
    exact encloses_append hc (ih ht)

/-- A character that has been escaped does not end a span, unless it is a line feed. -/
theorem encloses_escapeChar {quote c : Char} (hc : c ≠ '\n') :
    Encloses quote (escapeChar quote c) := by
  rcases escapeChar_cases quote c with ⟨-, heq⟩ | ⟨hbackslash, hquote, heq⟩
  · rw [heq]
    exact .escaped .nil
  · rw [heq]
    exact .plain hquote hbackslash hc .nil

theorem Literal.isFound {l : Literal} (hl : l.Valid) :
    l.stretch.IsFound QuotedSpan.step QuotedSpan.ofRaw :=
  QuotedSpan.isFound_quoted (isQuote_of_isPlainQuote hl.quote)
    (encloses_flatMap fun _ hc => encloses_escapeChar fun hfeed => hl.body (hfeed ▸ hc))
    hl.gap.unquoted

/-- The quoted spans of a text made of literals are the literals. -/
theorem QuotedSpan.all_spliced {first : Text} {ls : List Literal} (hfirst : IsUnquoted first)
    (hls : ∀ l ∈ ls, l.Valid) : all (spliced first ls) = spansFrom first.length ls := by
  rw [all, spliced_eq_interleaved, spansFrom_eq_foundOf]
  exact findAll_interleaved (missesIn_step hfirst)
    (List.forall_mem_map.mpr fun l hl => Literal.isFound (hls l hl))

/-! ## Keywords -/

variable {t u : Text} {before : Option Char} {index i : Nat}

/-- A quiet text is left behind before a keyword comes, also when a quote follows it. -/
theorem IsQuiet.hasKeywordAt_append (h : IsQuiet t) (hu : ∀ c ∈ u.head?, isQuote c = true)
    (hkeyword : HasKeywordAt before index (t ++ u) i) :
    HasKeywordAt (lastOr before t) (index + t.length) u i := by
  rcases hkeyword.append_cases with hlater | ⟨v, w, rfl, -, -, hbefore, hw⟩
  · exact hlater
  · have hbegins : wordBegins (lastOr none v) = true := by
      cases v with
      | nil => rfl
      | cons c v => rwa [lastOr_cons] at hbefore ⊢
    exact absurd ⟨v, w, rfl, rfl, hbegins, hw.of_append hu⟩ (h.noKeyword _)

/-- A keyword in a literal or behind it is strictly inside of the literal or behind it. -/
theorem Literal.hasKeywordAt_append {l : Literal} (hl : l.Valid)
    (hkeyword : HasKeywordAt before index (l.text ++ u) i) :
    (index < i ∧ i < index + l.text.length) ∨
      HasKeywordAt (lastOr before l.text) (index + l.text.length) u i := by
  rcases hkeyword.append_cases with hlater | ⟨v, w, htext, hne, hi, -, hw⟩
  · exact .inr hlater
  · cases v with
    | nil =>
      -- no keyword begins with the opening quote
      rw [List.nil_append] at htext
      have hquote := hw.head? l.quote (by rw [← htext]; rfl)
      rw [isQuote_of_isPlainQuote hl.quote] at hquote
      cases hquote
    | cons c v =>
      have hlength : l.text.length = (c :: v).length + w.length := by
        rw [htext, List.length_append]
      have hpos : 0 < w.length := List.length_pos_iff.mpr hne
      rw [List.length_cons] at hi hlength
      exact .inl ⟨by omega, by omega⟩

theorem head?_spliced_nil (ls : List Literal) (hls : ∀ l ∈ ls, l.Valid) :
    ∀ c ∈ (spliced [] ls).head?, isQuote c = true := by
  cases ls with
  | nil => simp [spliced]
  | cons l ls =>
    rintro c ⟨⟩
    exact isQuote_of_isPlainQuote (hls l (by simp)).quote

theorem spliced_eq_append (first : Text) (ls : List Literal) :
    spliced first ls = first ++ spliced [] ls := by
  cases ls with
  | nil => exact (List.append_nil first).symm
  | cons l ls => rfl

/-- Every keyword lies strictly inside of a literal. -/
theorem exists_span_of_hasKeywordAt {first : Text} {ls : List Literal} (hfirst : IsQuiet first)
    (hls : ∀ l ∈ ls, l.Valid) (h : HasKeywordAt before index (spliced first ls) i) :
    ∃ s ∈ spansFrom (index + first.length) ls, s.start < i ∧ i < s.stop := by
  induction ls generalizing first before index with
  | nil =>
    have hquiet := hfirst.hasKeywordAt_append (u := []) (by simp) (by rwa [List.append_nil])
    obtain ⟨u, v, huv, -, -, hv⟩ := hquiet
    obtain ⟨-, rfl⟩ := List.append_eq_nil_iff.mp huv.symm
    obtain ⟨k, hk, rest, hword, -⟩ := hv
    exact absurd (List.append_eq_nil_iff.mp hword.symm).1 (Head.word_ne_nil k hk)
  | cons l ls ih =>
    -- the keyword is behind the first stretch, and there in the literal or behind it
    obtain ⟨hl, hrest⟩ := List.forall_mem_cons.mp hls
    rw [spliced_eq_append] at h
    have hbehind := hfirst.hasKeywordAt_append (head?_spliced_nil _ hls) h
    rcases Literal.hasKeywordAt_append hl hbehind with hinside | hlater
    · exact ⟨_, List.mem_cons_self .., hinside⟩
    · obtain ⟨s, hs, hbetween⟩ := ih hl.gap hrest hlater
      exact ⟨s, List.mem_cons_of_mem _ hs, hbetween⟩

end OperationScan
