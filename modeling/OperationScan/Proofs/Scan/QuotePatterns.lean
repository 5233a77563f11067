import OperationScan.Proofs.Pattern.Starts
import OperationScan.Proofs.Scan.QuotedSpans
import OperationScan.Proofs.Scan.Sightings

/-!
# The two patterns for quoted spans

The third pattern reads plain quoted spans, the fourth one spans with backslashes. The fourth one
is there for what the third one leaves out: a backslash ends the search for a plain closing quote,
so no escaped quote closes a plain span. In a text without backslashes the two find the same.

* `exists_between_of_mem_findAll`: what the third pattern matches, from quote to quote.
* `escapedStep_eq`: without backslashes the two patterns agree at every place.
* `IsSettled`: a match that would not be recorded any more; no match stays unsettled.
* `matchesIn_escaped_quoted`: the patterns compared on whole texts.
-/

namespace OperationScan

open Text

variable {t u body : Text} {p : Place} {before : Option Char} {index n : Nat} {quote c : Char}
  {keyword : Option Place} {s : Span} {claimed : List (Nat × Nat)} {state : Nat × Collector}
  {m m' : PatternMatch} {found : List PatternMatch}

/-! ## Plain spans -/

/-- A plain span that is read ends with the first closing quote, and no backslash comes first. -/
theorem readPlain_eq_some {r : QuotedKeyword}
    (h : readPlain quote keyword before index t = some r) :
    ∃ body rest, t = body ++ quote :: rest ∧ quote ∉ body ∧ '\\' ∉ body ∧
      r.stop = index + body.length := by
  induction t generalizing keyword before index with
  | nil => cases h
  | cons c t ih =>
    rw [readPlain] at h
    split at h
    · rename_i hquote
      obtain ⟨k, -, rfl⟩ := Option.map_eq_some_iff.mp h
      rw [beq_iff_eq.mp hquote]
      exact ⟨[], t, rfl, List.not_mem_nil, List.not_mem_nil, rfl⟩
    · rename_i hquote
      split at h
      · cases h
      · rename_i hbackslash
        obtain ⟨body, rest, rfl, hbody, hplain, hstop⟩ := ih h
        rw [beq_iff_eq] at hquote hbackslash
        refine ⟨c :: body, rest, rfl, ?_, ?_, ?_⟩
        · exact List.not_mem_cons_of_ne_of_not_mem (Ne.symm hquote) hbody
        · exact List.not_mem_cons_of_ne_of_not_mem (Ne.symm hbackslash) hplain
        · rw [hstop, List.length_cons]
          omega

/-- A quote, a text without backslashes and without the quote, and the quote once more. -/
structure IsPlainSpan (quote : Char) (body : Text) : Prop where
  opens : isQuote quote = true
  unquoted : quote ∉ body
  plain : '\\' ∉ body

/-- The characters of a span with its quotes. -/
def spanText (quote : Char) (body : Text) : Text := quote :: (body ++ [quote])

theorem IsPlainSpan.backslash_notMem (h : IsPlainSpan quote body) :
    '\\' ∉ spanText quote body := by
  have hne := QuotedSpan.ne_backslash_of_isQuote h.opens
  rw [spanText, List.mem_cons, List.mem_append, List.mem_singleton]
  rintro (heq | hmem | heq)
  · exact hne heq.symm
  · exact h.plain hmem
  · exact hne heq.symm

theorem exists_span_of_quotedStep (h : quotedStep before p = .hit s n) :
    ∃ quote body rest, IsPlainSpan quote body ∧ p.rest = spanText quote body ++ rest ∧
      n = (spanText quote body).length ∧ p.index < s.start ∧ s.start ≤ s.stop ∧
      s.stop + 1 = p.index + n := by
  unfold quotedStep at h
  split at h
  · rename_i quote rest hrest
    split at h
    · rename_i hquote
      split at h
      · rename_i r hread
        cases h
        obtain ⟨body, rest, rfl, hbody, hplain, hstop⟩ := readPlain_eq_some hread
        obtain ⟨⟨hreaches, -⟩, v, hclose⟩ := readPlain_keyword hread (by simp)
          (allKeywords_reaches ⟨p.index + 1, _⟩ (some quote))
        have hstart : p.index + 1 ≤ r.keyword.index := hreaches.le
        have hle : r.keyword.index ≤ r.stop := hclose.le
        refine ⟨quote, body, rest, ⟨hquote, hbody, hplain⟩, by simp [hrest, spanText], ?_, ?_, hle,
          ?_⟩
        · simp only [spanText, List.length_cons, List.length_append, List.length_nil]
          omega
        · exact hstart
        · change r.stop + 1 = _
          omega
      · cases h
    · cases h
  · cases h

/-- A span of a text is what is found where a text between two quotes is matched. -/
structure Span.IsFoundBetween (s : Span) (t u : Text) (quote : Char) (body rest : Text) : Prop where
  text : t = u ++ (spanText quote body ++ rest)
  hit : quotedStep u.getLast? ⟨u.length, spanText quote body ++ rest⟩ =
    .hit s (spanText quote body).length
  plain : IsPlainSpan quote body
  start : u.length < s.start ∧ s.start ≤ s.stop
  stop : s.stop + 1 = (u ++ spanText quote body).length

theorem Span.IsFoundBetween.getElem? {rest : Text} {i : Nat}
    (h : s.IsFoundBetween t u quote body rest) (hi : i < (spanText quote body).length) :
    t[u.length + i]? = (spanText quote body)[i]? := by
  rw [h.text, List.getElem?_append_right (Nat.le_add_right _ _), Nat.add_sub_cancel_left,
    List.getElem?_append_left hi]

/-- What the third pattern matches reaches from a quote to the next one of its kind, and no
backslash is matched, so that none stands in front of the closing quote. -/
theorem exists_between_of_mem_findAll (h : s ∈ findAll Pattern.quoted.step t) :
    ∃ u quote body rest, s.IsFoundBetween t u quote body rest ∧
      '\\' ∉ spanText quote body ∧ t[s.stop]? = some quote ∧ t[s.stop - 1]? ≠ some '\\' := by
  obtain ⟨u, v, n, ht, hhit⟩ := exists_of_mem_findAll h
  have hstep : quotedStep u.getLast? ⟨u.length, v⟩ = .hit s n := hhit
  obtain ⟨quote, body, rest, hspan, hv, rfl, hstart, hle, hstop⟩ := exists_span_of_quotedStep hstep
  dsimp only at hv hstart hstop
  subst hv
  have hfound : s.IsFoundBetween t u quote body rest :=
    ⟨ht, hstep, hspan, ⟨hstart, hle⟩, by rw [hstop, List.length_append]⟩
  have hlength : (spanText quote body).length = body.length + 2 := by
    simp [spanText]
  have hclose : t[s.stop]? = some quote := by
    have hindex : s.stop = u.length + (body.length + 1) := by omega
    rw [hindex, hfound.getElem? (by omega)]
    simp [spanText]
  refine ⟨u, quote, body, rest, hfound, hspan.backslash_notMem, hclose, fun hbackslash => ?_⟩
  -- the character in front of the closing quote belongs to the span
  have hindex : s.stop - 1 = u.length + body.length := by omega
  rw [hindex, hfound.getElem? (by omega)] at hbackslash
  exact hspan.backslash_notMem (List.mem_of_getElem? hbackslash)

/-! ## Without backslashes -/

theorem readEscaped_eq_readPlain (h : '\\' ∉ t) :
    readEscaped [quote] keyword false before index t = readPlain quote keyword before index t := by
  induction t generalizing keyword before index with
  | nil => rfl
  | cons c t ih =>
    obtain ⟨hc, ht⟩ := List.ne_and_not_mem_of_not_mem_cons h
    have hstarts : startsWith (c :: t) [quote] = (c == quote) := by
      by_cases hquote : c = quote
      · simp [startsWith, afterStart?, hquote]
      · simp [startsWith, afterStart?, hquote, Ne.symm hquote]
    rw [readEscaped, readPlain, hstarts]
    split
    · rfl
    · rw [if_neg (by simpa using hc.symm), if_neg (by simpa using hc.symm)]
      exact ih ht

theorem openingQuote?_eq (hc : c ≠ '\\') (t : Text) :
    openingQuote? (c :: t) = if isQuote c then some ([c], 1) else none := by
  unfold openingQuote?
  split
  · rename_i heq
    cases heq
    exact absurd rfl hc
  · rename_i heq
    cases heq
    rfl
  · rename_i heq
    cases heq

/-- Where no backslash follows, both patterns find the same. -/
theorem escapedStep_eq (h : '\\' ∉ p.rest) : escapedStep before p = quotedStep before p := by
  obtain ⟨index, t⟩ := p
  cases t with
  | nil => rfl
  | cons c t =>
    obtain ⟨hc, ht⟩ := List.ne_and_not_mem_of_not_mem_cons h
    have hstart : Place.drop ⟨index, c :: t⟩ 1 = ⟨index + 1, t⟩ := rfl
    have hread : readEscaped [c] none false (some c) (index + 1) t =
        readPlain c none (some c) (index + 1) t := readEscaped_eq_readPlain ht
    rw [escapedStep, quotedStep]
    dsimp only
    rw [openingQuote?_eq hc.symm]
    by_cases hquote : isQuote c = true
    · rw [if_pos hquote, if_pos hquote]
      dsimp only
      rw [hstart, List.getLast?_singleton, hread]
    · rw [if_neg hquote, if_neg hquote]

theorem findAll_escaped (h : '\\' ∉ t) :
    findAll Pattern.escaped.step t = findAll Pattern.quoted.step t := by
  rw [findAll_eq, findAll_eq]
  refine findFrom_congr fun before index u hu => ?_
  change escapedStep before ⟨index, u⟩ = quotedStep before ⟨index, u⟩
  exact escapedStep_eq fun hmem => h (hu.subset hmem)

/-- What a match says about the text: all but the pattern it is from. -/
def PatternMatch.stretch (m : PatternMatch) : Text × Nat × Nat × Bool :=
  (m.text, m.start, m.stop, m.repaired)

/-- Patterns that finish alike make the same matches of the same spans. -/
theorem stretch_finished? {p q : Pattern} (h : p.finish = q.finish) (s : Span) :
    (p.finished? s).map PatternMatch.stretch = (q.finished? s).map PatternMatch.stretch := by
  unfold Pattern.finished?
  rw [h]
  cases q.finish with
  | asFound => rfl
  | clipped repairable minLength =>
    dsimp only
    cases clip? repairable s.text with
    | none => rfl
    | some clipped =>
      dsimp only
      split
      · rfl
      · rfl

theorem stretch_matchesIn (h : '\\' ∉ t) :
    (Pattern.escaped.matchesIn t).map PatternMatch.stretch =
      (Pattern.quoted.matchesIn t).map PatternMatch.stretch := by
  rw [Pattern.matchesIn, Pattern.matchesIn, List.map_filterMap, List.map_filterMap,
    findAll_escaped h]
  exact List.filterMap_congr fun s _ => stretch_finished? (p := .escaped) (q := .quoted) rfl s

/-! ## Nothing new -/

/-- A match that is not recorded any more: it overlaps a claimed stretch, or its signature is empty
or known. -/
def IsSettled (claimed : List (Nat × Nat)) (state : Nat × Collector) (m : PatternMatch) : Prop :=
  overlaps m.start m.stop claimed = true ∨
    normalize (trim m.text) = [] ∨ normalize (trim m.text) ∈ state.2.signatures

theorem IsSettled.of_stretch (hsame : m.stretch = m'.stretch) (h : IsSettled claimed state m) :
    IsSettled claimed state m' := by
  simp only [PatternMatch.stretch, Prod.mk.injEq] at hsame
  obtain ⟨htext, hstart, hstop, -⟩ := hsame
  rwa [IsSettled, htext, hstart, hstop] at h

theorem IsSettled.addUnclaimed_eq (h : IsSettled claimed state m) :
    addUnclaimed claimed state m = state := by
  rw [addUnclaimed]
  split
  · rfl
  · rename_i hclaimed
    have hknown := h.resolve_left hclaimed
    rcases state.2.add_cases m.text m.context [] with ⟨-, hadd⟩ | ⟨hne, hnew, -⟩
    · rw [hadd]
    · exact absurd hknown (not_or.mpr ⟨hne, hnew⟩)

theorem isSettled_addUnclaimed : IsSettled claimed (addUnclaimed claimed state m) m := by
  by_cases hclaimed : overlaps m.start m.stop claimed = true
  · exact .inl hclaimed
  · right
    by_cases hempty : normalize (trim m.text) = []
    · exact .inl hempty
    · right
      rw [snd_addUnclaimed hclaimed, Collector.mem_signatures_see]
      exact .inr ⟨rfl, hempty⟩

/-- What is settled stays settled. -/
theorem IsSettled.addUnclaimed (h : IsSettled claimed state m) :
    IsSettled claimed (addUnclaimed claimed state m') m := by
  refine h.imp_right fun h => h.imp_right fun hknown => ?_
  obtain ⟨l, hrecord, -⟩ := exists_addUnclaimed claimed m'
  rw [hrecord, Collector.mem_signatures_record]
  exact .inl hknown

/-- The matches of a list are all settled once they have been recorded. -/
theorem isSettled_foldl :
    ∀ m ∈ found, IsSettled claimed (found.foldl (addUnclaimed claimed) state) m := by
  induction found generalizing state with
  | nil => simp
  | cons m found ih =>
    rw [List.foldl_cons]
    refine List.forall_mem_cons.mpr ⟨?_, ih⟩
    exact List.foldlRecOn (motive := fun state => IsSettled claimed state m) _ _
      isSettled_addUnclaimed fun _ h _ _ => h.addUnclaimed

/-- The scan of a whole text with one pattern. -/
def sweep (t : Text) (claimed : List (Nat × Nat)) (state : Nat × Collector) (p : Pattern) :
    Nat × Collector :=
  (p.matchesIn t).foldl (addUnclaimed claimed) state

/-- A pattern with the matches of one that has been tried before adds nothing. -/
theorem sweep_sweep {p q : Pattern}
    (h : (q.matchesIn t).map PatternMatch.stretch = (p.matchesIn t).map PatternMatch.stretch) :
    sweep t claimed (sweep t claimed state p) q = sweep t claimed state p := by
  have hsettled : ∀ m ∈ q.matchesIn t, IsSettled claimed (sweep t claimed state p) m := by
    intro m hm
    have hmem : m.stretch ∈ (p.matchesIn t).map PatternMatch.stretch := by
      rw [← h]
      exact List.mem_map_of_mem hm
    obtain ⟨m', hm', hsame⟩ := List.mem_map.mp hmem
    exact (isSettled_foldl m' hm').of_stretch hsame
  rw [sweep]
  refine List.foldlRecOn (motive := (· = sweep t claimed state p)) _ _ rfl ?_
  rintro _ rfl m hm
  exact (hsettled m hm).addUnclaimed_eq

/-- Where the first pattern with a match is looked for, one that has the matches of the pattern
before it is never the one. -/
theorem addFirstPattern_cons {p q : Pattern} (rest : List Pattern) (collector : Collector)
    (h : (q.matchesIn t).map PatternMatch.stretch = (p.matchesIn t).map PatternMatch.stretch) :
    addFirstPattern t (p :: q :: rest) collector = addFirstPattern t (p :: rest) collector := by
  by_cases hnone : p.matchesIn t = []
  · have hnone' : q.matchesIn t = [] := by
      rwa [hnone, List.map_nil, List.map_eq_nil_iff] at h
    simp only [addFirstPattern, Collector.addMatches_of_eq_nil hnone,
      Collector.addMatches_of_eq_nil hnone', beq_self_eq_true, if_true]
  · have hsome : (Sighting.ofMatches t stringContext [] [p]).length ≠ 0 := by
      simpa [Sighting.ofMatches] using hnone
    simp only [addFirstPattern, Collector.addMatches_eq, beq_iff_eq, if_neg hsome]

theorem scanWholeText_eq (t : Text) (claimed : List (Nat × Nat)) (collector : Collector) :
    scanWholeText t claimed collector =
      Pattern.aggressive.foldl (sweep t claimed) (0, collector) := rfl

/-- In a text without backslashes the pattern for escaped spans makes the matches that the one for
plain spans makes, and tried behind that one, in a whole text or in a quoted span, it adds nothing.
In every text what the pattern for plain spans matches, from quote to quote, is free of
backslashes, and none stands in front of the closing quote. -/
theorem matchesIn_escaped_quoted (t : Text) :
    ('\\' ∉ t →
      (Pattern.escaped.matchesIn t).map PatternMatch.stretch =
          (Pattern.quoted.matchesIn t).map PatternMatch.stretch ∧
        (∀ claimed state, sweep t claimed (sweep t claimed state .quoted) .escaped =
          sweep t claimed state .quoted) ∧
        (∀ claimed collector, scanWholeText t claimed collector =
          [.minified, .quoted, .split].foldl (sweep t claimed) (0, collector)) ∧
        ∀ collector, addFirstPattern t Pattern.aggressive collector =
          addFirstPattern t [.minified, .quoted, .split] collector) ∧
    ∀ s ∈ findAll Pattern.quoted.step t, ∃ u quote body rest,
      s.IsFoundBetween t u quote body rest ∧
        '\\' ∉ spanText quote body ∧ t[s.stop]? = some quote ∧ t[s.stop - 1]? ≠ some '\\' := by
  refine ⟨fun h => ?_, fun s => exists_between_of_mem_findAll⟩
  have hsame := stretch_matchesIn h
  refine ⟨hsame, fun _ _ => sweep_sweep hsame, fun claimed collector => ?_, fun collector => ?_⟩
  · rw [scanWholeText_eq, Pattern.aggressive]
    simp only [List.foldl_cons, sweep_sweep hsame]
  · rw [Pattern.aggressive, addFirstPattern, addFirstPattern]
    simp only [addFirstPattern_cons [.split] _ hsame]

def plainSpanText : Text :=
  "load('a query Items \x7b items \x7b id name \x7d \x7d b', \"query A \x7b a \x7d\")".toList

/-- The second span is too short for a match. -/
theorem matchesIn_escaped_quoted_plain : '\\' ∉ plainSpanText ∧
    (Pattern.quoted.matchesIn plainSpanText).map PatternMatch.stretch =
      [("query Items \x7b items \x7b id name \x7d \x7d".toList, 8, 43, false)] ∧
    (Pattern.escaped.matchesIn plainSpanText).map PatternMatch.stretch =
      [("query Items \x7b items \x7b id name \x7d \x7d".toList, 8, 43, false)] ∧
    ∀ collector, addFirstPattern plainSpanText Pattern.aggressive collector =
      addFirstPattern plainSpanText [.minified, .quoted, .split] collector := by
  have hplain : '\\' ∉ plainSpanText := by decide +kernel
  have hmatches : (Pattern.quoted.matchesIn plainSpanText).map PatternMatch.stretch =
      [("query Items \x7b items \x7b id name \x7d \x7d".toList, 8, 43, false)] := by
    decide +kernel
  obtain ⟨hsame, -, -, hfirst⟩ := (matchesIn_escaped_quoted plainSpanText).1 hplain
  exact ⟨hplain, hmatches, hsame.trans hmatches, hfirst⟩

/-- Quotes behind backslashes keep the first pattern from a span that the other one matches. -/
example :
    let t := "s = \"query Escaped \x7b items(filter: \\\"x\\\") \x7b id name \x7d \x7d\"".toList
    Pattern.quoted.matchesIn t = [] ∧ (Pattern.escaped.matchesIn t).map (·.text) =
      ["query Escaped \x7b items(filter: \\\"x\\\") \x7b id name \x7d \x7d".toList] := by
  decide +kernel

end OperationScan
