import OperationScan.Proofs.Scan.Claims
import OperationScan.Proofs.Scan.QuotedSpans

/-!
# Values between quotes are read back

Each value stands between two equal quotes of any of the three kinds, with its backslashes, its
quotes and its line feeds written as escapes. The scan of quoted spans sees the values as they were
before they were written.

* `Quotation`, `quotationText`: values between quotes, one after the other, with gaps between them.
* `placed`: the quoted spans of such a text, each with its value.
* `recordValues`: records values as request bodies and gives the spans of those that hold
  operations.
* `scanStrings_quotationText`: the scan finds these spans and does nothing but record their values.
-/

namespace OperationScan

open Collecting Script

/-- A value between two equal quotes, and what follows it up to the next one. -/
structure Quotation where
  quote : Char
  value : Text
  gap : Text

namespace Quotation

/-- The value on one line between its quotes. -/
def text (q : Quotation) : Text := q.quote :: (inlineFor q.quote q.value ++ [q.quote])

/-- The value between its quotes and what follows it. -/
def stretch (q : Quotation) : Stretch := ⟨q.text, q.gap⟩

/-- The quotes are quotes, and what follows has none. -/
structure Valid (q : Quotation) : Prop where
  quote : isQuote q.quote = true
  gap : IsUnquoted q.gap

end Quotation

/-- Values between quotes, one after the other, with text in front. -/
def quotationText (first : Text) (qs : List Quotation) : Text :=
  interleaved first (qs.map Quotation.stretch)

/-- The quoted spans of values, the first of which begins at an offset, each with its value. -/
def placed (index : Nat) : List Quotation → List (QuotedSpan × Text)
  | [] => []
  | q :: rest =>
    (.ofRaw index q.text, q.value) :: placed (index + q.text.length + q.gap.length) rest

/-- Records values as request bodies, one after the other, and gives the spans of those that hold
operations. -/
def recordValues [Json.Nesting] (xs : List (QuotedSpan × Text)) : Collecting (List QuotedSpan) := do
  let counts ← xs.mapM fun x => addPayload x.2 stringContext []
  return ((xs.zip counts).filter fun x => x.2 != 0).map fun x => x.1.1

variable {q : Quotation} {qs : List Quotation} {first : Text}

/-! ## The spans -/

theorem not_mem_reservedEscapes {quote : Char} (h : isQuote quote = true) :
    quote ∉ reservedEscapes := by
  intro hmem
  have hnone : IsUnquoted reservedEscapes := by decide
  rw [hnone quote hmem] at h
  cases h

/-- A character that is written on one line does not end a span. -/
theorem encloses_inlineChar (quote c : Char) : Encloses quote (inlineChar quote c) := by
  by_cases hfeed : c = '\n'
  · rw [inlineChar, if_pos hfeed]
    exact .escaped .nil
  · rw [inlineChar, if_neg hfeed]
    exact encloses_escapeChar hfeed

theorem Quotation.isFound (hq : q.Valid) : q.stretch.IsFound QuotedSpan.step QuotedSpan.ofRaw :=
  QuotedSpan.isFound_quoted hq.quote (encloses_flatMap fun c _ => encloses_inlineChar q.quote c)
    hq.gap

theorem foundOf_stretch (index : Nat) (qs : List Quotation) :
    foundOf QuotedSpan.ofRaw index (qs.map Quotation.stretch) = (placed index qs).map Prod.fst := by
  induction qs generalizing index with
  | nil => rfl
  | cons q qs ih =>
    rw [placed, List.map_cons, List.map_cons, ← ih]
    rfl

/-- The quoted spans are the values between their quotes. -/
theorem all_quotationText (hfirst : IsUnquoted first) (hqs : ∀ q ∈ qs, q.Valid) :
    QuotedSpan.all (quotationText first qs) = (placed first.length qs).map Prod.fst := by
  rw [QuotedSpan.all, quotationText, ← foundOf_stretch]
  exact findAll_interleaved (QuotedSpan.missesIn_step hfirst)
    (List.forall_mem_map.mpr fun q hq => Quotation.isFound (hqs q hq))

/-- The text between the quotes of a span stands for the value. -/
theorem cook_content_of_mem_placed {index : Nat} (hqs : ∀ q ∈ qs, q.Valid) :
    ∀ x ∈ placed index qs, cook x.1.content = x.2 := by
  induction qs generalizing index with
  | nil => simp [placed]
  | cons q qs ih =>
    obtain ⟨hq, hrest⟩ := List.forall_mem_cons.mp hqs
    refine List.forall_mem_cons.mpr ⟨?_, ih hrest⟩
    have hcontent : (QuotedSpan.ofRaw index q.text).content = inlineFor q.quote q.value := by
      change (q.text.drop 1).dropLast = _
      rw [Quotation.text, List.drop_one, List.tail_cons, List.dropLast_concat]
    dsimp only
    rw [hcontent]
    exact cookFrom_spelled (spelled_inlineFor (not_mem_reservedEscapes hq.quote) q.value) []

/-- Spans stand behind one another and are not empty. -/
def Ascending (spans : List QuotedSpan) : Prop :=
  (spans.Pairwise fun a b => a.stop ≤ b.start) ∧ ∀ s ∈ spans, s.start < s.stop

theorem le_start_of_mem_placed {index : Nat} :
    ∀ x ∈ placed index qs, index ≤ x.1.start ∧ x.1.start < x.1.stop := by
  induction qs generalizing index with
  | nil => simp [placed]
  | cons q qs ih =>
    refine List.forall_mem_cons.mpr ⟨⟨Nat.le_refl _, ?_⟩, fun x hx => ?_⟩
    · have hlength : 0 < q.text.length := Nat.succ_pos _
      exact Nat.lt_add_of_pos_right hlength
    · have hle := (ih x hx).1
      exact ⟨by omega, (ih x hx).2⟩

theorem ascending_placed (index : Nat) (qs : List Quotation) :
    Ascending ((placed index qs).map Prod.fst) := by
  refine ⟨?_, List.forall_mem_map.mpr fun x hx => (le_start_of_mem_placed x hx).2⟩
  induction qs generalizing index with
  | nil => exact .nil
  | cons q qs ih =>
    refine List.pairwise_cons.mpr ⟨List.forall_mem_map.mpr fun x hx => ?_, ih _⟩
    have hle := (le_start_of_mem_placed x hx).1
    change index + q.text.length ≤ x.1.start
    omega

/-! ## The scan -/

theorem recordValues_cons [Json.Nesting] (x : QuotedSpan × Text) (xs : List (QuotedSpan × Text)) :
    recordValues (x :: xs) = (do
      let n ← addPayload x.2 stringContext []
      let more ← recordValues xs
      return if n == 0 then more else x.1 :: more) := by
  have hkept : ∀ (n : Nat) (counts : List Nat),
      (((x :: xs).zip (n :: counts)).filter fun x => x.2 != 0).map (fun x => x.1.1) =
        let more := ((xs.zip counts).filter fun x => x.2 != 0).map fun x => x.1.1
        if n == 0 then more else x.1 :: more := by
    intro n counts
    cases n with
    | zero => rfl
    | succ n => rfl
  simp only [recordValues, List.mapM_cons, bind_assoc, pure_bind, hkept]

/-- Without other patterns a span that passes the screen gives what its value gives. -/
theorem scanSpan_plain [Json.Nesting] {s : QuotedSpan} (h : passesScreen s.raw = true) :
    scanSpan false s = addPayload (cook s.content) stringContext [] := by
  simp only [scanSpan, h, if_true, Bool.and_false, Bool.false_eq_true, if_false, bind_pure]

/-- The scan of spans whose texts stand for values records the values of those that pass the
screen. -/
theorem scanSpans_eq_recordValues [Json.Nesting] {xs : List (QuotedSpan × Text)}
    (h : ∀ x ∈ xs, cook x.1.content = x.2) : scanSpans false (xs.map Prod.fst) =
      recordValues (xs.filter fun x => passesScreen x.1.raw) := by
  induction xs with
  | nil => rfl
  | cons x xs ih =>
    obtain ⟨hx, hxs⟩ := List.forall_mem_cons.mp h
    rw [List.map_cons, scanSpans, ih hxs, List.filter_cons]
    cases hscreen : passesScreen x.1.raw with
    | true => rw [if_pos rfl, recordValues_cons, scanSpan_plain hscreen, hx]
    | false =>
      simp only [scanSpan, hscreen, Bool.false_eq_true, if_false, pure_bind]
      exact bind_pure _

/-- The scan of values between quotes finds each of them with its quotes, records the values of
those that pass the screen in order, as they were before they were written, and claims the ones
that hold operations. -/
theorem scanStrings_quotationText [Json.Nesting] (hfirst : IsUnquoted first)
    (hqs : ∀ q ∈ qs, q.Valid) :
    QuotedSpan.all (quotationText first qs) = (placed first.length qs).map Prod.fst ∧
      scanStrings (quotationText first qs) false =
        recordValues ((placed first.length qs).filter fun x => passesScreen x.1.raw) ∧
      ∀ c claimed c', (scanStrings (quotationText first qs) false).outcome c = (.ok claimed, c') →
        Ascending claimed := by
  have hall := all_quotationText hfirst hqs
  refine ⟨hall, ?_, ?_⟩
  · rw [scanStrings, hall]
    exact scanSpans_eq_recordValues (cook_content_of_mem_placed hqs)
  · intro c claimed c' h
    rw [scanStrings, hall, scanSpans_eq] at h
    have hsublist := sublist_of_claimWith h
    obtain ⟨hapart, hnonempty⟩ := ascending_placed first.length qs
    exact ⟨hapart.sublist hsublist, fun s hs => hnonempty s (hsublist.subset hs)⟩

/-- All three quotes; values with quotes of every kind, with a line break and with a backslash at
the end, the first and the last of which hold operations. -/
def mixedQuotations : List Quotation := [
  ⟨'"', "query A \x7b\n  a(s: \"it's\")\n\x7d".toList, ", ".toList⟩,
  ⟨'\'', "C:\\node\\".toList, "\\ + ".toList⟩,
  ⟨'\x60', "it's \x60b\x60".toList, []⟩,
  ⟨'\x60', "\x7b\"query\":\"mutation B \x7b b \x7d\"\x7d".toList, ");".toList⟩]

theorem valid_mixedQuotations : ∀ q ∈ mixedQuotations, q.Valid := by
  have hquotes : ∀ q ∈ mixedQuotations, isQuote q.quote = true ∧ IsUnquoted q.gap := by decide
  intro q hq
  exact ⟨(hquotes q hq).1, (hquotes q hq).2⟩

theorem scanStrings_quotationText_mixed :
    IsUnquoted "send(".toList ∧ (∀ q ∈ mixedQuotations, q.Valid) ∧
      (QuotedSpan.all (quotationText "send(".toList mixedQuotations)).map
        (fun s => (s.start, s.stop)) = [(5, 37), (39, 51), (55, 67), (67, 97)] ∧
      ∃ claimed, scanStrings (quotationText "send(".toList mixedQuotations) false =
        recordValues claimed ∧ claimed.map Prod.snd =
          [mixedQuotations[0].value, mixedQuotations[1].value, mixedQuotations[3].value] := by
  have hfirst : IsUnquoted "send(".toList := by decide
  obtain ⟨hall, hscan, -⟩ := scanStrings_quotationText hfirst valid_mixedQuotations
  refine ⟨hfirst, valid_mixedQuotations, ?_, _, hscan, ?_⟩
  · rw [hall]
    decide +kernel
  · decide +kernel

end OperationScan
