import OperationScan.Proofs.Json.Writable
import OperationScan.Proofs.Pattern.Screen
import OperationScan.Proofs.Pattern.Starts
import OperationScan.Proofs.Scan.QuotedSpans
import OperationScan.Proofs.Scan.RequestBody

/-!
# Request bodies in the literals of a script

In the aggressive mode the quoted spans are scanned first, and then the whole text. A request body
in a literal is decoded from its span, and the whole text gives nothing more: its keywords lie in
the spans that have been claimed.

* `Embedded`, `scriptText`: operations with variables, written as JSON into the literals of a text.
* `scanWholeText_of_claimed`: a text whose keywords are claimed gives nothing.
* `scanText_embedded`: the scan of such a text records each operation once, as it was before it was
  written.
-/

namespace OperationScan

open Collecting Script

/-- An operation with its variables, the quote of the literal that it is written into, and what
follows up to the next one. -/
structure Embedded where
  quote : Char
  operation : Text
  bindings : Members Value
  gap : Text

namespace Embedded

/-- The literal that holds the request body. -/
def literal? (e : Embedded) : Except Json.WriteFault Literal :=
  (Json.write (requestBody e.operation e.bindings)).map fun body => ⟨e.quote, body, e.gap⟩

/-- The operation is one standard match, its variables can go through JSON, and neither the quote
nor what follows is taken for something else. -/
structure Valid [Json.Nesting] (e : Embedded) : Prop where
  quote : IsPlainQuote e.quote
  operation : Pattern.standard.matchesIn e.operation = [wholeMatch e.operation]
  bindings : (Value.object e.bindings).Plain (Json.Nesting.limit - 1)
  gap : IsQuiet e.gap

/-- The sighting that is recorded. -/
def sighting (e : Embedded) : Sighting := ⟨e.operation, stringContext, e.bindings⟩

end Embedded

/-- Request bodies in literals, one after the other, with text in front. -/
def scriptText (first : Text) (es : List Embedded) : Except Json.WriteFault Text :=
  (es.mapM Embedded.literal?).map (spliced first)

/-- A literal holds the request body of an operation. -/
structure Literal.Holds [Json.Nesting] (l : Literal) (e : Embedded) : Prop where
  valid : l.Valid
  body : IsRequest e.operation e.bindings l.body

variable {e : Embedded} {es : List Embedded} {l : Literal} {ls : List Literal} {first t : Text}

theorem Embedded.Valid.exists_literal [Json.Nesting] (h : e.Valid) :
    ∃ l, e.literal? = .ok l ∧ l.Holds e := by
  obtain ⟨body, hwrite, hbody⟩ := exists_write_requestBody e.operation h.bindings
  refine ⟨⟨e.quote, body, e.gap⟩, ?_, ⟨h.quote, hbody.oneLine, h.gap⟩, hbody⟩
  rw [Embedded.literal?, hwrite]
  rfl

theorem exists_literals [Json.Nesting] (h : ∀ e ∈ es, e.Valid) :
    ∃ ls, es.mapM Embedded.literal? = .ok ls ∧ List.Forall₂ Literal.Holds ls es := by
  obtain ⟨ls, hls, hholds⟩ := exists_mapM_eq_ok fun e he => (h e he).exists_literal
  exact ⟨ls, hls, hholds.flip⟩

/-! ## The screen -/

theorem query_mem_screenWords : "query".toList ∈ screenWords := by decide

theorem Literal.Holds.isInfix_text [Json.Nesting] (h : l.Holds e) : "query".toList <:+: l.text := by
  obtain ⟨u, hu⟩ := h.body.begins
  refine ⟨l.quote :: escapeFor l.quote ['\x7b', '"'], escapeFor l.quote u ++ [l.quote], ?_⟩
  have hword : escapeFor l.quote "query".toList = "query".toList := by
    rcases h.valid.quote with hquote | hquote <;> rw [hquote] <;> rfl
  have hsplit : '\x7b' :: '"' :: ("query".toList ++ u) = ['\x7b', '"'] ++ ("query".toList ++ u) :=
    rfl
  rw [Literal.text, hu, hsplit, escapeFor_append, escapeFor_append, hword]
  simp only [List.cons_append, List.append_assoc]

theorem passesScreen_spliced [Json.Nesting] (h : List.Forall₂ Literal.Holds ls es) (hes : es ≠ []) :
    passesScreen (spliced first ls) = true := by
  cases h with
  | nil => exact absurd rfl hes
  | @cons l e ls es hl _ =>
    have htext : l.text <:+: spliced first (l :: ls) :=
      ⟨first, spliced l.gap ls, List.append_assoc ..⟩
    exact passesScreen_of_isInfix query_mem_screenWords (hl.isInfix_text.trans htext)

/-! ## The quoted spans -/

theorem Literal.content_text (l : Literal) (index : Nat) :
    (QuotedSpan.mk index (index + l.text.length) l.text).content = escapeFor l.quote l.body := by
  rw [QuotedSpan.content]
  dsimp only
  rw [Literal.text, List.drop_one, List.tail_cons, List.dropLast_concat]

/-- The span of a literal gives the operation as it was before it was written. -/
theorem records_scanSpan [Json.Nesting] (h : l.Holds e) (he : e.Valid) (index : Nat) :
    (scanSpan true ⟨index, index + l.text.length, l.text⟩).Records (.ok 1) [e.sighting] := by
  have hscreen : passesScreen l.text = true :=
    passesScreen_of_isInfix query_mem_screenWords h.isInfix_text
  have hnames : (Members.names e.bindings).Nodup := he.bindings.nodup_names
  have hadd := records_addPayload h.body hnames he.operation stringContext
  rw [scanSpan]
  dsimp only
  rw [if_pos hscreen, l.content_text, cook_escapeFor h.valid.quote]
  -- the body gives an operation, so that no pattern is tried on the raw span
  exact hadd.bind_ok (Records.pure 1)

theorem records_scanSpans [Json.Nesting] (h : List.Forall₂ Literal.Holds ls es)
    (hes : ∀ e ∈ es, e.Valid) (index : Nat) :
    (scanSpans true (spansFrom index ls)).Records (.ok (spansFrom index ls))
      (es.map Embedded.sighting) := by
  induction h generalizing index with
  | nil => exact Records.pure []
  | @cons l e ls es hl hrest ih =>
    obtain ⟨he, hes⟩ := List.forall_mem_cons.mp hes
    have hmore := ih hes (index + l.text.length + l.gap.length)
    have hkept : (do
        let more ← scanSpans true (spansFrom (index + l.text.length + l.gap.length) ls)
        return ⟨index, index + l.text.length, l.text⟩ :: more : Collecting _).Records
          (.ok (spansFrom index (l :: ls))) (es.map Embedded.sighting ++ []) :=
      hmore.bind_ok (Records.pure _)
    rw [List.append_nil] at hkept
    exact (records_scanSpan hl he index).bind_ok hkept

/-! ## The whole text -/

theorem addUnclaimed_of_claimed {claimed : List (Nat × Nat)} {m : PatternMatch} {s : Nat × Nat}
    (hs : s ∈ claimed) (hstart : s.1 < m.start) (hstop : m.start < s.2) (hm : m.start ≤ m.stop)
    (state : Nat × Collector) : addUnclaimed claimed state m = state := by
  have hoverlaps : overlaps m.start m.stop claimed = true := by
    rw [overlaps, List.any_eq_true]
    refine ⟨s, hs, ?_⟩
    rw [Bool.and_eq_true, decide_eq_true_eq, decide_eq_true_eq]
    exact ⟨hstop, Nat.lt_of_lt_of_le hstart hm⟩
  rw [addUnclaimed, if_pos hoverlaps]

/-- A text whose keywords all lie in claimed stretches gives nothing. -/
theorem scanWholeText_of_claimed {claimed : List (Nat × Nat)}
    (h : ∀ i, HasKeywordAt none 0 t i → ∃ s ∈ claimed, s.1 < i ∧ i < s.2) (c : Collector) :
    scanWholeText t claimed c = (0, c) := by
  have hmatches : ∀ p ∈ Pattern.aggressive, ∀ state : Nat × Collector,
      (p.matchesIn t).foldl (addUnclaimed claimed) state = state := by
    intro p hp state
    refine List.foldlRecOn (motive := (· = state)) _ _ rfl ?_
    rintro _ rfl m hm
    obtain ⟨hkeyword, hle⟩ := hasKeywordAt_of_mem_matchesIn hp hm
    obtain ⟨s, hs, hstart, hstop⟩ := h m.start hkeyword
    exact addUnclaimed_of_claimed hs hstart hstop hle _
  refine List.foldlRecOn (motive := (· = (0, c))) _ _ rfl ?_
  rintro _ rfl p hp
  exact hmatches p hp (0, c)

theorem scanWholeText_spliced (hfirst : IsQuiet first) (hls : ∀ l ∈ ls, l.Valid) (c : Collector) :
    scanWholeText (spliced first ls)
      ((spansFrom first.length ls).map fun s => (s.start, s.stop)) c = (0, c) := by
  refine scanWholeText_of_claimed (fun i hi => ?_) c
  obtain ⟨s, hs, hbetween⟩ := exists_span_of_hasKeywordAt hfirst hls hi
  rw [Nat.zero_add] at hs
  exact ⟨(s.start, s.stop), List.mem_map_of_mem hs, hbetween⟩

/-! ## The scans together -/

theorem valid_of_holds [Json.Nesting] (h : List.Forall₂ Literal.Holds ls es) :
    ∀ l ∈ ls, l.Valid := by
  induction h with
  | nil => simp
  | cons hl _ ih => exact List.forall_mem_cons.mpr ⟨hl.valid, ih⟩

theorem exists_scanRaw_spliced [Json.Nesting] (hfirst : IsQuiet first)
    (h : List.Forall₂ Literal.Holds ls es) (hes : ∀ e ∈ es, e.Valid) (reason : String)
    (c : Collector) :
    ∃ lines, (scanRaw (spliced first ls) true reason).outcome c =
      (.ok lines, c.record (es.map Embedded.sighting)) := by
  have hls := valid_of_holds h
  have hspans : (scanStrings (spliced first ls) true).outcome c =
      (.ok (spansFrom first.length ls), c.record (es.map Embedded.sighting)) := by
    rw [scanStrings, QuotedSpan.all_spliced hfirst.unquoted hls]
    exact records_scanSpans h hes first.length c
  have hwhole : (Collecting.ofFun (scanWholeText (spliced first ls)
      ((spansFrom first.length ls).map fun s => (s.start, s.stop)))).outcome
        (c.record (es.map Embedded.sighting)) = (.ok 0, c.record (es.map Embedded.sighting)) := by
    rw [outcome_ofFun, scanWholeText_spliced hfirst hls]
  rw [scanRaw, outcome_bind_ok hspans, if_pos rfl, outcome_bind_ok hwhole]
  exact ⟨_, rfl⟩

theorem exists_scanText_spliced [Json.Nesting] (hfirst : IsQuiet first)
    (h : List.Forall₂ Literal.Holds ls es) (hes : ∀ e ∈ es, e.Valid) (parseFailed : Bool)
    (c : Collector) :
    ∃ lines, (scanText (spliced first ls) true parseFailed).outcome c =
      (.ok lines, c.record (es.map Embedded.sighting)) := by
  by_cases hnil : es = []
  · -- without literals the screen may stop the scan, which then records as little
    subst hnil
    cases h
    rw [scanText]
    split
    · exact exists_scanRaw_spliced hfirst .nil hes _ c
    · exact ⟨[], rfl⟩
  · rw [scanText, passesScreen_spliced h hnil]
    exact exists_scanRaw_spliced hfirst h hes _ c

theorem Embedded.Valid.isOperation [Json.Nesting] (h : e.Valid) : IsOperation e.operation := by
  have hmem : wholeMatch e.operation ∈ Pattern.standard.matchesIn e.operation := by
    rw [h.operation]
    exact List.mem_singleton_self _
  exact isOperation_of_mem_matchesIn hmem

/-- The aggressive scan of a script with request bodies in its literals records the operations as
they were before they were written, each signature once, and nothing else. -/
theorem scanText_embedded [Json.Nesting] (hfirst : IsQuiet first) (hes : ∀ e ∈ es, e.Valid)
    (parseFailed : Bool) (source origin : Text) :
    ∃ t lines c, scriptText first es = .ok t ∧
      (scanText t true parseFailed).outcome (.empty source origin) = (.ok lines, c) ∧
      c.operations.map (fun o => (o.rawText, o.signature, o.context, o.bindings)) =
        (es.eraseDupsBy fun a b => normalize a.operation == normalize b.operation).map fun e =>
          (e.operation, normalize e.operation, stringContext,
            inferVariables (Head.describe e.operation).args e.bindings) := by
  obtain ⟨ls, hls, hholds⟩ := exists_literals hes
  obtain ⟨lines, hscan⟩ := exists_scanText_spliced hfirst hholds hes parseFailed
    (.empty source origin)
  refine ⟨spliced first ls, lines, _, by rw [scriptText, hls]; rfl, hscan, ?_⟩
  have htext : ∀ e ∈ es, Text.trim e.sighting.text = e.operation ∧ normalize e.operation ≠ [] := by
    intro e he
    have hoperation := (hes e he).isOperation
    exact ⟨hoperation.trimmed.trim_eq, hoperation.normalize.ne_nil⟩
  have hnew : es.filter (fun e =>
      !(Collector.empty source origin).has (normalize e.operation)) = es :=
    List.filter_eq_self.mpr fun e _ => rfl
  rw [Collector.operations_record _ _ _ _ htext, hnew, Collector.empty, List.nil_append,
    List.map_map]
  rfl

/-- Both quotes, an operation with a quote, a backslash and a letter outside ASCII, and another
spelling of it. -/
def embeddedSpellings : List Embedded := [
  ⟨'"', "query A($s: ID) \x7b a(s: $s, t: \"é\\n\") \x7d".toList,
    [("s".toList, .string "it's \"1\"".toList)], ", ".toList⟩,
  ⟨'\'', "mutation \x7b m \x7d".toList, [("n".toList, .array [.int 5, .null])], ", ".toList⟩,
  ⟨'\'', "query A($s: ID)\n\x7b a(s: $s, t: \"é\\n\") \x7d".toList, [], ");".toList⟩]

theorem valid_embeddedSpellings : ∀ e ∈ embeddedSpellings, e.Valid := by
  have hfive : (Text.ofNat 5).length ≤ Number.digitLimit := by decide
  have hbindings : ∀ e ∈ embeddedSpellings, (Value.object e.bindings).Plain 2 := by
    simp [embeddedSpellings, Value.Plain, Members.names, hfive]
  have hquiet : ∀ e ∈ embeddedSpellings, e.gap.any isQuote = false ∧
      keywordPlaces e.gap e.gap.length = [] := by
    decide +kernel
  have hquote : ∀ e ∈ embeddedSpellings, IsPlainQuote e.quote ∧
      Pattern.standard.matchesIn e.operation = [wholeMatch e.operation] := by
    decide +kernel
  intro e he
  exact ⟨(hquote e he).1, (hquote e he).2, (hbindings e he).mono (by decide),
    isQuiet_of_keywordPlaces (hquiet e he).1 (hquiet e he).2⟩

theorem scanText_embedded_spellings :
    IsQuiet "send(".toList ∧ (∀ e ∈ embeddedSpellings, e.Valid) ∧
      ∃ t lines c, scriptText "send(".toList embeddedSpellings = .ok t ∧
        (scanText t true false).outcome (.empty [] []) = (.ok lines, c) ∧
        c.operations.map (fun o => (o.rawText, o.context)) = [
          ("query A($s: ID) \x7b a(s: $s, t: \"é\\n\") \x7d".toList, stringContext),
          ("mutation \x7b m \x7d".toList, stringContext)] := by
  have hfirst : IsQuiet "send(".toList := isQuiet_of_keywordPlaces (by decide) (by decide)
  obtain ⟨t, lines, c, ht, hscan, hoperations⟩ :=
    scanText_embedded hfirst valid_embeddedSpellings false [] []
  refine ⟨hfirst, valid_embeddedSpellings, t, lines, c, ht, hscan, ?_⟩
  have h := congrArg (List.map fun x => (x.1, x.2.2.1)) hoperations
  rw [List.map_map, List.map_map] at h
  exact h.trans (by decide +kernel)

end OperationScan
