import OperationScan.Proofs.Task.Process

/-!
# The aggressive mode only gains

The aggressive mode looks at more places than the plain one and records all that the plain one
records. A fault in one of these places would end the scan; there is none as long as no request
body holds half of a surrogate pair.

* `Collecting.Gains`: a scan that sights at least what another does.
* `gains_visitAll`, `outdoes_scanSpans`: the scans of a syntax tree and of quoted spans.
* `extract_aggressive_gains`: scans of a text in both modes.
-/

namespace OperationScan

section Texts

variable [Script.Parser] [Json.Nesting]

/-- The requests that a text decodes to. -/
def requestsOf (t : Text) : List Request :=
  match decodePayload t with
  | .ok requests => requests
  | .error _ => []

/-- No request that a text decodes to holds half of a surrogate pair. -/
def Whole (t : Text) : Prop := ∀ r ∈ requestsOf t, r.halves = []

instance (t : Text) : Decidable (Whole t) :=
  inferInstanceAs (Decidable (∀ r ∈ requestsOf t, r.halves = []))

/-- What the strings and templates of a syntax tree stand for. -/
def literalTexts (root : Script.Node) : List Text :=
  ((Script.Site.walk root).filter fun s => NodeShape.of? s.node == some .stringLiteral).map
    literalText

/-- What the quoted spans of a text stand for. -/
def quotedTexts (text : Text) : List Text :=
  (QuotedSpan.all text).map fun s => Script.cook s.content

/-- The texts that are decoded as request bodies because of where they stand. -/
def bodyTexts (language : Language) (text : Text) : List Text :=
  ((Script.tree? language text).map literalTexts).getD [] ++ quotedTexts text

theorem whole_literal {language : Language} {text : Text} {root : Script.Node} {s : Script.Site}
    (h : ∀ t ∈ bodyTexts language text, Whole t) (hroot : Script.tree? language text = some root)
    (hsite : s ∈ Script.Site.walk root) (hshape : NodeShape.of? s.node = some .stringLiteral) :
    Whole (literalText s) := by
  apply h
  rw [bodyTexts, hroot]
  refine List.mem_append_left _ (List.mem_map.mpr ⟨s, List.mem_filter.mpr ⟨hsite, ?_⟩, rfl⟩)
  rw [hshape]
  rfl

theorem whole_quoted {language : Language} {text : Text} {s : QuotedSpan}
    (h : ∀ t ∈ bodyTexts language text, Whole t) (hspan : s ∈ QuotedSpan.all text) :
    Whole (Script.cook s.content) :=
  h _ (List.mem_append_right _ (List.mem_map.mpr ⟨s, hspan, rfl⟩))

end Texts

namespace Collecting

variable {α β : Type}

/-- Two scans have the same result, and the second one sights all that the first one does. -/
def Gains (plain rich : Collecting α) : Prop :=
  ∃ result l l', plain.Records result l ∧ rich.Records result l' ∧ l ⊆ l'

/-- Two scans are not stopped, and the second one sights all that the first one does. -/
def Outdoes (plain : Collecting α) (rich : Collecting β) : Prop :=
  ∃ a b l l', plain.Records (.ok a) l ∧ rich.Records (.ok b) l' ∧ l ⊆ l'

theorem Steady.gains {scan : Collecting α} (h : scan.Steady) : Gains scan scan := by
  obtain ⟨result, l, hl⟩ := h
  exact ⟨result, l, l, hl, hl, List.Subset.refl l⟩

theorem Gains.bind {plain rich : Collecting α} {next next' : α → Collecting β}
    (h : Gains plain rich) (hnext : ∀ a, Gains (next a) (next' a)) :
    Gains (plain >>= next) (rich >>= next') := by
  obtain ⟨result, l, l', hl, hl', hsub⟩ := h
  cases result with
  | error fault => exact ⟨_, l, l', hl.bind_error, hl'.bind_error, hsub⟩
  | ok a =>
    obtain ⟨_, m, m', hm, hm', hsub'⟩ := hnext a
    refine ⟨_, l ++ m, l' ++ m', hl.bind_ok hm, hl'.bind_ok hm', ?_⟩
    exact List.append_subset.mpr ⟨fun s hs => List.mem_append_left m' (hsub hs),
      fun s hs => List.mem_append_right l' (hsub' hs)⟩

theorem Outdoes.bind {γ δ : Type} {plain : Collecting α} {rich : Collecting β}
    {next : α → Collecting γ} {next' : β → Collecting δ} (h : Outdoes plain rich)
    (hnext : ∀ a b, Outdoes (next a) (next' b)) : Outdoes (plain >>= next) (rich >>= next') := by
  obtain ⟨a, b, l, l', hl, hl', hsub⟩ := h
  obtain ⟨c, d, m, m', hm, hm', hsub'⟩ := hnext a b
  refine ⟨c, d, l ++ m, l' ++ m', hl.bind_ok hm, hl'.bind_ok hm', ?_⟩
  exact List.append_subset.mpr ⟨fun s hs => List.mem_append_left m' (hsub hs),
    fun s hs => List.mem_append_right l' (hsub' hs)⟩

theorem Outdoes.pure (a : α) (b : β) : Outdoes (Pure.pure a : Collecting α) (Pure.pure b) :=
  ⟨a, b, [], [], .pure a, .pure b, List.Subset.refl []⟩

end Collecting

open Collecting

/-! ## Request bodies -/

theorem addRequests_whole (context : Text) (known : Members Value) {rs : List Request}
    (h : ∀ r ∈ rs, r.halves = []) : ∃ n l, (addRequests context known rs).Records (.ok n) l := by
  induction rs with
  | nil => exact ⟨0, [], .pure 0⟩
  | cons r rest ih =>
    obtain ⟨n, l, hl⟩ := ih fun q hq => h q (by simp [hq])
    have hfirst := Records.addMatches r.text context (known.merge r.bindings) [.standard]
    have hplain : addRequest context known r = Collecting.ofFun fun c =>
        c.addMatches r.text context (known.merge r.bindings) [.standard] := by
      rw [addRequest, h r (by simp)]
      rfl
    rw [← hplain] at hfirst
    exact ⟨_, _, hfirst.bind_ok (hl.bind_ok (.pure _))⟩

section Modes

variable [Json.Nesting]

/-- A body without halves of surrogate pairs stops no scan. -/
theorem addPayload_whole {text : Text} (h : Whole text) (context : Text)
    (known : Members Value) : ∃ n l, (addPayload text context known).Records (.ok n) l := by
  unfold addPayload
  split
  · split
    · rename_i requests hdecode
      have hrequests : requestsOf text = requests := by rw [requestsOf, hdecode]
      exact addRequests_whole context known (hrequests ▸ h)
    · exact ⟨_, _, .addMatches _ _ _ _⟩
  · exact ⟨_, _, .addMatches _ _ _ _⟩

/-! ## Syntax trees -/

theorem visitLiteral_whole {s : Script.Site} (h : Whole (literalText s)) (context : Text) :
    ∃ l, (visitLiteral s context).Records (.ok ()) l := by
  unfold visitLiteral
  split
  · exact ⟨_, .pure ()⟩
  · split
    · obtain ⟨n, l, hl⟩ := addPayload_whole h context []
      exact ⟨_, hl.bind_ok (.pure ())⟩
    · exact ⟨_, .pure ()⟩

/-- Shapes other than literals are visited in the same way in both modes. -/
theorem visit_eq_of_ne (x : Script.ScopeIndex) {s : Script.Site}
    (h : NodeShape.of? s.node ≠ some .stringLiteral) : visit x false s = visit x true s := by
  unfold visit
  split
  · rfl
  · rename_i shape hshape
    cases shape with
    | stringLiteral => exact absurd hshape h
    | taggedLiteral => rfl
    | callExpression => rfl
    | variableBinding => rfl

theorem gains_visit (x : Script.ScopeIndex) {s : Script.Site}
    (h : NodeShape.of? s.node = some .stringLiteral → Whole (literalText s)) :
    Gains (visit x false s) (visit x true s) := by
  by_cases hshape : NodeShape.of? s.node = some .stringLiteral
  · obtain ⟨l, hl⟩ := visitLiteral_whole (h hshape) NodeShape.stringLiteral.context
    refine ⟨.ok (), [], l, ?_, ?_, List.nil_subset l⟩
    · simp only [visit, hshape]
      exact .pure ()
    · simp only [visit, hshape]
      exact hl
  · rw [visit_eq_of_ne x hshape]
    exact (sights_visit x true s).steady.gains

/-- The aggressive mode looks at literals beside all that the plain one looks at. -/
theorem gains_visitAll (x : Script.ScopeIndex) {sites : List Script.Site}
    (h : ∀ s ∈ sites, NodeShape.of? s.node = some .stringLiteral → Whole (literalText s)) :
    Gains (visitAll x false sites) (visitAll x true sites) := by
  induction sites with
  | nil => exact (Steady.pure ()).gains
  | cons s rest ih =>
    exact .bind (gains_visit x (h s (by simp))) fun _ => ih fun t ht => h t (by simp [ht])

/-- The passes over a tree agree about whether the text is in its language. -/
theorem scan_gains [Script.Parser] {text : Text} {language : Language}
    (h : ∀ t ∈ bodyTexts language text, Whole t) :
    ∃ plain rich l l', (∀ c, Structure.scan text language false c = (plain, c.record l)) ∧
      (∀ c, Structure.scan text language true c = (rich, c.record l')) ∧ l ⊆ l' ∧
      plain.parseFailed = rich.parseFailed := by
  cases hroot : Script.tree? language text with
  | none =>
    obtain ⟨found, -, hscan⟩ := exists_scan_of_tree?_eq_none hroot
    exact ⟨found, found, [], [], hscan false, hscan true, List.Subset.refl [], rfl⟩
  | some root =>
    rw [scan_of_tree? hroot, scan_of_tree? hroot]
    obtain ⟨result, l, l', hl, hl', hsub⟩ := gains_visitAll (.build root)
      fun s hsite hshape => whole_literal h hroot hsite hshape
    cases result with
    | ok a =>
      refine ⟨⟨some root, .build root, []⟩, ⟨some root, .build root, []⟩, l, l', ?_, ?_, hsub, rfl⟩
      · intro c
        simp only [Structure.scanTree, hl c]
      · intro c
        simp only [Structure.scanTree, hl' c]
    | error fault =>
      let found : Structure :=
        ⟨some root, .build root, [("structural pass aborted: " ++ fault.line).toList]⟩
      refine ⟨found, found, l, l', ?_, ?_, hsub, rfl⟩
      · intro c
        simp only [Structure.scanTree, hl c, found]
      · intro c
        simp only [Structure.scanTree, hl' c, found]

/-! ## Raw text -/

/-- A span without a matching payload is searched with the aggressive patterns, too. -/
theorem outdoes_scanSpan {s : QuotedSpan} (h : Whole (Script.cook s.content)) :
    Outdoes (scanSpan false s) (scanSpan true s) := by
  obtain ⟨n, l, hl⟩ := addPayload_whole h stringContext []
  unfold scanSpan
  split
  · obtain ⟨result, m, hm, -⟩ := sights_addFirstPattern s.raw Pattern.aggressive
    have hplain : (addPayload (Script.cook s.content) stringContext [] >>= fun n =>
        if n == 0 && false then Collecting.ofFun (addFirstPattern s.raw Pattern.aggressive)
        else pure n).Records (.ok n) (l ++ []) := by
      refine hl.bind_ok ?_
      rw [Bool.and_false]
      exact .pure n
    cases hn : n == 0 with
    | false =>
      refine ⟨n, n, _, l ++ [], hplain, hl.bind_ok ?_, List.Subset.refl _⟩
      rw [hn]
      exact .pure n
    | true =>
      obtain ⟨k, rfl⟩ : ∃ k, result = .ok k :=
        ⟨_, (congrArg Prod.fst (hm (.empty [] []))).symm⟩
      refine ⟨n, k, _, l ++ m, hplain, hl.bind_ok ?_, ?_⟩
      · rw [hn]
        exact hm
      · rw [List.append_nil]
        exact List.subset_append_left l m
  · exact .pure 0 0

theorem outdoes_scanSpans {spans : List QuotedSpan}
    (h : ∀ s ∈ spans, Whole (Script.cook s.content)) :
    Outdoes (scanSpans false spans) (scanSpans true spans) := by
  induction spans with
  | nil => exact .pure [] []
  | cons s rest ih =>
    exact .bind (outdoes_scanSpan (h s (by simp))) fun _ _ =>
      .bind (ih fun t ht => h t (by simp [ht])) fun _ _ => .pure _ _

/-- Quoted spans are scanned in both modes, the whole text in the aggressive one only. -/
theorem scanRaw_gains {t : Text} (h : ∀ s ∈ QuotedSpan.all t, Whole (Script.cook s.content))
    (reason reason' : String) {c c' : Collector} (hsub : c.signatures ⊆ c'.signatures) :
    ∃ lines lines' d d', (scanRaw t false reason).outcome c = (.ok lines, d) ∧
      (scanRaw t true reason').outcome c' = (.ok lines', d') ∧
      c.signatures ⊆ d.signatures ∧ d.signatures ⊆ d'.signatures := by
  obtain ⟨a, b, l, l', hl, hl', hll'⟩ := outdoes_scanSpans h
  obtain ⟨ls, hls, -⟩ := exists_scanWholeText t (b.map fun s => (s.start, s.stop))
  have hplain : ∃ lines, (scanRaw t false reason).outcome c = (.ok lines, c.record l) :=
    ⟨_, outcome_bind_ok (hl c)⟩
  have hrich : ∃ lines, (scanRaw t true reason').outcome c' =
      (.ok lines, (c'.record l').record ls.flatten) := by
    rw [← hls]
    exact ⟨_, outcome_bind_ok (hl' c')⟩
  obtain ⟨lines, hlines⟩ := hplain
  obtain ⟨lines', hlines'⟩ := hrich
  refine ⟨lines, lines', _, _, hlines, hlines', ?_, ?_⟩
  · exact Collector.signatures_subset (l := []) (List.Subset.refl _) (List.nil_subset l)
  · rw [← Collector.record_append]
    exact Collector.signatures_subset hsub fun s hs => List.mem_append_left _ (hll' hs)

theorem scanText_gains {t : Text} (h : ∀ s ∈ QuotedSpan.all t, Whole (Script.cook s.content))
    (parseFailed : Bool) {c c' : Collector} (hsub : c.signatures ⊆ c'.signatures) :
    ∃ lines lines' d d', (scanText t false parseFailed).outcome c = (.ok lines, d) ∧
      (scanText t true parseFailed).outcome c' = (.ok lines', d') ∧
      d.signatures ⊆ d'.signatures := by
  cases hscreen : passesScreen t with
  | false =>
    simp only [scanText, hscreen, Bool.false_and]
    exact ⟨[], [], c, c', rfl, rfl, hsub⟩
  | true =>
    obtain ⟨lines, lines', d, d', hd, hd', hcd, hdd'⟩ := scanRaw_gains h
      (scanReason false (looksMinified t)) (scanReason true (looksMinified t)) hsub
    cases hraw : looksMinified t || parseFailed with
    | false =>
      -- the plain mode leaves the text alone
      simp only [scanText, hscreen, hraw, Bool.true_and, Bool.false_or, Bool.true_or, if_true]
      exact ⟨[], lines', c, d', rfl, hd', List.Subset.trans hcd hdd'⟩
    | true =>
      simp only [scanText, hscreen, hraw, Bool.true_and, Bool.false_or, Bool.true_or, if_true]
      exact ⟨lines, lines', d, d', hd, hd', hdd'⟩

/-! ## Whole scans -/

/-- The result of a scan without plugins. -/
theorem extract_eq [Script.Parser] (cat : Catalogue) (settings : Settings)
    (hplugins : settings.plugins = [])
    {text source origin : Text} {hits : Nat} {found : Structure} {lines : List Text}
    {l l' : List Sighting} {d : Collector}
    (hcomments : ∀ c, scanComments text c = (hits, c.record l))
    (hscan : ∀ c, Structure.scan text (Language.ofLocator source) settings.aggressive c =
      (found, c.record l'))
    (htext : (scanText text settings.aggressive found.parseFailed).outcome
      (((Collector.empty source origin).record l).record l') = (.ok lines, d)) :
    ∃ result, (extract cat settings text source origin (.empty [])).1 = .ok result ∧
      result.operations = d.operations := by
  unfold extract
  simp only [hcomments, hscan, hplugins, runPlugins_bare, htext]
  exact ⟨_, rfl, rfl⟩

/-- Every signature that a plain scan finds is found by an aggressive scan, too. -/
theorem extract_aggressive_gains [Script.Parser] (cat : Catalogue)
    (settings : Settings) (text source origin : Text) (hplugins : settings.plugins = [])
    (hwhole : ∀ t ∈ bodyTexts (Language.ofLocator source) text, Whole t) :
    ∃ plain rich,
      (extract cat { settings with aggressive := false } text source origin (.empty [])).1 =
        .ok plain ∧
      (extract cat { settings with aggressive := true } text source origin (.empty [])).1 =
        .ok rich ∧
      plain.operations.map Operation.signature ⊆ rich.operations.map Operation.signature := by
  obtain ⟨hits, l, hcomments, -⟩ := exists_scanComments text
  obtain ⟨found, found', m, m', hscan, hscan', hmm', hfailed⟩ := scan_gains hwhole
  have hsub : (((Collector.empty source origin).record l).record m).signatures ⊆
      (((Collector.empty source origin).record l).record m').signatures :=
    Collector.signatures_subset (List.Subset.refl _) hmm'
  obtain ⟨lines, lines', d, d', hd, hd', hdd'⟩ :=
    scanText_gains (fun s hs => whole_quoted hwhole hs) found.parseFailed hsub
  obtain ⟨plain, hplain, hoperations⟩ := extract_eq cat { settings with aggressive := false }
    hplugins hcomments hscan hd
  rw [hfailed] at hd'
  obtain ⟨rich, hrich, hoperations'⟩ := extract_eq cat { settings with aggressive := true }
    hplugins hcomments hscan' hd'
  refine ⟨plain, rich, hplain, hrich, ?_⟩
  rw [hoperations, hoperations']
  exact hdd'

end Modes

/-- A call that sends one operation, and a string with another one. -/
def callText : Text :=
  "fetch(u, \x7bbody: 'query A \x7b a \x7d'\x7d); f('mutation B \x7b b \x7d')".toList

theorem extract_aggressive_gains_call :
    (∀ t ∈ bodyTexts (Language.ofLocator "a.js".toList) callText, Whole t) ∧
    ∃ plain rich,
      (extract [] { aggressive := false } callText "a.js".toList [] (.empty [])).1 = .ok plain ∧
      (extract [] { aggressive := true } callText "a.js".toList [] (.empty [])).1 = .ok rich ∧
      plain.operations.map Operation.signature ⊆ rich.operations.map Operation.signature := by
  have hwhole : ∀ t ∈ bodyTexts (Language.ofLocator "a.js".toList) callText, Whole t := by
    decide +kernel
  exact ⟨hwhole, extract_aggressive_gains [] {} callText "a.js".toList [] rfl hwhole⟩

end OperationScan
