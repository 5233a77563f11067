import OperationScan.Proofs.Pattern.Standard
import OperationScan.Proofs.Scan.Stopping

/-!
# What stops the pass over a tree

One fault ends the pass, and all that stands further down in the text is lost. Where no request body
holds half of a surrogate pair, the only such fault is an integer of too many digits in what a call
of an HTTP client sends as JSON text.

* `handedOver?`: the text that is decoded at a site.
* `Stops`: a call for which JSON text is asked for of a value that cannot be written.
* `exists_records_visitAll`: when sites are passed over to the end, and what is on record then.
* `scan_unstopped_iff`: when a text is passed over to its end; then all its tagged templates are on
  record.
-/

namespace OperationScan

open Script Collecting

variable {x : ScopeIndex} {s call config payload : Site} {aggressive : Bool} {u : Text}

/-! ## Trees -/

/-- The text that is decoded at a site: one that a call sends, or, in the aggressive mode, that of a
string or template which may hold an operation and is no tagged one. -/
def handedOver? (x : ScopeIndex) (aggressive : Bool) (s : Site) : Option Text :=
  match NodeShape.of? s.node with
  | some .callExpression => sentText? x s
  | some .stringLiteral =>
    if aggressive && !(s.kind == .template && isTagArgument s) && passesScreen (literalText s) then
      some (literalText s)
    else none
  | _ => none

/-- A site is a call for which JSON text is asked for, in the end, of a value that cannot be
written. -/
def Stops (x : ScopeIndex) (s : Site) : Prop :=
  NodeShape.of? s.node = some .callExpression ∧
    ∃ c c', Begins x s c ∧ Relation.ReflTransGen (Asks x) c c' ∧ Overflows x c'

theorem stops_iff (hshape : NodeShape.of? s.node = some .callExpression) :
    Stops x s ↔ ∃ c, Begins x s c ∧ c.Failed x := by
  simp only [Stops, hshape, true_and, failed_iff, ← exists_and_left]

theorem IsConfigOf.stops (h : IsConfigOf x s config)
    (hshape : NodeShape.of? s.node = some .callExpression)
    (hpayload : payloadOf? config = some payload) (hfails : Fails (payloadText x payload)) :
    Stops x s :=
  (stops_iff hshape).mpr (h.begins_iff.mpr (.inr ⟨payload, hpayload,
    fails_payloadText_iff.mp hfails⟩))

theorem sentText?_of_handedOver? (h : u ∈ handedOver? x false s) :
    NodeShape.of? s.node = some .callExpression ∧ sentText? x s = some u := by
  unfold handedOver? at h
  split at h
  · rename_i hshape
    exact ⟨hshape, h⟩
  · cases h
  · cases h

theorem records_recordMatches (t context : Text) :
    (recordMatches t context).Records (.ok ()) (Sighting.ofMatches t context [] [.standard]) := by
  have h : (recordMatches t context).Records (.ok ())
      (Sighting.ofMatches t context [] [.standard] ++ []) :=
    (Records.addMatches t context [] [.standard]).bind_ok (.pure ())
  rwa [List.append_nil] at h

theorem stopsIff_visitTagged (o : Option Site) (context : Text) :
    (visitTagged o context).StopsIff False := by
  unfold visitTagged
  split
  · exact .of_records (records_recordMatches _ _)
  · exact .pure ()

theorem stopsIff_visit [Json.Nesting] (hwhole : ∀ t ∈ handedOver? x aggressive s, Whole t) :
    (visit x aggressive s).StopsIff (Stops x s) := by
  unfold handedOver? at hwhole
  unfold visit
  cases hshape : NodeShape.of? s.node with
  | none => exact (StopsIff.pure ()).congr (by simp [Stops, hshape])
  | some shape =>
    rw [hshape] at hwhole
    cases shape with
    | taggedLiteral => exact (stopsIff_visitTagged _ _).congr (by simp [Stops, hshape])
    | variableBinding => exact (stopsIff_visitTagged _ _).congr (by simp [Stops, hshape])
    | callExpression => exact (stopsIff_visitCall hwhole _).congr (stops_iff hshape).symm
    | stringLiteral =>
      refine StopsIff.congr (P := False) ?_ (by simp [Stops, hshape])
      dsimp only at hwhole ⊢
      cases aggressive with
      | false => exact .pure ()
      | true =>
        rw [if_pos rfl, visitLiteral]
        split
        · exact .pure ()
        · rename_i htag
          split
          · rename_i hscreen
            rw [if_pos (by simp [htag, hscreen])] at hwhole
            exact .addPayload (hwhole _ rfl) _ [] ()
          · exact .pure ()

theorem shape_of_taggedText? (hkind : s.kind = .call) (hu : taggedText? s = some u) :
    NodeShape.of? s.node = some .taggedLiteral := by
  have hself : s.unwrap? = some s := Site.unwrap?_eq_self (by rw [hkind]; rfl)
  rw [taggedText?, hself] at hu
  dsimp only at hu
  rw [if_pos (by rw [hkind]; rfl)] at hu
  split at hu
  · rename_i template htemplate
    obtain ⟨a, ha, rfl⟩ := Option.map_eq_some_iff.mp htemplate
    split at hu
    · rename_i htag
      have hcall : s.node.kind = .call := hkind
      have ha' : (a.kind == .template) = true := (Bool.and_eq_true _ _ ▸ htag).1
      rw [NodeShape.of?, hcall]
      dsimp only
      rw [ha]
      dsimp only
      rw [if_pos ha']
    · cases hu
  · cases hu

/-- The matches in a template that is tagged as an operation. -/
def taggedSightings (u : Text) : List Sighting :=
  Sighting.ofMatches u NodeShape.taggedLiteral.context [] [.standard]

theorem records_visit_of_tagged [Json.Nesting] (hkind : s.kind = .call)
    (hu : taggedText? s = some u) :
    (visit x aggressive s).Records (.ok ()) (taggedSightings u) := by
  have hvisit : visit x aggressive s = recordMatches u NodeShape.taggedLiteral.context := by
    rw [visit, shape_of_taggedText? hkind hu]
    dsimp only
    rw [visitTagged, Option.bind_some, hu]
  rw [hvisit]
  exact records_recordMatches u _

theorem exists_records_visit [Json.Nesting] (hwhole : ∀ t ∈ handedOver? x aggressive s, Whole t) :
    ∃ result l, (visit x aggressive s).Records result l ∧ (Fails result ↔ Stops x s) ∧
      ∀ u, s.kind = .call → taggedText? s = some u → taggedSightings u ⊆ l := by
  by_cases htagged : ∃ u, s.kind = .call ∧ taggedText? s = some u
  -- a tagged template is no call that sends something, so nothing is evaluated
  · obtain ⟨u, hkind, hu⟩ := htagged
    refine ⟨_, _, records_visit_of_tagged hkind hu, iff_of_false (not_fails_ok ()) ?_, ?_⟩
    · intro hstops
      cases hstops.1.symm.trans (shape_of_taggedText? hkind hu)
    · intro u' _ hu'
      cases hu.symm.trans hu'
      exact List.Subset.refl _
  · obtain ⟨result, l, hl, hfails⟩ := stopsIff_visit hwhole
    exact ⟨result, l, hl, hfails, fun u hkind hu => absurd ⟨u, hkind, hu⟩ htagged⟩

/-- Sites are passed over to the end exactly if none of them stops the pass, and then the matches in
all tagged templates among them are recorded. -/
theorem exists_records_visitAll [Json.Nesting] {sites : List Site}
    (hwhole : ∀ s ∈ sites, ∀ t ∈ handedOver? x aggressive s, Whole t) :
    ∃ result l, (visitAll x aggressive sites).Records result l ∧
      (Fails result ↔ ∃ s ∈ sites, Stops x s) ∧
      (¬ Fails result → ∀ s ∈ sites, ∀ u, s.kind = .call → taggedText? s = some u →
        taggedSightings u ⊆ l) := by
  induction sites with
  | nil => exact ⟨_, [], .pure (), iff_of_false (not_fails_ok ()) (by simp), by simp⟩
  | cons s rest ih =>
    rw [List.forall_mem_cons] at hwhole
    obtain ⟨first, l, hl, hfirst, htagged⟩ := exists_records_visit hwhole.1
    rw [visitAll, List.exists_mem_cons_iff]
    cases first with
    | error fault =>
      have hstops : Stops x s := hfirst.mp ⟨fault, rfl⟩
      exact ⟨_, l, hl.bind_error, iff_of_true ⟨fault, rfl⟩ (.inl hstops),
        fun h => absurd ⟨fault, rfl⟩ h⟩
    | ok a =>
      have hgoes : ¬ Stops x s := fun h => not_fails_ok a (hfirst.mpr h)
      obtain ⟨result, l', hl', hresult, htagged'⟩ := ih hwhole.2
      refine ⟨result, l ++ l', hl.bind_ok hl', hresult.trans (or_iff_right hgoes).symm,
        fun hok => List.forall_mem_cons.mpr ⟨fun u hkind hu => ?_, fun s' hs' u hkind hu => ?_⟩⟩
      · exact List.Subset.trans (htagged u hkind hu) (List.subset_append_left l l')
      · exact List.Subset.trans (htagged' hok s' hs' u hkind hu) (List.subset_append_right l l')

theorem mem_signatures_of_ofMatches_subset {m : PatternMatch} {context : Text}
    {known : Members Value} {l : List Sighting} (hm : m ∈ Pattern.standard.matchesIn u)
    (hl : Sighting.ofMatches u context known [.standard] ⊆ l) (c : Collector) :
    normalize (Text.trim m.text) ∈ (c.record l).signatures := by
  have hoperation : IsOperation m.text := isOperation_of_mem_matchesIn hm
  have hne : normalize (Text.trim m.text) ≠ [] := by
    rw [hoperation.trimmed.trim_eq]
    exact hoperation.normalize.ne_nil
  have hsighting := hl (Sighting.mem_ofMatches_iff.mpr ⟨_, by simp, m, hm, rfl⟩)
  exact (c.mem_signatures_record l _).mpr (.inr ⟨hne, _, hsighting, rfl⟩)

/-! ## Texts -/

variable {language : Language} {t : Text} {root : Node}

/-- Where nothing that is decoded holds half of a surrogate pair, a text in its language is passed
over to the end exactly if no call of an HTTP client leads to JSON text of a value that cannot be
written. Then all matches in all its tagged templates are on record. -/
theorem scan_unstopped_iff [Parser] [Json.Nesting] (hroot : tree? language t = some root)
    (hwhole : ∀ s ∈ Site.walk root, ∀ u ∈ handedOver? (.build root) aggressive s, Whole u)
    (c : Collector) :
    ((Structure.scan t language aggressive c).1.diagnostics = [] ↔
      ∀ s ∈ Site.walk root, ¬ Stops (.build root) s) ∧
    ((Structure.scan t language aggressive c).1.diagnostics = [] →
      ∀ s ∈ Site.walk root, ∀ u, s.kind = .call → taggedText? s = some u →
        ∀ m ∈ Pattern.standard.matchesIn u, normalize (Text.trim m.text) ∈
          (Structure.scan t language aggressive c).2.signatures) := by
  obtain ⟨result, l, hl, hfails, htagged⟩ := exists_records_visitAll hwhole
  have hgoes : ¬ Fails result ↔ ∀ s ∈ Site.walk root, ¬ Stops (.build root) s := by
    rw [hfails, not_exists]
    exact forall_congr' fun s => not_and
  rw [← hgoes]
  rw [scan_of_tree? hroot]
  simp only [Structure.scanTree, hl c]
  cases result with
  | error fault =>
    exact ⟨iff_of_false (by simp) fun h => h ⟨fault, rfl⟩, fun h => by simp at h⟩
  | ok a =>
    refine ⟨iff_of_true rfl (not_fails_ok a), fun _ s hs u hkind hu m hm => ?_⟩
    exact mem_signatures_of_ofMatches_subset hm (htagged (not_fails_ok a) s hs u hkind hu) c

/-- An operation that is its own signature. -/
theorem exists_match_shortQuery : ∃ m ∈ Pattern.standard.matchesIn "query A \x7b a \x7d".toList,
    normalize (Text.trim m.text) = "query A \x7b a \x7d".toList := by
  have hmatches : (Pattern.standard.matchesIn "query A \x7b a \x7d".toList).map
      (fun m => normalize (Text.trim m.text)) = ["query A \x7b a \x7d".toList] := by
    decide +kernel
  rw [← List.mem_map, hmatches]
  exact List.mem_singleton_self _

/-- A call that sends JSON text with a number in it, and a tagged template inside a function. -/
def templateText : Text :=
  "fetch(u, \x7bbody: JSON.stringify(\x7bquery: 'query B \x7b b \x7d', n: 0x10\x7d)\x7d);
  () => gql\x60query A \x7b a \x7d\x60".toList

theorem scan_unstopped_iff_template : ∃ root, parse? .javascript templateText = some root ∧
    (∀ s ∈ Site.walk root, ∀ u ∈ handedOver? (.build root) true s, Whole u) ∧
    (∀ s ∈ Site.walk root, ¬ Stops (.build root) s) ∧
    ∃ s ∈ Site.walk root, taggedText? s = some "query A \x7b a \x7d".toList ∧
      "query A \x7b a \x7d".toList ∈
        (Structure.scan templateText .javascript true (.empty [] [])).2.signatures := by
  obtain ⟨root, hroot, hfacts⟩ : ∃ root, parse? .javascript templateText = some root ∧
      decide ((∀ s ∈ Site.walk root, ∀ u ∈ handedOver? (.build root) true s, Whole u) ∧
        ∃ s ∈ Site.walk root, s.kind = .call ∧
          taggedText? s = some "query A \x7b a \x7d".toList) = true := by
    rw [← Option.any_eq_true]
    decide +kernel
  obtain ⟨hwhole, s, hs, hkind, hu⟩ := of_decide_eq_true hfacts
  have hdiagnostics :
      (Structure.scan templateText .javascript true (.empty [] [])).1.diagnostics = [] := by
    decide +kernel
  obtain ⟨hiff, hrecorded⟩ :=
    scan_unstopped_iff ((tree?_eq_parse? _ _).trans hroot) hwhole (.empty [] [])
  refine ⟨root, hroot, hwhole, hiff.mp hdiagnostics, s, hs, hu, ?_⟩
  obtain ⟨m, hm, hsignature⟩ := exists_match_shortQuery
  exact hsignature ▸ hrecorded hdiagnostics s hs _ hkind hu m hm

/-! ### A number without JSON text -/

/-- A call whose JSON text would hold a number of 4302 digits, in front of a tagged template. -/
def longText : Text :=
  "fetch(u, \x7bbody: JSON.stringify(\x7bn: ".toList ++ hexPower 3572 ++
    "\x7d)\x7d); gql\x60query A \x7b a \x7d\x60".toList

/-- The calls of HTTP clients in a tree. -/
def clientCalls (root : Node) : List Site :=
  (Site.walk root).filter fun s => NodeShape.of? s.node == some .callExpression &&
    (calleeName? s).any httpClients.contains

/-- A call sends JSON text of an object literal with one number in it. -/
def sendsNumber (x : ScopeIndex) (digits : Text) (call : Site) : Bool :=
  (sent? x call).any fun config => config.kind == .object &&
    (payloadOf? config).any fun payload => (resolve? x payload).any fun json =>
      json.kind == .call && (taggedText? json).isNone &&
        (jsonArgument? json).any fun argument => argument.kind == .object &&
          (objectMembers argument).map (fun m => (m.2.kind, m.2.text)) == [(.number, digits)]

theorem exists_of_sendsNumber {digits : Text} {n : Int}
    (hclient : (calleeName? call).any httpClients.contains = true)
    (h : sendsNumber x digits call = true) (hn : numberValue? digits = some (.int n))
    (hlong : 10 ^ Number.digitLimit ≤ n.natAbs) : ∃ config payload, IsConfigOf x call config ∧
      payloadOf? config = some payload ∧ Fails (payloadText x payload) := by
  simp only [sendsNumber, Option.any_eq_true, Bool.and_eq_true, beq_iff_eq] at h
  obtain ⟨config, hsent, hobject, payload, hpayload, json, hresolve, ⟨hkind, htag⟩, argument,
    hargument, hliteral, hmembers⟩ := h
  obtain ⟨m, hmembers, hm⟩ := List.map_eq_singleton_iff.mp hmembers
  obtain ⟨hnumber, htext⟩ := Prod.mk.inj hm
  have hjson : json.unwrap? = some json := Site.unwrap?_eq_self (by rw [hkind]; rfl)
  have hself : argument.unwrap? = some argument := Site.unwrap?_eq_self (by rw [hliteral]; rfl)
  have hmember : (askers (answer x) 2).value m.2 = .ok (some (.int n)) := by
    rw [← hn, ← htext]
    exact answer_value_of_number (by decide) hnumber
  have hvalue : answer x (.value 1 argument) = .ok (some (.object [(m.1, .int n)])) := by
    rw [answer_value_of_le (by decide), valueWith_of_object hself hliteral, hmembers, valuesOf,
      valuesOf, hmember]
    rfl
  have hover : Overflows x (.stringify 0 json) :=
    ⟨argument, _, hargument, hvalue, .member (List.mem_singleton_self _) (.int hlong)⟩
  have hasks : Asks x (.text 0 json) (.stringify 0 json) :=
    .json (Nat.zero_le _) hjson hkind (Option.isNone_iff_eq_none.mp htag)
  refine ⟨config, payload, isConfigOf_iff.mpr ⟨hclient, hsent, hobject⟩, hpayload, ?_⟩
  exact fails_payloadText_iff.mpr ⟨json, hresolve, .text 0 json,
    .text (by rw [hkind]; decide), hasks.failed hover.failed⟩

/-- The pass over a text without any JSON escape is stopped in front of a tagged template. -/
theorem not_scan_unstopped_longInteger : ∃ root, parse? .javascript longText = some root ∧
    '\\' ∉ longText ∧
    (∀ s ∈ Site.walk root, ∀ u ∈ handedOver? (.build root) false s, Whole u) ∧
    (∃ s ∈ Site.walk root, taggedText? s = some "query A \x7b a \x7d".toList) ∧
    ∀ c, (Structure.scan longText .javascript false c).1.diagnostics ≠ [] := by
  obtain ⟨root, hroot, hfacts⟩ : ∃ root, parse? .javascript longText = some root ∧
      decide (('\\' ∉ longText ∧
        ∃ s ∈ Site.walk root, taggedText? s = some "query A \x7b a \x7d".toList) ∧
        (clientCalls root).map (sendsNumber (.build root) (hexPower 3572)) = [true]) = true := by
    rw [← Option.any_eq_true]
    decide +kernel
  obtain ⟨⟨hescape, htagged⟩, hcalls⟩ := of_decide_eq_true hfacts
  obtain ⟨call, hcalls, hsends⟩ := List.map_eq_singleton_iff.mp hcalls
  have hcall : ∀ s, s ∈ Site.walk root ∧ NodeShape.of? s.node = some .callExpression ∧
      (calleeName? s).any httpClients.contains = true ↔ s = call := by
    intro s
    have hfilter : s ∈ clientCalls root ↔ s ∈ Site.walk root ∧
        NodeShape.of? s.node = some .callExpression ∧
        (calleeName? s).any httpClients.contains = true := by
      rw [clientCalls, List.mem_filter, Bool.and_eq_true, beq_iff_eq]
    rw [← hfilter, hcalls, List.mem_singleton]
  obtain ⟨hmem, hshape, hclient⟩ := (hcall call).mpr rfl
  obtain ⟨config, payload, hconfig, hpayload, hfails⟩ :=
    exists_of_sendsNumber hclient hsends (numberValue?_hexPower 3572) (by decide +kernel)
  -- the only call of a client fails before it hands a text over
  have hwhole : ∀ s ∈ Site.walk root, ∀ u ∈ handedOver? (.build root) false s, Whole u := by
    intro s hs u hu
    obtain ⟨hshape', hu⟩ := sentText?_of_handedOver? hu
    obtain rfl := (hcall s).mp ⟨hs, hshape', client_of_sentText? hu⟩
    rw [hconfig.sentText?_eq_none hpayload hfails] at hu
    cases hu
  have hstops : Stops (.build root) call := hconfig.stops hshape hpayload hfails
  refine ⟨root, hroot, hescape, hwhole, htagged, fun c hdiagnostics => ?_⟩
  have htree : tree? .javascript longText = some root := (tree?_eq_parse? _ _).trans hroot
  exact (scan_unstopped_iff htree hwhole c).1.mp hdiagnostics call hmem hstops

end OperationScan
