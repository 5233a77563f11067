import Mathlib.Data.List.Forall2
import OperationScan.Proofs.Collector.Record
import OperationScan.Proofs.Pattern.Starts
import OperationScan.Scan.Comments
import OperationScan.Scan.Structure

/-!
# What a scan sights

Every scan records a list of sightings that does not depend on what has been recorded before: a
collector never decides what is looked at next.

* `Collecting.Records`: the result of a scan and the sightings that it records.
* `Collecting.Sights`: such a result exists, and all sightings are of one sort, such as
  `Sighting.IsFrom` with the contexts and the patterns of the scan.
* `sights_visitAll`, `sights_scanSpans`: the scans of a syntax tree and of quoted spans.
* `RawSightings`: what the scans of raw text sight.
* `exists_scan`, `exists_scanText`, `exists_scanComments`: the scans of a text.
-/

namespace OperationScan

/-! ## Scans -/

namespace Collecting

variable {α β : Type} {scan : Collecting α} {next : α → Collecting β} {c : Collector}

@[simp]
theorem outcome_ofFun (f : Collector → α × Collector) :
    (Collecting.ofFun f).outcome c = (.ok (f c).1, (f c).2) := rfl

theorem outcome_bind_ok {a : α} {c' : Collector} (h : scan.outcome c = (.ok a, c')) :
    (scan >>= next).outcome c = (next a).outcome c' := by
  have hrun : scan c = (.ok a, c') := h
  change (ExceptT.bindCont next (scan c).1) (scan c).2 = _
  rw [hrun]
  rfl

theorem outcome_bind_error {fault : Fault} {c' : Collector}
    (h : scan.outcome c = (.error fault, c')) :
    (scan >>= next).outcome c = (.error fault, c') := by
  have hrun : scan c = (.error fault, c') := h
  change (ExceptT.bindCont next (scan c).1) (scan c).2 = _
  rw [hrun]
  rfl

/-- Two scans that have a result one after the other have one each. -/
theorem exists_of_outcome_bind {b : β} {d : Collector}
    (h : (scan >>= next).outcome c = (.ok b, d)) :
    ∃ a c', scan.outcome c = (.ok a, c') ∧ (next a).outcome c' = (.ok b, d) := by
  cases hscan : scan.outcome c with
  | mk result c' =>
    cases result with
    | error fault =>
      rw [outcome_bind_error hscan] at h
      cases h
    | ok a =>
      rw [outcome_bind_ok hscan] at h
      exact ⟨a, c', rfl, h⟩

/-- A scan has a result and records sightings, both of which do not depend on the collector. -/
def Records (scan : Collecting α) (result : Except Fault α) (sightings : List Sighting) : Prop :=
  ∀ c, scan.outcome c = (result, c.record sightings)

namespace Records

variable {a : α} {fault : Fault} {result : Except Fault β} {l l' : List Sighting}

theorem pure (a : α) : Records (pure a) (.ok a) [] := fun _ => rfl

theorem throw (fault : Fault) : Records (throw fault : Collecting α) (.error fault) [] :=
  fun _ => rfl

theorem ofFun {f : Collector → α × Collector} (h : ∀ c, f c = (a, c.record l)) :
    Records (Collecting.ofFun f) (.ok a) l := by
  intro c
  rw [outcome_ofFun, h]

theorem bind_ok (h : scan.Records (.ok a) l) (hnext : (next a).Records result l') :
    (scan >>= next).Records result (l ++ l') := by
  intro c
  rw [outcome_bind_ok (h c), hnext, Collector.record_append]

theorem bind_error (h : scan.Records (.error fault) l) :
    (scan >>= next).Records (.error fault) l :=
  fun c => outcome_bind_error (h c)

theorem addMatches (text context : Text) (known : Members Value) (patterns : List Pattern) :
    Records (Collecting.ofFun fun c => c.addMatches text context known patterns)
      (.ok (Sighting.ofMatches text context known patterns).length)
      (Sighting.ofMatches text context known patterns) :=
  ofFun fun c => c.addMatches_eq text context known patterns

end Records

/-- What a scan gives and sights does not depend on the collector, and all that it sights is of
one sort. -/
def Sights (sort : Sighting → Prop) (scan : Collecting α) : Prop :=
  ∃ result l, scan.Records result l ∧ ∀ s ∈ l, sort s

/-- What a scan gives and records does not depend on the collector. -/
def Steady (scan : Collecting α) : Prop := ∃ result l, scan.Records result l

namespace Sights

variable {sort : Sighting → Prop}

theorem steady (h : scan.Sights sort) : scan.Steady := by
  obtain ⟨result, l, hl, -⟩ := h
  exact ⟨result, l, hl⟩

theorem mono {sort' : Sighting → Prop} (h : scan.Sights sort) (hsort : ∀ s, sort s → sort' s) :
    scan.Sights sort' := by
  obtain ⟨result, l, hl, hall⟩ := h
  exact ⟨result, l, hl, fun s hs => hsort s (hall s hs)⟩

theorem pure (a : α) : Sights sort (pure a) := ⟨_, _, Records.pure a, by simp⟩

theorem throw (fault : Fault) : Sights sort (throw fault : Collecting α) :=
  ⟨_, _, Records.throw fault, by simp⟩

theorem bind (h : scan.Sights sort) (hnext : ∀ a, (next a).Sights sort) :
    (scan >>= next).Sights sort := by
  obtain ⟨result, l, hl, hsort⟩ := h
  cases result with
  | error fault => exact ⟨_, _, hl.bind_error, hsort⟩
  | ok a =>
    obtain ⟨_, l', hl', hsort'⟩ := hnext a
    refine ⟨_, _, hl.bind_ok hl', fun s hs => ?_⟩
    rcases List.mem_append.mp hs with hs | hs
    · exact hsort s hs
    · exact hsort' s hs

theorem ofEvaluation (e : Except Fault α) : Sights sort (Collecting.ofEvaluation e) := by
  cases e with
  | ok a => exact pure a
  | error fault => exact throw fault

theorem addMatches (text context : Text) (known : Members Value) (patterns : List Pattern) :
    Sights (Sighting.IsFrom [context] patterns)
      (Collecting.ofFun fun c => c.addMatches text context known patterns) :=
  ⟨_, _, Records.addMatches text context known patterns, fun _ => Sighting.isFrom_of_mem⟩

end Sights

namespace Steady

theorem pure (a : α) : Steady (pure a) := ⟨_, _, Records.pure a⟩

end Steady

end Collecting

open Collecting

/-! ## Request bodies -/

theorem sights_addDamaged (text context : Text) (known : Members Value) (halves : List LoneHalf)
    {found : List PatternMatch} (hfound : found ⊆ Pattern.standard.matchesIn text) :
    (addDamaged context known halves found).Sights (Sighting.IsFrom [context] [.standard]) := by
  induction found with
  | nil => exact .pure ()
  | cons m rest ih =>
    rw [List.cons_subset] at hfound
    unfold addDamaged
    cases namingFault? m halves with
    | some fault => exact .throw fault
    | none =>
      have hadd : Records (Collecting.ofFun fun c => ((), (c.add m.text context known).2)) (.ok ())
          [⟨m.text, context, known⟩] := .ofFun fun c => rfl
      have hsame : (Collecting.ofFun fun c => c.add m.text context known) >>=
          (fun _ => addDamaged context known halves rest) =
          (Collecting.ofFun fun c => ((), (c.add m.text context known).2)) >>=
          (fun _ => addDamaged context known halves rest) := rfl
      rw [hsame]
      refine .bind ⟨_, _, hadd, fun s hs => ?_⟩ fun _ => ih hfound.2
      rw [List.mem_singleton.mp hs]
      exact ⟨by simp, .standard, by simp, text, m, hfound.1, rfl⟩

theorem sights_addRequest (context : Text) (known : Members Value) (r : Request) :
    (addRequest context known r).Sights (Sighting.IsFrom [context] [.standard]) := by
  unfold addRequest
  dsimp only
  split
  · exact .addMatches _ _ _ _
  · exact .bind (sights_addDamaged _ _ _ _ (List.Subset.refl _)) fun _ => .pure _

theorem sights_addRequests (context : Text) (known : Members Value) (rs : List Request) :
    (addRequests context known rs).Sights (Sighting.IsFrom [context] [.standard]) := by
  induction rs with
  | nil => exact .pure 0
  | cons r rest ih =>
    exact .bind (sights_addRequest context known r) fun _ => .bind ih fun _ => .pure _

theorem sights_addPayload [Json.Nesting] (text context : Text) (known : Members Value) :
    (addPayload text context known).Sights (Sighting.IsFrom [context] [.standard]) := by
  unfold addPayload
  split
  · split
    · exact sights_addRequests context known _
    · exact .addMatches _ _ _ _
  · exact .addMatches _ _ _ _

/-! ## Syntax trees -/

theorem sights_visitTagged (s : Option Script.Site) (context : Text) :
    (visitTagged s context).Sights (Sighting.IsFrom [context] [.standard]) := by
  unfold visitTagged
  split
  · exact .bind (.addMatches _ _ _ _) fun _ => .pure ()
  · exact .pure ()

section SyntaxTrees

variable [Json.Nesting]

theorem sights_visitConfig (x : Script.ScopeIndex) (config : Script.Site) (context : Text) :
    (visitConfig x config context).Sights (Sighting.IsFrom [context] [.standard]) := by
  refine .bind (.ofEvaluation _) fun declared => ?_
  split
  · exact .pure ()
  · refine .bind (.ofEvaluation _) fun (text, bindings) => ?_
    dsimp only
    split
    · exact .bind (sights_addPayload _ _ _) fun _ => .pure ()
    · exact .pure ()

theorem sights_visitCall (x : Script.ScopeIndex) (call : Script.Site) (context : Text) :
    (visitCall x call context).Sights (Sighting.IsFrom [context] [.standard]) := by
  unfold visitCall
  split
  · split
    · exact .pure ()
    · exact .pure ()
    · split
      · exact .pure ()
      · split
        · exact sights_visitConfig _ _ _
        · split
          · exact .pure ()
          · refine .bind (.ofEvaluation _) fun text => ?_
            split
            · exact .bind (sights_addPayload _ _ _) fun _ => .pure ()
            · exact .pure ()
  · exact .pure ()

theorem sights_visitLiteral (s : Script.Site) (context : Text) :
    (visitLiteral s context).Sights (Sighting.IsFrom [context] [.standard]) := by
  unfold visitLiteral
  split
  · exact .pure ()
  · split
    · exact .bind (sights_addPayload _ _ _) fun _ => .pure ()
    · exact .pure ()

/-- The shapes of nodes that are looked at in a mode. -/
def NodeShape.visited (aggressive : Bool) : List NodeShape :=
  [.taggedLiteral, .callExpression, .variableBinding] ++ if aggressive then [.stringLiteral] else []

/-- The contexts of operations found in a syntax tree. -/
def treeContexts (aggressive : Bool) : List Text :=
  (NodeShape.visited aggressive).map NodeShape.context

theorem sights_visit (x : Script.ScopeIndex) (aggressive : Bool) (s : Script.Site) :
    (visit x aggressive s).Sights (Sighting.IsFrom (treeContexts aggressive) [.standard]) := by
  have hshape : ∀ shape ∈ NodeShape.visited aggressive, ∀ {scan : Collecting Unit},
      scan.Sights (Sighting.IsFrom [shape.context] [.standard]) →
        scan.Sights (Sighting.IsFrom (treeContexts aggressive) [.standard]) := by
    intro shape hvisited scan hscan
    refine hscan.mono fun s hs => hs.mono ?_ (List.Subset.refl _)
    exact List.cons_subset.mpr ⟨List.mem_map_of_mem hvisited, List.nil_subset _⟩
  unfold visit
  split
  · exact .pure ()
  · rename_i shape _
    cases shape with
    | taggedLiteral => exact hshape _ (by simp [NodeShape.visited]) (sights_visitTagged _ _)
    | callExpression => exact hshape _ (by simp [NodeShape.visited]) (sights_visitCall _ _ _)
    | variableBinding => exact hshape _ (by simp [NodeShape.visited]) (sights_visitTagged _ _)
    | stringLiteral =>
      cases aggressive with
      | false => exact .pure ()
      | true => exact hshape _ (by simp [NodeShape.visited]) (sights_visitLiteral _ _)

theorem sights_visitAll (x : Script.ScopeIndex) (aggressive : Bool) (sites : List Script.Site) :
    (visitAll x aggressive sites).Sights
      (Sighting.IsFrom (treeContexts aggressive) [.standard]) := by
  induction sites with
  | nil => exact .pure ()
  | cons s rest ih => exact .bind (sights_visit x aggressive s) fun _ => ih

/-- The pass over a tree is the same whatever has been recorded. -/
theorem exists_scanTree (root : Script.Node) (aggressive : Bool) :
    ∃ found l, (∀ c, Structure.scanTree root aggressive c = (found, c.record l)) ∧
      found.parseFailed = false ∧
      ∀ s ∈ l, s.IsFrom (treeContexts aggressive) [.standard] := by
  obtain ⟨result, l, hl, hsort⟩ :=
    sights_visitAll (Script.ScopeIndex.build root) aggressive (Script.Site.walk root)
  cases result with
  | ok a =>
    refine ⟨⟨some root, .build root, []⟩, l, fun c => ?_, rfl, hsort⟩
    simp only [Structure.scanTree, hl c]
  | error fault =>
    refine ⟨⟨some root, .build root, [("structural pass aborted: " ++ fault.line).toList]⟩, l,
      fun c => ?_, rfl, hsort⟩
    simp only [Structure.scanTree, hl c]

/-- A text that has a tree is scanned by a pass over the tree. -/
theorem scan_of_tree? [Script.Parser] {t : Text} {language : Language}
    {root : Script.Node} (h : Script.tree? language t = some root) (aggressive : Bool) :
    Structure.scan t language aggressive = Structure.scanTree root aggressive := by
  rw [Script.tree?] at h
  funext c
  rw [Structure.scan]
  cases hparse : Script.Parser.parse language t with
  | error fault =>
    rw [hparse] at h
    cases h
  | ok root' =>
    rw [hparse] at h
    cases h
    rfl

/-- A text that has none leaves the record as it is, in both modes. -/
theorem exists_scan_of_tree?_eq_none [Script.Parser] {t : Text}
    {language : Language} (h : Script.tree? language t = none) :
    ∃ found : Structure, found.tree = none ∧
      ∀ aggressive c, Structure.scan t language aggressive c = (found, c) := by
  rw [Script.tree?] at h
  cases hparse : Script.Parser.parse language t with
  | error fault =>
    let found : Structure :=
      ⟨none, .empty, [("parse failure (" ++ language.name ++ "): " ++ fault.message).toList]⟩
    refine ⟨found, rfl, fun aggressive c => ?_⟩
    rw [Structure.scan, hparse]
  | ok root =>
    rw [hparse] at h
    cases h

/-- A text that is not in its language shows nothing to the pass over its tree. -/
theorem exists_scan [Script.Parser] (t : Text) (language : Language)
    (aggressive : Bool) :
    ∃ found l, (∀ c, Structure.scan t language aggressive c = (found, c.record l)) ∧
      (found.parseFailed = true ↔ Script.tree? language t = none) ∧
      (Script.tree? language t = none → l = []) ∧
      ∀ s ∈ l, s.IsFrom (treeContexts aggressive) [.standard] := by
  cases htree : Script.tree? language t with
  | none =>
    obtain ⟨found, hfound, hscan⟩ := exists_scan_of_tree?_eq_none htree
    refine ⟨found, [], hscan aggressive, ?_, fun _ => rfl, by simp⟩
    exact iff_of_true (by rw [Structure.parseFailed, hfound]; rfl) rfl
  | some root =>
    obtain ⟨found, l, hl, hparsed, hsort⟩ := exists_scanTree root aggressive
    rw [scan_of_tree? htree]
    exact ⟨found, l, hl, by simp [hparsed], nofun, hsort⟩

end SyntaxTrees

/-! ## Raw text -/

/-- The first pattern that matches decides; all patterns before it sight nothing. -/
theorem sights_addFirstPattern (raw : Text) (ps : List Pattern) :
    (Collecting.ofFun (addFirstPattern raw ps)).Sights (Sighting.IsFrom [stringContext] ps) := by
  induction ps with
  | nil => exact .pure 0
  | cons p rest ih =>
    obtain ⟨result, l, hl, hsort⟩ := ih
    have hfirst : ∀ s ∈ Sighting.ofMatches raw stringContext [] [p],
        s.IsFrom [stringContext] (p :: rest) := by
      intro s hs
      exact (Sighting.isFrom_of_mem hs).mono (List.Subset.refl _) (by simp)
    generalize hl' : Sighting.ofMatches raw stringContext [] [p] = l' at hfirst
    have hstep : ∀ c, addFirstPattern raw (p :: rest) c =
        if l'.length == 0 then addFirstPattern raw rest (c.record l')
        else (l'.length, c.record l') := by
      intro c
      rw [addFirstPattern, Collector.addMatches_eq, hl']
    cases hn : l'.length == 0 with
    | true =>
      refine ⟨result, l' ++ l, fun c => ?_, List.forall_mem_append.mpr ⟨hfirst, fun s hs => ?_⟩⟩
      · rw [outcome_ofFun, hstep, hn, if_pos rfl, Collector.record_append, ← hl]
        rfl
      · exact (hsort s hs).mono (List.Subset.refl _) (List.subset_cons_self p rest)
    | false =>
      refine ⟨.ok l'.length, l', fun c => ?_, hfirst⟩
      rw [outcome_ofFun, hstep, hn]
      rfl

/-- The patterns that quoted spans are searched with in a mode. -/
def stringPatterns (aggressive : Bool) : List Pattern :=
  .standard :: if aggressive then Pattern.aggressive else []

/-- Only the aggressive mode tries other patterns than the standard one. -/
theorem sights_scanSpan [Json.Nesting] (aggressive : Bool) (s : QuotedSpan) :
    (scanSpan aggressive s).Sights
      (Sighting.IsFrom [stringContext] (stringPatterns aggressive)) := by
  unfold scanSpan
  split
  · have hpayload := sights_addPayload (Script.cook s.content) stringContext []
    refine .bind (hpayload.mono fun x hx => hx.mono (List.Subset.refl _) (by simp [stringPatterns]))
      fun n => ?_
    split
    · rename_i hmode
      rw [Bool.and_eq_true] at hmode
      refine (sights_addFirstPattern _ _).mono fun x hx => hx.mono (List.Subset.refl _) ?_
      rw [stringPatterns, if_pos hmode.2]
      exact List.subset_cons_self _ _
    · exact .pure n
  · exact .pure 0

theorem sights_scanSpans [Json.Nesting] (aggressive : Bool) (spans : List QuotedSpan) :
    (scanSpans aggressive spans).Sights
      (Sighting.IsFrom [stringContext] (stringPatterns aggressive)) := by
  induction spans with
  | nil => exact .pure []
  | cons s rest ih =>
    exact .bind (sights_scanSpan aggressive s) fun _ => .bind ih fun _ => .pure _

/-- Steps that each record sightings of some sort record a list of sightings each. -/
theorem exists_foldl_record {α : Type} {sort : α → Sighting → Prop}
    {f : Nat × Collector → α → Nat × Collector} {as : List α}
    (h : ∀ a ∈ as, ∃ l, (∀ state, (f state a).2 = state.2.record l) ∧ ∀ s ∈ l, sort a s) :
    ∃ ls, (∀ state, (as.foldl f state).2 = state.2.record ls.flatten) ∧
      List.Forall₂ (fun a l => ∀ s ∈ l, sort a s) as ls := by
  induction as with
  | nil => exact ⟨[], fun _ => rfl, .nil⟩
  | cons a as ih =>
    obtain ⟨l, hl, hsort⟩ := h a (by simp)
    obtain ⟨ls, hls, hsorts⟩ := ih fun b hb => h b (by simp [hb])
    refine ⟨l :: ls, fun state => ?_, .cons hsort hsorts⟩
    rw [List.foldl_cons, hls, hl, List.flatten_cons, Collector.record_append]

/-- What stands in one of several parts is of the sort of one of them. -/
theorem exists_of_mem_flatten {α β : Type} {sort : α → β → Prop} {as : List α}
    {parts : List (List β)} (h : List.Forall₂ (fun a part => ∀ b ∈ part, sort a b) as parts)
    {b : β} (hb : b ∈ parts.flatten) : ∃ a ∈ as, sort a b := by
  induction h with
  | nil => cases hb
  | @cons a part as parts hpart _ ih =>
    rcases List.mem_append.mp hb with hb | hb
    · exact ⟨a, by simp, hpart b hb⟩
    · obtain ⟨a', ha', hsort⟩ := ih hb
      exact ⟨a', by simp [ha'], hsort⟩

theorem snd_addUnclaimed {claimed : List (Nat × Nat)} {m : PatternMatch}
    (h : ¬ overlaps m.start m.stop claimed = true) (state : Nat × Collector) :
    (addUnclaimed claimed state m).2 = state.2.see ⟨m.text, m.context, []⟩ := by
  rw [addUnclaimed, if_neg h, Collector.see]
  split
  · rename_i heq
    rw [heq]
  · rename_i heq
    rw [heq]

theorem exists_addUnclaimed (claimed : List (Nat × Nat)) (m : PatternMatch) :
    ∃ l, (∀ state : Nat × Collector, (addUnclaimed claimed state m).2 = state.2.record l) ∧
      ∀ s ∈ l, s = ⟨m.text, m.context, []⟩ := by
  by_cases h : overlaps m.start m.stop claimed = true
  · refine ⟨[], fun state => ?_, by simp⟩
    rw [addUnclaimed, if_pos h, Collector.record_nil]
  · exact ⟨[⟨m.text, m.context, []⟩], snd_addUnclaimed h, by simp⟩

/-- The context of operations found by a pattern in a whole text. -/
def Pattern.context (p : Pattern) : Text := "pattern-".toList ++ Text.ofNat p.index

theorem context_of_mem_matchesIn {p : Pattern} {t : Text} {m : PatternMatch}
    (h : m ∈ p.matchesIn t) : m.context = p.context := by
  rw [Pattern.matchesIn, List.mem_filterMap] at h
  obtain ⟨s, -, hm⟩ := h
  unfold PatternMatch.context Pattern.context
  rw [(finished?_eq_some hm).1]

/-- One pattern after the other sights its matches that overlap no claimed stretch. -/
theorem exists_scanWholeText (t : Text) (claimed : List (Nat × Nat)) :
    ∃ ls, (∀ c, (scanWholeText t claimed c).2 = c.record ls.flatten) ∧
      List.Forall₂ (fun p l => ∀ s ∈ l, s.IsFrom [p.context] [p]) Pattern.aggressive ls := by
  have hpattern : ∀ p ∈ Pattern.aggressive, ∃ l, (∀ state : Nat × Collector,
      ((p.matchesIn t).foldl (addUnclaimed claimed) state).2 = state.2.record l) ∧
        ∀ s ∈ l, s.IsFrom [p.context] [p] := by
    intro p _
    obtain ⟨ls, hls, hsorts⟩ := exists_foldl_record fun m (_ : m ∈ p.matchesIn t) =>
      exists_addUnclaimed claimed m
    refine ⟨ls.flatten, hls, fun s hs => ?_⟩
    obtain ⟨m, hm, rfl⟩ := exists_of_mem_flatten hsorts hs
    exact ⟨by simp [context_of_mem_matchesIn hm], p, by simp, t, m, hm, rfl⟩
  obtain ⟨ls, hls, hsorts⟩ := exists_foldl_record hpattern
  exact ⟨ls, fun c => hls (0, c), hsorts⟩

/-- What the scans of raw text sight: in the quoted spans first, then, in the aggressive mode, with
one pattern after the other in the whole text. -/
structure RawSightings (aggressive : Bool) where
  strings : List Sighting
  whole : List (List Sighting)
  strings_isFrom : ∀ s ∈ strings, s.IsFrom [stringContext] (stringPatterns aggressive)
  whole_isFrom :
    List.Forall₂ (fun p l => ∀ s ∈ l, s.IsFrom [p.context] [p]) Pattern.aggressive whole
  whole_plain : aggressive = false → whole.flatten = []

namespace RawSightings

/-- All sightings, in order. -/
def all {aggressive : Bool} (r : RawSightings aggressive) : List Sighting :=
  r.strings ++ r.whole.flatten

/-- Sightings in quoted spans only. -/
def ofStrings {aggressive : Bool} (l : List Sighting)
    (h : ∀ s ∈ l, s.IsFrom [stringContext] (stringPatterns aggressive)) :
    RawSightings aggressive where
  strings := l
  whole := [[], [], [], []]
  strings_isFrom := h
  whole_isFrom := by simp [Pattern.aggressive]
  whole_plain := by simp

end RawSightings

/-- The scans of raw text record sightings; how many of them were new decides about a line
only. -/
theorem exists_scanRaw [Json.Nesting] (t : Text) (aggressive : Bool) (reason : String) :
    ∃ r : RawSightings aggressive,
      ∀ c, ((scanRaw t aggressive reason).outcome c).2 = c.record r.all := by
  obtain ⟨result, l, hl, hsort⟩ := sights_scanSpans aggressive (QuotedSpan.all t)
  have hstrings : (RawSightings.ofStrings l hsort).all = l := by
    simp [RawSightings.all, RawSightings.ofStrings]
  cases result with
  | error fault =>
    refine ⟨.ofStrings l hsort, fun c => ?_⟩
    rw [hstrings]
    exact congrArg Prod.snd (outcome_bind_error (hl c))
  | ok spans =>
    cases aggressive with
    | false =>
      refine ⟨.ofStrings l hsort, fun c => ?_⟩
      rw [hstrings]
      exact congrArg Prod.snd (outcome_bind_ok (hl c))
    | true =>
      obtain ⟨ls, hls, hsorts⟩ := exists_scanWholeText t (spans.map fun s => (s.start, s.stop))
      refine ⟨⟨l, ls, hsort, hsorts, by simp⟩, fun c => ?_⟩
      refine (congrArg Prod.snd (outcome_bind_ok (hl c))).trans ?_
      rw [RawSightings.all, Collector.record_append, ← hls]
      rfl

/-- Without the aggressive mode raw text is scanned only if it is minified or not parsed. -/
theorem exists_scanText [Json.Nesting] (t : Text) (aggressive parseFailed : Bool) :
    ∃ r : RawSightings aggressive,
      (∀ c, ((scanText t aggressive parseFailed).outcome c).2 = c.record r.all) ∧
      (r.all ≠ [] → aggressive = true ∨ looksMinified t = true ∨ parseFailed = true) := by
  unfold scanText
  dsimp only
  split
  · rename_i hmode
    rw [Bool.and_eq_true, Bool.or_eq_true, Bool.or_eq_true, or_assoc] at hmode
    obtain ⟨r, hr⟩ := exists_scanRaw t aggressive (scanReason aggressive (looksMinified t))
    exact ⟨r, hr, fun _ => hmode.2⟩
  · let r : RawSightings aggressive := .ofStrings [] (by simp)
    have hnone : r.all = [] := by simp [r, RawSightings.all, RawSightings.ofStrings]
    refine ⟨r, fun c => ?_, fun h => absurd hnone h⟩
    rw [hnone]
    rfl

/-! ## Comments -/

/-- A comment adds its sightings, and it counts if there are some. -/
theorem exists_scanComment (comment : Text) (n : Nat) :
    ∃ hits l, (∀ c, scanComment (n, c) comment = (hits, c.record l)) ∧
      ∀ s ∈ l, s.IsFrom [Comment.context] [.standard] := by
  unfold scanComment
  cases hscreen : passesScreen (Comment.clean comment) with
  | false => exact ⟨n, [], fun c => by simp [hscreen], by simp⟩
  | true =>
    generalize hm : Sighting.ofMatches (Comment.clean comment) Comment.context [] [.standard] = m
    refine ⟨if m.length == 0 then n else n + 1, m, fun c => ?_, fun s hs => ?_⟩
    · simp only [hscreen, if_true, c.addMatches_eq, hm]
    · rw [← hm] at hs
      exact Sighting.isFrom_of_mem hs

theorem exists_scanComments (t : Text) :
    ∃ hits l, (∀ c, scanComments t c = (hits, c.record l)) ∧
      ∀ s ∈ l, s.IsFrom [Comment.context] [.standard] := by
  have hfold : ∀ (comments : List Text) (n : Nat), ∃ hits l, (∀ c : Collector,
      comments.foldl scanComment (n, c) = (hits, c.record l)) ∧
        ∀ s ∈ l, s.IsFrom [Comment.context] [.standard] := by
    intro comments
    induction comments with
    | nil => exact fun n => ⟨n, [], fun _ => rfl, by simp⟩
    | cons comment rest ih =>
      intro n
      obtain ⟨k, l, hl, hsort⟩ := exists_scanComment comment n
      obtain ⟨hits, l', hl', hsort'⟩ := ih k
      refine ⟨hits, l ++ l', fun c => ?_, fun s hs => ?_⟩
      · rw [List.foldl_cons, hl, hl', Collector.record_append]
      · rcases List.mem_append.mp hs with hs | hs
        · exact hsort s hs
        · exact hsort' s hs
  exact hfold (Comment.all t) 0

end OperationScan
