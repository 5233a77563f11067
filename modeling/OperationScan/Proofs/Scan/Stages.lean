import OperationScan.Proofs.Pattern.Shape
import OperationScan.Proofs.Scan.Sightings

/-!
# The stages of a scan

The comments come first, then the syntax tree, then the raw text. Every stage has contexts of its
own, and what it leaves on record stands behind all that earlier stages have left.

* `TextSightings`: what the scans of a text sight, stage by stage.
* `scanOrder`, `InScanOrder`: the contexts of the stages, and operations in their order.
* `TextSightings.inScanOrder_record`: sightings of a text leave operations in that order.
-/

namespace OperationScan

/-- What the scans of a text sight, stage by stage. A text that is not in its language shows
nothing to the pass over its tree; without the aggressive mode only such a text and a minified one
show something to the scans of raw text. -/
structure TextSightings [Script.Parser] (aggressive : Bool) (language : Language)
    (text : Text) where
  comments : List Sighting
  tree : List Sighting
  raw : RawSightings aggressive
  comments_isFrom : ∀ s ∈ comments, s.IsFrom [Comment.context] [.standard]
  tree_isFrom : ∀ s ∈ tree, s.IsFrom (treeContexts aggressive) [.standard]
  tree_unparsed : Script.tree? language text = none → tree = []
  raw_wanted : raw.all ≠ [] → aggressive = true ∨ looksMinified text = true ∨
    Script.tree? language text = none

/-- The contexts of operations, stage by stage. -/
def scanOrder : List (List Text) :=
  [["comment".toList],
    ["tagged-literal".toList, "http-call-body".toList, "variable-binding".toList,
      "string-literal".toList],
    ["minified-string".toList],
    ["pattern-2".toList], ["pattern-3".toList], ["pattern-4".toList], ["pattern-5".toList]]

/-- Operations that come in one part for each stage, with the contexts of the stage. -/
def InScanOrder (ops : List Operation) : Prop :=
  ∃ parts, ops = parts.flatten ∧
    List.Forall₂ (fun contexts part => ∀ o ∈ part, o.context ∈ contexts) scanOrder parts

/-- Lists of sightings, each of some sort, leave a part of the record each, in their order. -/
theorem Collector.exists_parts_record {α : Type} {sort : α → Sighting → Prop} {as : List α}
    {ls : List (List Sighting)} (h : List.Forall₂ (fun a l => ∀ s ∈ l, sort a s) as ls)
    (c : Collector) : ∃ parts, (c.record ls.flatten).operations = c.operations ++ parts.flatten ∧
      List.Forall₂ (fun a part => ∀ o ∈ part, ∃ s, sort a s ∧ c.Makes s o) as parts := by
  induction h generalizing c with
  | nil => exact ⟨[], by simp, .nil⟩
  | @cons a l as ls hsort _ ih =>
    obtain ⟨added, hadded, hmade⟩ := c.exists_operations_record l
    obtain ⟨parts, hparts, hmades⟩ := ih (c.record l)
    rw [makes_record] at hmades
    refine ⟨added :: parts, ?_, .cons (fun o ho => ?_) hmades⟩
    · rw [List.flatten_cons, record_append, hparts, hadded, List.append_assoc, List.flatten_cons]
    · obtain ⟨s, hs, hmakes⟩ := hmade o ho
      exact ⟨s, hsort s hs, hmakes⟩

namespace TextSightings

/-- The aggressive patterns give operations the contexts of the last stages. -/
theorem scanOrder_eq : scanOrder = [Comment.context] :: treeContexts true :: [stringContext] ::
    Pattern.aggressive.map fun p => [p.context] := by
  decide

variable [Script.Parser] {aggressive : Bool} {language : Language} {text : Text}

/-- The sightings of each stage. -/
def stages (l : TextSightings aggressive language text) : List (List Sighting) :=
  l.comments :: l.tree :: l.raw.strings :: l.raw.whole

/-- All sightings, in order. -/
def all (l : TextSightings aggressive language text) : List Sighting := l.stages.flatten

theorem all_eq (l : TextSightings aggressive language text) :
    l.all = l.comments ++ l.tree ++ l.raw.all := by
  simp [all, stages, RawSightings.all]

theorem mem_all_iff {l : TextSightings aggressive language text} {s : Sighting} :
    s ∈ l.all ↔ s ∈ l.comments ∨ s ∈ l.tree ∨ s ∈ l.raw.strings ∨ s ∈ l.raw.whole.flatten := by
  rw [all_eq, RawSightings.all, List.mem_append, List.mem_append, List.mem_append, or_assoc]

theorem stages_isFrom (l : TextSightings aggressive language text) :
    List.Forall₂ (fun contexts l => ∀ s ∈ l, s.context ∈ contexts) scanOrder l.stages := by
  have htree : treeContexts aggressive ⊆ treeContexts true := by
    cases aggressive with
    | false => decide
    | true => exact List.Subset.refl _
  rw [scanOrder_eq]
  refine .cons (fun s hs => (l.comments_isFrom s hs).context)
    (.cons (fun s hs => htree (l.tree_isFrom s hs).context)
      (.cons (fun s hs => (l.raw.strings_isFrom s hs).context) ?_))
  rw [List.forall₂_map_left_iff]
  exact l.raw.whole_isFrom.imp fun p part h s hs => (h s hs).context

/-- Sightings of a text leave operations in the order of the scans. -/
theorem inScanOrder_record (l : TextSightings aggressive language text) (source origin : Text) :
    InScanOrder ((Collector.empty source origin).record l.all).operations := by
  obtain ⟨parts, hparts, hmade⟩ :=
    Collector.exists_parts_record l.stages_isFrom (.empty source origin)
  refine ⟨parts, hparts, hmade.imp ?_⟩
  rintro contexts part hpart o ho
  obtain ⟨s, hs, rfl⟩ := hpart o ho
  exact hs

/-- In the plain mode all sightings are matches of the standard pattern. -/
theorem isMatch (hplain : aggressive = false) (l : TextSightings aggressive language text) :
    ∀ s ∈ l.all, s.IsMatch := by
  subst hplain
  intro s hs
  rcases mem_all_iff.mp hs with hs | hs | hs | hs
  · exact (l.comments_isFrom s hs).isMatch_standard
  · exact (l.tree_isFrom s hs).isMatch_standard
  · exact (l.raw.strings_isFrom s hs).isMatch_standard
  · rw [l.raw.whole_plain rfl] at hs
    cases hs

/-- All sightings have the shape of operations. -/
theorem isOperationShaped (l : TextSightings aggressive language text) :
    ∀ s ∈ l.all, IsOperationShaped s.text := by
  have hfrom : ∀ {contexts patterns} {s : Sighting}, patterns ⊆ Pattern.all →
      s.IsFrom contexts patterns → IsOperationShaped s.text := by
    rintro contexts patterns s hpatterns ⟨-, p, hp, t, m, hm, htext⟩
    rw [htext]
    exact isOperationShaped_of_mem_matchesIn (hpatterns hp) hm
  have hstandard : [Pattern.standard] ⊆ Pattern.all := by simp [Pattern.all]
  intro s hs
  rcases mem_all_iff.mp hs with hs | hs | hs | hs
  · exact hfrom hstandard (l.comments_isFrom s hs)
  · exact hfrom hstandard (l.tree_isFrom s hs)
  · refine hfrom ?_ (l.raw.strings_isFrom s hs)
    cases aggressive with
    | false => exact hstandard
    | true => exact List.Subset.refl _
  · obtain ⟨p, hp, hs⟩ := exists_of_mem_flatten l.raw.whole_isFrom hs
    exact hfrom (by simp [Pattern.all, hp]) hs

/-- Every sighting has the context of its stage. -/
theorem context_cases {l : TextSightings aggressive language text} {s : Sighting}
    (hs : s ∈ l.all) : s.context = Comment.context ∨
      (s ∈ l.tree ∧ s.context ∈ treeContexts aggressive) ∨
      (s ∈ l.raw.all ∧ s.context = stringContext) ∨
      (aggressive = true ∧ s.context ∈ Pattern.aggressive.map Pattern.context) := by
  rcases mem_all_iff.mp hs with hs | hs | hs | hs
  · exact .inl (List.mem_singleton.mp (l.comments_isFrom s hs).context)
  · exact .inr (.inl ⟨hs, (l.tree_isFrom s hs).context⟩)
  · exact .inr (.inr (.inl ⟨List.mem_append_left _ hs,
      List.mem_singleton.mp (l.raw.strings_isFrom s hs).context⟩))
  · obtain ⟨p, hp, hfrom⟩ := exists_of_mem_flatten l.raw.whole_isFrom hs
    have hmode : aggressive = true := by
      cases aggressive with
      | false =>
        rw [l.raw.whole_plain rfl] at hs
        cases hs
      | true => rfl
    have hcontext : s.context = p.context := List.mem_singleton.mp hfrom.context
    exact .inr (.inr (.inr ⟨hmode, hcontext ▸ List.mem_map_of_mem hp⟩))

/-- A text that is not in its language has no sightings with the context of a shape. -/
theorem context_ne_shape (l : TextSightings aggressive language text)
    (hparse : Script.tree? language text = none) (shape : NodeShape) :
    ∀ s ∈ l.all, s.context ≠ shape.context := by
  have hshape : shape.context ∈ treeContexts true := by
    cases shape <;> decide
  have hothers : ∀ context ∈ Comment.context :: stringContext ::
      Pattern.aggressive.map Pattern.context, context ∉ treeContexts true := by
    decide
  intro s hs heq
  rw [← heq] at hshape
  rcases context_cases hs with hcontext | ⟨htree, -⟩ | ⟨-, hcontext⟩ | ⟨-, hcontext⟩
  · exact hothers _ (by simp [hcontext]) hshape
  · rw [l.tree_unparsed hparse] at htree
    cases htree
  · exact hothers _ (by simp [hcontext]) hshape
  · exact hothers _ (by simp only [List.mem_cons, hcontext, or_true]) hshape

/-- The plain mode looks at no literals and searches the whole text with no pattern. -/
theorem context_plain (hplain : aggressive = false) (l : TextSightings aggressive language text) :
    ∀ s ∈ l.all, s.context ≠ NodeShape.stringLiteral.context ∧
      ¬ "pattern-".toList <+: s.context ∧
      (s.context = stringContext →
        looksMinified text = true ∨ Script.tree? language text = none) := by
  subst hplain
  have hothers : ∀ context ∈ Comment.context :: stringContext :: treeContexts false,
      context ≠ NodeShape.stringLiteral.context ∧ ¬ "pattern-".toList <+: context := by
    decide
  have hstring : ∀ context ∈ Comment.context :: treeContexts false, context ≠ stringContext := by
    decide
  intro s hs
  rw [← and_assoc]
  rcases context_cases hs with hcontext | ⟨-, hcontext⟩ | ⟨hraw, hcontext⟩ | ⟨hmode, -⟩
  · exact ⟨hothers _ (by simp [hcontext]), fun h => absurd h (hstring _ (by simp [hcontext]))⟩
  · exact ⟨hothers _ (by simp [hcontext]), fun h => absurd h (hstring _ (by simp [hcontext]))⟩
  · refine ⟨hothers _ (by simp [hcontext]), fun _ => ?_⟩
    exact (l.raw_wanted (List.ne_nil_of_mem hraw)).resolve_left (by simp)
  · cases hmode

end TextSightings

end OperationScan
