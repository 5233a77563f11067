import OperationScan.Proofs.Pattern.Shape
import OperationScan.Proofs.Task.Process

/-!
# The order and the shape of what is found

The operations of a result stand in the order of the scans that have found them. Whichever scan
that was, they begin with their keyword and end with a closing brace.

* `Operation.KeywordLed`: an operation of a known kind, from its keyword to its closing brace.
* `extract_ordered`: the results of scans without plugins.
-/

namespace OperationScan

/-- The text of an operation begins with the keyword of its kind and ends with a closing brace. -/
structure Operation.KeywordLed (o : Operation) : Prop where
  kind : o.kind ≠ .unknown
  keyword : o.kind.word <+: o.rawText
  brace : o.rawText.getLast? = some '\x7d'

theorem Collector.Makes.keywordLed {c : Collector} {s : Sighting} {o : Operation}
    (h : c.Makes s o) (hs : IsOperationShaped s.text) : o.KeywordLed := by
  obtain ⟨hkind, hword⟩ := hs.describe
  rw [Collector.Makes, hs.trimmed.trim_eq] at h
  subst h
  exact ⟨hkind, hword, hs.ends⟩

/-- What a scan without plugins finds stands in the order of the scans, only under contexts that
its mode and the text admit, and each operation leads with the keyword of its kind. -/
theorem extract_ordered [Script.Parser] [Json.Nesting] (cat : Catalogue) {settings : Settings}
    (hplugins : settings.plugins = []) (text source origin : Text) {result : TaskResult}
    (h : (extract cat settings text source origin (.empty [])).1 = .ok result) :
    InScanOrder result.operations ∧
      (Script.tree? (Language.ofLocator source) text = none →
        ∀ o ∈ result.operations, ∀ shape : NodeShape, o.context ≠ shape.context) ∧
      (settings.aggressive = false → ∀ o ∈ result.operations,
        o.context ≠ NodeShape.stringLiteral.context ∧ ¬ "pattern-".toList <+: o.context ∧
        (o.context = stringContext → looksMinified text = true ∨
          Script.tree? (Language.ofLocator source) text = none)) ∧
      ∀ o ∈ result.operations, o.KeywordLed := by
  obtain ⟨-, l, hl⟩ := extract_bare cat hplugins text source origin
  rw [hl result h]
  have hmade : ∀ o ∈ ((Collector.empty source origin).record l.all).operations,
      ∃ s ∈ l.all, (Collector.empty source origin).Makes s o := fun o ho =>
    (Collector.exists_of_mem_record ho).resolve_left List.not_mem_nil
  refine ⟨l.inScanOrder_record source origin, ?_, ?_, ?_⟩
  · intro hparse o ho shape
    obtain ⟨s, hs, rfl⟩ := hmade o ho
    exact l.context_ne_shape hparse shape s hs
  · intro hplain o ho
    obtain ⟨s, hs, rfl⟩ := hmade o ho
    exact l.context_plain hplain s hs
  · intro o ho
    obtain ⟨s, hs, hmakes⟩ := hmade o ho
    exact hmakes.keywordLed (l.isOperationShaped s hs)

/-- A comment, a tagged template, a string, and an operation without spacing in no quotes. -/
def mixedText : Text := ("// query A \x7b a \x7d\nf(gql\x60query B \x7b b \x7d\x60, " ++
  "'query C \x7b c \x7d', /mutation\x7brenameEveryFolder(limit:1)\x7bid\x7d\x7d/)").toList

theorem extract_ordered_mixed :
    ∃ result, (extract [] { aggressive := true } mixedText "a.js".toList [] (.empty [])).1 =
        .ok result ∧
      result.operations.map Operation.context = ["comment".toList, "tagged-literal".toList,
        "string-literal".toList, "pattern-2".toList] ∧
      InScanOrder result.operations ∧ ∀ o ∈ result.operations, o.KeywordLed := by
  have hfound : (extract [] { aggressive := true } mixedText "a.js".toList []
      (.empty [])).1.toOption.map (fun r => r.operations.map Operation.context) =
        some ["comment".toList, "tagged-literal".toList, "string-literal".toList,
          "pattern-2".toList] := by
    decide +kernel
  cases h : (extract [] { aggressive := true } mixedText "a.js".toList [] (.empty [])).1 with
  | error fault =>
    rw [h] at hfound
    cases hfound
  | ok result =>
    rw [h] at hfound
    obtain ⟨horder, -, -, hled⟩ := extract_ordered [] rfl mixedText _ _ h
    exact ⟨result, rfl, Option.some.inj hfound, horder, hled⟩

end OperationScan
