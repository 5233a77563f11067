import OperationScan.Proofs.Pattern.Standard
import OperationScan.Proofs.Task.Process

/-!
# Operations are found again

Outside the aggressive mode everything on record comes from the standard pattern. Such an operation
is found again in its own text and in its signature, as one match and with the same head.

* `Operation.FoundAgain`: what is found in the text and in the signature of an operation.
* `extract_plain_foundAgain`: all operations of a scan without plugins are found again.
-/

namespace OperationScan

/-- The text and the signature of an operation are one match each, with one kind and one name. -/
structure Operation.FoundAgain (o : Operation) : Prop where
  rawText : Pattern.standard.matchesIn o.rawText = [wholeMatch o.rawText]
  signature : Pattern.standard.matchesIn o.signature = [wholeMatch o.signature]
  kind : (Head.describe o.rawText).kind = (Head.describe o.signature).kind
  name : (Head.describe o.rawText).name = (Head.describe o.signature).name

theorem Operation.foundAgain_of_isMatch {o : Operation} {s : Sighting} (hs : s.IsMatch)
    (hraw : o.rawText = Text.trim s.text) (hsignature : o.signature = s.signature) :
    o.FoundAgain := by
  obtain ⟨text, m, hm, htext⟩ := hs
  have hmatch : IsOperation s.text := htext ▸ isOperation_of_mem_matchesIn hm
  have hrespaced := Head.respaced_describe (Text.respaced_normalize_trim s.text)
  rw [Sighting.signature] at hsignature
  constructor
  · rw [hraw, hmatch.trimmed.trim_eq]
    exact hmatch.matchesIn_eq
  · rw [hsignature, hmatch.trimmed.trim_eq]
    exact hmatch.normalize.matchesIn_eq
  · rw [hraw, hsignature]
    exact hrespaced.1
  · rw [hraw, hsignature]
    exact hrespaced.2.1

/-- What a plain scan without plugins finds is found again. -/
theorem extract_plain_foundAgain [Script.Parser] [Json.Nesting] (cat : Catalogue)
    {settings : Settings} (hplugins : settings.plugins = []) (hplain : settings.aggressive = false)
    (text source origin : Text) {result : TaskResult}
    (h : (extract cat settings text source origin (.empty [])).1 = .ok result) :
    ∀ o ∈ result.operations, o.FoundAgain := by
  intro o ho
  obtain ⟨-, l, hl⟩ := extract_bare cat hplugins text source origin
  rw [hl result h] at ho
  rcases Collector.exists_of_mem_record ho with ho | ⟨s, hs, rfl⟩
  · cases ho
  · exact Operation.foundAgain_of_isMatch (l.isMatch hplain s hs) rfl rfl

/-- A body with wide spacing. -/
def spacedText : Text := "fetch(u, \x7bbody: 'query  A on B  @c \x7b a   \x7d'\x7d)".toList

theorem extract_plain_foundAgain_spaced :
    ∃ result, (extract [] {} spacedText "a.js".toList [] (.empty [])).1 = .ok result ∧
      result.operations.map Operation.rawText =
        ["query  A on B  @c \x7b a   \x7d".toList] ∧
      ∀ o ∈ result.operations, o.FoundAgain := by
  have hfound : (extract [] {} spacedText "a.js".toList [] (.empty [])).1.toOption.map
      (fun r => r.operations.map Operation.rawText) =
        some ["query  A on B  @c \x7b a   \x7d".toList] := by
    decide +kernel
  cases h : (extract [] {} spacedText "a.js".toList [] (.empty [])).1 with
  | error fault =>
    rw [h] at hfound
    cases hfound
  | ok result =>
    rw [h] at hfound
    exact ⟨result, rfl, Option.some.inj hfound, extract_plain_foundAgain [] rfl rfl _ _ _ h⟩

end OperationScan
