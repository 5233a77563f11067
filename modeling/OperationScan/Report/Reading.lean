import OperationScan.Fields.Basic
import OperationScan.Report.Basic

/-!
# Parts of reports from fields

* `Operation.ofFields`, `Metadata.ofFields`: the operation or the figures that fields describe,
  unknown fields left aside, or all that is wrong with them.
* `readErrors`: errors, each of them an object of texts.
-/

namespace OperationScan

/-- Reads the word for a kind. -/
def readKind : Value → FieldResult Kind
  | .string t =>
    match Kind.ofWord? t with
    | some k => .ok k
    | none => .problem .unknownWord
  | _ => .problem .unknownWord

/-- The operation that fields describe. -/
def Operation.ofFields (fs : Members Value) : FieldResult Operation :=
  let text (name : String) := Fields.required fs name readText
  let kind := Fields.field fs "kind" readKind .unknown
  let bindings := Fields.field fs "variables" readMembers []
  ((text "raw_text").both <| (text "signature").both <| (text "name").both <| kind.both <|
    bindings.both <| (text "source").both <| (text "origin").both <| text "context").map
    fun (rawText, signature, name, kind, bindings, source, origin, context) =>
      { rawText, signature, name, kind, bindings, source, origin, context }

/-- Reads a moment: a text that spells one, or a number of seconds. -/
def readTimestamp : Value → FieldResult Timestamp
  | .string t =>
    match Timestamp.ofText? t with
    | some m => .ok m
    | none => .problem .badTime
  | .int n =>
    match Timestamp.ofSeconds? n 0 with
    | some m => .ok m
    | none => .problem .timeOutOfRange
  | .float x =>
    match Timestamp.ofNumber? x with
    | some m => .ok m
    | none => .problem .timeOutOfRange
  | _ => .problem .noTime

/-- The figures that fields describe. Without a moment they are from right now. -/
def Metadata.ofFields (now : Timestamp) (fs : Members Value) : FieldResult Metadata :=
  let count (name : String) (default : Int) := Fields.field fs name readInteger default
  let defaults : Metadata := { version := [], generatedAt := now }
  ((Fields.field fs "analyzer" readText defaults.analyzer).both <|
    (Fields.required fs "version" readText).both <|
    (Fields.field fs "generated_at" readTimestamp now).both <|
    (count "task_count" defaults.taskCount).both <|
    (count "completed_count" defaults.completedCount).both <|
    (count "failed_count" defaults.failedCount).both <|
    (count "concurrency" defaults.concurrency).both <|
    Fields.field fs "aggressive" readFlag defaults.aggressive).map
    fun (analyzer, version, generatedAt, taskCount, completedCount, failedCount, concurrency,
        aggressive) =>
      { analyzer, version, generatedAt, taskCount, completedCount, failedCount, concurrency,
        aggressive }

/-- Reads errors. -/
def readErrors : Value → FieldResult (List (Members Text))
  | .array items => .all (items.zipIdx.map fun (v, i) => (readTextMembers v).below (Text.ofNat i))
  | _ => .problem .noList

end OperationScan
