import OperationScan.Collector
import OperationScan.Json.Writer
import OperationScan.Timestamp

/-!
# Reports

* `Report`: the operations that have been found, errors, and the figures of the run.
* `Report.value`: a report as data.
* `fileText`: data as the text of a file.
-/

namespace OperationScan

/-- The figures of a run. -/
structure Metadata where
  analyzer : Text := "gqlhound".toList
  version : Text
  generatedAt : Timestamp
  taskCount : Int := 0
  completedCount : Int := 0
  failedCount : Int := 0
  concurrency : Int := 1
  aggressive : Bool := false
  deriving Repr, DecidableEq

/-- What has been found, with errors and figures. -/
structure Report where
  operations : List Operation
  metadata : Metadata
  errors : List (Members Text)

/-- Named values as data. -/
def record (members : List (String × Value)) : Value :=
  .object (members.map fun m => (m.1.toList, m.2))

/-- An operation in a report. -/
def Operation.value (o : Operation) : Value :=
  record [("name", .string o.name), ("kind", .string o.kind.word), ("operation", .string o.rawText),
    ("signature", .string o.signature), ("variables", .object o.bindings),
    ("source", .string o.source), ("origin", .string o.origin), ("context", .string o.context)]

/-- The figures of a run as data. -/
def Metadata.value (m : Metadata) : Value :=
  record [("analyzer", .string m.analyzer), ("version", .string m.version),
    ("generated_at", .string m.generatedAt.text), ("task_count", .int m.taskCount),
    ("completed_count", .int m.completedCount), ("failed_count", .int m.failedCount),
    ("concurrency", .int m.concurrency), ("aggressive", .bool m.aggressive)]

/-- A report as data. -/
def Report.value (r : Report) : Value :=
  record [("operations", .array (r.operations.map Operation.value)),
    ("errors", .array (r.errors.map fun e => .object (e.map fun m => (m.1, .string m.2)))),
    ("metadata", r.metadata.value)]

/-- Data as the text of a file: over several lines, the last of which is closed. -/
def fileText (v : Value) : Except Json.WriteFault Text := do
  return (← Json.writeIndented v) ++ ['\n']

end OperationScan
