import OperationScan.Collector

/-!
# Tasks and their results

* `Task`: one input: where its text is to be found, and where it came from in the first place.
* `TaskResult`: what the scan of one input found, or why it could not be scanned.
* `TaskResult.transferred`: the result as it arrives from another process.
-/

namespace OperationScan

/-- One input. Without content its text is read at the locator. -/
structure Task where
  locator : Text
  origin : Text
  content : Option Text

/-- What kept a task from being done. -/
inductive ErrorKind where
  | unreadable
  | workerFault
  deriving Repr, DecidableEq

namespace ErrorKind

/-- The tag of a kind. -/
def tag : ErrorKind → Text
  | unreadable => "task_io".toList
  | workerFault => "worker_fault".toList

end ErrorKind

/-- An error with the origin of its input. -/
structure ErrorRecord where
  error : Text
  kind : ErrorKind
  origin : Text
  deriving Repr, DecidableEq

namespace ErrorRecord

/-- The members of an error in a report. -/
def members (e : ErrorRecord) : Members Text :=
  [("error".toList, e.error), ("kind".toList, e.kind.tag), ("file".toList, e.origin)]

/-- The line about an error in a log. -/
def line (e : ErrorRecord) : Text := e.kind.tag ++ ": ".toList ++ e.error

end ErrorRecord

/-- What the scan of one input found. -/
structure TaskResult where
  source : Text
  origin : Text
  operations : List Operation
  errors : List ErrorRecord
  diagnostics : List Text

namespace TaskResult

/-- The input could not be scanned. -/
def failed (r : TaskResult) : Bool := !r.errors.isEmpty

/-- The result of a task that could not be done. -/
def ofError (t : Task) (kind : ErrorKind) (error : Text) : TaskResult :=
  ⟨t.locator, t.origin, [], [⟨error, kind, t.origin⟩], []⟩

end TaskResult

/-! ## Between processes -/

mutual

/-- A value as it arrives from another process: what is no finite number is lost. -/
def Value.transferred : Value → Value
  | .float x => if x.isNaN || x.isInfinite then .null else .float x
  | .array items => .array (transferredItems items)
  | .object ms => .object (transferredMembers ms)
  | v => v

/-- Items as they arrive from another process. -/
def Value.transferredItems : List Value → List Value
  | [] => []
  | v :: rest => v.transferred :: transferredItems rest

/-- Members as they arrive from another process. -/
def Value.transferredMembers : List (Text × Value) → List (Text × Value)
  | [] => []
  | (name, v) :: rest => (name, v.transferred) :: transferredMembers rest

end

/-- An operation as it arrives from another process. -/
def Operation.transferred (o : Operation) : Operation :=
  { o with bindings := Value.transferredMembers o.bindings }

/-- A result as it arrives from another process. -/
def TaskResult.transferred (r : TaskResult) : TaskResult :=
  { r with operations := r.operations.map Operation.transferred }

end OperationScan
