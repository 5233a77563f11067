import OperationScan.Task.Basic

/-!
# What a run keeps

* `LogLine`: a level and a text, in which a time and a rate may be left open until the line is
  shown.
* `LogLine.started`, `LogLine.completed`, `LogLine.failed`: the lines around a stage.
* `Progress`: the two lines about a stage of many items.
* `Tally.absorb`: takes the result of a task into account. Of the operations with one signature
  the first stays.
-/

namespace OperationScan

/-! ## The log -/

/-- How much a line matters. -/
inductive LogLevel where
  | info
  | warning
  | error
  deriving Repr, DecidableEq

namespace LogLevel

/-- The name of a level. -/
def name : LogLevel → String
  | info => "INFO"
  | warning => "WARNING"
  | error => "ERROR"

end LogLevel

/-- A stretch of a line. -/
inductive LogPiece where
  | text (t : Text)
  | seconds
  | rate
  deriving Repr, DecidableEq

/-- A line of a log. -/
structure LogLine where
  level : LogLevel
  pieces : List LogPiece
  deriving Repr, DecidableEq

namespace LogLine

/-- The text of a line, given the texts of the time and of the rate. -/
def text (seconds rate : Text) (l : LogLine) : Text :=
  l.pieces.flatMap fun
    | .text t => t
    | .seconds => seconds
    | .rate => rate

/-- A line that tells something. -/
def info (t : Text) : LogLine := ⟨.info, [.text t]⟩

/-- A line that warns. -/
def warning (t : Text) : LogLine := ⟨.warning, [.text t]⟩

/-- A stage starts; details follow its name. -/
def started (name : Text) (details : Members Value) : LogLine :=
  info ("▶ Starting ".toList ++ name ++ details.flatMap fun (key, value) =>
    ' ' :: (key ++ '=' :: value.display))

/-- A stage has been completed. -/
def completed (name : Text) : LogLine :=
  ⟨.info, [.text ("✓ Completed ".toList ++ name ++ " in ".toList), .seconds, .text ['s']]⟩

/-- A stage was ended by an error. -/
def failed (name message : Text) : LogLine :=
  ⟨.error, [.text ("✗ ".toList ++ name ++ " failed after ".toList), .seconds,
    .text ("s: ".toList ++ message)]⟩

/-- Lines about one input. -/
def diagnostics (source : Text) (lines : List Text) : List LogLine :=
  lines.map fun line => info (' ' :: ' ' :: (source ++ ':' :: ' ' :: line))

end LogLine

/-- A stage of many items. -/
structure Progress where
  total : Int
  label : Text
  unit : Text
  shown : Bool

namespace Progress

/-- The label of a stage that is given none. -/
def defaultLabel : Text := "Progress".toList

/-- What the items of a stage are called unless they have a name. -/
def defaultUnit : Text := "it".toList

/-- Stages of up to so many items pass without a line. -/
def quietUpTo : Int := 100

/-- The stage gets lines. -/
def hasLines (p : Progress) : Bool := p.shown && quietUpTo < p.total

/-- The line at the start. -/
def opening (p : Progress) : List LogLine :=
  if p.hasLines then
    [.info (' ' :: ' ' :: (p.label ++ ": processing ".toList ++ (toString p.total).toList ++
      ' ' :: (p.unit ++ "...".toList)))]
  else []

/-- The line at the end, when so many items are done. -/
def closing (p : Progress) (done : Int) : List LogLine :=
  if p.hasLines then
    [⟨.info, [.text (' ' :: ' ' :: (p.label ++ ": completed ".toList ++ (toString done).toList ++
      ' ' :: (p.unit ++ " in ".toList))), .seconds, .text "s (".toList, .rate,
      .text "/s)".toList]⟩]
  else []

end Progress

/-! ## Adding up results -/

/-- What the tasks of a run have given so far. -/
structure Tally where
  completed : Nat
  failed : Nat
  errors : List ErrorRecord
  operations : List Operation
  log : List LogLine

namespace Tally

/-- Nothing so far. -/
def empty : Tally := ⟨0, 0, [], [], []⟩

/-- Adds an operation, unless there is one with its signature. -/
def addOperation (ops : List Operation) (o : Operation) : List Operation :=
  if ops.any fun known => known.signature == o.signature then ops else ops ++ [o]

/-- The lines about a result. -/
def linesOf (r : TaskResult) : List LogLine :=
  LogLine.diagnostics r.origin (r.diagnostics ++ r.errors.map ErrorRecord.line)

/-- Takes a result into account. -/
def absorb (verbose : Bool) (t : Tally) (r : TaskResult) : Tally :=
  { completed := t.completed + 1
    failed := if r.failed then t.failed + 1 else t.failed
    errors := t.errors ++ r.errors
    operations := r.operations.foldl addOperation t.operations
    log := if verbose then t.log ++ linesOf r else t.log }

/-- Adds a line to the log. -/
def note (t : Tally) (l : LogLine) : Tally := { t with log := t.log ++ [l] }

end Tally

end OperationScan
