import OperationScan.Fields.Basic
import OperationScan.Text.Blank

/-!
# Settings of a run

* `Settings`: how inputs are scanned and how many at a time.
* `Settings.pluginSpecs`: the specs in a text that lists them.
* `Settings.ofFields`: the settings that fields describe, unknown fields left aside, or all that
  is wrong with them.
-/

namespace OperationScan

/-- How inputs are scanned: with the aggressive patterns or without, by how many workers, with
which lines in the log, and with which plugins. -/
structure Settings where
  aggressive : Bool := false
  concurrency : Nat := 4
  verbose : Bool := false
  progress : Bool := true
  plugins : List Text := []
  deriving Repr, DecidableEq

namespace Settings

/-- The specs in a text, separated by commas. -/
def pluginSpecs (t : Text) : List Text :=
  ((Text.splitOn ',' t).map Text.trim).filter fun spec => !spec.isEmpty

/-- Reads plugin specs: a list of them or a text that lists them. -/
def readSpecs : Value → FieldResult (List Text)
  | .string t => .ok (pluginSpecs t)
  | .array items => readItems items
  | _ => .problem .noTuple

/-- The settings that fields describe. -/
def ofFields (fs : Members Value) : FieldResult Settings :=
  let defaults : Settings := {}
  let aggressive := Fields.field fs "aggressive" readFlag defaults.aggressive
  let concurrency := Fields.field fs "concurrency"
    (fun v => (readIntegerFrom 1 v).map Int.toNat) defaults.concurrency
  let verbose := Fields.field fs "verbose" readFlag defaults.verbose
  let progress := Fields.field fs "progress" readFlag defaults.progress
  let plugins := Fields.field fs "plugins" readSpecs defaults.plugins
  (aggressive.both (concurrency.both (verbose.both (progress.both plugins)))).map
    fun (aggressive, concurrency, verbose, progress, plugins) =>
      { aggressive, concurrency, verbose, progress, plugins }

end Settings

end OperationScan
