import OperationScan.Command.Parameters
import OperationScan.Inputs.Expand
import OperationScan.Inputs.Sources
import OperationScan.Report.Collection
import OperationScan.Run.Basic

/-!
# The scan command

* `Console`: what a command has written.
* `Stop`: why a command ends early.
* `scan`: finds the inputs, scans them, and writes the report.
-/

namespace OperationScan

/-- What a command finds around it: its own name, files and plugins, remote scripts and the folder
for them, variables of the environment, the time, and what workers are like. -/
structure CommandSetting where
  programName : Text
  surroundings : Surroundings
  network : Text → Except Text Text
  downloads : Text
  environment : Text → Option Text
  now : Timestamp
  conditions : PoolConditions := {}

/-- What a command has written: on its two streams, and into files. -/
structure Console where
  out : Text
  err : Text
  files : FileTree

/-- What ends a command without a word of its own. -/
inductive CommandFault where
  | batch (fault : BatchFault)
  | input (fault : InputFault)
  | plugin (fault : PluginFault)
  | run (fault : RunFault)
  | writing (fault : Json.WriteFault)
  | nameless (fault : NamelessPath)
  | unusablePath

namespace CommandFault

/-- The name of the kind of fault. -/
def kindName : CommandFault → String
  | batch f => f.kindName
  | input f => f.kindName
  | plugin f => f.kindName
  | run f => f.kindName
  | writing _ => "ValueError"
  | nameless _ => "ValueError"
  | unusablePath => FileFault.nullByte.kindName

/-- The wording of a fault. -/
def message : CommandFault → Text
  | batch f => f.message
  | input f => f.message
  | plugin f => f.message
  | run f => f.message
  | writing f => f.message.toList
  | nameless f => f.message
  | unusablePath => FileFault.nullByte.reason.toList

end CommandFault

/-- Why a command ends early: it has been used wrongly, it is done, or something else. -/
inductive Stop where
  | usage (fault : UsageFault)
  | done (code : Nat)
  | fault (fault : CommandFault)

/-- What a command does. -/
abbrev Commanding := ExceptT Stop (StateM Console)

namespace Commanding

/-- Writes a line to the first stream. -/
def print (line : Text) : Commanding Unit :=
  modify fun c => { c with out := c.out ++ line ++ ['\n'] }

/-- Writes a line to the second stream. -/
def tell (line : Text) : Commanding Unit :=
  modify fun c => { c with err := c.err ++ line ++ ['\n'] }

/-- The value of a result; a fault ends the command. -/
def orStop {ε α : Type} (stop : ε → Stop) : Except ε α → Commanding α
  | .ok a => pure a
  | .error f => throw (stop f)

/-- A result that ends the command with a fault. -/
def orFault {ε α : Type} (fault : ε → CommandFault) : Except ε α → Commanding α :=
  orStop fun f => .fault (fault f)

end Commanding

open Commanding

/-- The inputs on the command line and those that a file lists. -/
def inputsOf (files : FileTree) (p : ScanParameters) : Commanding (List Text) := do
  match p.batch with
  | some path => return p.inputs ++ (← orFault .batch (readBatch files path.text))
  | none => return p.inputs

/-- Loads plugins. A spec that leads nowhere is a fault of the command line. -/
def loadPlugins (cat : Catalogue) (specs : List Text) (r : Registry) : Commanding Registry :=
  match r.loadAll cat specs with
  | (.ok (), r) => pure r
  | (.error f, _) =>
    if f.isSpecFault then throw (.usage (.badValue "--plugin".toList f.message))
    else throw (.fault (.plugin f))

/-- Tells how a run went. -/
def tellFigures (report : Report) (lost : Nat) : Commanding Unit := do
  if report.operations.isEmpty then tell "No GraphQL operations found".toList
  else
    tell ("Extracted ".toList ++ Text.ofNat report.operations.length ++ " operations".toList)
  if 0 < lost then
    tell (Text.ofNat lost ++ " inputs could not be processed".toList)

/-- Writes data into a file. When that is not possible the command ends. -/
def save (path : Path) (v : Value) : Commanding Unit := do
  let t ← orFault .writing (fileText v)
  match (← get).files.write path.text (Text.Utf8.encode t) with
  | .ok files => modify fun c => { c with files }
  | .error f =>
    tell ("Failed to write output: ".toList ++ f.message path.text)
    throw (.done 1)

/-- Writes the report, and the collection that belongs to it. -/
def saveReport (report : Report) (output : Path) (withCollection : Bool) : Commanding Unit := do
  save output report.value
  tell ("Report saved to ".toList ++ output.text)
  if withCollection then
    let collection ← orFault .writing (collectionValue report.operations defaultCollectionName)
    let path ← orFault .nameless (collectionPath output)
    save path collection
    tell ("Postman collection saved to ".toList ++ path.text)

/-- The settings of a run. -/
def ScanParameters.settings (p : ScanParameters) : Settings :=
  { aggressive := p.aggressive
    concurrency := p.concurrency
    verbose := p.verbose
    plugins := Settings.pluginSpecs (Text.join [','] p.plugins) }

/-- Finds the inputs, scans them, and writes the report. -/
def scan (s : CommandSetting) (p : ScanParameters) (r : Registry) : Commanding Unit := do
  let inputs ← inputsOf s.surroundings.files p
  if inputs.isEmpty then throw (.usage .inputsMissing)
  if p.collection && p.output.isNone then throw (.usage .reportMissing)
  let r ← loadPlugins s.surroundings.catalogue p.settings.plugins r
  let (found, sources) := Sources.addAll ⟨s.network, s.downloads, p.verbose⟩ inputs
    (.empty s.surroundings.files)
  let _ ← orFault .input found
  tell ("Found ".toList ++ Text.ofNat sources.tasks.length ++ " files to process".toList)
  let outcome := (Pipeline.new p.settings).run { s.surroundings with files := sources.files }
    s.conditions sources.tasks r
  if let some f := outcome.fault then throw (.fault (.run f))
  let report := outcome.pipeline.report s.now
  let report := { report with
    errors := sources.errors.map ErrorRecord.members ++ report.errors }
  tellFigures report (outcome.pipeline.tally.failed + sources.errors.length)
  match p.output with
  | none => print (← orFault .writing (Json.writeIndented report.value))
  | some output => saveReport report output p.collection

end OperationScan
