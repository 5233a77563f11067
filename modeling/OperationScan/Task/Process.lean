import OperationScan.Plugin.Registry
import OperationScan.Scan.Comments
import OperationScan.Scan.Structure
import OperationScan.Settings.Reading
import OperationScan.Task.Content

/-!
# Scanning one input

The comments come first, then the syntax tree and the plugins, then the raw text; the first
sighting of an operation decides what is recorded about it.

* `extract`: scans a text.
* `Task.process`: reads the text of a task and scans it. What goes wrong becomes an error of the
  result, unless the locator is no path at all.
-/

namespace OperationScan

/-- The files and the plugins within reach, what reads scripts, and how deep JSON may nest. -/
structure Surroundings where
  files : FileTree
  catalogue : Catalogue
  limits : StreamLimits := {}
  [parser : Script.Parser]
  [nesting : Json.Nesting]

/-- The line about comments with operations. -/
def commentLines (hits : Nat) : List Text :=
  if hits == 0 then []
  else [("comment scan: " ++ toString hits ++ " comment(s) with operations").toList]

/-- The line about all operations, with their number for each context. -/
def countLines (c : Collector) : List Text :=
  if c.counts.isEmpty then []
  else
    let sorted := c.counts.mergeSort fun a b => Text.atMost a.1 b.1
    let counts := sorted.map fun m => m.1 ++ '=' :: Text.ofNat m.2
    [Text.ofNat c.size ++ " operation(s): ".toList ++ Text.join ", ".toList counts]

/-- Scans a text. -/
def extract [Script.Parser] [Json.Nesting] (cat : Catalogue) (settings : Settings)
    (text source origin : Text) (r : Registry) : Except Fault TaskResult × Registry :=
  let (hits, c) := scanComments text (.empty source origin)
  let (found, c) := Structure.scan text (Language.ofLocator source) settings.aggressive c
  let (pluginLines, r, c) := runPlugins cat settings.plugins found.tree text r c
  match (scanText text settings.aggressive found.parseFailed).outcome c with
  | (.error fault, _) => (.error fault, r)
  | (.ok lines, c) =>
    (.ok ⟨source, origin, c.operations, [],
      commentLines hits ++ found.diagnostics ++ pluginLines ++ lines ++ countLines c⟩, r)

/-- Reads the text of a task and scans it. -/
def Task.process (s : Surroundings) (settings : Settings) (t : Task) (r : Registry) :
    Except FileFault TaskResult × Registry :=
  match t.text s.files s.limits with
  | .error .nullByte => (.error .nullByte, r)
  | .error f => (.ok (.ofError t .unreadable (t.readError f)), r)
  | .ok text =>
    match @extract s.parser s.nesting s.catalogue settings text t.locator t.origin r with
    | (.ok result, r) => (.ok result, r)
    | (.error fault, r) => (.ok (.ofError t .workerFault fault.line.toList), r)

end OperationScan
