import OperationScan.Files.Glob
import OperationScan.Files.Path
import OperationScan.Text.Blank

/-!
# Files named by an input

An input names a file, a folder whose scripts are meant, or it is a pattern for paths. Folders
that hold no sources of their own are left out, except when a file in them is named outright. A
file may list inputs, one on a line; empty lines and lines that start with a number sign do not
count.

* `scriptsBelow`: the scripts in a folder and its subfolders.
* `expandInput`: the files that an input names.
* `batchEntries`, `readBatch`: the inputs in a text, and those in a file.
-/

namespace OperationScan

/-- Names of folders with dependencies, results of builds, and the like. -/
def skippedNames : List Text :=
  ["node_modules", "bower_components", "vendor", "dist", "build", ".next", ".turbo", "coverage",
    ".cache", "venv", ".venv", "__pycache__", ".git", ".svn", ".hg"].map (·.toList)

/-- One of the names on a path is skipped. -/
def isSkipped (names : List Text) : Bool := names.any skippedNames.contains

/-- The name of a script. -/
def isScriptName (name : Text) : Bool := (Language.ofSuffix? (Path.suffixOf name)).isSome

/-- The scripts in a folder and its subfolders, sorted name by name. -/
def scriptsBelow (files : FileTree) (folder : Path) : Except FileFault (List Path) := do
  let found := (Entry.allDescendants (← files.entriesAt folder.text)).filter fun (names, e) =>
    e.isFile && isScriptName (names.getLast?.getD []) && !isSkipped names
  return ((found.map Prod.fst).mergeSort Text.listAtMost).map folder.append

/-- The files that fit a pattern, without those in skipped folders. -/
def filesFitting (files : FileTree) (g : Glob) : Except FileFault (List Path) := do
  let found := (← g.expand files).map Path.ofText
  found.filterM fun p => do return (← files.isFile p.text) && !isSkipped p.parts

/-- The files that an input names. -/
def expandInput (files : FileTree) (input : Text) : Except PathFault (List Path) :=
  let path := Path.ofText input
  FileFault.at path.text do
    if ← files.isFile path.text then return [path]
    else if ← files.isFolder path.text then scriptsBelow files path
    else
      match Glob.ofText? input with
      | some g => filesFitting files g
      | none => return []

/-! ## Lists of inputs -/

/-- Why a list of inputs cannot be read. -/
inductive BatchFault where
  | file (fault : PathFault)
  | encoding (fault : Text.Utf8.Fault)
  deriving Repr, DecidableEq

namespace BatchFault

/-- The name of the kind of fault. -/
def kindName : BatchFault → String
  | file f => f.kindName
  | encoding _ => "UnicodeDecodeError"

/-- The wording of a fault. -/
def message : BatchFault → Text
  | file f => f.message
  | encoding f => f.message

end BatchFault

/-- The inputs in a text. -/
def batchEntries (t : Text) : List Text :=
  ((Text.lines t).map Text.trim).filter fun entry => !entry.isEmpty && entry.head? != some '#'

/-- The inputs in a file. -/
def readBatch (files : FileTree) (path : Text) : Except BatchFault (List Text) := do
  let path := (Path.ofText path).text
  let bytes ← (FileFault.at path (files.read path)).mapError BatchFault.file
  let t ← (Text.Utf8.decodeStrict? bytes).mapError BatchFault.encoding
  return batchEntries t

end OperationScan
