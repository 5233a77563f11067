import OperationScan.Command.Program
import Std.Time.DateTime.Timestamp

/-!
# The executable

The working folder is read at the start, and files that the program has written are put into
place at its end. Remote scripts are out of reach.
-/

namespace OperationScan.Executable

/-- The levels of folders below the working folder that are read. -/
def depthLimit : Nat := 64

/-- Reads a file or a folder with all that lies below it, but no folder that is skipped unless it
is named in the arguments. -/
def loadEntry (named : Text → Bool) : Nat → String → IO Entry
  | 0, _ => return .folder []
  | depth + 1, path => do
    let place ← IO.FS.realPath path
    if ← place.isDir then
      let mut entries : List (Text × Entry) := []
      for item in ← place.readDir do
        let name := item.fileName.toList
        if named name || !skippedNames.contains name then
          entries := (name, ← loadEntry named depth (path ++ "/" ++ item.fileName)) :: entries
      return .folder entries.reverse
    else return .file (← IO.FS.readBinFile place).toList

/-- The working folder and all that lies below it. -/
def loadFiles (named : Text → Bool) : IO FileTree := do
  let place ← IO.currentDir
  let names := (Text.splitOn '/' place.toString.toList).filter fun name => !name.isEmpty
  let here ← loadEntry named depthLimit place.toString
  return ⟨Entry.insert here names (.folder []), names⟩

/-- The files of a tree with their paths. -/
def filesOf (t : FileTree) : List (Text × List UInt8) :=
  t.root.descendants.filterMap fun (names, e) =>
    match e with
    | .file bytes => some ('/' :: Text.join ['/'] names, bytes)
    | .folder _ => none

/-- Puts the files into place that are not as they were. -/
def saveFiles (before after : FileTree) : IO Unit := do
  let known := filesOf before
  for (path, bytes) in filesOf after do
    if known.lookup path != some bytes then
      IO.FS.writeBinFile (String.ofList path) ⟨bytes.toArray⟩

/-- The time of day. -/
def clock : IO Timestamp := do
  let now ← Std.Time.Timestamp.now
  let nanoseconds := now.toNanosecondsSinceUnixEpoch.val
  let start : Timestamp := ⟨1970, 1, 1, 0, 0, 0, 0, some 0⟩
  return (Timestamp.ofSeconds? (Int.fdiv nanoseconds 1000000000)
    (Int.fmod nanoseconds 1000000000 / 1000).toNat).getD start

/-- The variables of the environment that options may come from. -/
def loadVariables : IO (Members Text) := do
  let names := Switch.ofScan.filterMap ScanParameters.variableOf
  let found ← names.mapM fun name => do
    return (← IO.getEnv (String.ofList name)).map fun value => (name, value.toList)
  return found.filterMap id

end OperationScan.Executable

open OperationScan Executable in
/-- The program. -/
def main (args : List String) : IO UInt32 := do
  let args := args.map (·.toList)
  let files ← loadFiles fun name => args.any fun arg => Text.contains name arg
  let environment ← loadVariables
  let setting : CommandSetting :=
    { programName := "gqlhound".toList
      surroundings := { files, catalogue := [] }
      network := fun _ => .error "no connection".toList
      downloads := "/downloads".toList
      environment := environment.get?
      now := ← clock }
  let outcome := Program.run setting args (.empty [])
  saveFiles files outcome.console.files
  IO.print (String.ofList outcome.console.out)
  IO.eprint (String.ofList outcome.console.err)
  if let some f := outcome.fault then
    IO.eprintln (f.kindName ++ ": " ++ String.ofList f.message)
  return outcome.code.toUInt32
