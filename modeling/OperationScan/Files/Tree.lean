import OperationScan.Files.Path
import OperationScan.Text.Utf8
import OperationScan.Text.Printable
import OperationScan.Value

/-!
# Trees of files

A tree has a root folder and a working folder in it, from which relative paths start. A path is
followed name by name: whatever is followed by a slash, a dot or a further name has to be a
folder. Whatever the tree holds, the system may refuse to look at a path, to read or to write there.

* `FileTree.find`: the entry at a path.
* `FileTree.read`, `FileTree.write`: the bytes of a file.
* `FileFault`: why there is none; `Refusals`: what the system refuses for reasons of its own.
-/

namespace OperationScan

/-- A file with its bytes or a folder with its entries. -/
inductive Entry where
  | file (bytes : List UInt8)
  | folder (entries : List (Text × Entry))
  deriving Inhabited

namespace Entry

/-- A folder. -/
def isFolder : Entry → Bool
  | folder _ => true
  | file _ => false

/-- A file. -/
def isFile (e : Entry) : Bool := !e.isFolder

/-- The entries of a folder; a file has none. -/
def entries : Entry → List (Text × Entry)
  | folder es => es
  | file _ => []

/-- Puts an entry at the end of a chain of names below another, with the folders on the way. -/
def insert (e : Entry) : List Text → Entry → Entry
  | [], _ => e
  | name :: rest, base =>
    let inner := (Members.get? base.entries name).getD (.folder [])
    .folder (Members.put base.entries name (insert e rest inner))

mutual

/-- All that lies below an entry, with the names on the way. -/
def descendants : Entry → List (List Text × Entry)
  | .file _ => []
  | .folder es => allDescendants es

/-- Some entries and all that lies below them. -/
def allDescendants : List (Text × Entry) → List (List Text × Entry)
  | [] => []
  | (name, e) :: rest =>
    ([name], e) :: ((descendants e).map fun (names, x) => (name :: names, x)) ++ allDescendants rest

end

end Entry

/-- A fault that a system reports: its number, the name of its kind, and the reason in words. -/
structure SystemFault where
  number : Nat
  kindName : String
  reason : String
  deriving Repr, DecidableEq

/-- What is done at a path. -/
inductive Access where
  | look
  | read
  | write
  deriving Repr, DecidableEq

/-- What a system refuses to do at paths, whatever a tree holds there: rights may be missing, links
may run in a circle, a device may fail. -/
class Refusals where
  fault? : Access → Text → Option SystemFault

/-- Nothing is refused. -/
instance : Refusals := ⟨fun _ _ => none⟩

/-- Why there is no file at a path. -/
inductive FileFault where
  | missing
  | notFolder
  | isFolder
  | nameTooLong
  | nullByte
  | refused (fault : SystemFault)
  deriving Repr, DecidableEq

namespace FileFault

/-- The name of the kind of fault. -/
def kindName : FileFault → String
  | missing => "FileNotFoundError"
  | notFolder => "NotADirectoryError"
  | isFolder => "IsADirectoryError"
  | nameTooLong => "OSError"
  | nullByte => "ValueError"
  | refused f => f.kindName

/-- The number of a fault of the file system. -/
def number : FileFault → Nat
  | missing => 2
  | notFolder => 20
  | isFolder => 21
  | nameTooLong => 36
  | nullByte => 0
  | refused f => f.number

/-- The reason in words. -/
def reason : FileFault → String
  | missing => "No such file or directory"
  | notFolder => "Not a directory"
  | isFolder => "Is a directory"
  | nameTooLong => "File name too long"
  | nullByte => "embedded null byte"
  | refused f => f.reason

/-- A fault that says no more than that there is nothing at the path: nothing of that name, no
folder on the way, no open file, or links that run in a circle. -/
def saysAbsent (f : FileFault) : Bool := f == nullByte || [2, 20, 9, 40].contains f.number

/-- What has been found, unless the system refuses. A path that no file system can hold does not get
so far. -/
def unlessRefused {α : Type} (refusal : Option SystemFault) (found : Except FileFault α) :
    Except FileFault α :=
  match refusal, found with
  | none, found => found
  | some _, .error nullByte => .error nullByte
  | some f, _ => .error (refused f)

/-- A fault with the path at which it arose. A path that no file system can hold has none. -/
def message (path : Text) (f : FileFault) : Text :=
  if f == nullByte then f.reason.toList
  else
    "[Errno ".toList ++ Text.ofNat f.number ++ "] ".toList ++ f.reason.toList ++ ": ".toList ++
      Text.quoted path

end FileFault

/-- A fault and the path at which it arose. -/
structure PathFault where
  path : Text
  fault : FileFault
  deriving Repr, DecidableEq

namespace PathFault

/-- The name of the kind of fault. -/
def kindName (f : PathFault) : String := f.fault.kindName

/-- The wording of a fault. -/
def message (f : PathFault) : Text := f.fault.message f.path

end PathFault

/-- A result at a path. -/
def FileFault.at {α : Type} (path : Text) : Except FileFault α → Except PathFault α :=
  Except.mapError (PathFault.mk path)

/-- A root folder and the names on the way from there to the working folder, with what the system
refuses. -/
structure FileTree where
  root : Entry
  here : List Text
  [refusals : Refusals]

namespace FileTree

/-- The most bytes of a name. -/
def nameLimit : Nat := 255

/-- The most bytes of a path. -/
def pathLimit : Nat := 4095

/-- Goes one step further from an entry. Above it stand the folders around it, the innermost
first; the root is above itself. -/
def step (stack : Entry × List Entry) (name : Text) : Except FileFault (Entry × List Entry) :=
  match stack with
  | (.file _, _) => .error .notFolder
  | (.folder entries, above) =>
    if name.isEmpty || name == ['.'] then .ok stack
    else if name == ['.', '.'] then
      match above with
      | [] => .ok stack
      | parent :: rest => .ok (parent, rest)
    else if nameLimit < Text.Utf8.size name then .error .nameTooLong
    else
      match entries.lookup name with
      | some e => .ok (e, .folder entries :: above)
      | none => .error .missing

/-- Goes several steps further. -/
def walk : List Text → Entry × List Entry → Except FileFault (Entry × List Entry)
  | [], stack => .ok stack
  | name :: rest, stack => do walk rest (← step stack name)

/-- The entry at a path, spelled as it is handed to the file system, with the folders around
it. -/
def locate (t : FileTree) (path : Text) : Except FileFault (Entry × List Entry) :=
  if path.any (· == Char.ofNat 0) then .error .nullByte
  else if path.isEmpty then .error .missing
  else if pathLimit < Text.Utf8.size path then .error .nameTooLong
  else if path.head? == some '/' then walk (Text.splitOn '/' path) (t.root, [])
  else do walk (Text.splitOn '/' path) (← walk t.here (t.root, []))

/-- The entry at a path. -/
def find (t : FileTree) (path : Text) : Except FileFault Entry :=
  FileFault.unlessRefused (t.refusals.fault? .look path) ((t.locate path).map Prod.fst)

/-- The entry at a path passes a test. A fault that says no more than that there is none is no fault
here. -/
def passes (t : FileTree) (path : Text) (test : Entry → Bool) : Except FileFault Bool :=
  match t.find path with
  | .ok e => .ok (test e)
  | .error f => if f.saysAbsent then .ok false else .error f

/-- A path leads to a file. -/
def isFile (t : FileTree) (path : Text) : Except FileFault Bool := t.passes path Entry.isFile

/-- A path leads to a folder. -/
def isFolder (t : FileTree) (path : Text) : Except FileFault Bool := t.passes path Entry.isFolder

/-- There is something at a path. -/
def holds (t : FileTree) (path : Text) : Bool := (t.find path).isOk

/-- There is a folder at a path. -/
def holdsFolder (t : FileTree) (path : Text) : Bool :=
  match t.find path with
  | .ok e => e.isFolder
  | .error _ => false

/-- The entries of a folder; where there is no folder there are none. An empty path is the
working folder. -/
def entriesAt (t : FileTree) (path : Text) : Except FileFault (List (Text × Entry)) :=
  match t.find (if path.isEmpty then ['.'] else path) with
  | .ok e => .ok e.entries
  | .error .nullByte => .error .nullByte
  | .error _ => .ok []

/-- The bytes of a file, which is looked at before it is read. -/
def read (t : FileTree) (path : Text) : Except FileFault (List UInt8) :=
  FileFault.unlessRefused ((t.refusals.fault? .look path).or (t.refusals.fault? .read path)) do
    match ← t.locate path with
    | (.file bytes, _) => return bytes
    | (.folder _, _) => throw .isFolder

/-- The names on the way from the root to a path, given those to the start of the path. -/
def resolveFrom (start names : List Text) : List Text :=
  names.foldl
    (fun done name =>
      if name.isEmpty || name == ['.'] then done
      else if name == ['.', '.'] then done.dropLast
      else done ++ [name])
    start

/-- The names on the way from the root to a path. -/
def resolve (t : FileTree) (path : Text) : List Text :=
  resolveFrom (if path.head? == some '/' then [] else t.here) (Text.splitOn '/' path)

/-- The folder that holds the entry at a path. -/
def parent (t : FileTree) (path : Text) : Except FileFault Entry :=
  let names := (Text.splitOn '/' path).dropLast
  if path.head? == some '/' then (walk names (t.root, [])).map Prod.fst
  else do return (← walk names (← walk t.here (t.root, []))).1

/-- Puts an entry at a path. -/
def put (t : FileTree) (path : Text) (e : Entry) : FileTree :=
  { t with root := Entry.insert e (t.resolve path) t.root }

/-- Writes a file: the folder for it has to exist, and it may not be a folder itself. -/
def write (t : FileTree) (path : Text) (bytes : List UInt8) : Except FileFault FileTree :=
  FileFault.unlessRefused (t.refusals.fault? .write path)
    (match t.locate path with
    | .ok (.folder _, _) => .error .isFolder
    | .ok (.file _, _) => .ok (t.put path (.file bytes))
    | .error .missing =>
      match t.parent path with
      | .ok (.folder _) => .ok (t.put path (.file bytes))
      | .ok (.file _) => .error .notFolder
      | .error f => .error f
    | .error f => .error f)

end FileTree

end OperationScan
