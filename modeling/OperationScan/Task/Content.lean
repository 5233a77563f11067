import OperationScan.Files.Tree
import OperationScan.Task.Basic

/-!
# The text of a task

A task that brings no text along is read from its file. Bytes that are no characters are
replaced, and line ends stay as they are. A large file is read in pieces.

* `readPieces`: a text in pieces, put together again.
* `Task.text`: the text of a task.
-/

namespace OperationScan

/-- Files of more bytes than the threshold are read in pieces of so many characters. -/
structure StreamLimits where
  threshold : Nat := 1024 * 1024
  piece : Nat := 64 * 1024
  deriving Repr, DecidableEq

/-- Takes pieces off a text until one is empty, at most `fuel` of them; the pieces taken are kept
last first. -/
def takePieces (piece : Nat) : (fuel : Nat) → Text → List Text → List Text
  | 0, _, done => done.reverse
  | fuel + 1, t, done =>
    match t.take piece with
    | [] => done.reverse
    | c :: cs => takePieces piece fuel (t.drop piece) ((c :: cs) :: done)

/-- A text in pieces, put together again. -/
def readPieces (piece : Nat) (t : Text) : Text := (takePieces piece t.length t []).flatten

/-- The text in the bytes of a file. -/
def StreamLimits.decode (limits : StreamLimits) (bytes : List UInt8) : Text :=
  let t := Text.Utf8.decode bytes
  if bytes.length ≤ limits.threshold then t else readPieces limits.piece t

namespace Task

/-- The text of a task. -/
def text (files : FileTree) (limits : StreamLimits) (t : Task) : Except FileFault Text :=
  match t.content with
  | some content => .ok content
  | none => do return limits.decode (← files.read (Path.ofText t.locator).text)

/-- The wording of the error when the text of a task cannot be read. -/
def readError (t : Task) (f : FileFault) : Text :=
  "cannot read ".toList ++ t.locator ++ ": ".toList ++ f.reason.toList

end Task

end OperationScan
