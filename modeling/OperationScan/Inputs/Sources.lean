import OperationScan.Inputs.Expand
import OperationScan.Inputs.Url
import OperationScan.Run.Tally
import OperationScan.Task.Basic

/-!
# From inputs to tasks

Every input gives tasks: one for each file that it names, or one for a remote script, which is
put into a folder for downloads first. A file or an address gives a task only once.

* `Sources`: the tasks so far, and what went wrong.
* `Sources.add`: the number of tasks that an input adds. What cannot be fetched becomes an error;
  a path or an address that makes no sense is a fault.
-/

namespace OperationScan

/-- Why an input makes no sense. -/
inductive InputFault where
  | path (fault : PathFault)
  | address (fault : UrlFault)
  deriving Repr, DecidableEq

namespace InputFault

/-- The name of the kind of fault. -/
def kindName : InputFault → String
  | path f => f.kindName
  | address _ => "ValueError"

/-- The wording of a fault. -/
def message : InputFault → Text
  | path f => f.message
  | address f => f.message

end InputFault

/-- How inputs are looked for: the text at an address or why there is none, the folder for
downloads, and whether inputs without a task get a line in the log. -/
structure Fetching where
  network : Text → Except Text Text
  downloads : Text
  verbose : Bool

/-- The tasks so far with the files, downloads among them, and what else has happened: errors,
the files and addresses seen, the addresses asked for, and the log. -/
structure Sources where
  files : FileTree
  tasks : List Task
  errors : List ErrorRecord
  seen : List Text
  requested : List Text
  log : List LogLine

namespace Sources

/-- No tasks yet. -/
def empty (files : FileTree) : Sources := ⟨files, [], [], [], [], []⟩

/-- Adds a line to the log. -/
def note (s : Sources) (l : LogLine) : Sources := { s with log := s.log ++ [l] }

/-- Adds a task for a file, unless there is one. -/
def addFile (s : Sources) (path : Path) : Sources :=
  let key := '/' :: Text.join ['/'] (s.files.resolve path.text)
  if s.seen.contains key then s
  else
    { s with
      seen := s.seen ++ [key]
      tasks := s.tasks ++ [⟨path.text, path.text, none⟩] }

/-- Adds tasks for the files that an input names. -/
def addLocal (verbose : Bool) (input : Text) (s : Sources) : Except InputFault Nat × Sources :=
  match expandInput s.files input with
  | .error f => (.error (.path f), s)
  | .ok paths =>
    let after := paths.foldl addFile s
    let added := after.tasks.length - s.tasks.length
    if added == 0 && verbose then
      (.ok added, after.note (.warning ("  No script files found for input: ".toList ++ input)))
    else (.ok added, after)

/-- The path for the next download. -/
def nextDownload (s : Sources) (downloads suffix : Text) : Text :=
  downloads ++ "/remote_".toList ++ Text.ofNatPadded 4 s.tasks.length ++ suffix

/-- Adds a task for a remote script, unless its address has been seen. -/
def addRemote (how : Fetching) (url : Text) (s : Sources) : Except InputFault Nat × Sources :=
  if s.seen.contains url then (.ok 0, s)
  else
    let asked := { s with seen := s.seen ++ [url], requested := s.requested ++ [url] }.note
      (.info ("  Fetching remote script ".toList ++ url))
    match how.network url with
    | .error reason =>
      let line := "failed to fetch ".toList ++ url ++ ": ".toList ++ reason
      let noted := if how.verbose then asked.note (.warning (' ' :: ' ' :: line)) else asked
      (.ok 0, { noted with errors := noted.errors ++ [⟨line, .unreadable, url⟩] })
    | .ok text =>
      match Url.suffix url with
      | .error f => (.error (.address f), asked)
      | .ok suffix =>
        let target := asked.nextDownload how.downloads suffix
        (.ok 1, { asked with
          files := asked.files.put target (.file (Text.Utf8.encode text))
          tasks := asked.tasks ++ [⟨target, url, none⟩] })

/-- Adds the tasks of an input. -/
def add (how : Fetching) (input : Text) (s : Sources) : Except InputFault Nat × Sources :=
  if Url.isRemote input then addRemote how input s else addLocal how.verbose input s

/-- Adds the tasks of several inputs, up to the first that makes no sense. -/
def addAll (how : Fetching) : List Text → Sources → Except InputFault Nat × Sources
  | [], s => (.ok 0, s)
  | input :: rest, s =>
    match add how input s with
    | (.error f, s) => (.error f, s)
    | (.ok n, s) =>
      let (total, s) := addAll how rest s
      (total.map (n + ·), s)

end Sources

end OperationScan
