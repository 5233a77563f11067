import OperationScan.Files.NamePattern
import OperationScan.Files.Tree
import OperationScan.Text.Basic

/-!
# Patterns for paths

A pattern for paths has a plain start and then names, of which the first is a pattern. Two stars
in place of a name stand for any number of folders. A name that starts with a dot fits only a
pattern that starts with a dot.

* `Glob.ofText?`: the pattern that a text spells, unless it is a plain path.
* `Glob.expand`: the paths that fit, in the order of their code points.
-/

namespace OperationScan

/-- What is asked of one name on a path; `itself` asks whether a folder has been reached. -/
inductive GlobStep where
  | plain (name : Text)
  | fitting (pattern : Text)
  | anyDepth
  | itself
  deriving Repr, DecidableEq

/-- The plain start of a pattern, and what is asked of the names behind it. -/
structure Glob where
  base : Text
  steps : List GlobStep
  deriving Repr, DecidableEq

namespace Glob

/-- Joins a path and a name. -/
def join (path name : Text) : Text :=
  if path.isEmpty || path.getLast? == some '/' then path ++ name else path ++ '/' :: name

/-- Text that is more than a plain path. -/
def isPattern (t : Text) : Bool := t.any NamePattern.isWildcard

/-- What is asked of a name. -/
def stepOf (name : Text) : GlobStep :=
  if name == ['*', '*'] then .anyDepth
  else if isPattern name then .fitting name
  else .plain name

/-- The path over plain names in front of a pattern; slashes at its end go, unless it has
nothing else. -/
def baseOf (names : List Text) : Text :=
  let t := names.flatMap (· ++ ['/'])
  let trimmed := Text.dropEndWhile (· == '/') t
  if trimmed.isEmpty then t else trimmed

/-- The pattern that a text spells, unless it is a plain path. -/
def ofText? (t : Text) : Option Glob :=
  let names := Text.splitOn '/' t
  match names.dropWhile fun name => !isPattern name with
  | [] => none
  | first :: more =>
    let steps := (first :: more).filterMap fun name =>
      if name.isEmpty then none else some (stepOf name)
    some
      { base := baseOf (names.takeWhile fun name => !isPattern name)
        steps := if more.getLast? == some [] then steps ++ [.itself] else steps }

/-- A name that only a pattern with a dot in front fits. -/
def isHidden (name : Text) : Bool := name.head? == some '.'

/-- The paths below a folder that fit one step; on the way to further steps only folders count. -/
def namesFor (files : FileTree) (onTheWay : Bool) (folder : Text) :
    GlobStep → Except FileFault (List Text)
  | .plain name => .ok (if files.holds (join folder name) then [name] else [])
  | .itself => .ok (if files.holdsFolder folder then [[]] else [])
  | .fitting pattern => do
    let found := (← files.entriesAt folder).filter fun (name, e) =>
      (e.isFolder || !onTheWay) && (isHidden pattern || !isHidden name) &&
        NamePattern.fits (.ofText pattern) name
    return found.map Prod.fst
  | .anyDepth => do
    let here := if folder.isEmpty || files.holdsFolder folder then [[]] else []
    let found := (Entry.allDescendants (← files.entriesAt folder)).filter fun (names, e) =>
      (e.isFolder || !onTheWay) && !names.any isHidden
    return here ++ found.map fun (names, _) => Text.join ['/'] names

/-- The paths from given folders on that fit some steps. -/
def follow (files : FileTree) : List GlobStep → List Text → Except FileFault (List Text)
  | [], paths => .ok paths
  | step :: more, paths => do
    let next ← paths.mapM fun path => do
      return (← namesFor files (!more.isEmpty) path step).map (join path)
    follow files more next.flatten

/-- The paths that fit a pattern. -/
def expand (files : FileTree) (g : Glob) : Except FileFault (List Text) := do
  return (← follow files g.steps [g.base]).mergeSort Text.atMost

end Glob

end OperationScan
