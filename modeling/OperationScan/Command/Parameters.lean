import OperationScan.Command.Arguments
import OperationScan.Files.Path
import OperationScan.Files.Tree
import OperationScan.Number.Literal
import OperationScan.Settings.Reading

/-!
# Parameters of a scan

A parameter comes from the command line, or else from a variable of the environment, or else it
has a default. Parameters are looked at in the order in which their options have been given, the
others behind them; the first fault counts.

* `ScanParameters.read`: the parameters, or what is wrong with one of them.
-/

namespace OperationScan

/-- What a scan is asked to do. -/
structure ScanParameters where
  inputs : List Text
  output : Option Path
  batch : Option Path
  collection : Bool
  aggressive : Bool
  concurrency : Nat
  verbose : Bool
  plugins : List Text
  timeout : Binary64

/-- Why a parameter has no value: it is refused for a reason, or it is a path that cannot be
looked at. -/
inductive ParameterFault where
  | refused (reason : Text)
  | unusablePath
  deriving Repr, DecidableEq

namespace ScanParameters

/-- The variable of the environment that may stand for an option. -/
def variableOf : Switch → Option Text
  | .aggressive => some "GQLHOUND_AGGRESSIVE".toList
  | .concurrency => some "GQLHOUND_CONCURRENCY".toList
  | .verbose => some "GQLHOUND_VERBOSE".toList
  | .plugin => some "GQLHOUND_PLUGINS".toList
  | _ => none

/-- What the environment says about an option; an empty text says nothing. -/
def fromVariable (environment : Text → Option Text) (s : Switch) : Option Text :=
  match (variableOf s).bind environment with
  | some [] => none
  | v => v

/-- What the command line or else the environment says about an option. -/
def spelled (environment : Text → Option Text) (a : Arguments) (s : Switch) : Option Text :=
  (a.value? s).or (fromVariable environment s)

/-- Words for truth values in the environment. -/
def flagWords : List (String × Bool) :=
  [("", false), ("0", false), ("1", true), ("f", false), ("false", false), ("n", false),
    ("no", false), ("off", false), ("on", true), ("t", true), ("true", true), ("y", true),
    ("yes", true)]

/-- Reads a truth value. -/
def readFlagWord (t : Text) : Except ParameterFault Bool :=
  match flagWords.lookup (String.ofList (Text.toLower (Text.trim t))) with
  | some b => .ok b
  | none =>
    .error (.refused (Text.quoted t ++ " is not a valid boolean. Recognized values: ".toList ++
      Text.join ", ".toList (flagWords.map fun w => w.1.toList)))

/-- A flag is set by its option, or else by the environment. -/
def flag (environment : Text → Option Text) (a : Arguments) (s : Switch) :
    Except ParameterFault Bool :=
  if a.has s then .ok true
  else
    match fromVariable environment s with
    | some t => readFlagWord t
    | none => .ok false

/-- Reads a number of workers. -/
def readWorkers (t : Text) : Except ParameterFault Nat :=
  match (Number.joinDigits? t).bind Number.readCount? with
  | none => .error (.refused (Text.quoted t ++ " is not a valid integer range.".toList))
  | some n =>
    if n < 1 then .error (.refused ((toString n).toList ++ " is not in the range x>=1.".toList))
    else .ok n.toNat

/-- Reads a number of seconds. -/
def readSeconds (t : Text) : Except ParameterFault Binary64 :=
  match (Number.joinDigits? t).bind Number.readDecimal? with
  | none => .error (.refused (Text.quoted t ++ " is not a valid float range.".toList))
  | some x =>
    if !x.isNaN && (x.isNegative || x.isZero) then
      .error (.refused (x.text .plain ++ " is not in the range x>0.".toList))
    else .ok x

/-- Reads the path of a file, which may have to exist. -/
def readPath (files : FileTree) (hasToExist : Bool) (t : Text) : Except ParameterFault Path :=
  let file := "File ".toList ++ Text.quoted t
  match files.find t with
  | .error .nullByte => .error .unusablePath
  | .error _ =>
    if hasToExist then .error (.refused (file ++ " does not exist.".toList))
    else .ok (Path.ofText t)
  | .ok e =>
    if e.isFolder then .error (.refused (file ++ " is a directory.".toList))
    else .ok (Path.ofText t)

/-- The plugins that are asked for. -/
def pluginTexts (environment : Text → Option Text) (a : Arguments) : List Text :=
  if a.has .plugin then a.values .plugin
  else ((fromVariable environment .plugin).map Text.words).getD []

/-- The usual number of seconds to wait for a download. -/
def usualTimeout : Binary64 := Binary64.ofDecimal false 30 0

/-- The fault of a parameter, if it has one. -/
def faultOf {α : Type} : Except ParameterFault α → Option ParameterFault
  | .ok _ => none
  | .error f => some f

/-- The order in which parameters are looked at. -/
def order (a : Arguments) : List Switch :=
  let given := (a.given.map Prod.fst).eraseDups
  given ++ Switch.ofScan.filter fun s => !given.contains s

/-- The parameters, or the first of them that has no value, and why. -/
def read (files : FileTree) (environment : Text → Option Text) (a : Arguments) :
    Except (Switch × ParameterFault) ScanParameters :=
  let output := (a.value? .output).mapM (readPath files false)
  let batch := (a.value? .batch).mapM (readPath files true)
  let aggressive := flag environment a .aggressive
  let verbose := flag environment a .verbose
  let usual : Settings := {}
  let concurrency := ((spelled environment a .concurrency).map readWorkers).getD
    (.ok usual.concurrency)
  let timeout := ((a.value? .timeout).map readSeconds).getD (.ok usualTimeout)
  let fault (s : Switch) : Option ParameterFault :=
    match s with
    | .output => faultOf output
    | .batch => faultOf batch
    | .aggressive => faultOf aggressive
    | .verbose => faultOf verbose
    | .concurrency => faultOf concurrency
    | .timeout => faultOf timeout
    | _ => none
  match (order a).findSome? fun s => (fault s).map (Prod.mk s) with
  | some f => .error f
  | none => do
    return {
      inputs := a.rest
      output := ← output.mapError (Prod.mk .output)
      batch := ← batch.mapError (Prod.mk .batch)
      collection := a.has .collection
      aggressive := ← aggressive.mapError (Prod.mk .aggressive)
      concurrency := ← concurrency.mapError (Prod.mk .concurrency)
      verbose := ← verbose.mapError (Prod.mk .verbose)
      plugins := pluginTexts environment a
      timeout := ← timeout.mapError (Prod.mk .timeout) }

end ScanParameters

end OperationScan
