import OperationScan.Operation.Head
import OperationScan.Operation.Variables
import OperationScan.Pattern.Basic
import OperationScan.Payload

/-!
# Collecting operations

A collector holds the operations found in one input, in the order in which they were found, each
signature once: the first sighting decides. Beside them it counts the operations recorded under
each context.

* `Collector.add`: records operation text.
* `Collector.addMatches`: records all matches of patterns in a text.
* `addPayload`: records the operations of a request body or of plain text.
-/

namespace OperationScan

/-- Source text believed to hold one operation. -/
structure Operation where
  rawText : Text
  signature : Text
  name : Text
  kind : Kind
  bindings : Members Value
  source : Text
  origin : Text
  context : Text

/-- The operations found in one input. -/
structure Collector where
  source : Text
  origin : Text
  operations : List Operation
  counts : Members Nat

namespace Collector

/-- A collector without operations. -/
def empty (source origin : Text) : Collector := ⟨source, origin, [], []⟩

/-- The number of operations. -/
def size (c : Collector) : Nat := c.operations.length

/-- An operation with this signature has been recorded. -/
def has (c : Collector) (signature : Text) : Bool :=
  c.operations.any fun o => o.signature == signature

/-- The operation that a text without white space at its ends is. -/
def operationOf (c : Collector) (text context : Text) (known : Members Value) : Operation :=
  let signature := normalize text
  let head := Head.describe text
  { rawText := text
    signature := signature
    name := head.name.getD (placeholderName head.kind.word signature)
    kind := head.kind
    bindings := inferVariables head.args known
    source := c.source
    origin := c.origin
    context := context }

/-- Appends an operation and counts it. -/
def push (c : Collector) (o : Operation) : Collector :=
  { c with
    operations := c.operations ++ [o]
    counts := c.counts.put o.context ((c.counts.get? o.context).getD 0 + 1) }

/-- Records operation text, unless it is empty or its signature has been recorded. -/
def add (c : Collector) (text context : Text) (known : Members Value) :
    Option Operation × Collector :=
  let stripped := Text.trim text
  let signature := normalize stripped
  if signature.isEmpty || c.has signature then (none, c)
  else
    let o := c.operationOf stripped context known
    (some o, c.push o)

/-- Records matches and counts them. -/
def addAll (c : Collector) (context : Text) (known : Members Value)
    (found : List PatternMatch) : Nat × Collector :=
  (found.length, found.foldl (fun c m => (c.add m.text context known).2) c)

/-- Records the matches of one more pattern and adds their number to those counted. -/
def addPattern (text context : Text) (known : Members Value) (state : Nat × Collector)
    (p : Pattern) : Nat × Collector :=
  let (n, c) := state.2.addAll context known (p.matchesIn text)
  (state.1 + n, c)

/-- Records all matches of patterns in a text and counts them, known or not. -/
def addMatches (c : Collector) (text context : Text) (known : Members Value)
    (patterns : List Pattern) : Nat × Collector :=
  patterns.foldl (addPattern text context known) (0, c)

end Collector

/-! ## Faults -/

/-- What stops a scan of one input. A plugin names and words its own faults. -/
inductive Fault where
  | unencodable (first last code : Nat)
  | integerTooLong
  | raised (kind message : String)
  deriving Repr, DecidableEq

namespace Fault

/-- The name of the kind of fault. -/
def kindName : Fault → String
  | .unencodable .. => "UnicodeEncodeError"
  | .integerTooLong => "ValueError"
  | .raised kind _ => kind

/-- The wording of a fault. -/
def message : Fault → String
  | .unencodable first last code =>
    if first == last then
      "'utf-8' codec can't encode character '\\u" ++ String.ofList (Text.hexDigits 4 code) ++
        "' in position " ++ toString first ++ ": surrogates not allowed"
    else
      "'utf-8' codec can't encode characters in position " ++ toString first ++ "-" ++
        toString last ++ ": surrogates not allowed"
  | .integerTooLong => Number.limitSummary ++ "; " ++ Number.limitAdvice
  | .raised _ message => message

/-- A fault as one line: its kind and its wording. -/
def line (f : Fault) : String := f.kindName ++ ": " ++ f.message

end Fault

/-- A scan that records operations and may be stopped; what has been recorded stays. -/
abbrev Collecting (α : Type) := ExceptT Fault (StateM Collector) α

/-- A scan that is never stopped. -/
def Collecting.ofFun {α : Type} (f : Collector → α × Collector) : Collecting α :=
  ExceptT.lift (fun c => f c)

/-- What a scan leaves behind. -/
def Collecting.outcome {α : Type} (scan : Collecting α) (c : Collector) :
    Except Fault α × Collector :=
  scan.run c

/-! ## Request bodies -/

/-- The position in the signature of the character at an index of a text, which is not white
space. -/
def signatureIndex (t : Text) (index : Nat) : Nat := (normalize (t.take (index + 1))).length - 1

/-- The fault of making a name for a match that has none and holds lone halves. -/
def namingFault? (m : PatternMatch) (halves : List LoneHalf) : Option Fault :=
  match halves.filter fun h => m.start ≤ h.index && h.index < m.stop with
  | [] => none
  | h :: rest =>
    if (Head.describe m.text).name.isSome then none
    else
      let first := signatureIndex m.text (h.index - m.start)
      let last := rest.foldl
        (fun last g =>
          let i := signatureIndex m.text (g.index - m.start)
          if i == last + 1 then i else last)
        first
      some (.unencodable first last h.code)

/-- Records the matches of a text in order, up to one for which no name can be made. -/
def addDamaged (context : Text) (known : Members Value) (halves : List LoneHalf) :
    List PatternMatch → Collecting Unit
  | [] => pure ()
  | m :: rest =>
    match namingFault? m halves with
    | some fault => throw fault
    | none => do
      let _ ← Collecting.ofFun fun c => c.add m.text context known
      addDamaged context known halves rest

/-- Records the operations of a request and counts them. -/
def addRequest (context : Text) (known : Members Value) (r : Request) : Collecting Nat :=
  let known := known.merge r.bindings
  if r.halves.isEmpty then
    Collecting.ofFun fun c => c.addMatches r.text context known [.standard]
  else do
    let found := Pattern.standard.matchesIn r.text
    addDamaged context known r.halves found
    return found.length

/-- Records the operations of requests and counts them. -/
def addRequests (context : Text) (known : Members Value) : List Request → Collecting Nat
  | [] => pure 0
  | r :: rest => do
    let n ← addRequest context known r
    let m ← addRequests context known rest
    return n + m

/-- Records the operations of a request body or literal and counts them. A JSON body is decoded,
and its variables decide about names of both; any other text is searched as it stands. -/
def addPayload [Json.Nesting] (text context : Text) (known : Members Value) : Collecting Nat :=
  let plain : Collecting Nat :=
    Collecting.ofFun fun c => c.addMatches text context known [.standard]
  if looksLikeJson text then
    match decodePayload text with
    | .ok requests => addRequests context known requests
    | .error _ => plain
  else plain

end OperationScan
