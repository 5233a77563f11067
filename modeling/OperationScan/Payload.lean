import OperationScan.Json.Reader
import OperationScan.Text.Blank

/-!
# Request bodies

A JSON request body carries an operation under `query` or `mutation` and values under
`variables`; a list of such bodies is a batch.

* `decodePayload`: the requests of a body, in order.
* `looksLikeJson`: a text begins like a body.
-/

namespace OperationScan

/-- Operation text with the values sent along. Where the text holds half of a surrogate pair, a
replacement character stands in `text`, and `halves` tells what it replaces. -/
structure Request where
  text : Text
  halves : List LoneHalf
  bindings : Members Value

/-- Why a text has no requests. -/
inductive PayloadFault where
  | notJson (fault : Json.ReadFault)
  | noOperation
  deriving Repr, DecidableEq

/-- The wording of a fault in a text. -/
def PayloadFault.message (t : Text) : PayloadFault → String
  | .notJson fault => fault.message t
  | .noOperation => "JSON body has no query or mutation member"

/-- The members that hold operation text. -/
def operationKeys : List Text := ["query".toList, "mutation".toList]

/-- A string with its lone halves; other values have none. -/
def Value.string? : Value → Option (Text × List LoneHalf)
  | .string t => some (t, [])
  | .damaged t halves => some (t, halves)
  | _ => none

/-- The request that an entry of a body holds. -/
def Request.ofEntry? : Value → Option Request
  | .object ms =>
    match operationKeys.findSome? fun key => (Members.get? ms key).bind Value.string? with
    | some (t, halves) =>
      some ⟨t, halves, ((Members.get? ms "variables".toList).getD .null).membersOrNone⟩
    | none => none
  | _ => none

/-- The entries of a body. -/
def Value.entries : Value → List Value
  | .array items => items
  | v => [v]

/-- The requests of a body. -/
def decodePayload [Json.Nesting] (t : Text) : Except PayloadFault (List Request) :=
  match Json.read t with
  | .error fault => .error (.notJson fault)
  | .ok v =>
    match v.entries.filterMap Request.ofEntry? with
    | [] => .error .noOperation
    | requests => .ok requests

/-- The first character that is not white space opens an object or an array. -/
def looksLikeJson (t : Text) : Bool :=
  match Text.trimStart t with
  | c :: _ => c == '\x7b' || c == '['
  | [] => false

end OperationScan
