import OperationScan.Script.Tree.Site
import OperationScan.Script.Escape
import OperationScan.Text.Utf8
import OperationScan.Value

/-!
# What literals and calls say

* `stringValue`, `templateText`: the text that a string or a template stands for; the holes of a
  template are left out.
* `calleeName?`: the last name of the target of a call.
* `taggedText?`: the text of a template that is tagged as an operation.
* `objectMembers`: the members of an object whose names are known.
* `numberValue?`: the value of a number.
-/

namespace OperationScan.Script

/-- A text without the equal quotes at its ends. -/
def unquoted (t : Text) : Text :=
  match t with
  | q :: rest =>
    if (q == '"' || q == '\'') && rest.getLast? == some q then rest.dropLast else t
  | [] => []

/-- The text that a string stands for. -/
def stringValue (n : Node) : Text := cook (unquoted n.text)

/-- The offset in a template of a character of the script, in bytes from the start of the
template. -/
def byteOffset (template : Node) (offset : Nat) : Nat :=
  Text.Utf8.size (template.text.take (offset - template.start))

/-- The bytes of a template outside its holes, from an offset up to another. Offsets count bytes
from the start of the template. -/
def staticBytesFrom (template : Node) (source : List UInt8) (cursor last : Nat) :
    List Node → List UInt8
  | [] => source.extract cursor last
  | n :: rest =>
    if n.kind == .substitution then
      source.extract cursor (byteOffset template n.start) ++
        staticBytesFrom template source (byteOffset template n.stop) last rest
    else staticBytesFrom template source cursor last rest

/-- The bytes of a template between its marks, without its holes. -/
def staticBytes (n : Node) : List UInt8 :=
  let source := Text.Utf8.encode n.text
  let last := if source.getLast? == some 0x60 then source.length - 1 else source.length
  staticBytesFrom n source 1 last n.children

/-- The text that a template stands for, without its holes. -/
def templateText (n : Node) : Text := cook (Text.Utf8.decode (staticBytes n))

/-- The last name of the target of a call. -/
def calleeName? (call : Site) : Option Text :=
  match (call.child? .callee).bind Site.unwrap? with
  | none => none
  | some target =>
    match target.kind with
    | .identifier => some target.text
    | .member => (target.child? .property).map Site.text
    | _ => none

/-- The tags of operation templates. -/
def operationTags : List Text := ["gql", "graphql", "apollo"].map (·.toList)

/-- The text of a template that is tagged as an operation. -/
def taggedText? (s : Site) : Option Text :=
  match s.unwrap? with
  | none => none
  | some call =>
    if call.kind == .call then
      match call.child? .arguments with
      | some template =>
        if template.kind == .template && (calleeName? call).any operationTags.contains then
          some (templateText template.node)
        else none
      | none => none
    else none

/-- The name of a member, if it is known. -/
def memberName? (key : Node) : Option Text :=
  match key.kind with
  | .propertyName | .identifier | .number => some key.text
  | .string => some (stringValue key)
  | _ => none

/-- The name and the value of one member, if both are known. -/
def memberOf? (s : Site) : Option (Text × Site) :=
  match s.kind with
  | .pair =>
    match (s.node.child? .key).bind memberName?, s.child? .value with
    | some name, some value => some (name, value)
    | _, _ => none
  | .shorthand => some (s.text, s)
  | _ => none

/-- The members of an object whose names are known; the first of a name counts. A shorthand
member has itself as value. -/
def objectMembers (s : Site) : Members Site :=
  (s.children.filterMap memberOf?).foldl (fun ms m => ms.putNew m.1 m.2) []

/-- The value of a number. Separators do not count. -/
def numberValue? (t : Text) : Option Value :=
  let digits := t.filter (· != '_')
  match Number.readInteger? digits with
  | some n => some (.int n)
  | none => (Number.readDecimal? digits).map .float

end OperationScan.Script
