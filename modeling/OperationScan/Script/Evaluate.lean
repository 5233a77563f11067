import OperationScan.Script.Literal
import OperationScan.Script.Scope
import OperationScan.Collector
import OperationScan.Json.Writer

/-!
# Values known without running a script

* `resolve?`: the expression that a reference stands for in the end.
* `staticText`: the text of an expression: literals, their concatenations, tagged templates,
  objects turned into JSON text, and references to any of these.
* `staticValue`: the value of an expression; members and items without a known value are left
  out.

Chains of references and nested expressions are followed at most `maxDepth` steps.
-/

namespace OperationScan.Script

/-- The most steps that are followed. -/
def maxDepth : Nat := 8

/-- Follows references, at most `steps` of them. -/
def resolveFrom (x : ScopeIndex) : (steps : Nat) → Option Site → Option Site
  | _, none => none
  | 0, some s => if s.kind.isReference then none else some s
  | steps + 1, some s =>
    if s.kind.isReference then resolveFrom x steps ((x.lookup? s).bind Site.unwrap?) else some s

/-- The expression that a reference stands for in the end; other expressions stand for
themselves. -/
def resolve? (x : ScopeIndex) (s : Site) : Option Site := resolveFrom x maxDepth s.unwrap?

/-- The result of an evaluation that may be stopped. -/
abbrev Evaluation := Except Fault

/-- The two evaluators with a number of steps left. -/
structure Evaluators where
  text : Site → Evaluation (Option Text)
  value : Site → Evaluation (Option Value)

namespace Evaluators

/-- No steps are left. -/
def exhausted : Evaluators := ⟨fun _ => .ok none, fun _ => .ok none⟩

/-- The text of an optional site. -/
def textOf (e : Evaluators) : Option Site → Evaluation (Option Text)
  | some s => e.text s
  | none => .ok none

/-- The value of an optional site. -/
def valueOf (e : Evaluators) : Option Site → Evaluation (Option Value)
  | some s => e.value s
  | none => .ok none

end Evaluators

/-- Two optional texts one after the other; one alone stands for both. -/
def concatenated : Option Text → Option Text → Option Text
  | none, none => none
  | a, b => some (a.getD [] ++ b.getD [])

/-- The call turns its first argument into JSON text. -/
def isStringify (call : Site) : Bool :=
  match (call.child? .callee).bind Site.unwrap? with
  | some target => target.kind == .member && target.text == "JSON.stringify".toList
  | none => false

/-- The JSON text that a call makes of its first argument. -/
def stringifyWith (lower : Evaluators) (call : Site) : Evaluation (Option Text) :=
  if isStringify call then
    match call.child? .arguments with
    | some arguments =>
      if arguments.kind == .arguments then
        match arguments.parts with
        | first :: _ => do
          match ← lower.value first with
          | none => return none
          | some v =>
            match Json.write v with
            | .ok t => return some t
            | .error .tooManyDigits => throw .integerTooLong
        | [] => return none
      else return none
    | none => return none
  else return none

/-- The text of an expression, given the evaluators with one step less. -/
def textWith (x : ScopeIndex) (lower : Evaluators) (s : Site) : Evaluation (Option Text) :=
  match s.unwrap? with
  | none => .ok none
  | some s =>
    match s.kind with
    | .string => .ok (some (stringValue s.node))
    | .template => .ok (some (templateText s.node))
    | .identifier | .shorthand => lower.textOf (x.lookup? s)
    | .binary operator =>
      if operator == ['+'] then do
        let left ← lower.textOf (s.child? .left)
        let right ← lower.textOf (s.child? .right)
        return concatenated left right
      else .ok none
    | .call =>
      match taggedText? s with
      | some t => .ok (some t)
      | none => stringifyWith lower s
    | _ => .ok none

/-- The values of members that have one. -/
def valuesOf (lower : Evaluators) : List (Text × Site) → Evaluation (List (Text × Value))
  | [] => .ok []
  | (name, s) :: rest => do
    let v ← lower.value s
    let more ← valuesOf lower rest
    return match v with
      | some v => (name, v) :: more
      | none => more

/-- The values of items that have one. -/
def itemsOf (lower : Evaluators) : List Site → Evaluation (List Value)
  | [] => .ok []
  | s :: rest => do
    let v ← lower.value s
    let more ← itemsOf lower rest
    return match v with
      | some v => v :: more
      | none => more

/-- The value of an expression, given the evaluators with one step less and the text of an
expression. -/
def valueWith (x : ScopeIndex) (lower : Evaluators) (text : Site → Evaluation (Option Text))
    (s : Site) : Evaluation (Option Value) :=
  match s.unwrap? with
  | none => .ok none
  | some s =>
    match s.kind with
    | .object => do return some (.object (← valuesOf lower (objectMembers s)))
    | .array => do return some (.array (← itemsOf lower s.children))
    | .number => .ok (numberValue? s.text)
    | .trueWord => .ok (some (.bool true))
    | .falseWord => .ok (some (.bool false))
    | .nullWord => .ok (some .null)
    | .identifier | .shorthand => lower.valueOf (x.lookup? s)
    | _ => do return (← text s).map .string

/-- The evaluators with a number of steps. -/
def evaluators (x : ScopeIndex) : Nat → Evaluators
  | 0 => .exhausted
  | steps + 1 =>
    let lower := evaluators x steps
    ⟨textWith x lower, valueWith x lower (textWith x lower)⟩

/-- The text of an expression. -/
def staticText (x : ScopeIndex) (s : Site) : Evaluation (Option Text) :=
  (evaluators x (maxDepth + 1)).text s

/-- The value of an expression. -/
def staticValue (x : ScopeIndex) (s : Site) : Evaluation (Option Value) :=
  (evaluators x (maxDepth + 1)).value s

end OperationScan.Script
