import OperationScan.Script.Grammar.Elements
import OperationScan.Script.Grammar.Statements

/-!
# Reading scripts

* `Parser`: what reads scripts, and `SyntaxFault`, why a text cannot be read.
* `tree?`: the syntax tree that a parser gives.
* `Goal.reader`: the reader of a goal, with a bound on how deep goals nest.
* `parse?`: the syntax tree of a text in a language, with its comments; `none` if the text is not
  in the language. It is one parser among others, and does not say where a fault is.
-/

namespace OperationScan.Script

/-! ## Parsers -/

/-- A text is not in its language. The place, if it is known, is that of the first part of the text
that fits nowhere or is missing: its line and its column, both counted from zero. -/
structure SyntaxFault where
  place : Option (Nat × Nat)
  deriving Repr, DecidableEq

/-- The wording of a fault. -/
def SyntaxFault.message (f : SyntaxFault) : String :=
  match f.place with
  | some (line, column) =>
    "syntax error at line " ++ toString (line + 1) ++ ", column " ++ toString (column + 1)
  | none => "syntax error"

/-- What reads scripts. -/
class Parser where
  parse : Language → Text → Except SyntaxFault Node

/-- The syntax tree of a text, if it is in its language. -/
def tree? [Parser] (language : Language) (t : Text) : Option Node :=
  (Parser.parse language t).toOption

/-! ## The reader of each goal -/

/-- The reader of a goal in a grammar. -/
def Goal.readerIn (g : Grammar) : Goal → Reader Node
  | .statement => g.statement
  | .expression limits => g.sequence limits
  | .assignment limits => g.assignmentExpression limits
  | .binary least limits => g.binaryExpression least limits
  | .unary limits => g.unaryExpression limits
  | .constructed => g.constructed
  | .pattern => g.pattern
  | .type => g.type
  | .resultType => g.resultType
  | .element => g.markup

/-- The reader of a goal in a language, for goals that nest at most `depth` deep. -/
def Goal.reader (language : Language) : (depth : Nat) → Goal → Reader Node
  | 0, _ => Reader.fail
  | depth + 1, goal => goal.readerIn ⟨language, Goal.reader language depth⟩

/-- Reads statements up to the end. -/
def program (statement : Reader Node) : Reader Node := do
  let start ← Reader.here
  let body ← Reader.many do
    if ← Reader.atEnd then return none else return some (← statement)
  Reader.close .program start body

/-- An object holds a member that only the target of an assignment may hold. -/
def holdsStrayDefault (n : Node) : Bool :=
  n.kind == .object && n.children.any fun c => c.kind == .shorthandDefault

/-- The deepest nesting of goals in a text of a given length. -/
def nestingBound (length : Nat) : Nat := 16 * (length + 4)

/-- The syntax tree of a text. -/
def parse? (language : Language) (t : Text) : Option Node :=
  match program (Goal.reader language (nestingBound t.length) .statement) (.initial t) with
  | some (root, s) =>
    if root.anyNode holdsStrayDefault then none
    else some (root.withComments s.comments.reverse)
  | none => none

/-- The parser that does not say where a fault is. -/
instance : Parser where
  parse language t :=
    match parse? language t with
    | some root => .ok root
    | none => .error ⟨none⟩

theorem tree?_eq_parse? (language : Language) (t : Text) :
    tree? language t = parse? language t := by
  rw [tree?]
  dsimp only [Parser.parse]
  cases parse? language t <;> rfl

end OperationScan.Script
