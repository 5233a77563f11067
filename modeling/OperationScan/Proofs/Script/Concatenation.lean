import Mathlib.Data.List.Flatten
import OperationScan.Script.Evaluate
import OperationScan.Script.Parse
import OperationScan.Proofs.Script.Escape
import OperationScan.Proofs.Script.Templates

/-!
# Concatenations of literals

The steps that bound how far references are followed are spent on the operators of an expression,
too. A literal with more operators above it than there are steps contributes nothing.

* `Concat`: a concatenation of literals, whatever its shape; `Spells` says that an expression is
  one, and `Concat.spells_node` that there are such expressions.
* `text_of_spells`: the text that is found with some number of steps.
* `staticText_eq_text_iff`: when that is the text of all literals.
-/

namespace OperationScan.Script

/-! ## Concatenations -/

/-- Literals, given by what they stand for, and the operators between them. -/
inductive Concat where
  | literal (value : Text)
  | plus (left right : Concat)

namespace Concat

def text : Concat → Text
  | literal value => value
  | plus left right => left.text ++ right.text

/-- The literals from left to right, each with the number of operators above it. -/
def literals (depth : Nat) : Concat → List (Nat × Text)
  | literal value => [(depth, value)]
  | plus left right => left.literals (depth + 1) ++ right.literals (depth + 1)

theorem flatMap_literals (e : Concat) (depth : Nat) :
    (e.literals depth).flatMap (·.2) = e.text := by
  induction e generalizing depth with
  | literal value => simp [literals, text]
  | plus left right ihl ihr => rw [literals, List.flatMap_append, ihl, ihr, text]

theorem le_of_mem_literals {e : Concat} {depth : Nat} {l : Nat × Text}
    (h : l ∈ e.literals depth) : depth ≤ l.1 := by
  induction e generalizing depth with
  | literal value =>
    cases List.mem_singleton.mp h
    exact Nat.le_refl depth
  | plus left right ihl ihr =>
    rcases List.mem_append.mp h with h | h
    · exact Nat.le_of_succ_le (ihl h)
    · exact Nat.le_of_succ_le (ihr h)

end Concat

/-- An expression is a concatenation of strings and of templates without holes, which may stand
between parentheses. -/
inductive Spells : Site → Concat → Prop
  | string {s t : Site} {quote : Char} {inside : Text} (hs : s.unwrap? = some t)
      (hkind : t.kind = .string) (hquote : IsPlainQuote quote)
      (htext : t.text = quote :: (inside ++ [quote])) : Spells s (.literal (cook inside))
  | template {s t : Site} {inside : Text} (hs : s.unwrap? = some t) (hkind : t.kind = .template)
      (htext : t.text = '\x60' :: (inside ++ ['\x60']))
      (hlength : t.node.excerpt.length = t.text.length)
      (hholes : ∀ n ∈ t.node.children, n.kind ≠ .substitution) : Spells s (.literal (cook inside))
  | plus {s t left right : Site} {a b : Concat} (hs : s.unwrap? = some t)
      (hkind : t.kind = .binary ['+']) (hleft : t.child? .left = some left)
      (hright : t.child? .right = some right) (ha : Spells left a) (hb : Spells right b) :
      Spells s (.plus a b)

/-! ## Every shape is spelled -/

theorem child?_of_roles {s : Site} {a b : Node} (h : s.node.children = [a, b])
    (ha : a.role = .left) (hb : b.role = .right) :
    s.child? .left = some (s.below a) ∧ s.child? .right = some (s.below b) := by
  simp [Site.child?, Node.child?, h, ha, hb]

namespace Concat

/-- An expression that is a concatenation, with parentheses around every operator. -/
def node (role : Role) : Concat → Node
  | literal value => .mk .string 0 role 0 (.ofText ('"' :: (escapeFor '"' value ++ ['"']))) []
  | plus left right =>
    let inner := (left.node .left).text ++ (" + ".toList ++ (right.node .right).text)
    .mk .parenthesized 0 role 0 (.ofText ('(' :: (inner ++ [')'])))
      [.mk (.binary ['+']) 0 .plain 1 (.ofText inner) [left.node .left, right.node .right]]

theorem role_node (e : Concat) (role : Role) : (e.node role).role = role := by
  cases e <;> rfl

/-- Whatever its shape, a concatenation is spelled by some expression. -/
theorem spells_node (e : Concat) (role : Role) (above : List Node) :
    Spells ⟨e.node role, above⟩ e := by
  induction e generalizing role above with
  | literal value =>
    have hcook : cook (escapeFor '"' value) = value := cook_escapeFor (.inl rfl) value
    have hspells : Spells ⟨(literal value).node role, above⟩
        (.literal (cook (escapeFor '"' value))) :=
      .string rfl rfl (.inl rfl) List.take_length
    rwa [hcook] at hspells
  | plus left right ihl ihr =>
    obtain ⟨t, ht, hkind, hchildren⟩ : ∃ t, Site.unwrap? ⟨(plus left right).node role, above⟩ =
        some t ∧ t.kind = .binary ['+'] ∧
          t.node.children = [left.node .left, right.node .right] := ⟨_, rfl, rfl, rfl⟩
    obtain ⟨hleft, hright⟩ := child?_of_roles hchildren (role_node left _) (role_node right _)
    exact .plus ht hkind hleft hright (ihl .left _) (ihr .right _)

/-- Values one after the other, added up from the left. -/
def chain (first : Text) (more : List Text) : Concat :=
  more.foldl (fun e value => .plus e (.literal value)) (.literal first)

end Concat

/-! ## Literals -/

variable {x : ScopeIndex} {s t left right : Site} {steps depth : Nat} {inside : Text} {n : Node}

theorem stringValue_eq {quote : Char} (hquote : IsPlainQuote quote)
    (h : n.text = quote :: (inside ++ [quote])) : stringValue n = cook inside := by
  have hplain : (quote == '"' || quote == '\'') = true := by
    rcases hquote with rfl | rfl
    · rfl
    · rfl
  rw [stringValue, h, unquoted]
  simp [hplain]

/-- A template without holes stands for what is between its marks. -/
theorem templateText_eq (h : n.text = '\x60' :: (inside ++ ['\x60']))
    (hholes : ∀ c ∈ n.children, c.kind ≠ .substitution) : templateText n = cook inside := by
  have hnone : holeRanges n.children = [] := by
    rw [holeRanges, List.filter_eq_nil_iff.mpr (by simpa using hholes)]
    rfl
  have htemplate : IsTemplateOf n inside [] := ⟨by rw [h, Hole.written]; simp, hnone⟩
  rw [templateText, staticBytes_eq htemplate, Text.Utf8.decode_encode, Hole.static,
    List.flatMap_nil, List.append_nil]

/-! ## Evaluation -/

/-- What literals contribute; `none` if there are none. -/
def joined : List (Nat × Text) → Option Text
  | [] => none
  | l :: more => some ((l :: more).flatMap (·.2))

theorem concatenated_joined (ls ms : List (Nat × Text)) :
    concatenated (joined ls) (joined ms) = joined (ls ++ ms) := by
  cases ls with
  | nil => cases ms <;> rfl
  | cons l ls =>
    cases ms with
    | nil => simp [joined, concatenated]
    | cons m ms => simp [joined, concatenated]

theorem text_of_string (hs : s.unwrap? = some t) (hkind : t.kind = .string) :
    (evaluators x (steps + 1)).text s = .ok (some (stringValue t.node)) := by
  simp [evaluators, textWith, hs, hkind]

theorem text_of_template (hs : s.unwrap? = some t) (hkind : t.kind = .template) :
    (evaluators x (steps + 1)).text s = .ok (some (templateText t.node)) := by
  simp [evaluators, textWith, hs, hkind]

theorem text_of_plus {a b : Option Text} (hs : s.unwrap? = some t)
    (hkind : t.kind = .binary ['+']) (hleft : t.child? .left = some left)
    (hright : t.child? .right = some right) (ha : (evaluators x steps).text left = .ok a)
    (hb : (evaluators x steps).text right = .ok b) :
    (evaluators x (steps + 1)).text s = .ok (concatenated a b) := by
  simp only [evaluators, textWith, hs, hkind, hleft, hright, Evaluators.textOf, ha, hb]
  rfl

/-- With some number of steps the literals count that have fewer operators above them. -/
theorem text_of_spells {e : Concat} (h : Spells s e) (steps depth : Nat) :
    (evaluators x steps).text s =
      .ok (joined ((e.literals depth).filter fun l => l.1 < depth + steps)) := by
  induction h generalizing steps depth with
  | string hs hkind hquote htext =>
    cases steps with
    | zero => simp [Concat.literals, joined, evaluators, Evaluators.exhausted]
    | succ steps =>
      rw [text_of_string hs hkind, stringValue_eq hquote htext]
      simp [Concat.literals, joined]
  | template hs hkind htext _ hholes =>
    cases steps with
    | zero => simp [Concat.literals, joined, evaluators, Evaluators.exhausted]
    | succ steps =>
      rw [text_of_template hs hkind, templateText_eq htext hholes]
      simp [Concat.literals, joined]
  | @plus _ _ _ _ a b hs hkind hleft hright ha hb iha ihb =>
    cases steps with
    | zero =>
      have hnone : (((Concat.plus a b).literals depth).filter fun l => l.1 < depth + 0) = [] := by
        rw [List.filter_eq_nil_iff]
        intro l hl
        have hdepth := Concat.le_of_mem_literals hl
        simp
        omega
      rw [hnone]
      rfl
    | succ steps =>
      have hsteps : depth + (steps + 1) = depth + 1 + steps := by omega
      rw [text_of_plus hs hkind hleft hright (iha steps (depth + 1)) (ihb steps (depth + 1)),
        concatenated_joined, Concat.literals, List.filter_append, hsteps]

/-- What is left without some of the parts is the whole exactly if those are empty. -/
theorem flatMap_filter_eq_iff {p : Nat × Text → Bool} {ls : List (Nat × Text)} :
    (ls.filter p).flatMap (·.2) = ls.flatMap (·.2) ↔ ∀ l ∈ ls, p l = false → l.2 = [] := by
  induction ls with
  | nil => simp
  | cons l ls ih =>
    rw [List.flatMap_cons, List.forall_mem_cons, ← ih]
    cases hp : p l with
    | true =>
      rw [List.filter_cons_of_pos hp, List.flatMap_cons, List.append_right_inj]
      simp
    | false =>
      rw [List.filter_cons_of_neg (by simp [hp])]
      constructor
      · intro h
        have hle := (List.filter_sublist (p := p) (l := ls)).flatMap (·.2) |>.length_le
        rw [h, List.length_append] at hle
        have hnil : l.2 = [] := List.eq_nil_of_length_eq_zero (by omega)
        rw [hnil] at h
        exact ⟨fun _ => hnil, h⟩
      · rintro ⟨hnil, h⟩
        rw [hnil rfl, List.nil_append, h]

theorem joined_eq_some_iff {ls : List (Nat × Text)} {u : Text} :
    joined ls = some u ↔ ls ≠ [] ∧ ls.flatMap (·.2) = u := by
  cases ls with
  | nil => simp [joined]
  | cons l ls => simp [joined]

/-- A concatenation is evaluated in full exactly if some literal is near enough to the root and
all those that are not are empty. -/
theorem staticText_eq_text_iff {e : Concat} (h : Spells s e) :
    staticText x s = .ok (some e.text) ↔ (∃ l ∈ e.literals 0, l.1 ≤ maxDepth) ∧
      ∀ l ∈ e.literals 0, maxDepth < l.1 → l.2 = [] := by
  have hnear : (fun l : Nat × Text => decide (l.1 < 0 + (maxDepth + 1))) =
      fun l => decide (l.1 ≤ maxDepth) := by
    funext l
    rw [Nat.zero_add, decide_eq_decide, Nat.lt_add_one_iff]
  rw [staticText, text_of_spells h (maxDepth + 1) 0, hnear, Except.ok.injEq, joined_eq_some_iff,
    ← e.flatMap_literals 0, flatMap_filter_eq_iff, Ne, List.filter_eq_nil_iff]
  simp

/-- A head and a body on four lines. -/
def fourLines : Concat :=
  .chain "query Q".toList ["($id: ID) \x7b".toList, " a(id: $id)".toList, " \x7d".toList]

theorem staticText_eq_text_iff_fourLines :
    Spells ⟨fourLines.node .value, []⟩ fourLines ∧
    staticText .empty ⟨fourLines.node .value, []⟩ =
      .ok (some "query Q($id: ID) \x7b a(id: $id) \x7d".toList) := by
  have hspells := fourLines.spells_node .value []
  have htext : "query Q($id: ID) \x7b a(id: $id) \x7d".toList = fourLines.text := by
    decide +kernel
  refine ⟨hspells, ?_⟩
  rw [htext]
  refine (staticText_eq_text_iff hspells).mpr ⟨?_, ?_⟩
  · exact ⟨(1, " \x7d".toList), by decide, by decide⟩
  · decide

/-- Ten letters. -/
def tenLetters : Concat := .chain ['a'] ("bcdefghij".toList.map ([·]))

/-- Of ten literals in a row the first two are lost. -/
theorem not_staticText_eq_text_tenLetters :
    Spells ⟨tenLetters.node .value, []⟩ tenLetters ∧ tenLetters.text = "abcdefghij".toList ∧
    staticText .empty ⟨tenLetters.node .value, []⟩ = .ok (some "cdefghij".toList) := by
  have hspells := tenLetters.spells_node .value []
  refine ⟨hspells, by decide, ?_⟩
  rw [staticText, text_of_spells hspells _ 0]
  decide

/-- The outermost sum in a script. -/
def sum? (t : Text) : Option Site :=
  (parse? .javascript t).bind fun root =>
    (Site.walk root).find? fun s => s.kind == .binary ['+']

-- read from a script, without parentheses and with templates among the strings
example : (sum? ("'a' + \x60b\x60 + 'c' + 'd' + \x60e\x60 + 'f' + 'g' + 'h' + 'i' + " ++
    "'j'").toList).map (fun s => (staticText .empty s).toOption) =
      some (some (some "cdefghij".toList)) := by
  decide +kernel

end OperationScan.Script
