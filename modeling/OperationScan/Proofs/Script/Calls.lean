import Mathlib.Logic.Relation
import OperationScan.Script.Evaluate

/-!
# Evaluations and those that they ask for

To evaluate an expression, others are evaluated first. How deep they are is counted from the outside
on, as the number of look-ups is; the two evaluators hand the count on to each other, in one place
without raising it.

* `Call`, `Asks`: an evaluation that has been begun, and one that it asks for.
* `wellFounded_asks`: evaluations ask for others only finitely often in a row, whatever the names of
  a script stand for.
* `answer`, `respond`: the results of all evaluations, and the result of one, given those that it
  asks for.
* `eq_answer_iff`: the results are the only ones that follow from each other in this way.
-/

namespace OperationScan.Script

/-! ## Calls -/

/-- Expressions whose value is their text, if they have one. -/
def Kind.isTextual : Kind → Bool
  | object | array | number | trueWord | falseWord | nullWord | identifier | shorthand => false
  | _ => true

/-- The expression that a call turns into JSON text. -/
def jsonArgument? (call : Site) : Option Site :=
  if isStringify call then
    (call.child? .arguments).bind fun a => if a.kind == .arguments then a.parts.head? else none
  else none

/-- The JSON text of an optional value. -/
def jsonText : Option Value → Evaluation (Option Text)
  | none => .ok none
  | some v =>
    match Json.write v with
    | .ok t => .ok (some t)
    | .error .tooManyDigits => .error .integerTooLong

/-- An evaluation that has been begun: a reference is followed after some look-ups, or the text, the
JSON text or the value of an expression is asked for at some depth. -/
inductive Call where
  | resolve (lookups : Nat) (s : Site)
  | text (depth : Nat) (s : Site)
  | stringify (depth : Nat) (s : Site)
  | value (depth : Nat) (s : Site)

/-- What an evaluation results in. -/
abbrev Call.Answer : Call → Type
  | resolve _ _ => Option Site
  | text _ _ | stringify _ _ => Evaluation (Option Text)
  | value _ _ => Evaluation (Option Value)

/-- An evaluation asks for another one. -/
inductive Asks (x : ScopeIndex) : Call → Call → Prop
  | follow {k : Nat} {s b t : Site} (hs : s.kind.isReference = true) (hk : k < maxDepth)
      (hb : x.lookup? s = some b) (ht : b.unwrap? = some t) :
      Asks x (.resolve k s) (.resolve (k + 1) t)
  | textBound {d : Nat} {s t b : Site} (hd : d ≤ maxDepth) (hs : s.unwrap? = some t)
      (ht : t.kind.isReference = true) (hb : x.lookup? t = some b) :
      Asks x (.text d s) (.text (d + 1) b)
  | operand {d : Nat} {s t o : Site} {role : Role} (hd : d ≤ maxDepth) (hs : s.unwrap? = some t)
      (ht : t.kind = .binary ['+']) (hrole : role = .left ∨ role = .right)
      (ho : t.child? role = some o) : Asks x (.text d s) (.text (d + 1) o)
  | json {d : Nat} {s t : Site} (hd : d ≤ maxDepth) (hs : s.unwrap? = some t)
      (ht : t.kind = .call) (htag : taggedText? t = none) : Asks x (.text d s) (.stringify d t)
  | argument {d : Nat} {s a : Site} (ha : jsonArgument? s = some a) :
      Asks x (.stringify d s) (.value (d + 1) a)
  | valueBound {d : Nat} {s t b : Site} (hd : d ≤ maxDepth) (hs : s.unwrap? = some t)
      (ht : t.kind.isReference = true) (hb : x.lookup? t = some b) :
      Asks x (.value d s) (.value (d + 1) b)
  | member {d : Nat} {s t : Site} {m : Text × Site} (hd : d ≤ maxDepth) (hs : s.unwrap? = some t)
      (ht : t.kind = .object) (hm : m ∈ objectMembers t) :
      Asks x (.value d s) (.value (d + 1) m.2)
  | item {d : Nat} {s t c : Site} (hd : d ≤ maxDepth) (hs : s.unwrap? = some t)
      (ht : t.kind = .array) (hc : c ∈ t.children) : Asks x (.value d s) (.value (d + 1) c)
  | textual {d : Nat} {s t : Site} (hd : d ≤ maxDepth) (hs : s.unwrap? = some t)
      (ht : t.kind.isTextual = true) : Asks x (.value d s) (.text d t)

/-! ## Evaluations end -/

/-- How far an evaluation is from its end. At the same depth a value comes before a text, and a
text before a JSON text. -/
def Call.rank : Call → Nat
  | resolve k _ => maxDepth - k
  | text d _ => 3 * (maxDepth + 1 - d) - 1
  | stringify d _ => 3 * (maxDepth - d) + 1
  | value d _ => 3 * (maxDepth + 1 - d)

theorem Asks.rank_lt {x : ScopeIndex} {c c' : Call} (h : Asks x c c') : c'.rank < c.rank := by
  cases h <;> simp only [Call.rank] <;> omega

/-- Whatever names stand for, even for each other, an evaluation asks for others only finitely often
in a row. -/
theorem wellFounded_asks (x : ScopeIndex) : WellFounded fun c' c => Asks x c c' :=
  Subrelation.wf Asks.rank_lt (InvImage.wf Call.rank Nat.lt_wfRel.wf)

/-! ## What evaluations result in -/

variable {x : ScopeIndex} {s t : Site}

section Equations

variable {lower : Evaluators} {text : Site → Evaluation (Option Text)}

theorem textWith_of_reference (hs : s.unwrap? = some t) (ht : t.kind.isReference = true) :
    textWith x lower s = lower.textOf (x.lookup? t) := by
  rw [textWith, hs]
  dsimp only
  split <;> simp_all [Kind.isReference]

theorem textWith_of_sum (hs : s.unwrap? = some t) (ht : t.kind = .binary ['+']) :
    textWith x lower s = (do
      let left ← lower.textOf (t.child? .left)
      let right ← lower.textOf (t.child? .right)
      return concatenated left right) := by
  simp only [textWith, hs, ht]
  rfl

theorem textWith_of_untagged (hs : s.unwrap? = some t) (ht : t.kind = .call)
    (htag : taggedText? t = none) : textWith x lower s = stringifyWith lower t := by
  simp only [textWith, hs, ht, htag]

theorem stringifyWith_of_none (h : jsonArgument? s = none) : stringifyWith lower s = .ok none := by
  rw [jsonArgument?] at h
  rw [stringifyWith]
  split
  · rename_i hs
    rw [if_pos hs] at h
    cases ha : s.child? .arguments with
    | none => rfl
    | some a =>
      rw [ha, Option.bind_some] at h
      dsimp only
      split
      · rename_i hkind
        rw [if_pos hkind] at h
        rw [List.head?_eq_none_iff.mp h]
        rfl
      · rfl
  · rfl

theorem stringifyWith_of_some {a : Site} (h : jsonArgument? s = some a) :
    stringifyWith lower s = lower.value a >>= jsonText := by
  rw [jsonArgument?] at h
  split at h
  · rename_i hs
    obtain ⟨as, has, h⟩ := Option.bind_eq_some_iff.mp h
    split at h
    · rename_i hkind
      obtain ⟨more, hparts⟩ := List.head?_eq_some_iff.mp h
      rw [stringifyWith, if_pos hs, has]
      dsimp only
      rw [if_pos hkind, hparts]
      rfl
    · cases h
  · cases h

/-- A text that needs no other evaluation is found whatever the evaluators are. -/
theorem textWith_cases (x : ScopeIndex) (hs : s.unwrap? = some t) :
    (t.kind = .call ∧ taggedText? t = none) ∨ t.kind.isReference = true ∨
      t.kind = .binary ['+'] ∨ ∃ v, ∀ lower, textWith x lower s = .ok v := by
  simp only [textWith, hs]
  split
  · exact .inr (.inr (.inr ⟨_, fun _ => rfl⟩))
  · exact .inr (.inr (.inr ⟨_, fun _ => rfl⟩))
  · rename_i hk
    exact .inr (.inl (by rw [hk]; rfl))
  · rename_i hk
    exact .inr (.inl (by rw [hk]; rfl))
  · rename_i operator hk
    by_cases hplus : operator = ['+']
    · exact .inr (.inr (.inl (by rw [hk, hplus])))
    · have hother : (operator == ['+']) = false := by simpa using hplus
      rw [hother]
      exact .inr (.inr (.inr ⟨none, fun _ => rfl⟩))
  · rename_i hk
    cases htag : taggedText? t with
    | none => exact .inl ⟨hk, rfl⟩
    | some u => exact .inr (.inr (.inr ⟨_, fun _ => rfl⟩))
  · exact .inr (.inr (.inr ⟨_, fun _ => rfl⟩))

theorem valueWith_of_reference (hs : s.unwrap? = some t) (ht : t.kind.isReference = true) :
    valueWith x lower text s = lower.valueOf (x.lookup? t) := by
  rw [valueWith, hs]
  dsimp only
  split <;> simp_all [Kind.isReference]

theorem valueWith_of_object (hs : s.unwrap? = some t) (ht : t.kind = .object) :
    valueWith x lower text s = (do return some (.object (← valuesOf lower (objectMembers t)))) := by
  simp only [valueWith, hs, ht]

theorem valueWith_of_array (hs : s.unwrap? = some t) (ht : t.kind = .array) :
    valueWith x lower text s = (do return some (.array (← itemsOf lower t.children))) := by
  simp only [valueWith, hs, ht]

theorem valueWith_of_isTextual (hs : s.unwrap? = some t) (ht : t.kind.isTextual = true) :
    valueWith x lower text s = (do return (← text t).map .string) := by
  rw [valueWith, hs]
  dsimp only
  split <;> simp_all [Kind.isTextual]

theorem valueWith_cases (x : ScopeIndex) (hs : s.unwrap? = some t) :
    t.kind.isReference = true ∨ t.kind = .object ∨ t.kind = .array ∨ t.kind.isTextual = true ∨
      ∃ v, ∀ lower text, valueWith x lower text s = .ok v := by
  simp only [valueWith, hs]
  split
  · rename_i hk
    exact .inr (.inl hk)
  · rename_i hk
    exact .inr (.inr (.inl hk))
  · exact .inr (.inr (.inr (.inr ⟨_, fun _ _ => rfl⟩)))
  · exact .inr (.inr (.inr (.inr ⟨_, fun _ _ => rfl⟩)))
  · exact .inr (.inr (.inr (.inr ⟨_, fun _ _ => rfl⟩)))
  · exact .inr (.inr (.inr (.inr ⟨_, fun _ _ => rfl⟩)))
  · rename_i hk
    exact .inl (by rw [hk]; rfl)
  · rename_i hk
    exact .inl (by rw [hk]; rfl)
  · refine .inr (.inr (.inr (.inl ?_)))
    simp_all [Kind.isTextual]

end Equations

/-- The evaluators that ask for texts and values at one depth. -/
def askers (ask : (c : Call) → c.Answer) (depth : Nat) : Evaluators :=
  ⟨fun s => ask (.text depth s), fun s => ask (.value depth s)⟩

/-- What an evaluation results in, given the results of those that it asks for. -/
def respond (x : ScopeIndex) (ask : (c : Call) → c.Answer) : (c : Call) → c.Answer
  | .resolve k s =>
    if s.kind.isReference then
      if k < maxDepth then ((x.lookup? s).bind Site.unwrap?).bind fun t => ask (.resolve (k + 1) t)
      else none
    else some s
  | .text d s =>
    if d ≤ maxDepth then
      match s.unwrap? with
      | none => .ok none
      | some t =>
        if t.kind = .call ∧ taggedText? t = none then ask (.stringify d t)
        else textWith x (askers ask (d + 1)) s
    else .ok none
  | .stringify d s => stringifyWith (askers ask (d + 1)) s
  | .value d s =>
    if d ≤ maxDepth then valueWith x (askers ask (d + 1)) (fun t => ask (.text d t)) s
    else .ok none

/-- What evaluations result in. -/
def answer (x : ScopeIndex) : (c : Call) → c.Answer
  | .resolve k s => resolveFrom x (maxDepth - k) (some s)
  | .text d s => (evaluators x (maxDepth + 1 - d)).text s
  | .stringify d s => stringifyWith (evaluators x (maxDepth - d)) s
  | .value d s => (evaluators x (maxDepth + 1 - d)).value s

theorem askers_answer (x : ScopeIndex) (d : Nat) :
    askers (answer x) (d + 1) = evaluators x (maxDepth - d) := by
  rw [askers]
  simp only [answer, Nat.add_sub_add_right]

/-- With a step left, the evaluators are given by those with one step less. -/
theorem evaluators_of_le {d : Nat} (hd : d ≤ maxDepth) : evaluators x (maxDepth + 1 - d) =
    ⟨textWith x (evaluators x (maxDepth - d)),
      valueWith x (evaluators x (maxDepth - d)) (textWith x (evaluators x (maxDepth - d)))⟩ := by
  rw [Nat.succ_sub hd, evaluators]

theorem answer_text_of_le {d : Nat} (hd : d ≤ maxDepth) (s : Site) :
    answer x (.text d s) = textWith x (askers (answer x) (d + 1)) s := by
  rw [askers_answer, answer, evaluators_of_le hd]

theorem answer_text_of_lt {d : Nat} (hd : ¬ d ≤ maxDepth) (s : Site) :
    answer x (.text d s) = .ok none := by
  rw [answer, Nat.sub_eq_zero_of_le (by omega)]
  rfl

theorem answer_stringify (d : Nat) (s : Site) :
    answer x (.stringify d s) = stringifyWith (askers (answer x) (d + 1)) s := by
  rw [askers_answer, answer]

theorem answer_value_of_le {d : Nat} (hd : d ≤ maxDepth) (s : Site) :
    answer x (.value d s) =
      valueWith x (askers (answer x) (d + 1)) (fun t => answer x (.text d t)) s := by
  have htext : (fun t => answer x (.text d t)) = textWith x (evaluators x (maxDepth - d)) := by
    funext t
    rw [answer_text_of_le hd, askers_answer]
  rw [htext, askers_answer, answer, evaluators_of_le hd]

theorem answer_value_of_lt {d : Nat} (hd : ¬ d ≤ maxDepth) (s : Site) :
    answer x (.value d s) = .ok none := by
  rw [answer, Nat.sub_eq_zero_of_le (by omega)]
  rfl

/-- The results of evaluations follow from those that they ask for. -/
theorem respond_answer (x : ScopeIndex) (c : Call) : respond x (answer x) c = answer x c := by
  cases c with
  | resolve k s =>
    rw [respond, answer]
    split
    · rename_i href
      split
      · rename_i hk
        rw [show maxDepth - k = maxDepth - (k + 1) + 1 by omega, resolveFrom, if_pos href]
        cases (x.lookup? s).bind Site.unwrap? with
        | none => rw [Option.bind_none, resolveFrom]
        | some t => rfl
      · rename_i hk
        rw [Nat.sub_eq_zero_of_le (Nat.not_lt.mp hk), resolveFrom, if_pos href]
    · rename_i href
      cases maxDepth - k <;> rw [resolveFrom, if_neg href]
  | text d s =>
    rw [respond]
    split
    · rename_i hd
      rw [answer_text_of_le hd]
      cases hs : s.unwrap? with
      | none =>
        dsimp only
        rw [textWith, hs]
      | some t =>
        dsimp only
        split
        · rename_i h
          rw [textWith_of_untagged hs h.1 h.2, answer_stringify]
        · rfl
    · rename_i hd
      rw [answer_text_of_lt hd]
  | stringify d s => rw [respond, answer_stringify]
  | value d s =>
    rw [respond]
    split
    · rename_i hd
      rw [answer_value_of_le hd]
    · rename_i hd
      rw [answer_value_of_lt hd]

/-! ## The results are the only ones -/

theorem textOf_congr {e e' : Evaluators} {o : Option Site}
    (h : ∀ u, o = some u → e.text u = e'.text u) : e.textOf o = e'.textOf o := by
  cases o with
  | none => rfl
  | some u => exact h u rfl

theorem valueOf_congr {e e' : Evaluators} {o : Option Site}
    (h : ∀ u, o = some u → e.value u = e'.value u) : e.valueOf o = e'.valueOf o := by
  cases o with
  | none => rfl
  | some u => exact h u rfl

theorem valuesOf_congr {e e' : Evaluators} {ms : List (Text × Site)}
    (h : ∀ m ∈ ms, e.value m.2 = e'.value m.2) : valuesOf e ms = valuesOf e' ms := by
  induction ms with
  | nil => rfl
  | cons m ms ih =>
    rw [List.forall_mem_cons] at h
    rw [valuesOf, valuesOf, h.1, ih h.2]

theorem itemsOf_congr {e e' : Evaluators} {ss : List Site}
    (h : ∀ s ∈ ss, e.value s = e'.value s) : itemsOf e ss = itemsOf e' ss := by
  induction ss with
  | nil => rfl
  | cons s ss ih =>
    rw [List.forall_mem_cons] at h
    rw [itemsOf, itemsOf, h.1, ih h.2]

variable {f g : (c : Call) → c.Answer}

/-- An evaluation depends on those that it asks for, and on no others. -/
theorem respond_congr {c : Call} (h : ∀ c', Asks x c c' → f c' = g c') :
    respond x f c = respond x g c := by
  cases c with
  | resolve k s =>
    rw [respond, respond]
    split
    · rename_i href
      split
      · rename_i hk
        cases hb : x.lookup? s with
        | none => rfl
        | some b =>
          rw [Option.bind_some]
          cases ht : b.unwrap? with
          | none => rfl
          | some t => exact h _ (.follow href hk hb ht)
      · rfl
    · rfl
  | text d s =>
    rw [respond, respond]
    split
    · rename_i hd
      cases hs : s.unwrap? with
      | none => rfl
      | some t =>
        dsimp only
        split
        · rename_i hjson
          exact h _ (.json hd hs hjson.1 hjson.2)
        · rename_i hjson
          rcases textWith_cases x hs with h' | href | hsum | ⟨v, hv⟩
          · contradiction
          · rw [textWith_of_reference hs href, textWith_of_reference hs href]
            exact textOf_congr fun b hb => h _ (.textBound hd hs href hb)
          · have hoperand : ∀ role, role = .left ∨ role = .right →
                (askers f (d + 1)).textOf (t.child? role) =
                  (askers g (d + 1)).textOf (t.child? role) :=
              fun role hrole => textOf_congr fun o ho => h _ (.operand hd hs hsum hrole ho)
            rw [textWith_of_sum hs hsum, textWith_of_sum hs hsum, hoperand _ (.inl rfl),
              hoperand _ (.inr rfl)]
          · rw [hv, hv]
    · rfl
  | stringify d s =>
    rw [respond, respond]
    cases ha : jsonArgument? s with
    | none => rw [stringifyWith_of_none ha, stringifyWith_of_none ha]
    | some a =>
      have hargument : (askers f (d + 1)).value a = (askers g (d + 1)).value a :=
        h _ (.argument ha)
      rw [stringifyWith_of_some ha, stringifyWith_of_some ha, hargument]
  | value d s =>
    rw [respond, respond]
    split
    · rename_i hd
      cases hs : s.unwrap? with
      | none => rw [valueWith, valueWith, hs]
      | some t =>
        rcases valueWith_cases x hs with href | hobject | harray | htext | ⟨v, hv⟩
        · rw [valueWith_of_reference hs href, valueWith_of_reference hs href]
          exact valueOf_congr fun b hb => h _ (.valueBound hd hs href hb)
        · have hmember : ∀ m ∈ objectMembers t,
              (askers f (d + 1)).value m.2 = (askers g (d + 1)).value m.2 :=
            fun m hm => h _ (.member hd hs hobject hm)
          rw [valueWith_of_object hs hobject, valueWith_of_object hs hobject,
            valuesOf_congr hmember]
        · have hitem : ∀ u ∈ t.children,
              (askers f (d + 1)).value u = (askers g (d + 1)).value u :=
            fun u hu => h _ (.item hd hs harray hu)
          rw [valueWith_of_array hs harray, valueWith_of_array hs harray, itemsOf_congr hitem]
        · rw [valueWith_of_isTextual hs htext, valueWith_of_isTextual hs htext,
            h _ (.textual hd hs htext)]
        · rw [hv, hv]
    · rfl

/-- Results that follow from each other as those of evaluations do are the results of
evaluations. -/
theorem eq_answer_iff (x : ScopeIndex) (f : (c : Call) → c.Answer) :
    (∀ c, f c = respond x f c) ↔ f = answer x := by
  constructor
  · intro h
    funext c
    -- an evaluation depends on those that it asks for only, and these come first
    induction c using (wellFounded_asks x).induction with
    | _ c ih => rw [h c, ← respond_answer x c, respond_congr ih]
  · rintro rfl c
    exact (respond_answer x c).symm

end OperationScan.Script
