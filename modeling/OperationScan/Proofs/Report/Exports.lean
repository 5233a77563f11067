import Mathlib.Data.List.Nodup
import OperationScan.Proofs.Json.Values
import OperationScan.Proofs.Json.Writable
import OperationScan.Report.Collection

/-!
# What is exported can be read again

A report and a collection are written to files. From the text of a file one gets back the operations
it has been written for, whatever their texts and values: a report has all of them with their
errors, a collection has what each request needs. The values for a request stand in a string of a
collection, as JSON inside JSON, so they are read a second time.

* `Value.operations?`, `Value.errors?`, `Value.requests?`: what data says that was read from a file.
* `read_fileText`: plain data is read from its file as it was.
* `operations?_report`, `errors?_report`, `exists_collectionValue`: the data of a report and of a
  collection says what they have been made of.
* `exports_read_back`: reports and collections are read again.
-/

namespace OperationScan

/-! ## What the data of a file says -/

namespace Value

def member? (v : Value) (name : String) : Option Value := v.membersOrNone.get? name.toList

def text? : Value → Option Text
  | .string t => some t
  | _ => none

def items? : Value → Option (List Value)
  | .array items => some items
  | _ => none

def members? : Value → Option (Members Value)
  | .object members => some members
  | _ => none

def textAt? (v : Value) (name : String) : Option Text := (v.member? name).bind text?

/-- The operation that a record of a report describes. -/
def operation? (v : Value) : Option Operation := do
  let name ← v.textAt? "name"
  let kind ← (v.textAt? "kind").bind Kind.ofWord?
  let rawText ← v.textAt? "operation"
  let signature ← v.textAt? "signature"
  let bindings ← (v.member? "variables").bind members?
  let source ← v.textAt? "source"
  let origin ← v.textAt? "origin"
  let context ← v.textAt? "context"
  return { name, kind, rawText, signature, bindings, source, origin, context }

def operations? (v : Value) : Option (List Operation) := do
  let items ← (v.member? "operations").bind items?
  items.mapM operation?

def error? (v : Value) : Option (Members Text) := do
  let members ← v.members?
  members.mapM fun m => do return (m.1, ← m.2.text?)

def errors? (v : Value) : Option (List (Members Text)) := do
  let items ← (v.member? "errors").bind items?
  items.mapM error?

end Value

/-- A request as it is found in a collection. -/
structure FoundRequest where
  name : Text
  query : Text
  bindings : Members Value

/-- The request that serves an operation. -/
def Operation.request (o : Operation) : FoundRequest := ⟨o.name, o.rawText, o.bindings⟩

/-- A request of a collection. Its values are JSON in a string. -/
def Value.request? [Json.Nesting] (v : Value) : Option FoundRequest := do
  let name ← v.textAt? "name"
  let request ← v.member? "request"
  let body ← request.member? "body"
  let graphql ← body.member? "graphql"
  let query ← graphql.textAt? "query"
  let text ← graphql.textAt? "variables"
  let bindings ← (Json.read text).toOption.bind Value.members?
  return ⟨name, query, bindings⟩

def Value.requests? [Json.Nesting] (v : Value) : Option (List FoundRequest) := do
  let items ← (v.member? "item").bind Value.items?
  items.mapM Value.request?

/-! ## Records -/

theorem get?_toList (members : List (String × Value)) (name : String) :
    Members.get? (members.map fun m => (m.1.toList, m.2)) name.toList = members.lookup name := by
  induction members with
  | nil => rfl
  | cons m members ih =>
    obtain ⟨key, v⟩ := m
    rw [List.map_cons, Members.get?_cons, List.lookup_cons, ih]
    by_cases h : name = key
    · simp [h]
    · simp [h, String.toList_inj, beq_false_of_ne h]

@[simp]
theorem member?_record (members : List (String × Value)) (name : String) :
    (record members).member? name = members.lookup name := get?_toList members name

theorem plain_record {members : List (String × Value)} {depth : Nat} :
    (record members).Plain (depth + 1) ↔
      (members.map Prod.fst).Nodup ∧ ∀ m ∈ members, m.2.Plain depth := by
  have hnames : Members.names (members.map fun m => (m.1.toList, m.2)) =
      (members.map Prod.fst).map String.toList := by
    rw [Members.names, List.map_map, List.map_map]
    rfl
  rw [record, Value.Plain, hnames, List.nodup_map_iff fun s t h => String.toList_inj.mp h,
    List.forall_mem_map]

theorem plain_array {items : List Value} {depth : Nat} :
    (Value.array items).Plain (depth + 1) ↔ ∀ v ∈ items, v.Plain depth := .rfl

variable {α β γ : Type} {as : List α} {bs : List β}

theorem mapM_of_forall₂ {decode : β → Option γ} {f : α → γ}
    (h : List.Forall₂ (fun a b => decode b = some (f a)) as bs) :
    bs.mapM decode = some (as.map f) := by
  induction h with
  | nil => rfl
  | cons hb _ ih => rw [List.mapM_cons, hb, ih, List.map_cons]; rfl

theorem mapM_map_eq_some {encode : α → β} {decode : β → Option α}
    (h : ∀ a ∈ as, decode (encode a) = some a) : (as.map encode).mapM decode = some as := by
  have hall : List.Forall₂ (fun a b => decode b = some (id a)) as (as.map encode) := by
    rw [List.forall₂_map_right_iff, List.forall₂_same]
    exact h
  rw [mapM_of_forall₂ hall, List.map_id]

/-! ## Reports -/

theorem ofWord?_word (k : Kind) : Kind.ofWord? k.word = some k := by
  cases k <;> decide

theorem operation?_value (o : Operation) : o.value.operation? = some o := by
  simp [Operation.value, Value.operation?, Value.textAt?, Value.text?, Value.members?,
    List.lookup_cons, ofWord?_word]

theorem error?_object (e : Members Text) :
    (Value.object (e.map fun m => (m.1, .string m.2))).error? = some e := by
  refine mapM_map_eq_some fun m _ => ?_
  rfl

theorem operations?_report (r : Report) : r.value.operations? = some r.operations := by
  have hitems := mapM_map_eq_some fun o (_ : o ∈ r.operations) => operation?_value o
  simpa [Report.value, Value.operations?, Value.items?, List.lookup_cons] using hitems

theorem errors?_report (r : Report) : r.value.errors? = some r.errors := by
  have hitems := mapM_map_eq_some fun e (_ : e ∈ r.errors) => error?_object e
  simpa [Report.value, Value.errors?, Value.items?, List.lookup_cons] using hitems

/-- The numbers among the figures of a run. -/
def Metadata.figures (m : Metadata) : List Int :=
  [m.taskCount, m.completedCount, m.failedCount, m.concurrency]

theorem plain_value {o : Operation} {depth : Nat} (h : (Value.object o.bindings).Plain depth) :
    o.value.Plain (depth + 1) := by
  simpa [Operation.value, plain_record] using h

theorem plain_metadata {m : Metadata} (h : ∀ n ∈ m.figures, n.natAbs < 10 ^ Number.digitLimit) :
    m.value.Plain 1 := by
  have hplain : ∀ n ∈ m.figures, (Value.int n).Plain 0 := fun n hn =>
    Json.length_ofNat_le_iff.mpr (h n hn)
  simpa [Metadata.value, Metadata.figures, plain_record] using hplain

theorem plain_error {e : Members Text} (h : (Members.names e).Nodup) :
    (Value.object (e.map fun m => (m.1, .string m.2))).Plain 1 := by
  constructor
  · rwa [Members.names, List.map_map]
  · rw [List.forall_mem_map]
    exact fun m _ => Value.plain_string 0 m.2

theorem plain_report {r : Report} {depth : Nat}
    (hoperations : ∀ o ∈ r.operations, (Value.object o.bindings).Plain depth)
    (herrors : ∀ e ∈ r.errors, (Members.names e).Nodup)
    (hfigures : ∀ n ∈ r.metadata.figures, n.natAbs < 10 ^ Number.digitLimit) :
    r.value.Plain (depth + 3) := by
  have hrecords : ∀ o ∈ r.operations, o.value.Plain (depth + 1) := fun o ho =>
    plain_value (hoperations o ho)
  have hobjects : ∀ e ∈ r.errors,
      (Value.object (e.map fun m => (m.1, .string m.2))).Plain (depth + 1) := fun e he =>
    (plain_error (herrors e he)).mono (Nat.le_add_left 1 depth)
  have hmetadata : r.metadata.value.Plain (depth + 2) :=
    (plain_metadata hfigures).mono (Nat.le_add_left 1 (depth + 1))
  simpa [Report.value, plain_record, plain_array] using ⟨hrecords, hobjects, hmetadata⟩

/-- A figure that is too long keeps the whole report from being written. -/
theorem holdsLong_report {r : Report} {n : Int} (hn : n ∈ r.metadata.figures)
    (h : 10 ^ Number.digitLimit ≤ n.natAbs) : r.value.HoldsLong := by
  have hlong : (Value.int n).HoldsLong := .int h
  have hmember : r.metadata.value.HoldsLong := by
    simp only [Metadata.figures, List.mem_cons, List.not_mem_nil, or_false] at hn
    rw [Metadata.value, record, Value.holdsLong_object]
    rcases hn with rfl | rfl | rfl | rfl <;> simp [hlong]
  rw [Report.value, record, Value.holdsLong_object]
  simp [hmember]

/-! ## Files -/

/-- Plain data is read from its file as it was. -/
theorem read_fileText [Json.Nesting] {v : Value} (hv : v.Plain Json.Nesting.limit) :
    ∃ t, fileText v = .ok t ∧ Json.read t = .ok v := by
  obtain ⟨t, ht, hread⟩ := Json.read_writeIndented hv
  refine ⟨t ++ ['\n'], ?_, hread ['\n'] (List.forall_mem_singleton.mpr rfl)⟩
  rw [fileText, ht]
  rfl

/-- Data that holds an integer of too many digits has no file. -/
theorem not_holdsLong_of_fileText {v : Value} {t : Text} (h : fileText v = .ok t) :
    ¬ v.HoldsLong := by
  intro hlong
  obtain ⟨fault, hfault⟩ := (Json.fails_writeAt_iff 0 v).mpr hlong
  obtain ⟨u, hu, -⟩ := exists_of_bind_eq_ok h
  rw [Json.writeIndented, hfault] at hu
  cases hu

variable {r : Report} {operations : List Operation}

theorem read_fileText_report [Json.Nesting]
    (hoperations : ∀ o ∈ r.operations, (Value.object o.bindings).Plain 101)
    (herrors : ∀ e ∈ r.errors, (Members.names e).Nodup)
    (hfigures : ∀ n ∈ r.metadata.figures, n.natAbs < 10 ^ Number.digitLimit) :
    ∃ t, fileText r.value = .ok t ∧ Json.read t = .ok r.value := by
  have hplain : r.value.Plain 104 := plain_report hoperations herrors hfigures
  exact read_fileText (hplain.mono Json.Nesting.le_limit)

theorem figures_of_fileText {t : Text} (h : fileText r.value = .ok t) :
    ∀ n ∈ r.metadata.figures, n.natAbs < 10 ^ Number.digitLimit := by
  intro n hn
  by_contra hlong
  have hlong := Nat.le_of_not_lt hlong
  exact not_holdsLong_of_fileText h (holdsLong_report hn hlong)

/-! ## Collections -/

theorem exists_requestValue [Json.Nesting] {o : Operation}
    (h : (Value.object o.bindings).Plain Json.Nesting.limit) :
    ∃ v, requestValue o = .ok v ∧ v.Plain 4 ∧ v.request? = some o.request := by
  obtain ⟨t, ht, hread⟩ := Json.read_writeIndented h
  have hread : Json.read t = .ok (.object o.bindings) := by
    simpa using hread [] (by simp)
  refine ⟨_, by rw [requestValue, ht]; rfl, ?_, ?_⟩
  -- the text of the bindings is a string like any other, however long and whatever is in it
  · simp [plain_record, plain_array, headerValue]
  · simp only [Value.request?, Value.textAt?, member?_record, List.lookup_cons, String.reduceBEq,
      Option.bind_eq_bind, Option.bind_some, Value.text?, hread, Except.toOption, Value.members?]
    rfl

/-- A collection can be built, and its requests are those for the operations. -/
theorem exists_collectionValue [Json.Nesting]
    (h : ∀ o ∈ operations, (Value.object o.bindings).Plain Json.Nesting.limit) (name : Text) :
    ∃ v, collectionValue operations name = .ok v ∧ v.Plain 6 ∧
      v.requests? = some (operations.map Operation.request) := by
  obtain ⟨items, hitems, hall⟩ := exists_mapM_eq_ok fun o ho => exists_requestValue (h o ho)
  obtain ⟨hplain, hrequests⟩ := (List.forall₂_and_left _ _).mp hall.flip
  have hrequests := mapM_of_forall₂ hrequests.flip
  refine ⟨_, by rw [collectionValue, hitems]; rfl, ?_, ?_⟩
  · simpa [plain_record, plain_array] using hplain
  · simp only [Value.requests?, member?_record, List.lookup_cons, String.reduceBEq,
      Option.bind_eq_bind, Option.bind_some, Value.items?]
    exact hrequests

/-! ## Both files -/

/-- What has been exported is read again, where the bindings of each operation are plain and nest
a hundred levels deep at most. A report can be written unless one of its own figures is too long,
and from its file one gets all operations and errors in their order. From the file of a collection
one gets what each request needs, its values by reading a string of the file once more. -/
theorem exports_read_back [Json.Nesting] (r : Report)
    (hoperations : ∀ o ∈ r.operations, (Value.object o.bindings).Plain 101)
    (herrors : ∀ e ∈ r.errors, (Members.names e).Nodup) (name : Text) :
    ((∃ t, fileText r.value = .ok t) ↔
      ∀ n ∈ r.metadata.figures, n.natAbs < 10 ^ Number.digitLimit) ∧
    (∀ t, fileText r.value = .ok t → Json.read t = .ok r.value) ∧
    r.value.operations? = some r.operations ∧ r.value.errors? = some r.errors ∧
    ∃ collection t, collectionValue r.operations name = .ok collection ∧
      fileText collection = .ok t ∧ Json.read t = .ok collection ∧
        collection.requests? = some (r.operations.map Operation.request) := by
  have hdepth : ∀ o ∈ r.operations, (Value.object o.bindings).Plain Json.Nesting.limit :=
    fun o ho => (hoperations o ho).mono (Nat.le_trans (by decide) Json.Nesting.le_limit)
  refine ⟨⟨?_, ?_⟩, ?_, operations?_report r, errors?_report r, ?_⟩
  · rintro ⟨t, ht⟩
    exact figures_of_fileText ht
  · intro hfigures
    obtain ⟨t, ht, -⟩ := read_fileText_report hoperations herrors hfigures
    exact ⟨t, ht⟩
  · intro t ht
    obtain ⟨u, hu, hread⟩ := read_fileText_report hoperations herrors (figures_of_fileText ht)
    cases hu.symm.trans ht
    exact hread
  · obtain ⟨collection, hcollection, hplain, hrequests⟩ := exists_collectionValue hdepth name
    obtain ⟨t, ht, hread⟩ := read_fileText
      (hplain.mono (Nat.le_trans (by decide) Json.Nesting.le_limit))
    exact ⟨collection, t, hcollection, ht, hread, hrequests⟩

/-- Bindings with values inside values, and with characters that are written as escapes. -/
def nestedBindings : Members Value :=
  [("filter".toList, .object [("tags".toList, .array [.string "a\"b\\\n😀".toList, .null]),
      ("limit".toList, .int (-12))]),
    ("".toList, .array [.bool true, .object [], .array []])]

/-- Two operations of one name, and an error. -/
def nestedReport : Report where
  operations := [
    { rawText := "query Find($filter: Filter) \x7b\n  find(filter: $filter) \x7b é \x7d\n\x7d".toList
      signature := "query".toList, name := "Find".toList, kind := .query
      bindings := nestedBindings, source := "a.js".toList, origin := "a.js".toList
      context := "tagged-literal".toList },
    { rawText := "mutation Find \x7b find \x7d".toList, signature := "mutation".toList
      name := "Find".toList, kind := .mutation, bindings := [], source := "b.js".toList
      origin := "https://b".toList, context := "comment".toList }]
  metadata := { version := "0.3.0".toList, generatedAt := ⟨2024, 2, 29, 12, 30, 5, 0, some 0⟩ }
  errors := [[("source".toList, "c.js".toList), ("error".toList, "\t\u2028".toList)]]

theorem plain_nestedBindings : (Value.object nestedBindings).Plain 101 := by
  have hlimit : (Value.int (-12)).Plain 99 := by
    show (Text.ofNat 12).length ≤ Number.digitLimit
    decide
  simpa [nestedBindings, Value.Plain, Members.names] using hlimit

theorem exports_read_back_nested :
    (∃ t, fileText nestedReport.value = .ok t ∧ Json.read t = .ok nestedReport.value) ∧
    nestedReport.value.operations? = some nestedReport.operations ∧
    nestedReport.value.errors? = some nestedReport.errors ∧
    ∃ collection t, collectionValue nestedReport.operations [] = .ok collection ∧
      fileText collection = .ok t ∧ Json.read t = .ok collection ∧
        collection.requests? = some (nestedReport.operations.map Operation.request) := by
  have hoperations : ∀ o ∈ nestedReport.operations, (Value.object o.bindings).Plain 101 := by
    simp only [nestedReport, List.forall_mem_cons]
    exact ⟨plain_nestedBindings, ⟨by decide, nofun⟩, nofun⟩
  have hfigures : ∀ n ∈ nestedReport.metadata.figures, n.natAbs < 10 ^ Number.digitLimit := by
    have hshort : ∀ n ∈ nestedReport.metadata.figures,
        (Text.ofNat n.natAbs).length ≤ Number.digitLimit := by decide
    exact fun n hn => Json.length_ofNat_le_iff.mp (hshort n hn)
  obtain ⟨hfile, hread, hfound, herrors, hcollection⟩ :=
    exports_read_back nestedReport hoperations (by decide) []
  obtain ⟨t, ht⟩ := hfile.mpr hfigures
  exact ⟨⟨t, ht, hread t ht⟩, hfound, herrors, hcollection⟩

end OperationScan
