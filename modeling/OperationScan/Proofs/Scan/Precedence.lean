import OperationScan.Proofs.Json.Distinct
import OperationScan.Proofs.Operation.Placeholders
import OperationScan.Proofs.Scan.Sightings
import OperationScan.Proofs.Script.StaticValues
import OperationScan.Proofs.Script.Trees

/-!
# Whose value a variable has

A value that is sent as JSON goes before one that stands next to the operation, that goes before one
that the configuration of the call declares, and a placeholder comes last.

* `requestsIn`: the requests in the text of a payload.
* `Sends`: what a configuration object sends, and the two places in it that declare values.
* `bindings_of_visitCall`: the variables of an operation that a call records.
-/

namespace OperationScan

open Script Collecting

/-! ## Values that are declared -/

theorem nodup_names_of_objectOr {x : ScopeIndex} {s : Option Site} {ms : Members Value}
    (h : objectOr x s = .ok ms) : (Members.names ms).Nodup := by
  cases s with
  | none =>
    cases h
    exact List.nodup_nil
  | some s =>
    obtain ⟨v, hvalue, h⟩ := exists_of_bind_eq_ok h
    split at h
    · cases h
      exact nodup_names_of_value hvalue
    · cases h
      exact List.nodup_nil

/-! ## Requests -/

/-- The requests in the text of a payload: those of a body that can be decoded; any other text is a
request without values. -/
def requestsIn [Json.Nesting] (t : Text) : List Request :=
  match decodePayload t with
  | .ok rs => rs
  | .error _ => [⟨t, [], []⟩]

theorem nodup_names_of_mem_requestsIn [Json.Nesting] {t : Text} {r : Request}
    (h : r ∈ requestsIn t) : (Members.names r.bindings).Nodup := by
  unfold requestsIn at h
  split at h
  · rename_i rs hrs
    exact nodup_names_of_decodePayload hrs r h
  · rw [List.mem_singleton.mp h]
    exact List.nodup_nil

/-- The sightings of a request, with values that are known beside its own. -/
def Request.sightings (context : Text) (known : Members Value) (r : Request) : List Sighting :=
  Sighting.ofMatches r.text context (known.merge r.bindings) [.standard]

namespace Collecting

variable {α β : Type} {scan : Collecting α} {next : α → Collecting β} {l l' : List Sighting}

/-- A scan records sightings in order: all of them, unless a fault stops it. -/
def RecordsUpTo (scan : Collecting α) (l : List Sighting) : Prop :=
  ∃ result recorded, scan.Records result recorded ∧ recorded <+: l ∧
    ∀ a, result = .ok a → recorded = l

namespace RecordsUpTo

theorem of_records {a : α} (h : scan.Records (.ok a) l) : scan.RecordsUpTo l :=
  ⟨_, l, h, List.prefix_refl l, fun _ _ => rfl⟩

theorem pure (a : α) : RecordsUpTo (pure a) [] := of_records (.pure a)

theorem throw (fault : Fault) (l : List Sighting) : RecordsUpTo (throw fault : Collecting α) l :=
  ⟨_, [], .throw fault, List.nil_prefix, fun _ h => nomatch h⟩

theorem bind (h : scan.RecordsUpTo l) (hnext : ∀ a, (next a).RecordsUpTo l') :
    (scan >>= next).RecordsUpTo (l ++ l') := by
  obtain ⟨result, recorded, hrecords, hprefix, hall⟩ := h
  cases result with
  | error fault =>
    exact ⟨_, recorded, hrecords.bind_error, hprefix.trans (List.prefix_append l l'),
      fun _ h => nomatch h⟩
  | ok a =>
    obtain rfl := hall a rfl
    obtain ⟨result, recorded', hrecords', hprefix', hall'⟩ := hnext a
    exact ⟨result, recorded ++ recorded', hrecords.bind_ok hrecords',
      (List.prefix_append_right_inj recorded).mpr hprefix',
      fun b hb => congrArg (recorded ++ ·) (hall' b hb)⟩

theorem map (h : scan.RecordsUpTo l) (f : α → Collecting β) (hf : ∀ a, (f a).RecordsUpTo []) :
    (scan >>= f).RecordsUpTo l := by
  have hbind := h.bind hf
  rwa [List.append_nil] at hbind

theorem addMatches (text context : Text) (known : Members Value) :
    RecordsUpTo (Collecting.ofFun fun c => c.addMatches text context known [.standard])
      (Sighting.ofMatches text context known [.standard]) :=
  of_records (.addMatches text context known [.standard])

end RecordsUpTo

theorem ofEvaluation_ok_bind (a : α) : (Collecting.ofEvaluation (.ok a) >>= next) = next a := rfl

theorem ofEvaluation_error_bind (fault : Fault) :
    (Collecting.ofEvaluation (.error fault) >>= next) = MonadExcept.throw fault := rfl

end Collecting

theorem recordsUpTo_addDamaged (context : Text) (known : Members Value) (halves : List LoneHalf)
    (found : List PatternMatch) : (addDamaged context known halves found).RecordsUpTo
      (found.map fun m => ⟨m.text, context, known⟩) := by
  induction found with
  | nil => exact .pure ()
  | cons m rest ih =>
    unfold addDamaged
    cases namingFault? m halves with
    | some fault => exact .throw fault _
    | none =>
      have hadd : Records (Collecting.ofFun fun c => ((), (c.add m.text context known).2)) (.ok ())
          [⟨m.text, context, known⟩] := .ofFun fun c => rfl
      have hall := (RecordsUpTo.of_records hadd).bind fun _ => ih
      exact hall

theorem recordsUpTo_addRequest (context : Text) (known : Members Value) (r : Request) :
    (addRequest context known r).RecordsUpTo (r.sightings context known) := by
  unfold addRequest
  dsimp only
  split
  · exact .addMatches _ _ _
  · have hdamaged := recordsUpTo_addDamaged context (known.merge r.bindings) r.halves
      (Pattern.standard.matchesIn r.text)
    rw [Request.sightings, Sighting.ofMatches, List.flatMap_singleton]
    exact hdamaged.map _ fun _ => .pure _

theorem recordsUpTo_addRequests (context : Text) (known : Members Value) (rs : List Request) :
    (addRequests context known rs).RecordsUpTo (rs.flatMap (Request.sightings context known)) := by
  induction rs with
  | nil => exact .pure 0
  | cons r rest ih =>
    exact (recordsUpTo_addRequest context known r).bind fun _ => ih.map _ fun _ => .pure _

/-- The requests in a text are recorded one after the other. -/
theorem recordsUpTo_addPayload [Json.Nesting] (t context : Text) (known : Members Value) :
    (addPayload t context known).RecordsUpTo
      ((requestsIn t).flatMap (Request.sightings context known)) := by
  have hplain : (Collecting.ofFun fun c => c.addMatches t context known [.standard]).RecordsUpTo
      ([⟨t, [], []⟩].flatMap (Request.sightings context known)) := by
    rw [List.flatMap_singleton]
    exact .addMatches t context known
  unfold addPayload requestsIn
  cases hdecode : decodePayload t with
  | error fault =>
    dsimp only
    split <;> exact hplain
  | ok rs =>
    rw [if_pos (looksLikeJson_of_decodePayload hdecode)]
    exact recordsUpTo_addRequests context known rs

/-! ## Configurations -/

/-- The values declared next to the operation in a payload. -/
def valuesBeside (x : ScopeIndex) (payload : Site) : Evaluation (Members Value) :=
  match resolve? x payload with
  | some s =>
    if s.kind == .object then objectOr x ((objectMembers s).get? "variables".toList) else .ok []
  | none => .ok []

/-- What a configuration object sends: the text of its payload, with the values that it declares
itself and those that stand next to the operation in the payload. -/
structure Sends (x : ScopeIndex) (config : Site) (declared beside : Members Value) (t : Text) :
    Prop where
  declared : objectOr x ((objectMembers config).get? "variables".toList) = .ok declared
  payload : ∃ payload, payloadOf? config = some payload ∧ valuesBeside x payload = .ok beside ∧
    (payloadText x payload).map Prod.fst = .ok (some t)

/-- A call of an HTTP client with a configuration object, which is its second argument or the only
one. -/
structure IsConfigOf (x : ScopeIndex) (call config : Site) : Prop where
  client : (calleeName? call).any httpClients.contains = true
  argument : ∃ first more, (call.child? .arguments).map Site.parts = some (first :: more) ∧
    resolve? x (more.head?.getD first) = some config
  object : config.kind = .object

variable {x : ScopeIndex} {call config payload : Site}

theorem visitCall_of_isConfigOf [Json.Nesting] (h : IsConfigOf x call config) (context : Text) :
    visitCall x call context = visitConfig x config context := by
  obtain ⟨first, more, hparts, hresolve⟩ := h.argument
  rw [visitCall, if_pos h.client, hparts]
  dsimp only
  rw [hresolve]
  dsimp only
  rw [if_pos (by rw [h.object]; rfl)]

theorem valuesBeside_of_payloadText {t : Text} {beside : Members Value}
    (h : payloadText x payload = .ok (some t, beside)) : valuesBeside x payload = .ok beside := by
  unfold payloadText at h
  unfold valuesBeside
  split at h
  · cases h
  · rename_i s hs
    rw [hs]
    dsimp only
    split at h
    · rename_i hobject
      rw [if_pos hobject]
      obtain ⟨values, hvalues, h⟩ := exists_of_bind_eq_ok h
      split at h
      · obtain ⟨text, -, h⟩ := exists_of_bind_eq_ok h
        cases h
        exact hvalues
      · cases h
    · rename_i hother
      rw [if_neg hother]
      obtain ⟨text, -, h⟩ := exists_of_bind_eq_ok h
      cases h
      rfl

theorem nodup_names_of_valuesBeside {beside : Members Value}
    (h : valuesBeside x payload = .ok beside) : (Members.names beside).Nodup := by
  unfold valuesBeside at h
  split at h
  · split at h
    · exact nodup_names_of_objectOr h
    · cases h
      exact List.nodup_nil
  · cases h
    exact List.nodup_nil

/-- A configuration records nothing, or the requests that it sends. -/
theorem recordsUpTo_visitConfig [Json.Nesting] (x : ScopeIndex) (config : Site) (context : Text) :
    ∃ l, (visitConfig x config context).RecordsUpTo l ∧
      (l = [] ∨ ∃ declared beside t, Sends x config declared beside t ∧
        l = (requestsIn t).flatMap (Request.sightings context (declared.merge beside))) := by
  unfold visitConfig
  cases hdeclared : objectOr x ((objectMembers config).get? "variables".toList) with
  | error fault =>
    rw [ofEvaluation_error_bind]
    exact ⟨[], .throw fault [], .inl rfl⟩
  | ok declared =>
    rw [ofEvaluation_ok_bind]
    cases hpayload : payloadOf? config with
    | none => exact ⟨[], .pure (), .inl rfl⟩
    | some payload =>
      dsimp only
      cases htext : payloadText x payload with
      | error fault =>
        rw [ofEvaluation_error_bind]
        exact ⟨[], .throw fault [], .inl rfl⟩
      | ok result =>
        obtain ⟨text, beside⟩ := result
        rw [ofEvaluation_ok_bind]
        match text with
        | none => exact ⟨[], .pure (), .inl rfl⟩
        | some [] => exact ⟨[], .pure (), .inl rfl⟩
        | some (c :: rest) =>
          have hsends : Sends x config declared beside (c :: rest) :=
            ⟨hdeclared, payload, hpayload, valuesBeside_of_payloadText htext, by rw [htext]; rfl⟩
          exact ⟨_, (recordsUpTo_addPayload (c :: rest) context (declared.merge beside)).map _
            fun _ => .pure (), .inr ⟨declared, beside, c :: rest, hsends, rfl⟩⟩

/-! ## Variables -/

/-- Known values decide, and placeholders come behind them. -/
theorem get?_inferVariables (args : Option Text) (known : Members Value) (name : Text) :
    (inferVariables args known).get? name =
      (known.get? name).or ((inferVariables args []).get? name) := by
  rw [inferVariables_eq, inferVariables_eq, Members.get?_addNew, Members.get?_addNew_nil]

theorem names_inferVariables (args : Option Text) (known : Members Value) :
    (inferVariables args known).names =
      known.names ++ (inferVariables args []).names.filter fun name => name ∉ known.names := by
  rw [inferVariables_eq, inferVariables_eq, Members.names_addNew, Members.names_addNew_nil]

/-- What stands in one of several parts, and in none of those in front of it unless it stands in
front of the place that is looked at. -/
theorem exists_of_prefix_flatMap {α β : Type} {f : α → List β} {as : List α} {b : β}
    {before after : List β} (h : before ++ b :: after <+: as.flatMap f) :
    ∃ as₁ a as₂, as = as₁ ++ a :: as₂ ∧ b ∈ f a ∧ ∀ a' ∈ as₁, f a' ⊆ before := by
  induction as generalizing before with
  | nil => simp at h
  | cons a as ih =>
    obtain ⟨rest, h⟩ := h
    rw [List.flatMap_cons, List.append_assoc, List.cons_append] at h
    rcases List.append_eq_append_iff.mp h with ⟨inside, ha, hrest⟩ | ⟨inside, rfl, hrest⟩
    · cases inside with
      | nil =>
        rw [List.append_nil] at ha
        have hlater : [] ++ b :: after <+: as.flatMap f := ⟨rest, hrest⟩
        obtain ⟨as₁, a', as₂, rfl, hb, hbefore⟩ := ih hlater
        refine ⟨a :: as₁, a', as₂, rfl, hb, List.forall_mem_cons.mpr ⟨?_, fun a'' ha'' => ?_⟩⟩
        · rw [ha]
          exact List.Subset.refl _
        · exact List.Subset.trans (hbefore a'' ha'') (List.nil_subset _)
      | cons b' inside =>
        obtain ⟨rfl, -⟩ := List.cons.inj hrest
        exact ⟨[], a, as, rfl, by rw [ha]; simp, by simp⟩
    · have hlater : inside ++ b :: after <+: as.flatMap f := ⟨rest, by rw [hrest]; simp⟩
      obtain ⟨as₁, a', as₂, rfl, hb, hbefore⟩ := ih hlater
      refine ⟨a :: as₁, a', as₂, rfl, hb, List.forall_mem_cons.mpr ⟨?_, fun a'' ha'' => ?_⟩⟩
      · exact List.subset_append_left _ _
      · exact List.Subset.trans (hbefore a'' ha'') (List.subset_append_right _ _)

/-- A text is an operation in a request. -/
def Request.Shows (r : Request) (t : Text) : Prop :=
  ∃ m ∈ Pattern.standard.matchesIn r.text, t = Text.trim m.text

theorem Request.mem_sightings {r : Request} {context : Text} {known : Members Value}
    {s : Sighting} : s ∈ r.sightings context known ↔ ∃ m ∈ Pattern.standard.matchesIn r.text,
      s = ⟨m.text, context, known.merge r.bindings⟩ := by
  rw [Request.sightings, Sighting.ofMatches, List.flatMap_singleton, List.mem_map]
  simp only [eq_comm]

/-- The variables of an operation that a call of an HTTP client records: the values that come with
the request in which it stands first decide, then those next to the operation in the payload, then
those of the configuration, then the placeholders for its arguments. The names of placeholders come
last. What has been recorded before stays as it is. -/
theorem bindings_of_visitCall [Json.Nesting] (h : IsConfigOf x call config) (context : Text)
    (c : Collector) :
    ∃ added, ((visitCall x call context).outcome c).2.operations = c.operations ++ added ∧
      ∀ o ∈ added, ∃ declared beside t before r after, Sends x config declared beside t ∧
        requestsIn t = before ++ r :: after ∧ r.Shows o.rawText ∧
        (∀ r' ∈ before, ∀ u, r'.Shows u → normalize u ≠ normalize o.rawText) ∧
        (∀ name, o.bindings.get? name =
          (r.bindings.get? name).or ((beside.get? name).or ((declared.get? name).or
            ((inferVariables (Head.describe o.rawText).args []).get? name)))) ∧
        o.bindings.names = ((declared.merge beside).merge r.bindings).names ++
          (inferVariables (Head.describe o.rawText).args []).names.filter
            fun name => name ∉ ((declared.merge beside).merge r.bindings).names := by
  rw [visitCall_of_isConfigOf h]
  obtain ⟨l, ⟨result, recorded, hrecords, hprefix, -⟩, hl⟩ :=
    recordsUpTo_visitConfig x config context
  obtain ⟨added, hadded, hfirst⟩ := c.exists_first_record recorded
  refine ⟨added, by rw [hrecords c]; exact hadded, fun o ho => ?_⟩
  obtain ⟨-, -, before, s, after, rfl, hmakes, hnew⟩ := hfirst o ho
  rcases hl with rfl | ⟨declared, beside, t, hsends, rfl⟩
  · simp at hprefix
  · obtain ⟨rs₁, r, rs₂, hrs, hs, hbefore⟩ := exists_of_prefix_flatMap hprefix
    obtain ⟨m, hm, rfl⟩ := Request.mem_sightings.mp hs
    obtain rfl : o = c.operationOf (Text.trim m.text) context _ := hmakes
    obtain ⟨payload, -, hbeside, -⟩ := hsends.payload
    have hr : r ∈ requestsIn t := by rw [hrs]; simp
    refine ⟨declared, beside, t, rs₁, r, rs₂, hsends, hrs, ⟨m, hm, rfl⟩, ?_, fun name => ?_, ?_⟩
    · rintro r' hr' _ ⟨m', hm', rfl⟩
      have hs' := hbefore r' hr' (Request.mem_sightings.mpr ⟨m', hm', rfl⟩)
      have hne := hnew _ hs'
      exact hne
    · have hknown : ((declared.merge beside).merge r.bindings).get? name =
          (r.bindings.get? name).or ((beside.get? name).or (declared.get? name)) := by
        rw [Members.get?_merge (nodup_names_of_mem_requestsIn hr),
          Members.get?_merge (nodup_names_of_valuesBeside hbeside)]
      refine (get?_inferVariables _ _ name).trans ?_
      rw [hknown, Option.or_assoc, Option.or_assoc]
      rfl
    · exact names_inferVariables _ _

/-! ### A call with values in three places -/

def layeredOperation : String :=
  "query P($id: ID!, $limit: Int, $tag: String) \x7b p(id: $id) \x7b id \x7d \x7d"

def layeredConfig : Node :=
  objectOf [
    ("variables", objectOf [("id", quoted "from-code"), ("limit", covering .number "5" [])]),
    ("body", stringifyOf (objectOf [
      ("query", quoted layeredOperation), ("variables", objectOf [("id", quoted "from-json")])]))]

def layeredCall : Site :=
  ⟨callOf (covering .identifier "fetch" []) [quoted "/graphql", layeredConfig], []⟩

/-- The three variables are recorded, one with a value from each place. -/
theorem bindings_of_visitCall_layered : ∃ config added, IsConfigOf .empty layeredCall config ∧
    ((visitCall .empty layeredCall []).outcome (.empty [] [])).2.operations = added ∧
    (added.map fun o => (o.rawText, o.bindings.names)) =
      [(layeredOperation.toList, ["id", "limit", "tag"].map String.toList)] ∧
    ∀ o ∈ added, ∃ declared beside t, Sends .empty config declared beside t ∧
      ∃ r ∈ requestsIn t, ∀ name, o.bindings.get? name =
        (r.bindings.get? name).or ((beside.get? name).or ((declared.get? name).or
          ((inferVariables (Head.describe o.rawText).args []).get? name))) := by
  obtain ⟨config, hconfig⟩ : ∃ config, IsConfigOf .empty layeredCall config :=
    ⟨_, by decide +kernel, ⟨_, _, rfl, rfl⟩, rfl⟩
  obtain ⟨added, hadded, hall⟩ := bindings_of_visitCall hconfig [] (.empty [] [])
  have hfound : ((visitCall .empty layeredCall []).outcome (.empty [] [])).2.operations = added :=
    hadded
  refine ⟨config, added, hconfig, hfound, ?_, fun o ho => ?_⟩
  · rw [← hfound]
    decide +kernel
  · obtain ⟨declared, beside, t, before, r, after, hsends, hrequests, -, -, hget, -⟩ := hall o ho
    exact ⟨declared, beside, t, hsends, r, by rw [hrequests]; simp, hget⟩

end OperationScan
