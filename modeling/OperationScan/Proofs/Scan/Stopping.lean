import OperationScan.Proofs.Scan.Aggressive
import OperationScan.Proofs.Scan.Precedence
import OperationScan.Proofs.Script.Overflow

/-!
# Calls that stop a scan

A call of an HTTP client is looked at by evaluating what it sends, and one evaluation that fails
stops the whole scan. Nothing else does, unless a request body holds half of a surrogate pair.

* `Collecting.StopsIff`: a scan is stopped under some condition, and under no other.
* `sentText?`: the text that a call sends.
* `Begins`: the evaluations that are begun for a call.
* `stopsIff_visitCall`: a call stops the scan exactly if one of them fails.
-/

namespace OperationScan

open Script Collecting

/-! ## Scans that are stopped -/

namespace Collecting

variable {α β : Type} {scan : Collecting α} {next : α → Collecting β} {P Q : Prop}

/-- A scan is stopped exactly under a condition. What has been recorded before does not matter. -/
def StopsIff (scan : Collecting α) (P : Prop) : Prop :=
  ∃ result l, scan.Records result l ∧ (Fails result ↔ P)

namespace StopsIff

theorem congr (h : scan.StopsIff P) (hpq : P ↔ Q) : scan.StopsIff Q := by
  obtain ⟨result, l, hl, hfails⟩ := h
  exact ⟨result, l, hl, hfails.trans hpq⟩

theorem of_records {a : α} {l : List Sighting} (h : scan.Records (.ok a) l) :
    scan.StopsIff False :=
  ⟨_, l, h, iff_of_false (not_fails_ok a) id⟩

theorem pure (a : α) : StopsIff (pure a) False := of_records (.pure a)

theorem evaluation_bind {e : Evaluation α} (hnext : ∀ a, e = .ok a → (next a).StopsIff Q) :
    (Collecting.ofEvaluation e >>= next).StopsIff (Fails e ∨ Q) := by
  cases e with
  | error fault =>
    rw [ofEvaluation_error_bind]
    exact ⟨_, [], .throw fault, iff_of_true ⟨fault, rfl⟩ (.inl ⟨fault, rfl⟩)⟩
  | ok a =>
    rw [ofEvaluation_ok_bind]
    exact (hnext a rfl).congr (or_iff_right (not_fails_ok a)).symm

theorem addPayload [Json.Nesting] {text : Text} (h : Whole text) (context : Text)
    (known : Members Value)
    (a : α) : StopsIff (addPayload text context known >>= fun _ => Pure.pure a) False := by
  obtain ⟨n, l, hl⟩ := addPayload_whole h context known
  exact of_records (hl.bind_ok (.pure a))

end StopsIff

end Collecting

/-! ## Calls -/

/-- A call of an HTTP client whose second argument is no object but the body itself. -/
structure IsBodyOf (x : ScopeIndex) (call body : Site) : Prop where
  client : (calleeName? call).any httpClients.contains = true
  argument : ∃ first second more,
    (call.child? .arguments).map Site.parts = some (first :: second :: more) ∧
    resolve? x second = some body
  other : body.kind ≠ .object

/-- What a call hands over in the end: what its second argument stands for, or its only one. -/
def sent? (x : ScopeIndex) (call : Site) : Option Site :=
  match (call.child? .arguments).map Site.parts with
  | some (first :: more) => resolve? x (more.head?.getD first)
  | _ => none

/-- The text that a call of an HTTP client sends: that of the payload in its configuration, or the
body that is its second argument. -/
def sentText? (x : ScopeIndex) (call : Site) : Option Text :=
  if (calleeName? call).any httpClients.contains then
    (sent? x call).bind fun s =>
      if s.kind == .object then
        (payloadOf? s).bind fun payload => (payloadText x payload).toOption.bind Prod.fst
      else if (call.child? .arguments).any fun a => 1 < a.parts.length then
        (staticText x s).toOption.bind id
      else none
  else none

/-- An evaluation is begun for a payload: for two of its members if it is an object, and for its
text if it is none. -/
inductive BeginsIn (payload : Site) : Call → Prop
  | beside {v : Site} (hobject : payload.kind = .object)
      (hv : (objectMembers payload).get? "variables".toList = some v) :
      BeginsIn payload (.value 0 v)
  | operation {o : Site} (hobject : payload.kind = .object)
      (ho : operationKeys.findSome? (objectMembers payload).get? = some o) :
      BeginsIn payload (.text 0 o)
  | text (hother : payload.kind ≠ .object) : BeginsIn payload (.text 0 payload)

/-- An evaluation is begun for a call: for the body, or for the values that its configuration
declares, or for its payload. -/
inductive Begins (x : ScopeIndex) (call : Site) : Call → Prop
  | body {body : Site} (h : IsBodyOf x call body) : Begins x call (.text 0 body)
  | declared {config v : Site} (h : IsConfigOf x call config)
      (hv : (objectMembers config).get? "variables".toList = some v) : Begins x call (.value 0 v)
  | payload {config payload r : Site} {c : Call} (h : IsConfigOf x call config)
      (hpayload : payloadOf? config = some payload) (hr : resolve? x payload = some r)
      (hc : BeginsIn r c) : Begins x call c

variable {x : ScopeIndex} {call config payload : Site}

theorem fails_objectOr_iff {s : Option Site} :
    Fails (objectOr x s) ↔ ∃ v, s = some v ∧ (Call.value 0 v).Failed x := by
  cases s with
  | none => exact iff_of_false (not_fails_ok _) nofun
  | some s =>
    have hobject : Fails (objectOr x (some s)) ↔ Fails (staticValue x s) := by
      rw [objectOr]
      cases staticValue x s with
      | error fault => exact iff_of_true ⟨fault, rfl⟩ ⟨fault, rfl⟩
      | ok v =>
        refine iff_of_false ?_ (not_fails_ok v)
        cases v with
        | none => exact not_fails_ok _
        | some v => cases v <;> exact not_fails_ok _
    rw [hobject]
    constructor
    · intro h
      exact ⟨s, rfl, h⟩
    · rintro ⟨_, ⟨⟩, h⟩
      exact h

theorem fails_payloadText_iff : Fails (payloadText x payload) ↔
    ∃ r, resolve? x payload = some r ∧ ∃ c, BeginsIn r c ∧ c.Failed x := by
  rw [payloadText]
  cases resolve? x payload with
  | none => exact iff_of_false (not_fails_ok _) nofun
  | some r =>
    dsimp only
    split
    · rename_i hkind
      have hobject : r.kind = .object := by simpa using hkind
      have hmembers : (∃ c, BeginsIn r c ∧ c.Failed x) ↔
          Fails (objectOr x ((objectMembers r).get? "variables".toList)) ∨
          ∃ o, operationKeys.findSome? (objectMembers r).get? = some o ∧
            Fails (staticText x o) := by
        rw [fails_objectOr_iff]
        constructor
        · rintro ⟨_, ⟨-, hv⟩ | ⟨-, ho⟩ | hother, h⟩
          · exact .inl ⟨_, hv, h⟩
          · exact .inr ⟨_, ho, h⟩
          · contradiction
        · rintro (⟨v, hv, h⟩ | ⟨o, ho, h⟩)
          · exact ⟨_, .beside hobject hv, h⟩
          · exact ⟨_, .operation hobject ho, h⟩
      simp only [Option.some.injEq, exists_eq_left', hmembers]
      cases operationKeys.findSome? (objectMembers r).get? with
      | none =>
        rw [fails_map_iff fun _ => (none, [])]
        exact (or_iff_left nofun).symm
      | some o =>
        rw [fails_both_iff fun bindings text => (text, bindings)]
        refine or_congr_right ⟨fun h => ⟨o, rfl, h⟩, ?_⟩
        rintro ⟨_, ⟨⟩, h⟩
        exact h
    · rename_i hkind
      have hother : r.kind ≠ .object := by simpa using hkind
      rw [fails_map_iff]
      constructor
      · intro h
        exact ⟨r, rfl, _, .text hother, h⟩
      · rintro ⟨_, ⟨⟩, _, ⟨hobject, -⟩ | ⟨hobject, -⟩ | _, h⟩
        · contradiction
        · contradiction
        · exact h

/-- A configuration stops the pass exactly if an evaluation of what it declares or of its payload
fails. -/
theorem stopsIff_visitConfig [Json.Nesting]
    (hwhole : ∀ payload t beside, payloadOf? config = some payload →
      payloadText x payload = .ok (some t, beside) → Whole t) (context : Text) :
    (visitConfig x config context).StopsIff
      ((∃ v, (objectMembers config).get? "variables".toList = some v ∧
        (Call.value 0 v).Failed x) ∨
      ∃ payload, payloadOf? config = some payload ∧ ∃ r, resolve? x payload = some r ∧
        ∃ c, BeginsIn r c ∧ c.Failed x) := by
  rw [← fails_objectOr_iff]
  refine .evaluation_bind fun declared _ => ?_
  cases hpayload : payloadOf? config with
  | none => exact (StopsIff.pure ()).congr (by simp)
  | some payload =>
    refine (StopsIff.evaluation_bind (Q := False) ?_).congr ?_
    · rintro ⟨text, beside⟩ htext
      match text with
      | none => exact .pure ()
      | some [] => exact .pure ()
      | some (c :: rest) =>
        exact .addPayload (hwhole payload _ beside hpayload htext) context _ ()
    · rw [or_false, fails_payloadText_iff]
      constructor
      · intro h
        exact ⟨payload, rfl, h⟩
      · rintro ⟨_, ⟨⟩, h⟩
        exact h

theorem isConfigOf_iff : IsConfigOf x call config ↔
    (calleeName? call).any httpClients.contains = true ∧ sent? x call = some config ∧
      config.kind = .object := by
  constructor
  · rintro ⟨hclient, ⟨first, more, hparts, hresolve⟩, hobject⟩
    refine ⟨hclient, ?_, hobject⟩
    rw [sent?, hparts]
    exact hresolve
  · rintro ⟨hclient, hsent, hobject⟩
    rw [sent?] at hsent
    split at hsent
    · rename_i first more hparts
      exact ⟨hclient, ⟨first, more, hparts, hsent⟩, hobject⟩
    · cases hsent

theorem IsConfigOf.sent?_eq (h : IsConfigOf x call config) : sent? x call = some config :=
  (isConfigOf_iff.mp h).2.1

theorem IsBodyOf.sent?_eq {body : Site} (h : IsBodyOf x call body) : sent? x call = some body := by
  obtain ⟨first, second, more, hparts, hresolve⟩ := h.argument
  rw [sent?, hparts]
  exact hresolve

theorem IsConfigOf.sentText?_eq {t : Text} {beside : Members Value} (h : IsConfigOf x call config)
    (hpayload : payloadOf? config = some payload)
    (ht : payloadText x payload = .ok (some t, beside)) : sentText? x call = some t := by
  rw [sentText?, if_pos h.client, h.sent?_eq, Option.bind_some, if_pos (by rw [h.object]; rfl),
    hpayload, Option.bind_some, ht]
  rfl

theorem IsConfigOf.sentText?_eq_none (h : IsConfigOf x call config)
    (hpayload : payloadOf? config = some payload) (hfails : Fails (payloadText x payload)) :
    sentText? x call = none := by
  obtain ⟨fault, hfault⟩ := hfails
  rw [sentText?, if_pos h.client, h.sent?_eq, Option.bind_some, if_pos (by rw [h.object]; rfl),
    hpayload, Option.bind_some, hfault]
  rfl

theorem client_of_sentText? {t : Text} (h : sentText? x call = some t) :
    (calleeName? call).any httpClients.contains = true := by
  rw [sentText?] at h
  split at h
  · assumption
  · cases h

theorem IsBodyOf.sentText?_eq {body : Site} {t : Text} (h : IsBodyOf x call body)
    (ht : staticText x body = .ok (some t)) : sentText? x call = some t := by
  obtain ⟨first, second, more, hparts, -⟩ := h.argument
  obtain ⟨a, ha, hparts⟩ := Option.map_eq_some_iff.mp hparts
  have hsecond : (call.child? .arguments).any (fun a => 1 < a.parts.length) = true := by
    rw [ha, Option.any_some, hparts]
    simp
  rw [sentText?, if_pos h.client, h.sent?_eq, Option.bind_some,
    if_neg (by simpa using h.other), if_pos hsecond, ht]
  rfl

/-- For a call that sends a configuration, only evaluations of the configuration are begun. -/
theorem IsConfigOf.begins_iff (h : IsConfigOf x call config) : (∃ c, Begins x call c ∧ c.Failed x) ↔
    (∃ v, (objectMembers config).get? "variables".toList = some v ∧ (Call.value 0 v).Failed x) ∨
      ∃ payload, payloadOf? config = some payload ∧ ∃ r, resolve? x payload = some r ∧
        ∃ c, BeginsIn r c ∧ c.Failed x := by
  constructor
  · rintro ⟨_, hbody | ⟨hconfig, hv⟩ | ⟨hconfig, hpayload, hr, hc⟩, hfailed⟩
    · cases h.sent?_eq.symm.trans hbody.sent?_eq
      exact absurd h.object hbody.other
    · cases h.sent?_eq.symm.trans hconfig.sent?_eq
      exact .inl ⟨_, hv, hfailed⟩
    · cases h.sent?_eq.symm.trans hconfig.sent?_eq
      exact .inr ⟨_, hpayload, _, hr, _, hc, hfailed⟩
  · rintro (⟨v, hv, hfailed⟩ | ⟨payload, hpayload, r, hr, c, hc, hfailed⟩)
    · exact ⟨_, .declared h hv, hfailed⟩
    · exact ⟨_, .payload h hpayload hr hc, hfailed⟩

theorem IsBodyOf.begins_iff {body : Site} (h : IsBodyOf x call body) :
    (∃ c, Begins x call c ∧ c.Failed x) ↔ (Call.text 0 body).Failed x := by
  constructor
  · rintro ⟨_, hbody | ⟨hconfig, -⟩ | ⟨hconfig, -, -, -⟩, hfailed⟩
    · cases h.sent?_eq.symm.trans hbody.sent?_eq
      exact hfailed
    · cases h.sent?_eq.symm.trans hconfig.sent?_eq
      exact absurd hconfig.object h.other
    · cases h.sent?_eq.symm.trans hconfig.sent?_eq
      exact absurd hconfig.object h.other
  · intro hfailed
    exact ⟨_, .body h, hfailed⟩

/-- Evaluations are only begun for calls that send a configuration or a body. -/
theorem Begins.cases {c : Call} (h : Begins x call c) :
    (∃ config, IsConfigOf x call config) ∨ ∃ body, IsBodyOf x call body := by
  cases h with
  | body h => exact .inr ⟨_, h⟩
  | declared h => exact .inl ⟨_, h⟩
  | payload h => exact .inl ⟨_, h⟩

/-- A call that sends neither a configuration nor a body is passed over. -/
theorem visitCall_of_not [Json.Nesting] (hconfig : ¬ ∃ config, IsConfigOf x call config)
    (hbody : ¬ ∃ body, IsBodyOf x call body) (context : Text) :
    visitCall x call context = pure () := by
  unfold visitCall
  split
  · rename_i hclient
    split
    · rfl
    · rfl
    · rename_i first more hparts
      split
      · rfl
      · rename_i config hresolve
        split
        · rename_i hkind
          exact absurd ⟨config, hclient, ⟨first, more, hparts, hresolve⟩, by simpa using hkind⟩
            hconfig
        · rename_i hkind
          cases more with
          | nil => rfl
          | cons second more =>
            exact absurd ⟨config, hclient, ⟨first, second, more, hparts, hresolve⟩,
              by simpa using hkind⟩ hbody
  · rfl

theorem visitCall_of_isBodyOf [Json.Nesting] {body : Site} (h : IsBodyOf x call body)
    (context : Text) : visitCall x call context = (do
      match ← Collecting.ofEvaluation (staticText x body) with
      | some (c :: rest) =>
        let _ ← addPayload (c :: rest) context []
      | _ => pure ()) := by
  obtain ⟨first, second, more, hparts, hresolve⟩ := h.argument
  have hresolve' : resolve? x ((second :: more).head?.getD first) = some body := hresolve
  rw [visitCall, if_pos h.client, hparts]
  dsimp only
  rw [hresolve']
  dsimp only
  rw [if_neg (by simpa using h.other)]
  rfl

/-- A call stops the pass exactly if an evaluation begun for it fails. -/
theorem stopsIff_visitCall [Json.Nesting] (hwhole : ∀ t ∈ sentText? x call, Whole t)
    (context : Text) : (visitCall x call context).StopsIff (∃ c, Begins x call c ∧ c.Failed x) := by
  by_cases hconfig : ∃ config, IsConfigOf x call config
  · obtain ⟨config, h⟩ := hconfig
    rw [visitCall_of_isConfigOf h]
    refine (stopsIff_visitConfig (fun payload t beside hpayload ht => ?_) context).congr
      h.begins_iff.symm
    exact hwhole t (h.sentText?_eq hpayload ht)
  · by_cases hbody : ∃ body, IsBodyOf x call body
    · obtain ⟨body, h⟩ := hbody
      rw [visitCall_of_isBodyOf h]
      refine (StopsIff.evaluation_bind (Q := False) fun text htext => ?_).congr
        ((or_iff_left id).trans h.begins_iff.symm)
      match text with
      | none => exact .pure ()
      | some [] => exact .pure ()
      | some (c :: rest) => exact .addPayload (hwhole _ (h.sentText?_eq htext)) context [] ()
    · rw [visitCall_of_not hconfig hbody]
      refine (StopsIff.pure ()).congr (iff_of_false id ?_)
      rintro ⟨c, hbegins, -⟩
      exact hbegins.cases.elim hconfig hbody

end OperationScan
