import OperationScan.Proofs.Scan.Precedence
import OperationScan.Proofs.Scan.RequestBody
import OperationScan.Proofs.Script.Literals
import OperationScan.Proofs.Script.Trees

/-!
# Three spellings of one request

A client may be handed an operation with its variables in the configuration itself, in an object
under it, or as JSON text. All three leave the same record. JSON text takes two more steps of
evaluation than an object under the configuration does, so the values among the variables may be
at most six levels below them.

* `IsRequestLiteral`: an object literal that holds an operation and its variables.
* `SpellsRequest`: a call hands such a literal to a client.
* `records_visitCall`: what is recorded of such a call.
* `visitCall_eq_of_spellsRequest`: all spellings of a request are recorded alike.
-/

namespace OperationScan

open Script Collecting

variable {x : ScopeIndex} {operation key : Text} {bindings : Members Value}

/-! ## Spellings -/

/-- An object literal that holds an operation in a string and, next to it, its variables. -/
structure IsRequestLiteral (operation : Text) (bindings : Members Value) (key : Text)
    (r : Site) : Prop where
  kind : r.kind = .object
  known : key ∈ operationKeys
  members : ∃ q v, objectMembers r = [(key, q), ("variables".toList, v)] ∧
    Denotes q (some (.string operation)) ∧ Denotes v (some (.object bindings))

/-- A call of an HTTP client with an object literal as its second argument. -/
structure CallsWith (call config : Site) : Prop where
  client : (calleeName? call).any httpClients.contains = true
  arguments : ∃ u a, (call.child? .arguments).map Site.parts = some [u, a] ∧
    a.unwrap? = some config
  kind : config.kind = .object

/-- An object literal holds nothing but a payload. -/
def HoldsPayload (config payload : Site) : Prop :=
  ∃ key ∈ bodyKeys, objectMembers config = [(key, payload)]

/-- A call makes JSON text of an argument. -/
structure Stringifies (call argument : Site) : Prop where
  kind : call.kind = .call
  target : isStringify call = true
  arguments : ∃ arguments, call.child? .arguments = some arguments ∧
    arguments.kind = .arguments ∧ arguments.parts = [argument]

/-- A call hands an operation with its variables to an HTTP client: as the configuration, as the
payload in the configuration, or as JSON text in its place. -/
inductive SpellsRequest (operation : Text) (bindings : Members Value) (call : Site) : Prop
  | direct {config : Site} {key : Text} (hcall : CallsWith call config)
      (hrequest : IsRequestLiteral operation bindings key config)
  | nested {config payload r : Site} {key : Text} (hcall : CallsWith call config)
      (hpayload : HoldsPayload config payload) (hr : payload.unwrap? = some r)
      (hrequest : IsRequestLiteral operation bindings key r)
  | stringified {config payload inner argument r : Site} {key : Text}
      (hcall : CallsWith call config) (hpayload : HoldsPayload config payload)
      (hinner : payload.unwrap? = some inner)
      (hstringifies : Stringifies inner argument) (hr : argument.unwrap? = some r)
      (hrequest : IsRequestLiteral operation bindings key r)

/-! ## Evaluation -/

theorem eq_of_mem_operationKeys (h : key ∈ operationKeys) :
    key = "query".toList ∨ key = "mutation".toList := by
  simpa [operationKeys] using h

theorem resolve?_of_unwrap? {s t : Site} (h : s.unwrap? = some t)
    (ht : t.kind.isReference = false) : resolve? x s = some t := by
  rw [resolve?, h, maxDepth, resolveFrom, if_neg (by simp [ht])]

theorem CallsWith.isConfigOf {call config : Site} (h : CallsWith call config) :
    IsConfigOf x call config := by
  obtain ⟨u, a, hparts, ha⟩ := h.arguments
  exact ⟨h.client, ⟨u, [a], hparts, resolve?_of_unwrap? ha (by rw [h.kind]; rfl)⟩, h.kind⟩

/-- Only a string literal stands for a string. -/
theorem staticText_of_denotes {s : Site} {t : Text} (h : Denotes s (some (.string t))) :
    staticText x s = .ok (some t) := by
  cases h with
  | string hs hkind => exact textWith_of_string hs hkind

theorem objectOr_of_denotes {s : Site} (h : Denotes s (some (.object bindings)))
    (hlevels : (Value.object bindings).Levels (maxDepth + 1)) :
    objectOr x (some s) = .ok bindings := by
  have hvalue : staticValue x s = .ok (some (.object bindings)) :=
    value_of_denotes h (by simpa using hlevels)
  rw [objectOr, hvalue]
  rfl

/-- The JSON object that carries an operation with its variables, under some name. -/
def literalValue (key operation : Text) (bindings : Members Value) : Value :=
  .object [(key, .string operation), ("variables".toList, .object bindings)]

theorem IsRequestLiteral.denotes {s r : Site} (hr : s.unwrap? = some r)
    (h : IsRequestLiteral operation bindings key r) :
    Denotes s (some (literalValue key operation bindings)) := by
  obtain ⟨q, v, hmembers, hq, hv⟩ := h.members
  have hall : List.Forall₂ Denotes ((objectMembers r).map Prod.snd)
      [some (.string operation), some (.object bindings)] := by
    rw [hmembers]
    exact .cons hq (.cons hv .nil)
  have hdenotes := Denotes.object hr h.kind hall
  rw [hmembers] at hdenotes
  exact hdenotes

theorem decodePayload_of_read [Json.Nesting] {body : Text} (hkey : key ∈ operationKeys)
    (h : Json.read body = .ok (literalValue key operation bindings)) :
    decodePayload body = .ok [⟨operation, [], bindings⟩] := by
  rw [decodePayload, h]
  rcases eq_of_mem_operationKeys hkey with rfl | rfl <;> rfl

theorem staticText_of_stringifies {call argument : Site} {v : Value} {body : Text}
    (h : Stringifies call argument) (hv : Denotes argument (some v)) (hlevels : v.Levels maxDepth)
    (hwrite : Json.write v = .ok body) : staticText x call = .ok (some body) := by
  obtain ⟨arguments, harguments, hkind, hparts⟩ := h.arguments
  have hcall : call.unwrap? = some call := Site.unwrap?_eq_self (by rw [h.kind]; rfl)
  have htagged : taggedText? call = none := by
    simp only [taggedText?, hcall, h.kind, harguments, hkind]
    rfl
  have hvalue : (evaluators x maxDepth).value argument = .ok (some v) :=
    value_of_denotes hv (by simpa using hlevels)
  change textWith x (evaluators x maxDepth) call = _
  simp only [textWith, hcall, h.kind, htagged]
  simp only [stringifyWith, h.target, if_true, harguments, hkind, hparts, hvalue, bind, Except.bind]
  rw [hwrite]
  rfl

/-! ## What is recorded -/

variable {config payload r : Site} {declared beside : Members Value} {context t : Text}

/-- A configuration with a payload is recorded as the payload is. -/
theorem records_visitConfig [Json.Nesting] {known : Members Value} {n : Nat} {l : List Sighting}
    (hdeclared : objectOr x ((objectMembers config).get? "variables".toList) = .ok declared)
    (hpayload : payloadOf? config = some payload)
    (htext : payloadText x payload = .ok (some t, beside))
    (hmerge : declared.merge beside = known)
    (hadd : (addPayload t context known).Records (.ok n) l)
    (hempty : t = [] → l = []) : (visitConfig x config context).Records (.ok ()) l := by
  subst hmerge
  rw [visitConfig, hdeclared, ofEvaluation_ok_bind, hpayload]
  dsimp only
  rw [htext, ofEvaluation_ok_bind]
  cases t with
  | nil =>
    rw [hempty rfl]
    exact .pure ()
  | cons c rest =>
    have hall : (addPayload (c :: rest) context (declared.merge beside) >>= fun _ =>
        (pure () : Collecting Unit)).Records (.ok ()) (l ++ []) := hadd.bind_ok (.pure ())
    rw [List.append_nil] at hall
    exact hall

theorem records_addPayload_of_not_json [Json.Nesting] (known : Members Value)
    (h : looksLikeJson t = false) : (addPayload t context known).Records
      (.ok (Sighting.ofMatches t context known [.standard]).length)
      (Sighting.ofMatches t context known [.standard]) := by
  rw [addPayload, if_neg (by simp [h])]
  exact .addMatches t context known [.standard]

theorem ofMatches_nil (known : Members Value) :
    Sighting.ofMatches [] context known [.standard] = [] := by
  have hnone : Pattern.standard.matchesIn [] = [] := by decide +kernel
  rw [Sighting.ofMatches, List.flatMap_singleton, hnone, List.map_nil]

/-- The operation and the variables of an object literal, as a payload. -/
theorem IsRequestLiteral.payloadText_eq {s : Site} (hr : s.unwrap? = some r)
    (h : IsRequestLiteral operation bindings key r)
    (hlevels : (Value.object bindings).Levels (maxDepth + 1)) :
    payloadText x s = .ok (some operation, bindings) := by
  obtain ⟨q, v, hmembers, hq, hv⟩ := h.members
  have hresolve : resolve? x s = some r := resolve?_of_unwrap? hr (by rw [h.kind]; rfl)
  have hvariables : Members.get? [(key, q), ("variables".toList, v)] "variables".toList = some v ∧
      operationKeys.findSome? (Members.get? [(key, q), ("variables".toList, v)]) = some q := by
    rcases eq_of_mem_operationKeys h.known with rfl | rfl <;> exact ⟨rfl, rfl⟩
  rw [payloadText, hresolve]
  dsimp only
  rw [if_pos (by rw [h.kind]; rfl), hmembers, hvariables.1, hvariables.2,
    objectOr_of_denotes hv hlevels]
  change (staticText x q >>= fun text => Except.ok (text, bindings)) = _
  rw [staticText_of_denotes hq]
  rfl

/-- The text that a call gives, as a payload. -/
theorem payloadText_of_call {call : Site} (hcall : payload.unwrap? = some call)
    (hkind : call.kind = .call) (htext : staticText x call = .ok (some t)) :
    payloadText x payload = .ok (some t, []) := by
  have hresolve : resolve? x payload = some call :=
    resolve?_of_unwrap? hcall (by rw [hkind]; rfl)
  rw [payloadText, hresolve]
  dsimp only
  rw [if_neg (by rw [hkind]; decide), htext]
  rfl

theorem HoldsPayload.eqs (h : HoldsPayload config payload) :
    objectOr x ((objectMembers config).get? "variables".toList) = .ok [] ∧
      payloadOf? config = some payload := by
  obtain ⟨key, hkey, hmembers⟩ := h
  rw [payloadOf?, hmembers]
  simp only [bodyKeys, List.mem_cons, List.not_mem_nil, or_false] at hkey
  rcases hkey with rfl | rfl <;> exact ⟨rfl, rfl⟩

theorem IsRequestLiteral.eqs (h : IsRequestLiteral operation bindings key config)
    (hlevels : (Value.object bindings).Levels (maxDepth + 1)) :
    objectOr x ((objectMembers config).get? "variables".toList) = .ok bindings ∧
      payloadOf? config = some config := by
  obtain ⟨q, v, hmembers, -, hv⟩ := h.members
  have hvariables := objectOr_of_denotes (x := x) hv hlevels
  rw [payloadOf?, hmembers]
  rcases eq_of_mem_operationKeys h.known with rfl | rfl <;> exact ⟨hvariables, rfl⟩

theorem IsRequestLiteral.nodup_names (h : IsRequestLiteral operation bindings key r) {n : Nat}
    (hlevels : (Value.object bindings).Levels (n + 1)) : (Members.names bindings).Nodup := by
  obtain ⟨q, v, -, -, hv⟩ := h.members
  exact (plain_of_denotes hv hlevels).1

/-- A literal that goes through JSON text comes back as it was. -/
theorem IsRequestLiteral.exists_body [Json.Nesting] {argument : Site}
    (hr : argument.unwrap? = some r) (h : IsRequestLiteral operation bindings key r)
    (hlevels : (Value.object bindings).Levels 7) : ∃ body, ∀ {call : Site},
      Stringifies call argument → staticText x call = .ok (some body) ∧
        decodePayload body = .ok [⟨operation, [], bindings⟩] := by
  have hvalue : (literalValue key operation bindings).Levels maxDepth := by
    refine List.forall_mem_cons.mpr ⟨trivial, List.forall_mem_cons.mpr ⟨hlevels, by simp⟩⟩
  have hplain : (literalValue key operation bindings).Plain Json.Nesting.limit :=
    (plain_of_denotes (h.denotes hr) hvalue).mono (Nat.le_trans (by decide) Json.Nesting.le_limit)
  obtain ⟨body, hwrite, hread, -⟩ := Json.read_write hplain
  exact ⟨body, fun hcall => ⟨staticText_of_stringifies hcall (h.denotes hr) hvalue hwrite,
    decodePayload_of_read h.known hread⟩⟩

/-- A call that hands a request to a client is recorded as the operations of its text, with the
variables of the request. -/
theorem records_visitCall [Json.Nesting] {call : Site} (h : SpellsRequest operation bindings call)
    (hjson : looksLikeJson operation = false) (hlevels : ∀ m ∈ bindings, m.2.Levels 6)
    (x : ScopeIndex) (context : Text) : (visitCall x call context).Records (.ok ())
      (Sighting.ofMatches operation context bindings [.standard]) := by
  have hseven : (Value.object bindings).Levels 7 := hlevels
  have hnine : (Value.object bindings).Levels (maxDepth + 1) := hseven.mono (by decide)
  have hempty : operation = [] →
      Sighting.ofMatches operation context bindings [.standard] = [] := by
    rintro rfl
    exact ofMatches_nil bindings
  have hadd : (addPayload operation context bindings).Records _ _ :=
    records_addPayload_of_not_json bindings hjson
  cases h with
  | @direct config key hcall hrequest =>
    -- the variables are found twice, as those of the configuration and as those of the payload
    have hmerge := Members.merge_self (hrequest.nodup_names hseven)
    have hself : config.unwrap? = some config :=
      Site.unwrap?_eq_self (by rw [hrequest.kind]; rfl)
    obtain ⟨hdeclared, hpayload⟩ := hrequest.eqs (x := x) hnine
    rw [visitCall_of_isConfigOf hcall.isConfigOf]
    exact records_visitConfig hdeclared hpayload (hrequest.payloadText_eq hself hnine)
      hmerge hadd hempty
  | nested hcall hpayload hr hrequest =>
    have hmerge : Members.merge [] bindings = bindings :=
      Members.ofList_eq_self (hrequest.nodup_names hseven)
    obtain ⟨hdeclared, hfound⟩ := hpayload.eqs (x := x)
    rw [visitCall_of_isConfigOf hcall.isConfigOf]
    exact records_visitConfig hdeclared hfound (hrequest.payloadText_eq hr hnine)
      hmerge hadd hempty
  | @stringified config payload inner argument r key hcall hpayload hinner hstringifies hr
      hrequest =>
    obtain ⟨hdeclared, hfound⟩ := hpayload.eqs (x := x)
    obtain ⟨body, hbody⟩ := hrequest.exists_body (x := x) hr hseven
    obtain ⟨htext, hdecode⟩ := hbody hstringifies
    have hpayloadText := payloadText_of_call hinner hstringifies.kind htext
    have hne : body ≠ [] := by
      rintro rfl
      exact absurd (looksLikeJson_of_decodePayload hdecode) (by decide)
    rw [visitCall_of_isConfigOf hcall.isConfigOf]
    exact records_visitConfig hdeclared hfound hpayloadText rfl
      (records_addPayload_of_decode hdecode (hrequest.nodup_names hseven) context)
      fun h => absurd h hne

/-- All spellings of a request are recorded alike: whatever is on record, a call leaves it as any
other one does that hands the same operation and the same variables to a client. The text must not
begin like a body, and the variables must not nest more than six levels deep. -/
theorem visitCall_eq_of_spellsRequest [Json.Nesting] {call call' : Site}
    (h : SpellsRequest operation bindings call) (h' : SpellsRequest operation bindings call')
    (hjson : looksLikeJson operation = false) (hlevels : ∀ m ∈ bindings, m.2.Levels 6)
    (x x' : ScopeIndex) (context : Text) (c : Collector) :
    (visitCall x call context).outcome c = (visitCall x' call' context).outcome c ∧
      (visitCall x call context).outcome c =
        (.ok (), c.record (Sighting.ofMatches operation context bindings [.standard])) := by
  have hfirst := records_visitCall h hjson hlevels x context c
  have hsecond := records_visitCall h' hjson hlevels x' context c
  exact ⟨hfirst.trans hsecond.symm, hfirst⟩

/-! ### A request with nested variables -/

def spelledOperation : String := "query A($f: F) \x7b a \x7d"

/-- An array with a comment in it. -/
def itemsLiteral : Node :=
  covering .array "" [covering .number "1_0" [], covering .comment "/* ten */" [],
    covering .nullWord "null" [], covering .trueWord "true" []]

def variablesLiteral : Node :=
  objectOf [("f", objectOf [("n", itemsLiteral)]), ("s", quoted "\\u00e9\\n")]

def spelledVariables : Members Value :=
  [("f".toList, .object [("n".toList, .array [.int 10, .null, .bool true])]),
    ("s".toList, .string "é\n".toList)]

def requestMembers : List (String × Node) :=
  [("query", quoted spelledOperation), ("variables", variablesLiteral)]

theorem denotes_objectOf (members : List (String × Node)) {vs : List (Option Value)}
    (hnames : (members.map fun m => m.1.toList).Nodup)
    (h : List.Forall₂ (fun m v => ∀ above, Denotes ⟨m.2.as .value, above⟩ v) members vs)
    (role : Role) (above : List Node) : Denotes ⟨(objectOf members).as role, above⟩
      (some (.object (knownMembers (members.map fun m => m.1.toList) vs))) := by
  have hmembers := objectMembers_objectOf members hnames role above
  have hnames' : Members.names (objectMembers ⟨(objectOf members).as role, above⟩) =
      members.map fun m => m.1.toList := by
    rw [hmembers, Members.names, List.map_map]
    rfl
  rw [← hnames']
  refine .object rfl rfl ?_
  rw [hmembers, List.map_map, List.forall₂_map_left_iff]
  exact h.imp fun m v hv => hv _

theorem denotes_quoted {t : String} {v : Text} (h : stringValue (quoted t) = v)
    (above : List Node) : Denotes ⟨(quoted t).as .value, above⟩ (some (.string v)) := by
  subst h
  exact .string (s := ⟨(quoted t).as .value, above⟩) rfl rfl

theorem denotes_itemsLiteral (above : List Node) :
    Denotes ⟨itemsLiteral.as .value, above⟩ (some (.array [.int 10, .null, .bool true])) := by
  have hten : (10 : Int).natAbs < 10 ^ Number.digitLimit :=
    Nat.lt_of_le_of_lt (by decide) (Nat.lt_pow_self (by decide))
  have hitems : List.Forall₂ Denotes (Site.children ⟨itemsLiteral.as .value, above⟩)
      [some (.int 10), none, some .null, some (.bool true)] :=
    .cons (.integer rfl rfl rfl hten) <| .cons (.comment rfl) <|
      .cons (.nullWord rfl rfl) <| .cons (.trueWord rfl rfl) .nil
  exact .array rfl rfl hitems

theorem denotes_variablesLiteral (above : List Node) :
    Denotes ⟨variablesLiteral.as .value, above⟩ (some (.object spelledVariables)) := by
  have hf (above : List Node) : Denotes ⟨(objectOf [("n", itemsLiteral)]).as .value, above⟩
      (some (.object [("n".toList, .array [.int 10, .null, .bool true])])) :=
    denotes_objectOf [("n", itemsLiteral)] (by decide)
      (.cons denotes_itemsLiteral .nil) .value above
  have hs := denotes_quoted (t := "\\u00e9\\n") (v := "é\n".toList) (by decide +kernel)
  exact denotes_objectOf [("f", objectOf [("n", itemsLiteral)]), ("s", quoted "\\u00e9\\n")]
    (by decide) (.cons hf (.cons hs .nil)) .value above

theorem isRequestLiteral_requestMembers (role : Role) (above : List Node) :
    IsRequestLiteral spelledOperation.toList spelledVariables "query".toList
      ⟨(objectOf requestMembers).as role, above⟩ := by
  have hnodup : (requestMembers.map fun m => m.1.toList).Nodup := by decide
  refine ⟨rfl, by decide, _, _, objectMembers_objectOf requestMembers hnodup role above, ?_, ?_⟩
  · exact denotes_quoted (by decide +kernel) _
  · exact denotes_variablesLiteral _

/-- A call of a client with a configuration. -/
def clientCall (client : String) (members : List (String × Node)) : Site :=
  ⟨callOf (covering .identifier client []) [quoted "/graphql", objectOf members], []⟩

theorem exists_callsWith_clientCall (client : String) (hclient : client.toList ∈ httpClients)
    (members : List (String × Node)) :
    ∃ above, CallsWith (clientCall client members) ⟨objectOf members, above⟩ := by
  have hname : calleeName? (clientCall client members) = some client.toList :=
    congrArg some List.take_length
  refine ⟨_, ⟨?_, ⟨_, _, rfl, rfl⟩, rfl⟩⟩
  rw [hname]
  simpa using hclient

theorem exists_holdsPayload (key : String) (hkey : key.toList ∈ bodyKeys) (payload : Node)
    (above : List Node) : ∃ above',
      HoldsPayload ⟨objectOf [(key, payload)], above⟩ ⟨payload.as .value, above'⟩ :=
  ⟨_, _, hkey, objectMembers_objectOf [(key, payload)] (by simp) .plain above⟩

theorem exists_stringifies (members : List (String × Node)) (above : List Node) : ∃ above',
    Stringifies ⟨(stringifyOf (objectOf members)).as .value, above⟩ ⟨objectOf members, above'⟩ :=
  ⟨_, ⟨rfl, rfl, _, rfl, rfl, rfl⟩⟩

def directCall : Site := clientCall "post" requestMembers

def nestedCall : Site := clientCall "axios" [("data", objectOf requestMembers)]

def stringifiedCall : Site := clientCall "fetch" [("body", stringifyOf (objectOf requestMembers))]

theorem spellsRequest_directCall :
    SpellsRequest spelledOperation.toList spelledVariables directCall := by
  obtain ⟨above, hcall⟩ := exists_callsWith_clientCall "post" (by decide) requestMembers
  exact .direct hcall (isRequestLiteral_requestMembers .plain above)

theorem spellsRequest_nestedCall :
    SpellsRequest spelledOperation.toList spelledVariables nestedCall := by
  obtain ⟨above, hcall⟩ := exists_callsWith_clientCall "axios" (by decide)
    [("data", objectOf requestMembers)]
  obtain ⟨above', hpayload⟩ := exists_holdsPayload "data" (by decide) (objectOf requestMembers)
    above
  exact .nested hcall hpayload rfl (isRequestLiteral_requestMembers .value above')

theorem spellsRequest_stringifiedCall :
    SpellsRequest spelledOperation.toList spelledVariables stringifiedCall := by
  obtain ⟨above, hcall⟩ := exists_callsWith_clientCall "fetch" (by decide)
    [("body", stringifyOf (objectOf requestMembers))]
  obtain ⟨above', hpayload⟩ := exists_holdsPayload "body" (by decide)
    (stringifyOf (objectOf requestMembers)) above
  obtain ⟨above'', hstringifies⟩ := exists_stringifies requestMembers above'
  exact .stringified hcall hpayload rfl hstringifies rfl
    (isRequestLiteral_requestMembers .plain above'')

/-- All three spellings record the operation with both values. -/
theorem visitCall_eq_of_spellsRequest_clients :
    (visitCall .empty directCall []).outcome (.empty [] []) =
      (visitCall .empty nestedCall []).outcome (.empty [] []) ∧
    (visitCall .empty directCall []).outcome (.empty [] []) =
      (visitCall .empty stringifiedCall []).outcome (.empty [] []) ∧
    ((visitCall .empty directCall []).outcome (.empty [] [])).2.operations.map
      (fun o => (Json.write (.object o.bindings)).toOption) =
        [some "\x7b\"f\": \x7b\"n\": [10, null, true]\x7d, \"s\": \"\\u00e9\\n\"\x7d".toList] := by
  have hjson : looksLikeJson spelledOperation.toList = false := by decide +kernel
  have hlevels : ∀ m ∈ spelledVariables, m.2.Levels 6 := by
    simp [spelledVariables, Value.Levels]
  obtain ⟨hnested, hrecord⟩ := visitCall_eq_of_spellsRequest spellsRequest_directCall
    spellsRequest_nestedCall hjson hlevels .empty .empty [] (.empty [] [])
  obtain ⟨hstringified, -⟩ := visitCall_eq_of_spellsRequest spellsRequest_directCall
    spellsRequest_stringifiedCall hjson hlevels .empty .empty [] (.empty [] [])
  refine ⟨hnested, hstringified, ?_⟩
  rw [hrecord]
  decide +kernel

end OperationScan
