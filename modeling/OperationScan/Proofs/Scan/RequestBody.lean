import OperationScan.Proofs.Json.Distinct
import OperationScan.Proofs.Json.Printable
import OperationScan.Proofs.Pattern.Standard
import OperationScan.Proofs.Scan.Sightings

/-!
# Request bodies are recorded as they were written

* `requestBody`: the JSON object that carries an operation with its variables.
* `exists_write_requestBody`: such a body can be written, and it is read as the one request.
* `records_addPayload`: the scan of a written body records its operation with its variables.
-/

namespace OperationScan

open Collecting Json

/-- The JSON object that carries an operation with its variables. -/
def requestBody (operation : Text) (bindings : Members Value) : Value :=
  .object [("query".toList, .string operation), ("variables".toList, .object bindings)]

/-- A text on one line that begins like a body and is read as one request. -/
structure IsRequest [Nesting] (operation : Text) (bindings : Members Value) (t : Text) :
    Prop where
  begins : ∃ u, t = '\x7b' :: '"' :: ("query".toList ++ u)
  oneLine : '\n' ∉ t
  decode : decodePayload t = .ok [⟨operation, [], bindings⟩]

variable {operation body : Text} {bindings : Members Value} {depth : Nat}

theorem plain_requestBody (h : (Value.object bindings).Plain depth) :
    (requestBody operation bindings).Plain (depth + 1) := by
  have hnames : ["query".toList, "variables".toList].Nodup := by decide
  refine ⟨hnames, ?_⟩
  simp only [List.forall_mem_cons, List.not_mem_nil, false_implies, implies_true, and_true]
  exact ⟨by cases depth <;> trivial, h⟩

theorem exists_of_write_object {name t : Text} {v : Value} {members : Members Value}
    (h : write (.object ((name, v) :: members)) = .ok t) :
    ∃ u, t = '\x7b' :: (encode name ++ u) := by
  rw [write, writeAt, writeMembers] at h
  cases hpiece : writeAt .oneLine 1 v with
  | error fault =>
    rw [hpiece] at h
    cases h
  | ok piece =>
    cases hpieces : writeMembers .oneLine 1 members with
    | error fault =>
      rw [hpiece, hpieces] at h
      cases h
    | ok pieces =>
      rw [hpiece, hpieces] at h
      cases h
      obtain ⟨u, hu⟩ := exists_join_cons ", ".toList (encode name ++ ':' :: ' ' :: piece) pieces
      have hjoin : Text.join (Layout.oneLine.separator 0)
          ((encode name ++ ':' :: ' ' :: piece) :: pieces) = _ := hu
      rw [bracket_cons, hjoin, List.append_assoc, List.append_assoc]
      exact ⟨_, rfl⟩

/-- A request body can be written, and it is read as the request that it was written for. -/
theorem exists_write_requestBody [Nesting] (operation : Text)
    (h : (Value.object bindings).Plain (Nesting.limit - 1)) :
    ∃ body, write (requestBody operation bindings) = .ok body ∧
      IsRequest operation bindings body := by
  have hplain : (requestBody operation bindings).Plain Nesting.limit :=
    (plain_requestBody h).mono (Nat.sub_add_cancel (Nat.le_trans (by decide) Nesting.le_limit)).le
  obtain ⟨body, hwrite, hread, -⟩ := read_write hplain
  refine ⟨body, hwrite, ?_, ?_, ?_⟩
  · obtain ⟨u, hu⟩ := exists_of_write_object hwrite
    exact ⟨'"' :: u, hu⟩
  · intro hfeed
    exact absurd (printable_write hplain hwrite _ hfeed) (by decide)
  · rw [decodePayload, hread]
    rfl

theorem ofMatches_standard (context : Text)
    (h : Pattern.standard.matchesIn operation = [wholeMatch operation]) :
    Sighting.ofMatches operation context bindings [.standard] =
      [⟨operation, context, bindings⟩] := by
  rw [Sighting.ofMatches, List.flatMap_singleton, h]
  rfl

/-- What is recorded of a body that holds one request. -/
theorem records_addPayload_of_decode [Nesting]
    (hdecode : decodePayload body = .ok [⟨operation, [], bindings⟩])
    (hnames : (Members.names bindings).Nodup) (context : Text) :
    (addPayload body context []).Records
      (.ok (Sighting.ofMatches operation context bindings [.standard]).length)
      (Sighting.ofMatches operation context bindings [.standard]) := by
  -- the names are distinct, so that merging keeps the variables in their order
  have hmerge : Members.merge [] bindings = bindings := Members.ofList_eq_self hnames
  have hrequest : (addRequest context [] ⟨operation, [], bindings⟩).Records
      (.ok (Sighting.ofMatches operation context bindings [.standard]).length)
      (Sighting.ofMatches operation context bindings [.standard]) := by
    rw [addRequest, hmerge]
    exact Records.addMatches operation context bindings [.standard]
  rw [addPayload, if_pos (looksLikeJson_of_decodePayload hdecode), hdecode]
  have hrest (n : Nat) :
      (addRequests context [] [] >>= fun m => pure (n + m)).Records (.ok n) [] :=
    (Records.pure 0).bind_ok (Records.pure n)
  have hall : (addRequests context [] [⟨operation, [], bindings⟩]).Records (.ok _) (_ ++ []) :=
    hrequest.bind_ok (hrest _)
  rw [List.append_nil] at hall
  exact hall

/-- The scan of a written body records its operation with its variables. -/
theorem records_addPayload [Nesting] (hbody : IsRequest operation bindings body)
    (hnames : (Members.names bindings).Nodup)
    (hmatch : Pattern.standard.matchesIn operation = [wholeMatch operation]) (context : Text) :
    (addPayload body context []).Records (.ok 1) [⟨operation, context, bindings⟩] := by
  have hrecords := records_addPayload_of_decode hbody.decode hnames context
  rw [ofMatches_standard context hmatch] at hrecords
  exact hrecords

end OperationScan
