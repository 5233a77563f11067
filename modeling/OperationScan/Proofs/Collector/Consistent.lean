import OperationScan.Proofs.Scan.Sightings
import OperationScan.Proofs.Text.Respaced
import OperationScan.Proofs.Value.Members

/-!
# What a collector holds at any time

The operations on record, the signatures they are found under and the counts beside them stay in
step, whatever is called in whatever order.

* `Collector.Consistent`: the invariant.
* `Collector.Consistent.see`: one sighting keeps it, from `Collector.add_cases`.
* `Collector.Call`, `Collector.perform`: the calls that change a collector. Each records sightings
  (`Collector.exists_perform_eq_record`).
* `Collector.consistent_history`: the invariant after every call of every history, together with
  what the call may have changed and what its answer says about that.
-/

namespace OperationScan.Collector

/-- The operation found under a signature. -/
def find? (c : Collector) (signature : Text) : Option Operation :=
  c.operations.find? fun o => o.signature == signature

/-- Operations, signatures and counts are in step. -/
structure Consistent (c : Collector) : Prop where
  signature : ∀ o ∈ c.operations, o.signature = normalize o.rawText
  signature_ne : ∀ o ∈ c.operations, o.signature ≠ []
  trimmed : ∀ o ∈ c.operations, Text.Trimmed o.rawText
  source : ∀ o ∈ c.operations, o.source = c.source
  origin : ∀ o ∈ c.operations, o.origin = c.origin
  signatures : c.signatures.Nodup
  found : ∀ t o, c.find? t = some o ↔ o ∈ c.operations ∧ o.signature = t
  names : c.counts.names.Nodup
  counts : ∀ context, (c.counts.get? context).getD 0 =
    c.operations.countP fun o => o.context == context
  counted : ∀ context n, c.counts.get? context = some n → 0 < n
  total : (c.counts.map Prod.snd).sum = c.size

theorem consistent_empty (source origin : Text) : (empty source origin).Consistent where
  signature := by simp [empty]
  signature_ne := by simp [empty]
  trimmed := by simp [empty]
  source := by simp [empty]
  origin := by simp [empty]
  signatures := by simp [empty, signatures]
  found := by simp [empty, find?]
  names := by simp [empty, Members.names]
  counts := by simp [empty, Members.get?_nil]
  counted := by simp [empty, Members.get?_nil]
  total := rfl

/-! ## One sighting -/

/-- Where no signature occurs twice, an operation is found under its signature and under no
other. -/
theorem find?_eq_some_iff {c : Collector} (h : c.signatures.Nodup) (t : Text) (o : Operation) :
    c.find? t = some o ↔ o ∈ c.operations ∧ o.signature = t := by
  unfold find?
  unfold signatures at h
  generalize c.operations = ops at h ⊢
  induction ops with
  | nil => simp
  | cons p ops ih =>
    rw [List.map_cons, List.nodup_cons] at h
    rw [List.find?_cons]
    by_cases hp : p.signature = t
    · rw [beq_iff_eq.mpr hp]
      constructor
      · rintro ⟨⟩
        exact ⟨by simp, hp⟩
      · rintro ⟨ho, hsame⟩
        rcases List.mem_cons.mp ho with rfl | ho
        · rfl
        · exact absurd (List.mem_map.mpr ⟨o, ho, hsame.trans hp.symm⟩) h.1
    · rw [beq_eq_false_iff_ne.mpr hp, ih h.2]
      constructor
      · rintro ⟨ho, hsame⟩
        exact ⟨by simp [ho], hsame⟩
      · rintro ⟨ho, hsame⟩
        rcases List.mem_cons.mp ho with rfl | ho
        · exact absurd hsame hp
        · exact ⟨ho, hsame⟩

theorem forall_operations_push {c : Collector} {o : Operation} {p : Operation → Prop}
    (h : ∀ x ∈ c.operations, p x) (ho : p o) : ∀ x ∈ (c.push o).operations, p x := by
  intro x hx
  rcases List.mem_append.mp hx with hx | hx
  · exact h x hx
  · rwa [List.mem_singleton.mp hx]

theorem countP_operations_push (c : Collector) (o : Operation) (context : Text) :
    (c.push o).operations.countP (fun x => x.context == context) =
      c.operations.countP (fun x => x.context == context) +
        if context = o.context then 1 else 0 := by
  change (c.operations ++ [o]).countP _ = _
  rw [List.countP_append, List.countP_singleton]
  by_cases hcontext : context = o.context
  · simp [hcontext]
  · simp [hcontext, Ne.symm hcontext]

/-- A new operation of this input, properly made, may be recorded. -/
theorem Consistent.push {c : Collector} (h : c.Consistent) {o : Operation}
    (hsignature : o.signature = normalize o.rawText) (hne : o.signature ≠ [])
    (htrimmed : Text.Trimmed o.rawText) (hsource : o.source = c.source)
    (horigin : o.origin = c.origin) (hnew : o.signature ∉ c.signatures) :
    (c.push o).Consistent := by
  have hnodup : (c.push o).signatures.Nodup := by
    rw [signatures_push, List.nodup_append]
    refine ⟨h.signatures, by simp, ?_⟩
    rintro a ha b hb rfl
    exact hnew (List.mem_singleton.mp hb ▸ ha)
  have hget : ∀ context, (c.push o).counts.get? context =
      if context = o.context then some ((c.counts.get? o.context).getD 0 + 1)
      else c.counts.get? context :=
    Members.get?_put _ o.context _
  constructor
  · exact forall_operations_push h.signature hsignature
  · exact forall_operations_push h.signature_ne hne
  · exact forall_operations_push h.trimmed htrimmed
  · exact forall_operations_push h.source hsource
  · exact forall_operations_push h.origin horigin
  · exact hnodup
  · exact find?_eq_some_iff hnodup
  · exact Members.nodup_names_put h.names _ _
  · intro context
    rw [countP_operations_push, hget, ← h.counts context]
    split
    · rename_i hcontext
      rw [hcontext, Option.getD_some]
    · rfl
  · intro context n hn
    rw [hget] at hn
    split at hn
    · cases hn
      exact Nat.succ_pos _
    · exact h.counted context n hn
  · have hsize : (c.push o).size = c.size + 1 := by simp [size, Collector.push]
    rw [hsize, ← h.total]
    exact Members.sum_put_succ h.names o.context

theorem Consistent.see {c : Collector} (h : c.Consistent) (s : Sighting) :
    (c.see s).Consistent := by
  rw [Collector.see]
  rcases c.add_cases s.text s.context s.known with ⟨-, hadd⟩ | ⟨hne, hnew, hadd⟩
  · rw [hadd]
    exact h
  · rw [hadd]
    exact h.push rfl hne (Text.trimmed_trim s.text) rfl rfl hnew

theorem Consistent.record {c : Collector} (h : c.Consistent) (l : List Sighting) :
    (c.record l).Consistent :=
  record_induction (P := Consistent) (fun _ s hc => hc.see s) c l h

/-- What `add` gives back is what has come to the operations. -/
theorem operations_add (c : Collector) (text context : Text) (known : Members Value) :
    (c.add text context known).2.operations =
      c.operations ++ (c.add text context known).1.toList := by
  rcases c.add_cases text context known with ⟨-, hadd⟩ | ⟨-, -, hadd⟩
  · rw [hadd]
    simp
  · rw [hadd]
    rfl

theorem size_add (c : Collector) (text context : Text) (known : Members Value) :
    (c.add text context known).2.size =
      c.size + (c.add text context known).1.toList.length := by
  rw [size, size, operations_add, List.length_append]

/-! ## What stays -/

/-- One collector comes from another one of the same input, whose operations have stayed in
front. -/
structure Extends (c c' : Collector) : Prop where
  source : c'.source = c.source
  origin : c'.origin = c.origin
  operations : c.operations <+: c'.operations

theorem Extends.refl (c : Collector) : c.Extends c := ⟨rfl, rfl, List.prefix_refl _⟩

theorem Extends.trans {c c' c'' : Collector} (h : c.Extends c') (h' : c'.Extends c'') :
    c.Extends c'' :=
  ⟨h'.source.trans h.source, h'.origin.trans h.origin, h.operations.trans h'.operations⟩

theorem extends_see (c : Collector) (s : Sighting) : c.Extends (c.see s) := by
  have hoperations := c.operations_add s.text s.context s.known
  rw [Collector.see]
  rcases c.add_cases s.text s.context s.known with ⟨-, hadd⟩ | ⟨-, -, hadd⟩
  · rw [hadd]
    exact Extends.refl c
  · rw [hadd] at hoperations ⊢
    exact ⟨rfl, rfl, ⟨_, hoperations.symm⟩⟩

theorem extends_record (c : Collector) (l : List Sighting) : c.Extends (c.record l) :=
  record_induction (P := c.Extends) (fun d s hd => hd.trans (d.extends_see s)) c l (.refl c)

/-! ## New operations in a whole text -/

theorem size_addUnclaimed (claimed : List (Nat × Nat)) (state : Nat × Collector)
    (m : PatternMatch) :
    (addUnclaimed claimed state m).2.size + state.1 =
      state.2.size + (addUnclaimed claimed state m).1 := by
  have hsize := state.2.size_add m.text m.context []
  unfold addUnclaimed
  split
  · rfl
  · split
    · rename_i h
      rw [h] at hsize
      simp only [Option.toList_some, List.length_singleton] at hsize
      simp only [hsize]
      omega
    · rename_i h
      rw [h] at hsize
      simp only [Option.toList_none, List.length_nil] at hsize
      simp only [hsize]
      omega

/-- The number that the scan of a whole text gives back is that of the operations it adds. -/
theorem size_scanWholeText (t : Text) (claimed : List (Nat × Nat)) (c : Collector) :
    (scanWholeText t claimed c).2.size = c.size + (scanWholeText t claimed c).1 := by
  have hstep : ∀ (state : Nat × Collector), state.2.size = c.size + state.1 → ∀ m : PatternMatch,
      (addUnclaimed claimed state m).2.size = c.size + (addUnclaimed claimed state m).1 := by
    intro state h m
    have := size_addUnclaimed claimed state m
    omega
  -- the figures agree after every match, so after every pattern
  refine List.foldlRecOn (motive := fun state : Nat × Collector =>
    state.2.size = c.size + state.1) _ _ rfl fun state h p _ => ?_
  exact List.foldlRecOn (motive := fun state : Nat × Collector =>
    state.2.size = c.size + state.1) _ _ h fun state h m _ => hstep state h m

/-! ## Histories -/

/-- A call that may change a collector. -/
inductive Call where
  | add (text context : Text) (known : Members Value)
  | addMatches (text context : Text) (known : Members Value) (patterns : List Pattern)
  | addPayload (text context : Text) (known : Members Value)
  | scanComments (text : Text)
  | scanStrings (text : Text) (aggressive : Bool)
  | scanWholeText (text : Text) (claimed : List (Nat × Nat))

/-- The collector after a call. A call that is stopped by a fault keeps what it has recorded. -/
def perform [Json.Nesting] (c : Collector) : Call → Collector
  | .add text context known => (c.add text context known).2
  | .addMatches text context known patterns => (c.addMatches text context known patterns).2
  | .addPayload text context known => ((OperationScan.addPayload text context known).outcome c).2
  | .scanComments text => (OperationScan.scanComments text c).2
  | .scanStrings text aggressive => ((OperationScan.scanStrings text aggressive).outcome c).2
  | .scanWholeText text claimed => (OperationScan.scanWholeText text claimed c).2

/-- The collector after calls in order. -/
def performAll [Json.Nesting] (c : Collector) (calls : List Call) : Collector :=
     calls.foldl perform c

/-- Every call records sightings. -/
theorem exists_perform_eq_record [Json.Nesting] (call : Call) :
    ∃ l, ∀ c, perform c call = c.record l := by
  cases call with
  | add text context known => exact ⟨[⟨text, context, known⟩], fun _ => rfl⟩
  | addMatches text context known patterns =>
    exact ⟨_, fun c => congrArg Prod.snd (c.addMatches_eq text context known patterns)⟩
  | addPayload text context known =>
    obtain ⟨_, l, hl, -⟩ := sights_addPayload text context known
    exact ⟨l, fun c => congrArg Prod.snd (hl c)⟩
  | scanComments text =>
    obtain ⟨_, l, hl, -⟩ := exists_scanComments text
    exact ⟨l, fun c => congrArg Prod.snd (hl c)⟩
  | scanStrings text aggressive =>
    obtain ⟨_, l, hl, -⟩ := sights_scanSpans aggressive (QuotedSpan.all text)
    exact ⟨l, fun c => congrArg Prod.snd (hl c)⟩
  | scanWholeText text claimed =>
    obtain ⟨ls, hls, -⟩ := exists_scanWholeText text claimed
    exact ⟨ls.flatten, hls⟩

theorem exists_performAll_eq_record [Json.Nesting] (calls : List Call) :
    ∃ l, ∀ c, performAll c calls = c.record l := by
  induction calls with
  | nil => exact ⟨[], fun _ => rfl⟩
  | cons call calls ih =>
    obtain ⟨l, hl⟩ := exists_perform_eq_record call
    obtain ⟨l', hl'⟩ := ih
    refine ⟨l ++ l', fun c => ?_⟩
    rw [record_append, ← hl, ← hl']
    rfl

/-- After any history the collector is consistent, and so it is after one more call. The call adds
operations behind those on record; `add` gives back the one it adds, and the scan of a whole text
their number. -/
theorem consistent_history [Json.Nesting] (source origin : Text) (calls : List Call) (call : Call) :
    let c := (empty source origin).performAll calls
    let c' := c.perform call
    c.Consistent ∧ c'.Consistent ∧
      c'.source = source ∧ c'.origin = origin ∧ c.operations <+: c'.operations ∧
      (∀ text context known, call = .add text context known →
        c'.operations = c.operations ++ (c.add text context known).1.toList ∧
        ((c.add text context known).1.isSome ↔ c'.size = c.size + 1)) ∧
      (∀ text claimed, call = .scanWholeText text claimed →
        c'.size = c.size + (OperationScan.scanWholeText text claimed c).1) := by
  intro c c'
  obtain ⟨l, hl⟩ := exists_performAll_eq_record calls
  obtain ⟨l', hl'⟩ := exists_perform_eq_record call
  have hc : c = (empty source origin).record l := hl _
  have hc' : c' = c.record l' := hl' c
  have hconsistent : c.Consistent := hc ▸ (consistent_empty source origin).record l
  have hextends : (empty source origin).Extends c := hc ▸ extends_record _ l
  have hnext : c.Extends c' := hc' ▸ extends_record c l'
  have hall := hextends.trans hnext
  refine ⟨hconsistent, hc' ▸ hconsistent.record l', hall.source, hall.origin, hnext.operations,
    ?_, ?_⟩
  · rintro text context known rfl
    refine ⟨c.operations_add text context known, ?_⟩
    have hsize : c'.size = _ := c.size_add text context known
    cases hadd : (c.add text context known).1 with
    | none =>
      rw [hadd] at hsize
      simp [hsize]
    | some o =>
      rw [hadd] at hsize
      simp [hsize]
  · rintro text claimed rfl
    exact size_scanWholeText text claimed c

/-- A query, a comment that holds a mutation, and another spelling of the query. -/
theorem consistent_history_repeated :
    let c := (empty [] []).performAll [.add "query \x7b a \x7d".toList "x".toList [],
      .scanComments "// mutation \x7b b \x7d".toList]
    let c' := c.perform (.add "query  \x7b a \x7d".toList [] [])
    c.Consistent ∧ c'.Consistent ∧ c.operations <+: c'.operations ∧ c.size = 2 ∧ c'.size = 2 := by
  intro c c'
  obtain ⟨hc, hc', -, -, hprefix, -⟩ := consistent_history [] []
    [.add "query \x7b a \x7d".toList "x".toList [],
      .scanComments "// mutation \x7b b \x7d".toList]
    (.add "query  \x7b a \x7d".toList [] [])
  exact ⟨hc, hc', hprefix, by decide +kernel, by decide +kernel⟩

end OperationScan.Collector
