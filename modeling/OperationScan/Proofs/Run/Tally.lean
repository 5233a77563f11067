import OperationScan.Proofs.Task.Process
import OperationScan.Run.Tally

/-!
# What a tally says about the results it has taken in

The figures of a tally are those of a list of results. Reordering the results reorders the errors
and may change which operation stays for a signature, but not the signatures.

* `Tally.firsts`: the operations in a list whose signatures come for the first time.
* `Tally.foldl_addOperation`: these are the ones that stay.
* `Tally.mem_signatures_firsts`, `Tally.nodup_signatures_firsts`: their signatures.
* `Tally.exists_first_of_mem_firsts`: each comes from the first result with its signature.
* `Tally.identities_perm`: regular operations that stay are the same in any order.
* `Tally.Adds`: the figures of a tally in terms of the results taken in since an earlier one.
-/

namespace OperationScan.Tally

/-! ## Operations that stay -/

/-- The operations in a list whose signatures are neither known nor those of operations in front of
them. -/
def firsts (known : List Text) (found : List Operation) : List Operation :=
  (found.zipIdx.filter fun x =>
    x.1.signature ∉ known ++ (found.take x.2).map Operation.signature).map Prod.fst

variable {known known' : List Text} {found more : List Operation} {o : Operation}

@[simp]
theorem firsts_nil (known : List Text) : firsts known [] = [] := rfl

/-- For what comes later the signatures in front of it are known. -/
theorem firsts_append (known : List Text) (found more : List Operation) :
    firsts known (found ++ more) =
      firsts known found ++ firsts (known ++ found.map Operation.signature) more := by
  have hfront : found.zipIdx.filter (fun x =>
        x.1.signature ∉ known ++ ((found ++ more).take x.2).map Operation.signature) =
      found.zipIdx.filter fun x =>
        x.1.signature ∉ known ++ (found.take x.2).map Operation.signature := by
    refine List.filter_congr fun x hx => ?_
    rw [List.take_append_of_le_length (Nat.le_of_lt (List.snd_lt_of_mem_zipIdx hx))]
  have hbehind : ∀ x : Operation × Nat,
      known ++ ((found ++ more).take (found.length + x.2)).map Operation.signature =
        known ++ found.map Operation.signature ++ (more.take x.2).map Operation.signature := by
    intro x
    rw [List.take_length_add_append, List.map_append, List.append_assoc]
  have hshifted : more.zipIdx found.length = more.zipIdx.map fun x => (x.1, found.length + x.2) :=
    List.zipIdx_eq_map_add
  rw [firsts, List.zipIdx_append, List.filter_append, List.map_append, hfront, Nat.zero_add,
    hshifted, List.filter_map, List.map_map]
  simp only [firsts, Function.comp_def, hbehind]

/-- The first operation of a list stays unless its signature is known. -/
theorem firsts_cons (known : List Text) (o : Operation) (found : List Operation) :
    firsts known (o :: found) =
      (if o.signature ∈ known then [] else [o]) ++ firsts (known ++ [o.signature]) found := by
  have hone : firsts known [o] = if o.signature ∈ known then [] else [o] := by
    by_cases h : o.signature ∈ known <;> simp [firsts, h]
  rw [← hone]
  exact firsts_append known [o] found

/-- Only which signatures are known counts. -/
theorem firsts_congr (h : ∀ t, t ∈ known ↔ t ∈ known') (found : List Operation) :
    firsts known found = firsts known' found := by
  simp only [firsts, List.mem_append, h]

/-- What stays behind known signatures is what would stay without them, less their operations. -/
theorem firsts_eq_filter (known : List Text) (found : List Operation) :
    firsts known found = (firsts [] found).filter fun o => o.signature ∉ known := by
  simp only [firsts, List.filter_map, List.filter_filter, Function.comp_def, List.nil_append,
    List.mem_append, not_or, Bool.decide_and]

theorem mem_of_mem_firsts (h : o ∈ firsts known found) : o ∈ found := by
  obtain ⟨x, hx, rfl⟩ := List.mem_map.mp h
  exact List.fst_mem_of_mem_zipIdx (List.mem_filter.mp hx).1

/-- Every new signature stays. -/
theorem mem_signatures_firsts (known : List Text) (found : List Operation) (t : Text) :
    t ∈ (firsts known found).map Operation.signature ↔
      t ∈ found.map Operation.signature ∧ t ∉ known := by
  induction found generalizing known with
  | nil => simp
  | cons o found ih =>
    rw [firsts_cons, List.map_append, List.mem_append, ih, List.map_cons, List.mem_cons,
      List.mem_append, List.mem_singleton]
    by_cases ht : t = o.signature
    · subst ht
      by_cases hknown : o.signature ∈ known <;> simp [hknown]
    · by_cases hknown : o.signature ∈ known <;> simp [hknown, ht]

/-- A signature stays once. -/
theorem nodup_signatures_firsts (known : List Text) (found : List Operation) :
    ((firsts known found).map Operation.signature).Nodup := by
  induction found generalizing known with
  | nil => exact List.nodup_nil
  | cons o found ih =>
    rw [firsts_cons]
    split
    · exact ih _
    · refine List.nodup_cons.mpr ⟨fun h => ?_, ih _⟩
      exact ((mem_signatures_firsts _ _ _).mp h).2 (by simp)

/-- Adding operations one after the other adds those whose signatures come for the first time. -/
theorem foldl_addOperation (ops found : List Operation) :
    found.foldl addOperation ops = ops ++ firsts (ops.map Operation.signature) found := by
  induction found generalizing ops with
  | nil => simp
  | cons o found ih =>
    rw [List.foldl_cons, ih, addOperation, firsts_cons]
    by_cases hknown : o.signature ∈ ops.map Operation.signature
    · have hany : (ops.any fun known => known.signature == o.signature) = true := by
        simpa using hknown
      rw [if_pos hany, if_pos hknown, List.nil_append]
      refine congrArg (ops ++ ·) (firsts_congr (fun t => ?_) found)
      rw [List.mem_append, List.mem_singleton]
      exact ⟨.inl, Or.rec id fun ht => ht ▸ hknown⟩
    · have hany : ¬ (ops.any fun known => known.signature == o.signature) = true := by
        simpa using hknown
      rw [if_neg hany, if_neg hknown, List.map_append, List.append_assoc]
      rfl

/-- An operation that stays comes from the first part that has its signature. -/
theorem exists_first_of_mem_firsts {α : Type} {found : α → List Operation} {l : List α}
    (h : o ∈ firsts [] (l.flatMap found)) :
    ∃ before a after, l = before ++ a :: after ∧ o ∈ found a ∧
      ∀ b ∈ before, o.signature ∉ (found b).map Operation.signature := by
  induction l with
  | nil => cases h
  | cons a l ih =>
    rw [List.flatMap_cons, firsts_append, List.nil_append, List.mem_append] at h
    rcases h with h | h
    · exact ⟨[], a, l, rfl, mem_of_mem_firsts h, by simp⟩
    · rw [firsts_eq_filter] at h
      obtain ⟨hmem, hnew⟩ := List.mem_filter.mp h
      obtain ⟨before, b, after, rfl, hb, hbefore⟩ := ih hmem
      exact ⟨a :: before, b, after, rfl, hb,
        List.forall_mem_cons.mpr ⟨of_decide_eq_true hnew, hbefore⟩⟩

/-- Regular operations are the same if their signatures are. -/
theorem identities_perm {found' : List Operation} (hregular : ∀ o ∈ found, o.Regular)
    (hregular' : ∀ o ∈ found', o.Regular)
    (hsame : ∀ t, t ∈ found.map Operation.signature ↔ t ∈ found'.map Operation.signature) :
    ((firsts [] found).map Operation.identity).Perm
      ((firsts [] found').map Operation.identity) := by
  have hidentity : ∀ l : List Operation, (∀ o ∈ l, o.Regular) →
      (firsts [] l).map Operation.identity =
        ((firsts [] l).map Operation.signature).map fun t => (t, kindOf t, nameOf t) := by
    intro l hl
    rw [List.map_map]
    exact List.map_congr_left fun o ho => (hl o (mem_of_mem_firsts ho)).identity_eq
  rw [hidentity found hregular, hidentity found' hregular']
  apply List.Perm.map
  rw [List.perm_ext_iff_of_nodup (nodup_signatures_firsts _ found)
    (nodup_signatures_firsts _ found')]
  intro t
  rw [mem_signatures_firsts, mem_signatures_firsts, hsame t]

/-! ## Figures -/

/-- The figures of a tally are those of an earlier one and of results in order. -/
structure Adds (t₀ t : Tally) (results : List TaskResult) : Prop where
  completed : t.completed = t₀.completed + results.length
  failed : t.failed = t₀.failed + results.countP TaskResult.failed
  errors : t.errors = t₀.errors ++ results.flatMap TaskResult.errors
  operations : t.operations = t₀.operations ++
    firsts (t₀.operations.map Operation.signature) (results.flatMap TaskResult.operations)

namespace Adds

variable {t₀ t : Tally} {results : List TaskResult}

theorem refl (t : Tally) : Adds t t [] :=
  ⟨rfl, rfl, (List.append_nil _).symm, (List.append_nil _).symm⟩

/-- Lines of the log do not count. -/
theorem note (h : Adds t₀ t results) (l : LogLine) : Adds t₀ (t.note l) results :=
  ⟨h.completed, h.failed, h.errors, h.operations⟩

theorem notes (h : Adds t₀ t results) (ls : List LogLine) :
    Adds t₀ (ls.foldl Tally.note t) results := by
  induction ls generalizing t with
  | nil => exact h
  | cons l ls ih => exact ih (h.note l)

theorem absorb (h : Adds t₀ t results) (verbose : Bool) (r : TaskResult) :
    Adds t₀ (t.absorb verbose r) (results ++ [r]) := by
  constructor
  · rw [Tally.absorb, h.completed, List.length_append]
    rfl
  · rw [Tally.absorb, h.failed, List.countP_append, List.countP_singleton]
    split <;> rfl
  · rw [Tally.absorb, h.errors, List.flatMap_append, List.append_assoc]
    simp
  · rw [Tally.absorb, h.operations, ← foldl_addOperation, ← foldl_addOperation, ← List.foldl_append,
      List.flatMap_append]
    simp

/-- Results that come later are taken in after the earlier ones. -/
theorem trans {t' : Tally} {more : List TaskResult} (h : Adds t₀ t results)
    (h' : Adds t t' more) : Adds t₀ t' (results ++ more) := by
  constructor
  · rw [h'.completed, h.completed, List.length_append, Nat.add_assoc]
  · rw [h'.failed, h.failed, List.countP_append, Nat.add_assoc]
  · rw [h'.errors, h.errors, List.flatMap_append, List.append_assoc]
  · rw [h'.operations, h.operations, ← foldl_addOperation, ← foldl_addOperation,
      ← foldl_addOperation, List.flatMap_append, List.foldl_append]

end Adds

end OperationScan.Tally
