import OperationScan.Collector

/-!
# What sightings leave on record

* `Sighting`: a text that is taken for an operation, with its context and known values.
* `Sighting.IsFrom`: sightings with some contexts, from some patterns.
* `Collector.record`: records sightings in order.
* `Collector.mem_signatures_record`: the signatures on record after sightings.
* `Collector.exists_first_record`, `Collector.exists_operations_record`,
  `Collector.exists_of_mem_record_append`, `Collector.operations_record`: the operations on record
  after sightings.
* `Collector.addMatches_eq`: the matches of patterns are recorded as sightings.
-/

namespace OperationScan

/-- A text that is taken for an operation, with its context and known values. -/
structure Sighting where
  text : Text
  context : Text
  known : Members Value

namespace Sighting

/-- The signature under which a sighting is recorded. -/
def signature (s : Sighting) : Text := normalize (Text.trim s.text)

/-- The sightings of the matches of patterns in a text. -/
def ofMatches (text context : Text) (known : Members Value) (patterns : List Pattern) :
    List Sighting :=
  patterns.flatMap fun p => (p.matchesIn text).map fun m => ⟨m.text, context, known⟩

/-- The text of a sighting is a match of the standard pattern. -/
def IsMatch (s : Sighting) : Prop :=
  ∃ text, ∃ m ∈ Pattern.standard.matchesIn text, s.text = m.text

/-- A sighting has one of some contexts, and its text is a match of one of some patterns. -/
structure IsFrom (contexts : List Text) (patterns : List Pattern) (s : Sighting) : Prop where
  context : s.context ∈ contexts
  isMatch : ∃ p ∈ patterns, ∃ text, ∃ m ∈ p.matchesIn text, s.text = m.text

variable {contexts contexts' : List Text} {patterns patterns' : List Pattern} {s : Sighting}

theorem IsFrom.mono (h : s.IsFrom contexts patterns) (hcontexts : contexts ⊆ contexts')
    (hpatterns : patterns ⊆ patterns') : s.IsFrom contexts' patterns' := by
  obtain ⟨p, hp, hmatch⟩ := h.isMatch
  exact ⟨hcontexts h.context, p, hpatterns hp, hmatch⟩

theorem IsFrom.isMatch_standard (h : s.IsFrom contexts [.standard]) : s.IsMatch := by
  obtain ⟨p, hp, hmatch⟩ := h.isMatch
  rwa [List.mem_singleton.mp hp] at hmatch

theorem mem_ofMatches_iff {text context : Text} {known : Members Value} :
    s ∈ ofMatches text context known patterns ↔
      ∃ p ∈ patterns, ∃ m ∈ p.matchesIn text, ⟨m.text, context, known⟩ = s := by
  rw [ofMatches, List.mem_flatMap]
  exact exists_congr fun p => and_congr_right fun _ => List.mem_map

theorem isFrom_of_mem {text context : Text} {known : Members Value}
    (h : s ∈ ofMatches text context known patterns) : s.IsFrom [context] patterns := by
  obtain ⟨p, hp, m, hm, rfl⟩ := mem_ofMatches_iff.mp h
  exact ⟨List.mem_singleton_self context, p, hp, text, m, hm, rfl⟩

end Sighting

namespace Collector

/-- Records a sighting. -/
def see (c : Collector) (s : Sighting) : Collector := (c.add s.text s.context s.known).2

/-- Records sightings in order. -/
def record (c : Collector) (sightings : List Sighting) : Collector := sightings.foldl see c

@[simp]
theorem record_nil (c : Collector) : c.record [] = c := rfl

@[simp]
theorem record_cons (c : Collector) (s : Sighting) (l : List Sighting) :
    c.record (s :: l) = (c.see s).record l := rfl

theorem record_append (c : Collector) (l l' : List Sighting) :
    c.record (l ++ l') = (c.record l).record l' := List.foldl_append

/-- What recording one sighting keeps is kept by recording many. -/
theorem record_induction {P : Collector → Prop} (hsee : ∀ c s, P c → P (c.see s))
    (c : Collector) (l : List Sighting) (h : P c) : P (c.record l) := by
  induction l generalizing c with
  | nil => exact h
  | cons s l ih => exact ih _ (hsee c s h)

/-! ## Signatures -/

/-- The signatures on record. -/
def signatures (c : Collector) : List Text := c.operations.map Operation.signature

theorem has_iff (c : Collector) (signature : Text) :
    c.has signature = true ↔ signature ∈ c.signatures := by
  simp [has, signatures]

/-- Operation text is passed over if its signature is empty or known, and recorded otherwise. -/
theorem add_cases (c : Collector) (text context : Text) (known : Members Value) :
    ((normalize (Text.trim text) = [] ∨ normalize (Text.trim text) ∈ c.signatures) ∧
      c.add text context known = (none, c)) ∨
    (normalize (Text.trim text) ≠ [] ∧ normalize (Text.trim text) ∉ c.signatures ∧
      c.add text context known =
        (some (c.operationOf (Text.trim text) context known),
          c.push (c.operationOf (Text.trim text) context known))) := by
  have hknown := c.has_iff (normalize (Text.trim text))
  unfold add
  dsimp only
  split
  · rename_i hskip
    rw [Bool.or_eq_true, List.isEmpty_iff, hknown] at hskip
    exact .inl ⟨hskip, rfl⟩
  · rename_i hnew
    rw [Bool.or_eq_true, not_or, List.isEmpty_iff, hknown] at hnew
    exact .inr ⟨hnew.1, hnew.2, rfl⟩

@[simp]
theorem signatures_push (c : Collector) (o : Operation) :
    (c.push o).signatures = c.signatures ++ [o.signature] := by
  simp [signatures, push]

/-- A sighting adds its signature, unless that is empty. -/
theorem mem_signatures_see (c : Collector) (s : Sighting) (t : Text) :
    t ∈ (c.see s).signatures ↔ t ∈ c.signatures ∨ (t = s.signature ∧ t ≠ []) := by
  rw [see]
  rcases c.add_cases s.text s.context s.known with ⟨hskip, hadd⟩ | ⟨hne, -, hadd⟩
  · rw [hadd]
    constructor
    · exact Or.inl
    · rintro (h | ⟨rfl, hne⟩)
      · exact h
      · exact hskip.resolve_left hne
  · have hsignature : (c.operationOf (Text.trim s.text) s.context s.known).signature =
        s.signature := rfl
    rw [hadd, signatures_push, List.mem_append, List.mem_singleton, hsignature]
    constructor
    · rintro (h | rfl)
      · exact .inl h
      · exact .inr ⟨rfl, hne⟩
    · rintro (h | ⟨h, -⟩)
      · exact .inl h
      · exact .inr h

theorem mem_signatures_record (c : Collector) (l : List Sighting) (t : Text) :
    t ∈ (c.record l).signatures ↔
      t ∈ c.signatures ∨ (t ≠ [] ∧ ∃ s ∈ l, t = s.signature) := by
  induction l generalizing c with
  | nil => simp
  | cons s l ih =>
    rw [record_cons, ih, mem_signatures_see]
    constructor
    · rintro ((h | ⟨h, hne⟩) | ⟨hne, s', hs', h⟩)
      · exact .inl h
      · exact .inr ⟨hne, s, by simp, h⟩
      · exact .inr ⟨hne, s', by simp [hs'], h⟩
    · rintro (h | ⟨hne, s', hs', h⟩)
      · exact .inl (.inl h)
      · rcases List.mem_cons.mp hs' with rfl | hs'
        · exact .inl (.inr ⟨h, hne⟩)
        · exact .inr ⟨hne, s', hs', h⟩

/-! ## Operations -/

/-- What a text is taken for depends on the input only, not on what is on record. -/
theorem operationOf_see (c : Collector) (s : Sighting) : (c.see s).operationOf = c.operationOf := by
  rw [see]
  rcases c.add_cases s.text s.context s.known with ⟨-, hadd⟩ | ⟨-, -, hadd⟩
  · rw [hadd]
  · rw [hadd]
    rfl

theorem operationOf_record (c : Collector) (l : List Sighting) :
    (c.record l).operationOf = c.operationOf :=
  record_induction (P := fun d => d.operationOf = c.operationOf)
    (fun d s hd => (d.operationOf_see s).trans hd) c l rfl

/-- An operation has been made of a sighting in the input of a collector. -/
def Makes (c : Collector) (s : Sighting) (o : Operation) : Prop :=
  o = c.operationOf (Text.trim s.text) s.context s.known

theorem makes_record (c : Collector) (l : List Sighting) : (c.record l).Makes = c.Makes := by
  funext s o
  rw [Makes, operationOf_record, Makes]

/-- Sightings leave operations behind those on record: each is new, and it is made of the first
sighting with its signature. -/
theorem exists_first_record (c : Collector) (l : List Sighting) :
    ∃ added, (c.record l).operations = c.operations ++ added ∧
      ∀ o ∈ added, o.signature ≠ [] ∧ o.signature ∉ c.signatures ∧
        ∃ before s after, l = before ++ s :: after ∧ c.Makes s o ∧
          ∀ s' ∈ before, s'.signature ≠ o.signature := by
  induction l generalizing c with
  | nil => exact ⟨[], by simp, by simp⟩
  | cons s l ih =>
    obtain ⟨added, hadded, hmade⟩ := ih (c.see s)
    -- what is made of later sightings does not depend on the first one
    have hlater : ∀ o ∈ added, o.signature ≠ [] ∧ o.signature ∉ c.signatures ∧
        ∃ before s' after, s :: l = before ++ s' :: after ∧ c.Makes s' o ∧
          ∀ s'' ∈ before, s''.signature ≠ o.signature := by
      intro o ho
      obtain ⟨hne, hnew, before, s', after, rfl, hmakes, hfirst⟩ := hmade o ho
      rw [mem_signatures_see, not_or] at hnew
      refine ⟨hne, hnew.1, s :: before, s', after, rfl, c.makes_record [s] ▸ hmakes, ?_⟩
      exact List.forall_mem_cons.mpr ⟨fun h => hnew.2 ⟨h.symm, hne⟩, hfirst⟩
    rw [record_cons, hadded, see]
    rcases c.add_cases s.text s.context s.known with ⟨-, hadd⟩ | ⟨hne, hnew, hadd⟩
    · exact ⟨added, by rw [hadd], hlater⟩
    · refine ⟨c.operationOf (Text.trim s.text) s.context s.known :: added, ?_, fun o ho => ?_⟩
      · rw [hadd, push, List.append_assoc]
        rfl
      · rcases List.mem_cons.mp ho with rfl | ho
        · exact ⟨hne, hnew, [], s, l, rfl, rfl, by simp⟩
        · exact hlater o ho

/-- Sightings leave operations made of them behind those on record. -/
theorem exists_operations_record (c : Collector) (l : List Sighting) :
    ∃ added, (c.record l).operations = c.operations ++ added ∧
      ∀ o ∈ added, ∃ s ∈ l, c.Makes s o := by
  obtain ⟨added, hadded, hfirst⟩ := c.exists_first_record l
  refine ⟨added, hadded, fun o ho => ?_⟩
  obtain ⟨-, -, before, s, after, rfl, hmakes, -⟩ := hfirst o ho
  exact ⟨s, by simp, hmakes⟩

/-- What is on record has been sighted. -/
theorem exists_of_mem_record {c : Collector} {l : List Sighting} {o : Operation}
    (h : o ∈ (c.record l).operations) : o ∈ c.operations ∨ ∃ s ∈ l, c.Makes s o := by
  obtain ⟨added, hadded, hmade⟩ := c.exists_operations_record l
  rw [hadded, List.mem_append] at h
  exact h.imp_right (hmade o)

/-- A new operation that has been sighted is made of nothing sighted later. -/
theorem exists_of_mem_record_append {c : Collector} {l l' : List Sighting} {o : Operation}
    (ho : o ∈ (c.record (l ++ l')).operations) (hnew : o.signature ∉ c.signatures)
    (hsighted : ∃ s ∈ l, s.signature = o.signature) : ∃ s ∈ l, c.Makes s o := by
  obtain ⟨added, hadded, hfirst⟩ := c.exists_first_record (l ++ l')
  rw [hadded, List.mem_append] at ho
  have hmem : o ∈ added := ho.resolve_left fun hold => hnew (List.mem_map_of_mem hold)
  obtain ⟨-, -, before, s, after, hsplit, hmakes, hbefore⟩ := hfirst o hmem
  obtain ⟨s', hs', hsame⟩ := hsighted
  rcases List.append_eq_append_iff.mp hsplit with ⟨more, rfl, -⟩ | ⟨more, rfl, hmore⟩
  · exact absurd hsame (hbefore s' (List.mem_append_left more hs'))
  · cases more with
    | nil =>
      rw [List.append_nil] at hs'
      exact absurd hsame (hbefore s' hs')
    | cons s'' more =>
      obtain ⟨rfl, -⟩ := List.cons.inj hmore
      exact ⟨s, by simp, hmakes⟩

/-- Sightings without a new signature change nothing. -/
theorem record_eq_self {c : Collector} {l : List Sighting}
    (h : ∀ s ∈ l, s.signature ∈ c.signatures) : c.record l = c := by
  induction l with
  | nil => rfl
  | cons s l ih =>
    obtain ⟨hs, hl⟩ := List.forall_mem_cons.mp h
    rcases c.add_cases s.text s.context s.known with ⟨-, hadd⟩ | ⟨-, hnew, -⟩
    · rw [record_cons, see, hadd, ih hl]
    · exact absurd hs hnew

/-- Of sightings with one signature the first is put on record, unless the signature is there
already. -/
theorem operations_record {α : Type} (f : α → Sighting) (text : α → Text) (c : Collector)
    (l : List α) (h : ∀ a ∈ l, Text.trim (f a).text = text a ∧ normalize (text a) ≠ []) :
    (c.record (l.map f)).operations =
      c.operations ++ ((l.filter fun a => !c.has (normalize (text a))).eraseDupsBy
        fun a b => normalize (text a) == normalize (text b)).map
          fun a => c.operationOf (text a) (f a).context (f a).known := by
  induction l generalizing c with
  | nil => simp
  | cons a l ih =>
    obtain ⟨⟨htrim, hne⟩, hl⟩ := List.forall_mem_cons.mp h
    have hcases := c.add_cases (f a).text (f a).context (f a).known
    rw [htrim] at hcases
    rw [List.map_cons, record_cons, see]
    rcases hcases with ⟨hskip, hadd⟩ | ⟨-, hnew, hadd⟩
    · have hhas : c.has (normalize (text a)) = true := (c.has_iff _).mpr (hskip.resolve_left hne)
      rw [hadd, ih c hl, List.filter_cons_of_neg (by simp [hhas])]
    · have hhas : c.has (normalize (text a)) = false := by
        rw [← Bool.not_eq_true, has_iff]
        exact hnew
      generalize ho : c.operationOf (text a) (f a).context (f a).known = o at hadd
      have hsignature : o.signature = normalize (text a) := ho ▸ rfl
      have hpush : ∀ t, (c.push o).has t = (c.has t || normalize (text a) == t) := by
        intro t
        rw [← hsignature]
        simp [has, push]
      -- what is still new behind the sighting has a signature that differs from it
      have hrest : l.filter (fun b => !(c.push o).has (normalize (text b))) =
          (l.filter fun b => !c.has (normalize (text b))).filter
            fun b => decide ((normalize (text b) == normalize (text a)) = false) := by
        rw [List.filter_filter]
        refine List.filter_congr fun b _ => ?_
        rw [hpush, Bool.not_or, Bool.and_comm, Bool.beq_comm, Bool.decide_eq_false]
      have hsame : (c.push o).operationOf = c.operationOf := rfl
      have hlonger : (c.push o).operations = c.operations ++ [o] := rfl
      rw [hadd]
      dsimp only
      rw [ih (c.push o) hl, hrest, hsame, hlonger, List.filter_cons_of_pos (by simp [hhas]),
        List.eraseDupsBy_cons, List.map_cons, ho, List.append_assoc]
      rfl

/-- More sightings give more signatures. -/
theorem signatures_subset {c c' : Collector} {l l' : List Sighting}
    (hc : c.signatures ⊆ c'.signatures) (hl : l ⊆ l') :
    (c.record l).signatures ⊆ (c'.record l').signatures := by
  intro t ht
  rw [mem_signatures_record] at ht ⊢
  rcases ht with h | ⟨hne, s, hs, h⟩
  · exact .inl (hc h)
  · exact .inr ⟨hne, s, hl hs, h⟩

/-! ## Matches -/

theorem addAll_eq (c : Collector) (context : Text) (known : Members Value)
    (found : List PatternMatch) :
    c.addAll context known found =
      (found.length, c.record (found.map fun m => ⟨m.text, context, known⟩)) := by
  simp only [addAll, record, List.foldl_map]
  rfl

theorem addPattern_eq (text context : Text) (known : Members Value) (state : Nat × Collector)
    (p : Pattern) :
    addPattern text context known state p =
      (state.1 + (Sighting.ofMatches text context known [p]).length,
        state.2.record (Sighting.ofMatches text context known [p])) := by
  rw [addPattern, addAll_eq]
  simp [Sighting.ofMatches]

/-- The matches of patterns are recorded one after the other. -/
theorem addMatches_eq (c : Collector) (text context : Text) (known : Members Value)
    (patterns : List Pattern) :
    c.addMatches text context known patterns =
      ((Sighting.ofMatches text context known patterns).length,
        c.record (Sighting.ofMatches text context known patterns)) := by
  have hfold : ∀ state : Nat × Collector,
      patterns.foldl (addPattern text context known) state =
        (state.1 + (Sighting.ofMatches text context known patterns).length,
          state.2.record (Sighting.ofMatches text context known patterns)) := by
    induction patterns with
    | nil => exact fun state => rfl
    | cons p rest ih =>
      intro state
      have hsplit : Sighting.ofMatches text context known (p :: rest) =
          Sighting.ofMatches text context known [p] ++
            Sighting.ofMatches text context known rest := by
        simp [Sighting.ofMatches]
      rw [List.foldl_cons, ih, addPattern_eq, hsplit, List.length_append, record_append,
        Nat.add_assoc]
  simpa [addMatches] using hfold (0, c)

/-- A pattern without matches records nothing. -/
theorem addMatches_of_eq_nil {p : Pattern} {text : Text} (h : p.matchesIn text = []) (c : Collector)
    (context : Text) (known : Members Value) : c.addMatches text context known [p] = (0, c) := by
  simp [addMatches_eq, Sighting.ofMatches, h]

end Collector

end OperationScan
