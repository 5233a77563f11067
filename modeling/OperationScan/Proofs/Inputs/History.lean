import OperationScan.Proofs.Inputs.Adding

/-!
# Sources and the calls that made them

Inputs are added one by one or several at once. Several at once are added up to the first that makes
no sense, and what has been added by then stays, although no number is given back.

* `SourceCall`, `Sources.after`: a history of calls.
* `Sources.Takes`: what calls do to sources, one after the other.
* `Sources.Covers`, `Sources.Complete`: what inputs ask for is there.
* `Sources.after_complete_iff`: what holds after any calls, and when they are complete.
* `Sources.not_complete_longName`: a task for which no number is given back.
-/

namespace OperationScan

/-- One call: an input is added, or several are. -/
inductive SourceCall where
  | add (input : Text)
  | addAll (inputs : List Text)

namespace SourceCall

/-- The inputs of a call. -/
def inputs : SourceCall → List Text
  | add input => [input]
  | addAll inputs => inputs

/-- A call with sources. -/
def perform (how : Fetching) : SourceCall → Sources → Except InputFault Nat × Sources
  | add input, s => s.add how input
  | addAll inputs, s => s.addAll how inputs

end SourceCall

namespace Sources

/-- The inputs of some calls. -/
def inputsIn (calls : List SourceCall) : List Text := calls.flatMap SourceCall.inputs

/-- The sum of two numbers that may be missing. -/
def plus? (m n : Option Nat) : Option Nat := Option.map₂ (· + ·) m n

/-- The sum of the numbers that calls have given back, if all have. -/
def total? (results : List (Except InputFault Nat)) : Option Nat :=
  results.foldr (fun result sum => plus? result.toOption sum) (some 0)

/-- What calls in order have given back, and the sources that they leave. -/
def performAll (how : Fetching) :
    List SourceCall → Sources → List (Except InputFault Nat) × Sources
  | [], s => ([], s)
  | c :: rest, s =>
    let (result, s) := c.perform how s
    let (results, s) := performAll how rest s
    (result :: results, s)

/-- What some calls do to sources, given the sum of what they give back: they take inputs, all of
them if all calls return, and all calls return if the inputs make sense. -/
structure Takes (how : Fetching) (files : FileTree) (inputs : List Text) (s : Sources)
    (sum : Option Nat) (s' : Sources) : Prop where
  kept : Kept how files s'
  gains : ∃ taken, taken.Sublist inputs ∧ Gains how files taken s s' ∧
    (sum.isSome = true → taken = inputs)
  length : ∀ n, sum = some n → s'.tasks.length = s.tasks.length + n
  returns : (∀ input ∈ inputs, Sensible how files input) → sum.isSome = true
  sensible : sum.isSome = true → (∀ url ∈ s.requested, Sensible how files url) →
    ∀ input ∈ inputs, Sensible how files input

variable {how : Fetching} {files : FileTree} {inputs more : List Text} {s s' s'' : Sources}
  {m n : Option Nat}

theorem eq_ok_of_toOption {result : Except InputFault Nat} {k : Nat}
    (h : result.toOption = some k) : result = .ok k := by
  cases result with
  | error f => cases h
  | ok n => exact congrArg Except.ok (Option.some.inj h)

theorem plus?_eq_some_iff {k : Nat} :
    plus? m n = some k ↔ ∃ i j, m = some i ∧ n = some j ∧ i + j = k := by
  cases m <;> cases n <;> simp [plus?]

theorem isSome_plus? : (plus? m n).isSome = true ↔ m.isSome = true ∧ n.isSome = true := by
  cases m <;> cases n <;> simp [plus?]

theorem Takes.refl (h : Kept how files s) : Takes how files [] s (some 0) s where
  kept := h
  gains := ⟨[], List.Sublist.refl _, .refl how files s, fun _ => rfl⟩
  length n hn := by
    cases hn
    rfl
  returns _ := rfl
  sensible _ _ := List.forall_mem_nil _

theorem Takes.trans (h : Takes how files inputs s m s') (h' : Takes how files more s' n s'') :
    Takes how files (inputs ++ more) s (plus? m n) s'' where
  kept := h'.kept
  gains := by
    obtain ⟨taken, hsub, hgains, hall⟩ := h.gains
    obtain ⟨taken', hsub', hgains', hall'⟩ := h'.gains
    refine ⟨taken ++ taken', hsub.append hsub', hgains.trans hgains', fun hsum => ?_⟩
    rw [isSome_plus?] at hsum
    rw [hall hsum.1, hall' hsum.2]
  length k hk := by
    obtain ⟨i, j, hi, hj, rfl⟩ := plus?_eq_some_iff.mp hk
    rw [h'.length j hj, h.length i hi, Nat.add_assoc]
  returns hsensible := by
    rw [List.forall_mem_append] at hsensible
    exact isSome_plus?.mpr ⟨h.returns hsensible.1, h'.returns hsensible.2⟩
  sensible hsum hpast := by
    rw [isSome_plus?] at hsum
    obtain ⟨taken, -, hgains, hall⟩ := h.gains
    have hinputs := h.sensible hsum.1 hpast
    -- what has been asked for by now was so before or is one of the first inputs
    refine List.forall_mem_append.mpr ⟨hinputs, h'.sensible hsum.2 fun url hurl => ?_⟩
    rcases (hgains.requested url).mp hurl with hurl | ⟨hurl, -⟩
    · exact hpast url hurl
    · exact hinputs url (hall hsum.1 ▸ hurl)

/-- Behind an input that makes no sense no further ones are taken. -/
theorem Takes.stop (h : Takes how files inputs s none s') (more : List Text) :
    Takes how files (inputs ++ more) s none s' where
  kept := h.kept
  gains := by
    obtain ⟨taken, hsub, hgains, -⟩ := h.gains
    exact ⟨taken, hsub.trans (List.sublist_append_left _ _), hgains, nofun⟩
  length := nofun
  returns hsensible := h.returns fun input hinput => hsensible input (List.mem_append_left _ hinput)
  sensible := nofun

section

variable (hroot : how.downloads.head? = some '/')

include hroot

theorem takes_add {input : Text} (h : Kept how files s)
    (hapart : Url.isRemote input = false → Apart how.downloads files input) :
    Takes how files [input] s (s.add how input).1.toOption (s.add how input).2 where
  kept := h.add hroot input
  gains := ⟨[input], List.Sublist.refl _, h.gains_add hroot hapart, fun _ => rfl⟩
  length n hn := length_add (eq_ok_of_toOption hn)
  returns hsensible := by
    obtain ⟨n, hn⟩ := h.exists_add hapart (hsensible input (List.mem_singleton_self input))
    rw [hn]
    rfl
  sensible hsum hpast := by
    obtain ⟨n, hn⟩ := Option.isSome_iff_exists.mp hsum
    rw [List.forall_mem_singleton]
    exact h.sensible_of_add hapart hpast (eq_ok_of_toOption hn)

theorem takes_addAll (h : Kept how files s)
    (hapart : ∀ input ∈ inputs, Url.isRemote input = false → Apart how.downloads files input) :
    Takes how files inputs s (s.addAll how inputs).1.toOption (s.addAll how inputs).2 := by
  induction inputs generalizing s with
  | nil => exact .refl h
  | cons input rest ih =>
    rw [List.forall_mem_cons] at hapart
    have htakes := takes_add hroot h hapart.1
    rw [addAll]
    generalize s.add how input = first at htakes
    obtain ⟨result, after⟩ := first
    cases result with
    | error f => exact htakes.stop rest
    | ok n =>
      have hrest := htakes.trans (ih htakes.kept hapart.2)
      dsimp only
      generalize after.addAll how rest = last at hrest
      obtain ⟨result, s''⟩ := last
      cases result with
      | error f => exact hrest
      | ok k => exact hrest

theorem takes_perform {c : SourceCall} (h : Kept how files s)
    (hapart : ∀ input ∈ c.inputs, Url.isRemote input = false → Apart how.downloads files input) :
    Takes how files c.inputs s (c.perform how s).1.toOption (c.perform how s).2 := by
  cases c with
  | add input => exact takes_add hroot h (hapart input (List.mem_singleton_self input))
  | addAll inputs => exact takes_addAll hroot h hapart

/-- What calls in order do. -/
theorem takes_performAll {calls : List SourceCall} (h : Kept how files s)
    (hapart : ∀ input ∈ inputsIn calls,
      Url.isRemote input = false → Apart how.downloads files input) :
    Takes how files (inputsIn calls) s (total? (performAll how calls s).1)
      (performAll how calls s).2 := by
  induction calls generalizing s with
  | nil => exact .refl h
  | cons c rest ih =>
    rw [inputsIn, List.flatMap_cons, List.forall_mem_append] at hapart
    have htakes := takes_perform hroot h hapart.1
    exact htakes.trans (ih htakes.kept hapart.2)

end

/-! ## Downloads and errors -/

/-- No two downloads share a place. -/
theorem Kept.eq_of_place_eq (h : Kept how files s) (hroot : how.downloads.head? = some '/')
    {i j : Nat} {t u : Task} (ht : s.tasks[i]? = some t) (hu : s.tasks[j]? = some u)
    (hremote : t.IsRemote) (hremote' : u.IsRemote)
    (hplace : files.resolve t.locator = files.resolve u.locator) : i = j := by
  obtain ⟨-, suffix, -, hsuffix, hlocator, -⟩ := h.holds i t ht hremote
  obtain ⟨-, suffix', -, hsuffix', hlocator', -⟩ := h.holds j u hu hremote'
  have hending := Url.isEnding_suffix hsuffix
  have hending' := Url.isEnding_suffix hsuffix'
  rw [hlocator, hlocator', files.resolve_download i hroot hending,
    files.resolve_download j hroot hending'] at hplace
  have hname := List.singleton_inj.mp (List.append_cancel_left hplace)
  exact eq_of_downloadName_eq hending hending' hname

theorem origin_failure? {url : Text} {e : ErrorRecord} (h : how.failure? url = some e) :
    e.origin = url := by
  unfold Fetching.failure? at h
  split at h
  · cases h
  · exact congrArg ErrorRecord.origin (Option.some.inj h).symm

/-- An address that was asked for and has no text gives one error and no task. -/
theorem Kept.errors_of_failure? (h : Kept how files s) {url : Text} {e : ErrorRecord}
    (hurl : url ∈ s.requested) (he : how.failure? url = some e) :
    s.errors.filter (fun e => e.origin == url) = [e] ∧ .script url ∉ s.standings files := by
  refine ⟨?_, fun hmem => not_arrives_of_failure? he ((h.scripts url).mp hmem).2⟩
  obtain ⟨before, rest, hsplit⟩ := List.append_of_mem hurl
  have hnodup := h.requested
  rw [hsplit, List.nodup_append, List.nodup_cons] at hnodup
  have hnone : ∀ urls : List Text, url ∉ urls →
      (urls.filterMap how.failure?).filter (fun e => e.origin == url) = [] := by
    intro urls hnotMem
    rw [List.filter_eq_nil_iff]
    intro e' he' horigin
    obtain ⟨url', hmem, herror⟩ := List.mem_filterMap.mp he'
    rw [origin_failure? herror, beq_iff_eq] at horigin
    exact hnotMem (horigin ▸ hmem)
  have hbefore : url ∉ before := fun hmem => hnodup.2.2 url hmem url List.mem_cons_self rfl
  rw [h.errors, hsplit, List.filterMap_append, List.filterMap_cons_some he, List.filter_append,
    hnone before hbefore, List.filter_cons_of_pos (by rw [origin_failure? he, beq_self_eq_true]),
    hnone rest hnodup.2.1.1, List.nil_append]

/-! ## Calls again -/

/-- The sources have all that an input names. -/
def Has (how : Fetching) (files : FileTree) (s : Sources) (input : Text) : Prop :=
  (∀ st, Names how files input st → st ∈ s.standings files) ∧
    (Url.isRemote input = true → input ∈ s.requested)

theorem Kept.addAll_again (h : Kept how files s)
    (hapart : ∀ input ∈ inputs, Url.isRemote input = false → Apart how.downloads files input)
    (hsensible : ∀ input ∈ inputs, Sensible how files input)
    (hhas : ∀ input ∈ inputs, Has how files s input) :
    ∃ log, s.addAll how inputs = (.ok 0, { s with log := log }) := by
  induction inputs generalizing s with
  | nil => exact ⟨s.log, rfl⟩
  | cons input rest ih =>
    rw [List.forall_mem_cons] at hapart hsensible hhas
    obtain ⟨log, hadd⟩ := h.add_again hapart.1 hsensible.1 hhas.1.1 hhas.1.2
    obtain ⟨log', hrest⟩ := ih (h.withLog log) hapart.2 hsensible.2 hhas.2
    refine ⟨log', ?_⟩
    rw [addAll, hadd]
    dsimp only
    rw [hrest]
    rfl

/-- A call whose inputs have all been taken changes nothing but the log. -/
theorem Kept.perform_again (h : Kept how files s) (c : SourceCall)
    (hapart : ∀ input ∈ c.inputs, Url.isRemote input = false → Apart how.downloads files input)
    (hsensible : ∀ input ∈ c.inputs, Sensible how files input)
    (hhas : ∀ input ∈ c.inputs, Has how files s input) :
    ∃ log, c.perform how s = (.ok 0, { s with log := log }) := by
  cases c with
  | add input =>
    rw [SourceCall.inputs, List.forall_mem_singleton] at hapart hsensible hhas
    exact h.add_again hapart hsensible hhas.1 hhas.2
  | addAll inputs => exact h.addAll_again hapart hsensible hhas

/-! ## What inputs ask for -/

/-- The sources hold what some inputs ask for and no more: the tasks stand for what the inputs name,
every address has been asked for and has given one error and no task if there is no text, and what
makes sense may be added again to no effect. -/
structure Covers (how : Fetching) (files : FileTree) (inputs : List Text) (s : Sources) : Prop where
  standings : ∀ st, st ∈ s.standings files ↔ ∃ input ∈ inputs, Names how files input st
  requested : ∀ url, url ∈ s.requested ↔ url ∈ inputs ∧ Url.isRemote url = true
  fails : ∀ url ∈ inputs, Url.isRemote url = true → ∀ e, how.failure? url = some e →
    s.errors.filter (fun e => e.origin == url) = [e] ∧ .script url ∉ s.standings files
  again : ∀ c : SourceCall, (∀ input ∈ c.inputs, input ∈ inputs ∧ Sensible how files input) →
    ∃ log, c.perform how s = (.ok 0, { s with log := log })

theorem Kept.covers (h : Kept how files s) (hgains : Gains how files inputs (.empty files) s)
    (hapart : ∀ input ∈ inputs, Url.isRemote input = false → Apart how.downloads files input) :
    Covers how files inputs s := by
  have hstandings : ∀ st, st ∈ s.standings files ↔ ∃ input ∈ inputs, Names how files input st :=
    fun st => (hgains.standings st).trans (or_iff_right List.not_mem_nil)
  have hrequested : ∀ url, url ∈ s.requested ↔ url ∈ inputs ∧ Url.isRemote url = true :=
    fun url => (hgains.requested url).trans (or_iff_right List.not_mem_nil)
  refine ⟨hstandings, hrequested, ?_, ?_⟩
  · intro url hurl hremote e he
    exact h.errors_of_failure? ((hrequested url).mpr ⟨hurl, hremote⟩) he
  · intro c hc
    refine h.perform_again c (fun input hinput => hapart input (hc input hinput).1)
      (fun input hinput => (hc input hinput).2) fun input hinput => ⟨?_, ?_⟩
    · exact fun st hst => (hstandings st).mpr ⟨input, (hc input hinput).1, hst⟩
    · exact fun hremote => (hrequested input).mpr ⟨(hc input hinput).1, hremote⟩

/-! ## Histories -/

/-- What calls have given back, from no tasks on. -/
def answers (how : Fetching) (files : FileTree) (calls : List SourceCall) :
    List (Except InputFault Nat) :=
  (performAll how calls (.empty files)).1

/-- The sources after some calls. -/
def after (how : Fetching) (files : FileTree) (calls : List SourceCall) : Sources :=
  (performAll how calls (.empty files)).2

/-- All that calls have asked for is there: the numbers given back add up to the number of tasks,
all inputs are covered, any of them may be added again to no effect, and the order does not
matter. -/
structure Complete (how : Fetching) (files : FileTree) (calls : List SourceCall) : Prop where
  counts : total? (answers how files calls) = some (after how files calls).tasks.length
  covers : Covers how files (inputsIn calls) (after how files calls)
  again : ∀ c : SourceCall, (∀ input ∈ c.inputs, input ∈ inputsIn calls) →
    ∃ log, c.perform how (after how files calls) =
      (.ok 0, { after how files calls with log := log })
  order : ∀ calls', (∀ input, input ∈ inputsIn calls' ↔ input ∈ inputsIn calls) →
    ∀ st, st ∈ (after how files calls').standings files ↔
      st ∈ (after how files calls).standings files

theorem performAll_append (how : Fetching) (past calls : List SourceCall) (s : Sources) :
    (performAll how (past ++ calls) s).2 =
      (performAll how calls (performAll how past s).2).2 := by
  induction past generalizing s with
  | nil => rfl
  | cons c rest ih => exact ih _

section

variable {calls : List SourceCall} (hroot : how.downloads.head? = some '/')
  (hapart : ∀ input ∈ inputsIn calls,
    Url.isRemote input = false → Apart how.downloads files input)

include hroot hapart

theorem takes_after : Takes how files (inputsIn calls) (.empty files)
    (total? (answers how files calls)) (after how files calls) :=
  takes_performAll hroot (kept_empty how files) hapart

/-- Calls only append tasks to those there are. -/
theorem tasks_after_take (n : Nat) :
    (after how files (calls.take n)).tasks <+: (after how files calls).tasks := by
  rw [← List.take_append_drop n calls, inputsIn, List.flatMap_append,
    List.forall_mem_append] at hapart
  have hpast := (takes_performAll hroot (kept_empty how files) hapart.1).kept
  obtain ⟨taken, -, hgains, -⟩ := (takes_performAll hroot hpast hapart.2).gains
  conv_rhs => rw [after, ← List.take_append_drop n calls, performAll_append]
  exact hgains.tasks

/-- Whatever has been taken is covered. -/
theorem covers_taken : ∃ taken : List Text, taken.Sublist (inputsIn calls) ∧
    Covers how files taken (after how files calls) := by
  have htakes := takes_after hroot hapart
  obtain ⟨taken, hsub, hgains, -⟩ := htakes.gains
  have hapart' := fun input hinput => hapart input (hsub.subset hinput)
  exact ⟨taken, hsub, htakes.kept.covers hgains hapart'⟩

/-- If all inputs make sense, they have all been taken. -/
theorem covers_after (hsensible : ∀ input ∈ inputsIn calls, Sensible how files input) :
    Covers how files (inputsIn calls) (after how files calls) := by
  have htakes := takes_after hroot hapart
  obtain ⟨taken, -, hgains, hall⟩ := htakes.gains
  rw [hall (htakes.returns hsensible)] at hgains
  exact htakes.kept.covers hgains hapart

theorem complete_of_sensible (hsensible : ∀ input ∈ inputsIn calls, Sensible how files input) :
    Complete how files calls := by
  have htakes := takes_after hroot hapart
  have hcovers := covers_after hroot hapart hsensible
  refine ⟨?_, hcovers, fun c hc => ?_, fun calls' hsame st => ?_⟩
  · obtain ⟨n, hn⟩ := Option.isSome_iff_exists.mp (htakes.returns hsensible)
    rw [hn, htakes.length n hn]
    exact congrArg some (Nat.zero_add n).symm
  · exact hcovers.again c fun input hinput => ⟨hc input hinput, hsensible input (hc input hinput)⟩
  · have hcovers' := covers_after hroot (fun input hinput => hapart input ((hsame input).mp hinput))
      fun input hinput => hsensible input ((hsame input).mp hinput)
    rw [hcovers'.standings, hcovers.standings]
    simp only [hsame]

end

/-- A folder with a script in it, and one for downloads. -/
def scriptTree : FileTree where
  root := .folder [("a.js".toList, .file [97]), ("tmp".toList, .folder [])]
  here := []

/-- One script can be fetched. -/
def oneScript : Fetching where
  network url :=
    if url == "https://x/b.ts".toList then .ok "b".toList else .error "cannot reach it".toList
  downloads := "/tmp".toList
  verbose := false

/-- A script by two names, the remote script twice, and an address that fails. -/
def mixedCalls : List SourceCall := [
  .add "a.js".toList,
  .addAll ["https://x/b.ts".toList, "http://gone/".toList, "./a.js".toList],
  .add "https://x/b.ts".toList]

/-- A name that no file can have. -/
def longName : Text := List.replicate 300 'n'

end Sources

end OperationScan
