import OperationScan.Proofs.Pattern.Screen
import OperationScan.Proofs.Scan.Claims
import OperationScan.Proofs.Scan.Legible

/-!
# What the screen hides

The scan of quoted spans looks for the words of the screen in a span as it is written, and for
operations in what its escapes stand for. A span whose keywords are spelled with escapes is
therefore left out.

* `readStrings`: the scan of quoted spans without the screen.
* `HoldsOperation`: a request body or plain text in which operations are found.
* `QuotedSpan.IsHidden`: a span that holds operations and does not pass the screen.
* `scanStrings_eq_readStrings`: the screen changes nothing if no span is hidden, which is also
  necessary where the scan without it finishes. No span is hidden whose escapes do not stand for
  letters.
* `not_scanStrings_eq_readStrings`: a keyword whose first letter is spelled by an escape is hidden.
-/

namespace OperationScan

open Collecting Text

/-! ## The scan without the screen -/

section Readings

variable [Json.Nesting]

/-- Records the operations of a quoted span, which need not pass the screen, and counts them. -/
def readSpan (aggressive : Bool) (s : QuotedSpan) : Collecting Nat := do
  let n ← addPayload (Script.cook s.content) stringContext []
  if n == 0 && aggressive then
    Collecting.ofFun (addFirstPattern s.raw Pattern.aggressive)
  else return n

/-- The quoted spans of a text that hold operations, which are recorded. -/
def readStrings (t : Text) (aggressive : Bool) : Collecting (List QuotedSpan) :=
  claimWith (readSpan aggressive) (QuotedSpan.all t)

theorem scanSpan_eq (aggressive : Bool) (s : QuotedSpan) :
    scanSpan aggressive s = if passesScreen s.raw then readSpan aggressive s else pure 0 := rfl

end Readings

/-! ## Request bodies -/

section Bodies

variable {t context : Text} {known : Members Value}

theorem addFirstPattern_of_eq_nil {ps : List Pattern} (h : ∀ p ∈ ps, p.matchesIn t = [])
    (c : Collector) : addFirstPattern t ps c = (0, c) := by
  induction ps with
  | nil => rfl
  | cons p ps ih =>
    obtain ⟨hp, hps⟩ := List.forall_mem_cons.mp h
    rw [addFirstPattern, Collector.addMatches_of_eq_nil hp]
    exact ih hps

theorem addRequest_of_eq_nil {r : Request} (h : Pattern.standard.matchesIn r.text = []) :
    addRequest context known r = pure 0 := by
  unfold addRequest
  split
  · simp only [Collector.addMatches_of_eq_nil h]
    rfl
  · rw [h]
    rfl

theorem addRequests_of_eq_nil {rs : List Request}
    (h : ∀ r ∈ rs, Pattern.standard.matchesIn r.text = []) :
    addRequests context known rs = pure 0 := by
  induction rs with
  | nil => rfl
  | cons r rs ih =>
    obtain ⟨hr, hrs⟩ := List.forall_mem_cons.mp h
    rw [addRequests, addRequest_of_eq_nil hr, ih hrs]
    rfl

theorem addMatches_ne_zero {p : Pattern} (h : p.matchesIn t ≠ []) (c : Collector) :
    (c.addMatches t context known [p]).1 ≠ 0 := by
  rw [Collector.addMatches_eq, Sighting.ofMatches]
  simpa using h

theorem addRequest_ne_zero {r : Request} (h : Pattern.standard.matchesIn r.text ≠ [])
    (c d : Collector) : (addRequest context known r).outcome c ≠ (.ok 0, d) := by
  unfold addRequest
  split
  · rw [outcome_ofFun]
    exact fun hzero => addMatches_ne_zero h c (Except.ok.inj (Prod.mk.inj hzero).1)
  · intro hzero
    obtain ⟨-, c', -, hcount⟩ := exists_of_outcome_bind hzero
    exact h (List.length_eq_zero_iff.mp (Except.ok.inj (Prod.mk.inj hcount).1))

theorem addRequests_ne_zero {rs : List Request}
    (h : ∃ r ∈ rs, Pattern.standard.matchesIn r.text ≠ []) (c d : Collector) :
    (addRequests context known rs).outcome c ≠ (.ok 0, d) := by
  induction rs generalizing c d with
  | nil => simp at h
  | cons r rs ih =>
    intro hzero
    obtain ⟨n, c₁, hfirst, hrest⟩ := exists_of_outcome_bind hzero
    obtain ⟨m, c₂, hmore, hsum⟩ := exists_of_outcome_bind hrest
    have hnone : n + m = 0 := Except.ok.inj (Prod.mk.inj hsum).1
    obtain ⟨rfl, rfl⟩ := Nat.add_eq_zero_iff.mp hnone
    obtain ⟨x, hx, hmatch⟩ := h
    rcases List.mem_cons.mp hx with rfl | hx
    · exact addRequest_ne_zero hmatch c c₁ hfirst
    · exact ih ⟨x, hx, hmatch⟩ c₁ c₂ hmore

variable [Json.Nesting]

/-- Operations are found in what a request body or a plain text is searched in. -/
def HoldsOperation (t : Text) : Prop :=
  ∃ u ∈ searchedTexts t, Pattern.standard.matchesIn u ≠ []

/-- A text is searched as a list of requests or as it stands. -/
theorem addPayload_cases (t context : Text) (known : Members Value) :
    (∃ rs : List Request, searchedTexts t = rs.map (fun r => r.text) ∧
      addPayload t context known = addRequests context known rs) ∨
    (searchedTexts t = [t] ∧ addPayload t context known =
      Collecting.ofFun fun c => c.addMatches t context known [.standard]) := by
  unfold searchedTexts addPayload
  by_cases hjson : looksLikeJson t = true
  · rw [if_pos hjson, if_pos hjson]
    cases decodePayload t with
    | ok rs => exact .inl ⟨rs, rfl, rfl⟩
    | error fault => exact .inr ⟨rfl, rfl⟩
  · rw [if_neg hjson, if_neg hjson]
    exact .inr ⟨rfl, rfl⟩

/-- Nothing is done with a text without operations. -/
theorem addPayload_of_not_holdsOperation (h : ¬ HoldsOperation t) :
    addPayload t context known = pure 0 := by
  have hnone : ∀ u ∈ searchedTexts t, Pattern.standard.matchesIn u = [] := by
    intro u hu
    by_contra hmatch
    exact h ⟨u, hu, hmatch⟩
  rcases addPayload_cases t context known with ⟨rs, hsearched, hadd⟩ | ⟨hsearched, hadd⟩
  · rw [hsearched] at hnone
    rw [hadd]
    exact addRequests_of_eq_nil fun r hr => hnone _ (List.mem_map_of_mem hr)
  · rw [hsearched] at hnone
    have hfound := hnone t (List.mem_singleton_self t)
    simp only [hadd, Collector.addMatches_of_eq_nil hfound]
    rfl

/-- A text with operations is never passed over: they are counted, or the scan is stopped. -/
theorem addPayload_ne_zero (h : HoldsOperation t) (c d : Collector) :
    (addPayload t context known).outcome c ≠ (.ok 0, d) := by
  obtain ⟨u, hu, hmatch⟩ := h
  rcases addPayload_cases t context known with ⟨rs, hsearched, hadd⟩ | ⟨hsearched, hadd⟩
  · rw [hsearched] at hu
    obtain ⟨r, hr, rfl⟩ := List.mem_map.mp hu
    rw [hadd]
    exact addRequests_ne_zero ⟨r, hr, hmatch⟩ c d
  · rw [hsearched] at hu
    obtain rfl := List.mem_singleton.mp hu
    rw [hadd, outcome_ofFun]
    exact fun hzero => addMatches_ne_zero hmatch c (Except.ok.inj (Prod.mk.inj hzero).1)

theorem holdsOperation_iff (c : Collector) :
    HoldsOperation t ↔ ((addPayload t context known).outcome c).1 ≠ .ok 0 := by
  refine ⟨fun h hzero => addPayload_ne_zero h c _ (Prod.ext hzero rfl), fun h => ?_⟩
  by_contra hnone
  rw [addPayload_of_not_holdsOperation hnone] at h
  exact h rfl

end Bodies

/-! ## Hidden spans -/

namespace QuotedSpan

/-- No escape of the span stands for a letter or for nothing, and neither does one of a JSON string
that the span stands for. -/
structure IsLegible (s : QuotedSpan) : Prop where
  escapes : ∀ m ∈ Script.escapesOf s.content, IsMark m
  codes : Json.SpellsNoLetter (Script.cook s.content)

instance : DecidablePred IsLegible := fun s =>
  decidable_of_iff ((∀ m ∈ Script.escapesOf s.content, IsMark m) ∧
    Json.SpellsNoLetter (Script.cook s.content)) ⟨fun h => ⟨h.1, h.2⟩, fun h => ⟨h.1, h.2⟩⟩

variable {s : QuotedSpan}

theorem content_isInfix (s : QuotedSpan) : s.content <:+: s.raw :=
  (List.dropLast_prefix _).isInfix.trans (List.drop_suffix 1 _).isInfix

theorem isWord_of_mem_keywords : ∀ k ∈ Kind.keywords, IsWord k.word := by decide

variable [Json.Nesting]

/-- Operations are found in what the span stands for, or recording them is stopped, but the span as
it is written does not pass the screen. -/
structure IsHidden (s : QuotedSpan) : Prop where
  screen : passesScreen s.raw = false
  found : ((addPayload (Script.cook s.content) stringContext []).outcome (.empty [] [])).1 ≠ .ok 0

/-- Where no escape stands for a letter, the keyword of an operation is written out. -/
theorem IsLegible.passesScreen (h : s.IsLegible) (hholds : HoldsOperation (Script.cook s.content)) :
    passesScreen s.raw = true := by
  obtain ⟨u, hu, hmatch⟩ := hholds
  obtain ⟨m, hm⟩ := List.exists_mem_of_ne_nil _ hmatch
  obtain ⟨k, hk, hword⟩ := exists_word_of_mem_matchesIn List.mem_cons_self hm
  have hletters := isWord_of_mem_keywords k hk
  have hcooked := isInfix_of_mem_searchedTexts h.codes hu hletters hword
  have hcontent := (Script.retouched_cook h.escapes).isInfix hletters hcooked
  exact passesScreen_of_isInfix (word_mem_screenWords k hk) (hcontent.trans (content_isInfix s))

theorem IsLegible.not_isHidden (h : s.IsLegible) : ¬ s.IsHidden := by
  intro hhidden
  have hpasses := h.passesScreen ((holdsOperation_iff _).mpr hhidden.found)
  rw [hhidden.screen] at hpasses
  cases hpasses

/-- A span that is left out and not hidden holds nothing, not even for the other patterns. -/
theorem readSpan_eq_zero (aggressive : Bool) (hscreen : OperationScan.passesScreen s.raw = false)
    (h : ¬ s.IsHidden) : readSpan aggressive s = pure 0 := by
  have hnone : ¬ HoldsOperation (Script.cook s.content) :=
    fun hholds => h ⟨hscreen, (holdsOperation_iff _).mp hholds⟩
  have hpatterns : Collecting.ofFun (addFirstPattern s.raw Pattern.aggressive) = pure 0 := by
    rw [funext (addFirstPattern_of_eq_nil fun p hp =>
      matchesIn_eq_nil (List.mem_cons_of_mem _ hp) hscreen)]
    rfl
  rw [readSpan, addPayload_of_not_holdsOperation hnone, pure_bind, hpatterns]
  split <;> rfl

theorem scanSpan_eq_readSpan (aggressive : Bool) (h : ¬ s.IsHidden) :
    scanSpan aggressive s = readSpan aggressive s := by
  rw [scanSpan_eq]
  split
  · rfl
  · rename_i hscreen
    exact (readSpan_eq_zero aggressive (by simpa using hscreen) h).symm

end QuotedSpan

/-! ## The two scans -/

section Scans

variable [Json.Nesting]

theorem steady_readSpan (aggressive : Bool) (s : QuotedSpan) : (readSpan aggressive s).Steady := by
  have hany : ∀ {x : Collecting Nat} {sort : Sighting → Prop}, x.Sights sort →
      x.Sights fun _ => True := fun hx => hx.mono fun _ _ => trivial
  refine (Sights.bind (hany (sights_addPayload _ _ _)) fun n => ?_).steady
  split
  · exact hany (sights_addFirstPattern _ _)
  · exact .pure n

theorem readSpan_ne_zero {s : QuotedSpan} (h : HoldsOperation (Script.cook s.content))
    (aggressive : Bool) (c d : Collector) : (readSpan aggressive s).outcome c ≠ (.ok 0, d) := by
  intro hzero
  obtain ⟨n, c', hpayload, hrest⟩ := exists_of_outcome_bind hzero
  have hn : n ≠ 0 := by
    rintro rfl
    exact addPayload_ne_zero h c c' hpayload
  rw [beq_eq_false_iff_ne.mpr hn] at hrest
  exact hn (Except.ok.inj (Prod.mk.inj hrest).1)

variable {aggressive : Bool} {spans claimed : List QuotedSpan} {c c' : Collector}

/-- With the screen those of the claimed spans are claimed that pass it. -/
theorem exists_outcome_scanSpans
    (h : (claimWith (readSpan aggressive) spans).outcome c = (.ok claimed, c')) (d : Collector) :
    ∃ d', (claimWith (scanSpan aggressive) spans).outcome d =
      (.ok (claimed.filter fun s => passesScreen s.raw), d') := by
  induction spans generalizing claimed c d with
  | nil =>
    cases h
    exact ⟨d, rfl⟩
  | cons s spans ih =>
    obtain ⟨n, c₁, more, hs, hmore, rfl⟩ := exists_of_claimWith_cons h
    cases hscreen : passesScreen s.raw with
    | true =>
      obtain ⟨result, l, hl⟩ := steady_readSpan aggressive s
      have hresult : result = .ok n := by
        rw [hl c] at hs
        exact (Prod.mk.inj hs).1
      have hscan : (scanSpan aggressive s).outcome d = (.ok n, d.record l) := by
        rw [scanSpan_eq, if_pos hscreen, hl d, hresult]
      obtain ⟨d', hd'⟩ := ih hmore (d.record l)
      refine ⟨d', (outcome_claimWith_cons hscan hd').trans ?_⟩
      split
      · rfl
      · simp [hscreen]
    | false =>
      have hscan : (scanSpan aggressive s).outcome d = (.ok 0, d) := by
        rw [scanSpan_eq, hscreen]
        rfl
      obtain ⟨d', hd'⟩ := ih hmore d
      refine ⟨d', (outcome_claimWith_cons hscan hd').trans ?_⟩
      cases hn : n == 0 with
      | true => rfl
      | false => simp [hscreen]

theorem mem_of_claimWith {s : QuotedSpan} (h : HoldsOperation (Script.cook s.content))
    (hs : s ∈ spans)
    (hread : (claimWith (readSpan aggressive) spans).outcome c = (.ok claimed, c')) :
    s ∈ claimed := by
  induction spans generalizing claimed c with
  | nil => cases hs
  | cons s' spans ih =>
    obtain ⟨n, c₁, more, hfirst, hmore, rfl⟩ := exists_of_claimWith_cons hread
    rcases List.mem_cons.mp hs with rfl | hs
    · have hn : n ≠ 0 := by
        rintro rfl
        exact readSpan_ne_zero h aggressive c c₁ hfirst
      rw [beq_eq_false_iff_ne.mpr hn]
      exact List.mem_cons_self
    · have hmem := ih hs hmore
      split
      · exact hmem
      · exact List.mem_cons_of_mem _ hmem

/-- If no span is hidden, the screen changes nothing. In any case those of the spans claimed without
the screen are claimed that pass it, so that a finished scan without the screen is the scan with it
exactly if no span is hidden. No span is hidden whose escapes do not stand for letters. -/
theorem scanStrings_eq_readStrings (t : Text) (aggressive : Bool) :
    ((∀ s ∈ QuotedSpan.all t, ¬ s.IsHidden) →
      scanStrings t aggressive = readStrings t aggressive) ∧
    (∀ c claimed c', (readStrings t aggressive).outcome c = (.ok claimed, c') →
      ((scanStrings t aggressive).outcome c).1 =
          .ok (claimed.filter fun s => passesScreen s.raw) ∧
        ((scanStrings t aggressive).outcome c = (.ok claimed, c') ↔
          ∀ s ∈ QuotedSpan.all t, ¬ s.IsHidden)) ∧
    ∀ s ∈ QuotedSpan.all t, s.IsLegible → ¬ s.IsHidden := by
  have hsame : (∀ s ∈ QuotedSpan.all t, ¬ s.IsHidden) →
      scanStrings t aggressive = readStrings t aggressive := by
    intro h
    rw [scanStrings, scanSpans_eq]
    exact claimWith_congr fun s hs => QuotedSpan.scanSpan_eq_readSpan aggressive (h s hs)
  refine ⟨hsame, fun c claimed c' hread => ?_, fun s _ hlegible => hlegible.not_isHidden⟩
  have hfilter : ((scanStrings t aggressive).outcome c).1 =
      .ok (claimed.filter fun s => passesScreen s.raw) := by
    obtain ⟨d', hd'⟩ := exists_outcome_scanSpans hread c
    rw [scanStrings, scanSpans_eq, hd']
  refine ⟨hfilter, fun hscan s hs hhidden => ?_, fun h => ?_⟩
  · have hmem := mem_of_claimWith ((holdsOperation_iff _).mpr hhidden.found) hs hread
    rw [hscan] at hfilter
    have hpasses := List.filter_eq_self.mp (Except.ok.inj hfilter).symm s hmem
    rw [hhidden.screen] at hpasses
    cases hpasses
  · rw [hsame h]
    exact hread

end Scans

/-- A request body whose quotes and line feed are escaped, and a span without operations. -/
def escapedBody : Text :=
  "send(\"\x7b\\\"query\\\":\\\"query A \x7b\\\\n a \x7d\\\"\x7d\", 'C:\\\\data')".toList

theorem scanStrings_eq_readStrings_escapedBody :
    (∀ s ∈ QuotedSpan.all escapedBody, s.IsLegible) ∧
      (∀ s ∈ QuotedSpan.all escapedBody, ¬ s.IsHidden) ∧
      scanStrings escapedBody true = readStrings escapedBody true ∧
      ∃ claimed c', claimed.length = 1 ∧
        (readStrings escapedBody true).outcome (.empty [] []) = (.ok claimed, c') ∧
        (scanStrings escapedBody true).outcome (.empty [] []) = (.ok claimed, c') := by
  obtain ⟨hsame, hfinished, hlegible⟩ := scanStrings_eq_readStrings escapedBody true
  have hall : ∀ s ∈ QuotedSpan.all escapedBody, s.IsLegible := by decide +kernel
  have hshown : ∀ s ∈ QuotedSpan.all escapedBody, ¬ s.IsHidden :=
    fun s hs => hlegible s hs (hall s hs)
  have hlength : ((readStrings escapedBody true).outcome (.empty [] [])).1.toOption.map
      List.length = some 1 := by decide +kernel
  cases hread : (readStrings escapedBody true).outcome (.empty [] []) with
  | mk result c' =>
    rw [hread] at hlength
    cases result with
    | error fault => cases hlength
    | ok claimed =>
      exact ⟨hall, hshown, hsame hshown, claimed, c', Option.some.inj hlength, rfl,
        (hfinished _ claimed c' hread).2.mpr hshown⟩

/-- A query whose first letter is spelled by an escape. -/
def hexQuery : Text := "\"\\x71uery A \x7b a \x7d\"".toList

/-- The screen hides a query whose first letter is spelled by an escape. -/
theorem not_scanStrings_eq_readStrings :
    (¬ ∀ t, ∀ s ∈ QuotedSpan.all t,
      (∃ n, 0 < n ∧ ((addPayload (Script.cook s.content) stringContext []).outcome
        (.empty [] [])).1 = .ok n) → passesScreen s.raw = true) ∧
    ∀ aggressive, scanStrings hexQuery aggressive ≠ readStrings hexQuery aggressive := by
  have hspans : QuotedSpan.all hexQuery = [⟨0, 18, hexQuery⟩] := by decide +kernel
  have hfound : ((addPayload (Script.cook (QuotedSpan.content ⟨0, 18, hexQuery⟩)) stringContext
      []).outcome (.empty [] [])).1 = .ok 1 := by rfl
  have hscreen : passesScreen hexQuery = false := by decide +kernel
  refine ⟨fun h => ?_, fun aggressive h => ?_⟩
  · have hpasses := h hexQuery ⟨0, 18, hexQuery⟩ (by simp [hspans]) ⟨1, Nat.one_pos, hfound⟩
    rw [hscreen] at hpasses
    cases hpasses
  · have hapart : ∀ aggressive,
        ((scanStrings hexQuery aggressive).outcome (.empty [] [])).1.toOption.map List.length ≠
          ((readStrings hexQuery aggressive).outcome (.empty [] [])).1.toOption.map
            List.length := by
      decide +kernel
    exact hapart aggressive (by rw [h])

end OperationScan
