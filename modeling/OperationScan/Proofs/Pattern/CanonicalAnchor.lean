import OperationScan.Proofs.Pattern.Anchored

/-!
# Which keyword a text is anchored at

The keywords in front of the first brace are found in one walk over the text, and a head is tried
at each of them. What is chosen can be said without the walk, and it is chosen again when the text
in front of it is gone: a keyword is a whole word there too, and whether a head ends at the brace
depends only on what stands between the two.

* `IsCandidate`, `headEnds`, `IsAnchor`: the keywords to choose from, and the choice.
* `keywordPlaces_eq`: the walk gives the offsets of all keywords, last first.
* `anchorOffset?_eq_some_iff`: the first hit of the walk is the choice.
* `IsAnchor.drop`: what is left from the choice on is anchored at its own start.
* `anchor?_canonical`: when a text can be anchored, where, and that this is done for good.
-/

namespace OperationScan

open Text

variable {t u : Text} {b p : Place} {i j n : Nat} {l : List Nat}

/-- The place at an offset of a text. -/
def placeAt (t : Text) (i : Nat) : Place := ⟨i, t.drop i⟩

/-- A keyword stands at an offset in front of the first brace, as a whole word. No keyword holds a
brace, so all of it stands in front. -/
structure IsCandidate (t : Text) (i : Nat) : Prop where
  lt : i < t.idxOf '\x7b'
  keyword : HasKeywordAt none 0 t i

/-- A head is matched at an offset and ends at the first brace. -/
def headEnds (t : Text) (i : Nat) : Bool := endsAt (placeAt t (t.idxOf '\x7b')) (placeAt t i)

/-- The offset that a text is anchored at: the last keyword whose head ends at the first brace, and
the first keyword if there is no such head. -/
structure IsAnchor (t : Text) (i : Nat) : Prop where
  brace : '\x7b' ∈ t
  candidate : IsCandidate t i
  last : (∃ j, IsCandidate t j ∧ headEnds t j = true) →
    headEnds t i = true ∧ ∀ j, IsCandidate t j → headEnds t j = true → j ≤ i
  first : (¬ ∃ j, IsCandidate t j ∧ headEnds t j = true) → ∀ j, IsCandidate t j → i ≤ j

/-! ## Keywords of a text -/

theorem BeginsKeyword.ne_nil (h : BeginsKeyword t) : t ≠ [] := by
  obtain ⟨k, hk, rest, rfl, -⟩ := h
  exact List.append_ne_nil_of_left_ne_nil (Head.word_ne_nil k hk) rest

theorem hasKeywordAt_iff : HasKeywordAt none 0 t i ↔
    wordBegins (t.take i).getLast? = true ∧ BeginsKeyword (t.drop i) := by
  constructor
  · rintro ⟨u, v, rfl, hi, hbefore, hv⟩
    rw [Nat.zero_add] at hi
    rw [lastOr, Option.or_none] at hbefore
    rw [← hi, List.take_left, List.drop_left]
    exact ⟨hbefore, hv⟩
  · rintro ⟨hbefore, hv⟩
    have hi : i ≤ t.length := by
      by_contra hi
      exact hv.ne_nil (List.drop_eq_nil_of_le (by omega))
    refine ⟨t.take i, t.drop i, (List.take_append_drop i t).symm, ?_, ?_, hv⟩
    · rw [List.length_take]
      omega
    · rwa [lastOr, Option.or_none]

/-- A keyword stands at an offset, as it is found in a walk over the text. -/
def keywordAt (t : Text) (i : Nat) : Bool :=
  ((placeAt t i).keyword? (t.take i).getLast?).isSome

theorem keywordAt_iff : keywordAt t i = true ↔ HasKeywordAt none 0 t i := by
  rw [hasKeywordAt_iff, keywordAt, keyword?_isSome_iff]
  rfl

/-- One step of the walk. -/
theorem keywordPlaces_succ (h : n < t.length) : keywordPlaces t (n + 1) =
    if keywordAt t n then placeAt t n :: keywordPlaces t n else keywordPlaces t n := by
  have hlength : (t.take n).length = n := List.length_take_of_le (Nat.le_of_lt h)
  have hsplit := List.take_append_drop n t
  have hwalk : keywordPlacesFrom 0 none [] ((t.take n).length + 1) (t.take n ++ t.drop n) =
      keywordPlacesFrom (0 + (t.take n).length) (lastOr none (t.take n))
        (keywordPlacesFrom 0 none [] (t.take n).length (t.take n ++ t.drop n)) 1 (t.drop n) :=
    keywordPlacesFrom_append
  rw [hsplit, hlength, Nat.zero_add, lastOr, Option.or_none] at hwalk
  rw [keywordPlaces, hwalk, List.drop_eq_getElem_cons h, keywordPlacesFrom, keywordPlacesFrom,
    ← List.drop_eq_getElem_cons h]
  rfl

/-- The offsets of the keywords among the first characters of a text, last first. -/
def keywordOffsets (t : Text) (n : Nat) : List Nat := ((List.range n).filter (keywordAt t)).reverse

theorem keywordPlaces_eq (h : n ≤ t.length) :
    keywordPlaces t n = (keywordOffsets t n).map (placeAt t) := by
  induction n with
  | zero =>
    rw [keywordPlaces, keywordPlacesFrom]
    rfl
  | succ n ih =>
    rw [keywordPlaces_succ h, ih (by omega), keywordOffsets, keywordOffsets, List.range_succ,
      List.filter_append, List.reverse_append]
    cases hkeyword : keywordAt t n with
    | true => simp [hkeyword]
    | false => simp [hkeyword]

theorem mem_keywordOffsets : i ∈ keywordOffsets t n ↔ i < n ∧ HasKeywordAt none 0 t i := by
  rw [keywordOffsets, List.mem_reverse, List.mem_filter, List.mem_range, keywordAt_iff]

theorem pairwise_keywordOffsets (t : Text) (n : Nat) :
    (keywordOffsets t n).Pairwise (· > ·) := by
  rw [keywordOffsets, List.pairwise_reverse]
  exact List.pairwise_lt_range.filter _

/-! ## Numbers in falling order -/

/-- What passes a test first is the largest that passes it. -/
theorem find?_eq_some_iff_of_pairwise (h : l.Pairwise (· > ·)) (test : Nat → Bool) :
    l.find? test = some i ↔ i ∈ l ∧ test i = true ∧ ∀ j ∈ l, test j = true → j ≤ i := by
  induction l with
  | nil => simp
  | cons k l ih =>
    obtain ⟨hk, hl⟩ := List.pairwise_cons.mp h
    by_cases htest : test k = true
    · rw [List.find?_cons_of_pos htest]
      constructor
      · rintro ⟨rfl⟩
        refine ⟨List.mem_cons_self, htest, fun j hj _ => ?_⟩
        rcases List.mem_cons.mp hj with rfl | hj
        · exact Nat.le_refl _
        · exact Nat.le_of_lt (hk j hj)
      · rintro ⟨hi, -, hlast⟩
        have hle := hlast k List.mem_cons_self htest
        rcases List.mem_cons.mp hi with rfl | hi
        · rfl
        · exact absurd hle (by have := hk i hi; omega)
    · rw [List.find?_cons_of_neg htest, ih hl]
      constructor
      · rintro ⟨hi, hpass, hlast⟩
        refine ⟨List.mem_cons_of_mem k hi, hpass, fun j hj hj' => ?_⟩
        rcases List.mem_cons.mp hj with rfl | hj
        · exact absurd hj' htest
        · exact hlast j hj hj'
      · rintro ⟨hi, hpass, hlast⟩
        refine ⟨(List.mem_cons.mp hi).resolve_left ?_, hpass,
          fun j hj => hlast j (List.mem_cons_of_mem k hj)⟩
        rintro rfl
        exact htest hpass

/-- What stands last is the smallest. -/
theorem getLast?_eq_some_iff_of_pairwise (h : l.Pairwise (· > ·)) :
    l.getLast? = some i ↔ i ∈ l ∧ ∀ j ∈ l, i ≤ j := by
  have hrising : l.reverse.Pairwise (· < ·) := List.pairwise_reverse.mpr h
  have hmem : ∀ j, j ∈ l ↔ j ∈ l.reverse := fun _ => List.mem_reverse.symm
  rw [← List.head?_reverse]
  simp only [hmem]
  cases hl : l.reverse with
  | nil => simp
  | cons k l =>
    rw [hl, List.pairwise_cons] at hrising
    rw [List.head?_cons]
    constructor
    · rintro ⟨rfl⟩
      refine ⟨List.mem_cons_self, fun j hj => ?_⟩
      rcases List.mem_cons.mp hj with rfl | hj
      · exact Nat.le_refl _
      · exact Nat.le_of_lt (hrising.1 j hj)
    · rintro ⟨hi, hfirst⟩
      have hle := hfirst k List.mem_cons_self
      rcases List.mem_cons.mp hi with rfl | hi
      · rfl
      · exact absurd hle (by have := hrising.1 i hi; omega)

/-! ## The choice -/

/-- The keywords in front of the first brace, last first. -/
def candidates (t : Text) : List Nat := keywordOffsets t (t.idxOf '\x7b')

theorem mem_candidates : i ∈ candidates t ↔ IsCandidate t i :=
  mem_keywordOffsets.trans ⟨fun h => ⟨h.1, h.2⟩, fun h => ⟨h.lt, h.keyword⟩⟩

/-- The offset that the walk comes to. -/
def anchorOffset? (t : Text) : Option Nat :=
  ((candidates t).find? (headEnds t)).or (candidates t).getLast?

theorem anchor?_eq : anchor? t =
    if '\x7b' ∈ t then (anchorOffset? t).map fun i => t.drop i else none := by
  split
  · rename_i hbrace
    have hlt : t.idxOf '\x7b' < t.length := List.idxOf_lt_length_of_mem hbrace
    have hfirst : t.findIdx? (· == '\x7b') = some (t.idxOf '\x7b') :=
      List.findIdx?_eq_some_of_exists ⟨'\x7b', hbrace, rfl⟩
    have hplaces : keywordPlaces t (t.idxOf '\x7b') = (candidates t).map (placeAt t) :=
      keywordPlaces_eq (Nat.le_of_lt hlt)
    have hfind : ((candidates t).map (placeAt t)).find?
        (fun p => ((Head.at? p).map (·.brace.index)) == some (t.idxOf '\x7b')) =
          ((candidates t).find? (headEnds t)).map (placeAt t) := List.find?_map
    rw [anchor?, hfirst]
    dsimp only
    rw [hplaces, hfind, List.getLast?_map, anchorOffset?]
    cases (candidates t).find? (headEnds t) with
    | some i => rfl
    | none =>
      rw [Option.map_none, Option.none_or, Option.map_map]
      rfl
  · rename_i hbrace
    rw [anchor?, findIdx?_of_notMem hbrace]

theorem anchorOffset?_eq_some_iff (hbrace : '\x7b' ∈ t) :
    anchorOffset? t = some i ↔ IsAnchor t i := by
  have hfalling : (candidates t).Pairwise (· > ·) := pairwise_keywordOffsets t _
  have hlast := fun i => find?_eq_some_iff_of_pairwise (i := i) hfalling (headEnds t)
  have hfirst := getLast?_eq_some_iff_of_pairwise (i := i) hfalling
  simp only [mem_candidates] at hlast hfirst
  rw [anchorOffset?]
  cases hfind : (candidates t).find? (headEnds t) with
  | some k =>
    obtain ⟨hk, hends, hle⟩ := (hlast k).mp hfind
    rw [Option.some_or]
    constructor
    · intro hki
      obtain rfl : k = i := Option.some.inj hki
      exact ⟨hbrace, hk, fun _ => ⟨hends, hle⟩, fun hnone => absurd ⟨k, hk, hends⟩ hnone⟩
    · intro h
      obtain ⟨hi, hle'⟩ := h.last ⟨k, hk, hends⟩
      exact congrArg some (Nat.le_antisymm (hle' k hk hends) (hle i h.candidate hi))
  | none =>
    have hnone : ¬ ∃ j, IsCandidate t j ∧ headEnds t j = true := by
      rintro ⟨j, hj, hends⟩
      exact List.find?_eq_none.mp hfind j (mem_candidates.mpr hj) hends
    rw [Option.none_or, hfirst]
    constructor
    · rintro ⟨hi, hle⟩
      exact ⟨hbrace, hi, fun hsome => absurd hsome hnone, fun _ => hle⟩
    · intro h
      exact ⟨h.candidate, h.first hnone⟩

theorem anchorOffset?_eq_none_iff : anchorOffset? t = none ↔ ∀ i, ¬ IsCandidate t i := by
  rw [anchorOffset?, Option.or_eq_none_iff, List.getLast?_eq_none_iff,
    List.eq_nil_iff_forall_not_mem]
  simp only [mem_candidates]
  constructor
  · exact And.right
  · intro h
    refine ⟨List.find?_eq_none.mpr fun i hi => ?_, h⟩
    exact absurd (mem_candidates.mp hi) (h i)

/-! ## What is left from the choice on -/

/-- A head ends at a brace if what stands in front of the brace is spelled as one. -/
theorem endsAt_iff (h : p.Reads u b) (hb : b.rest.head? = some '\x7b') :
    endsAt b p = true ↔ ∃ s : Head.Spelling, s.Valid ∧ s.text = u := by
  constructor
  · intro hends
    exact exists_of_endsAt hends h
  · rintro ⟨s, hs, rfl⟩
    exact endsAt_of_reads hs h hb

/-- What is cut off in front of the first brace leaves it the first one. -/
theorem idxOf_drop (hbrace : '\x7b' ∈ t) (hi : i ≤ t.idxOf '\x7b') :
    '\x7b' ∈ t.drop i ∧ (t.drop i).idxOf '\x7b' + i = t.idxOf '\x7b' := by
  have hsplit := List.take_append_drop i t
  have hfront : '\x7b' ∉ t.take i := by
    rw [List.mem_take_iff_idxOf_lt hbrace]
    omega
  have hlt := List.idxOf_lt_length_of_mem hbrace
  constructor
  · rw [← hsplit, List.mem_append] at hbrace
    exact hbrace.resolve_left hfront
  · have hidx : (t.take i ++ t.drop i).idxOf '\x7b' = _ := List.idxOf_append_of_notMem hfront
    rw [hsplit, List.length_take_of_le (by omega)] at hidx
    omega

theorem reads_placeAt (hij : i ≤ j) (hj : j ≤ t.length) :
    (placeAt t i).Reads (slice t i j) (placeAt t j) := by
  constructor
  · have hdrop : t.drop j = (t.drop i).drop (j - i) := by
      rw [List.drop_drop]
      congr 1
      omega
    change t.drop i = slice t i j ++ t.drop j
    rw [hdrop, slice, List.take_append_drop]
  · change j = i + (slice t i j).length
    rw [slice, List.length_take_of_le (by rw [List.length_drop]; omega)]
    omega

theorem headEnds_iff (hbrace : '\x7b' ∈ t) (hi : i ≤ t.idxOf '\x7b') :
    headEnds t i = true ↔ ∃ s : Head.Spelling, s.Valid ∧ s.text = slice t i (t.idxOf '\x7b') := by
  have hlt := List.idxOf_lt_length_of_mem hbrace
  refine endsAt_iff (reads_placeAt hi (Nat.le_of_lt hlt)) ?_
  change (t.drop (t.idxOf '\x7b')).head? = some '\x7b'
  rw [List.head?_drop, List.getElem?_eq_getElem hlt, List.getElem_idxOf]

/-- The head at a keyword does not depend on what stands in front of it. -/
theorem headEnds_drop (hbrace : '\x7b' ∈ t) (hij : i + j ≤ t.idxOf '\x7b') :
    headEnds (t.drop i) j = headEnds t (i + j) := by
  obtain ⟨hmem, hidx⟩ := idxOf_drop (i := i) hbrace (by omega)
  have hslice : slice (t.drop i) j ((t.drop i).idxOf '\x7b') =
      slice t (i + j) (t.idxOf '\x7b') := by
    rw [slice, slice, List.drop_drop, ← hidx]
    congr 1
    omega
  rw [Bool.eq_iff_iff, headEnds_iff hmem (by omega), headEnds_iff hbrace hij, hslice]

theorem IsCandidate.drop_self (hbrace : '\x7b' ∈ t) (h : IsCandidate t i) :
    IsCandidate (t.drop i) 0 := by
  obtain ⟨hmem, hidx⟩ := idxOf_drop hbrace (Nat.le_of_lt h.lt)
  have hlt := h.lt
  refine ⟨by omega, hasKeywordAt_iff.mpr ⟨rfl, ?_⟩⟩
  exact (hasKeywordAt_iff.mp h.keyword).2

/-- Nothing but keywords of the whole text are found in what is left from a keyword on. -/
theorem IsCandidate.of_drop (hbrace : '\x7b' ∈ t) (hi : IsCandidate t i)
    (h : IsCandidate (t.drop i) j) : IsCandidate t (i + j) := by
  obtain ⟨hmem, hidx⟩ := idxOf_drop hbrace (Nat.le_of_lt hi.lt)
  have hlt := h.lt
  by_cases hj : j = 0
  · rwa [hj, Nat.add_zero]
  · obtain ⟨hbefore, hbegins⟩ := hasKeywordAt_iff.mp h.keyword
    rw [List.drop_drop] at hbegins
    refine ⟨by omega, hasKeywordAt_iff.mpr ⟨?_, hbegins⟩⟩
    have hne : (t.drop i).take j ≠ [] := by
      intro hnil
      rcases List.take_eq_nil_iff.mp hnil with hnil | hnil
      · exact hj hnil
      · rw [hnil] at hmem
        cases hmem
    rw [List.take_add, List.getLast?_append_of_ne_nil _ hne]
    exact hbefore

/-- What is left of a text from its anchor on is anchored where it begins. -/
theorem IsAnchor.drop (h : IsAnchor t i) : IsAnchor (t.drop i) 0 := by
  have hi := h.candidate
  obtain ⟨hmem, hidx⟩ := idxOf_drop h.brace (Nat.le_of_lt hi.lt)
  have hsame : ∀ j, IsCandidate (t.drop i) j → headEnds (t.drop i) j = headEnds t (i + j) := by
    intro j hj
    have hlt := hj.lt
    exact headEnds_drop h.brace (by omega)
  refine ⟨hmem, hi.drop_self h.brace, ?_, fun _ j _ => Nat.zero_le j⟩
  rintro ⟨k, hk, hkends⟩
  rw [hsame k hk] at hkends
  obtain ⟨hlast, hle⟩ := h.last ⟨i + k, hi.of_drop h.brace hk, hkends⟩
  refine ⟨(hsame 0 (hi.drop_self h.brace)).trans hlast, fun j hj hjends => ?_⟩
  rw [hsame j hj] at hjends
  have hij := hle (i + j) (hi.of_drop h.brace hj) hjends
  omega

/-! ## Anchoring -/

theorem anchor?_eq_some_iff : anchor? t = some u ↔ ∃ i, IsAnchor t i ∧ u = t.drop i := by
  rw [anchor?_eq]
  split
  · rename_i hbrace
    rw [Option.map_eq_some_iff]
    simp only [anchorOffset?_eq_some_iff hbrace, eq_comm]
  · rename_i hbrace
    constructor
    · intro h
      cases h
    · rintro ⟨i, hi, -⟩
      exact absurd hi.brace hbrace

/-- A text has no anchor exactly if it has no brace or no keyword in front of the first one. The
anchored text is what is left from the anchor on, with the same first brace; and it is anchored
already. -/
theorem anchor?_canonical (t : Text) :
    (anchor? t = none ↔ '\x7b' ∉ t ∨ ∀ i, ¬ IsCandidate t i) ∧
    (∀ u, anchor? t = some u ↔
      ∃ i, IsAnchor t i ∧ u = t.drop i ∧ '\x7b' ∈ u ∧ u.idxOf '\x7b' + i = t.idxOf '\x7b') ∧
    (anchor? t).bind anchor? = anchor? t := by
  refine ⟨?_, fun u => ?_, ?_⟩
  · rw [anchor?_eq]
    split
    · rename_i hbrace
      rw [Option.map_eq_none_iff, anchorOffset?_eq_none_iff]
      exact ⟨.inr, fun h => h.resolve_left fun hnone => hnone hbrace⟩
    · rename_i hbrace
      exact ⟨fun _ => .inl hbrace, fun _ => rfl⟩
  · rw [anchor?_eq_some_iff]
    constructor
    · rintro ⟨i, hi, rfl⟩
      exact ⟨i, hi, rfl, idxOf_drop hi.brace (Nat.le_of_lt hi.candidate.lt)⟩
    · rintro ⟨i, hi, hu, -⟩
      exact ⟨i, hi, hu⟩
  · cases hanchor : anchor? t with
    | none => rfl
    | some u =>
      obtain ⟨i, hi, rfl⟩ := anchor?_eq_some_iff.mp hanchor
      exact anchor?_eq_some_iff.mpr ⟨0, hi.drop, rfl⟩

/-- Neither the word in front nor the name of the variable begins the head. -/
example : anchor? "query\":\"mutation M($query: String) \x7b a \x7d".toList =
    some "mutation M($query: String) \x7b a \x7d".toList := by
  decide +kernel

end OperationScan
