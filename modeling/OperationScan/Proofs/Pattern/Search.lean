import OperationScan.Proofs.Operation.BodyGrammar
import OperationScan.Proofs.Pattern.Standard

/-!
# The search of the standard pattern

The search looks for the next head. If its body ends, that is a match and the search goes on behind
the body; otherwise it goes on behind the head. So what lies inside a head without a body is passed
over, whatever operations are spelled there.

* `headAt?`: the head that begins at an offset of a text.
* `Searches`: the search from an offset on, with the matches that it makes.
* `searches_iff`: the search comes to an end, with the matches of the standard pattern.
* `standard_matchesIn_covers`: what the matches are, and which operations are in none of them.
-/

namespace OperationScan

open Text

/-- The head that begins at an offset of a text, where no word goes on. -/
def headAt? (t : Text) (i : Nat) : Option HeadMatch :=
  if wordBegins (t.take i).getLast? then Head.at? ⟨i, t.drop i⟩ else none

/-- A head is the first one from an offset on. -/
structure NextHead (t : Text) (i j : Nat) (m : HeadMatch) : Prop where
  le : i ≤ j
  first : ∀ k, i ≤ k → k < j → headAt? t k = none
  head : headAt? t j = some m

/-- The match from one offset to another. -/
def standardMatch (t : Text) (start stop : Nat) : PatternMatch :=
  ⟨slice t start stop, 1, "standard", start, stop, false⟩

/-- The search for operations from an offset on, with its matches. -/
inductive Searches (t : Text) : Nat → List PatternMatch → Prop where
  | finished {i : Nat} (h : ∀ j, i ≤ j → headAt? t j = none) : Searches t i []
  | unclosed {i j : Nat} {m : HeadMatch} {ms : List PatternMatch} (hnext : NextHead t i j m)
      (hend : Body.end? t m.brace.index = none) (hrest : Searches t m.brace.index ms) :
      Searches t i ms
  | closed {i j stop : Nat} {m : HeadMatch} {ms : List PatternMatch} (hnext : NextHead t i j m)
      (hend : Body.end? t m.brace.index = some stop) (hrest : Searches t stop ms) :
      Searches t i (standardMatch t j stop :: ms)

variable {t : Text} {i j k stop : Nat} {m : HeadMatch} {ms : List PatternMatch}

/-! ## Heads at offsets -/

theorem headAt?_eq_some (h : headAt? t i = some m) :
    wordBegins (t.take i).getLast? = true ∧ Head.at? ⟨i, t.drop i⟩ = some m := by
  unfold headAt? at h
  split at h
  · exact ⟨‹_›, h⟩
  · cases h

/-- A head is not empty, and a brace of the text stands behind it. -/
theorem brace_of_headAt? (h : headAt? t i = some m) : i < m.brace.index ∧
    m.brace.rest = t.drop m.brace.index ∧ t[m.brace.index]? = some '\x7b' := by
  obtain ⟨-, hat⟩ := headAt?_eq_some h
  obtain ⟨hbrace, s, hs, -, hread⟩ := Head.exists_of_at? hat
  have hrest : m.brace.rest = t.drop m.brace.index := by
    have hdrop : t.drop i = s.text ++ m.brace.rest := hread.rest
    rw [hread.index, ← List.drop_drop, hdrop, List.drop_left]
  have hpos : 0 < s.text.length := by
    rw [Head.Spelling.text, List.length_append]
    exact Nat.add_pos_left (List.length_pos_iff.mpr (Head.word_ne_nil s.kind hs.kind)) _
  refine ⟨?_, hrest, ?_⟩
  · rw [hread.index]
    exact Nat.lt_add_of_pos_right hpos
  · rw [← List.head?_drop, ← hrest, hbrace]

theorem lt_length_of_headAt? (h : headAt? t i = some m) : i < t.length := by
  obtain ⟨hlt, -, hbrace⟩ := brace_of_headAt? h
  obtain ⟨hlength, -⟩ := List.getElem?_eq_some_iff.mp hbrace
  exact Nat.lt_trans hlt hlength

/-- The body behind a head ends behind its brace and in the text. -/
theorem stop_of_headAt? (h : headAt? t i = some m)
    (hend : Body.end? t m.brace.index = some stop) :
    m.brace.index < stop ∧ stop ≤ t.length := by
  obtain ⟨-, -, hbrace⟩ := brace_of_headAt? h
  obtain ⟨hbody, -⟩ := (Body.end?_eq_some_iff hbrace).mp hend
  exact ⟨hbody.lt, hbody.2.1⟩

theorem end?_of_headAt? (h : headAt? t i = some m) :
    Body.end? t m.brace.index = (Body.length? m.brace.rest).map (m.brace.index + ·) := by
  rw [(brace_of_headAt? h).2.1]
  rfl

/-! ## The steps of the search -/

theorem standardStep_of_none (h : headAt? t i = none) :
    standardStep (t.take i).getLast? ⟨i, t.drop i⟩ = .miss := by
  rw [standardStep]
  split
  · rfl
  · rename_i hkeyword
    rw [headAt?, if_pos (keyword?_eq_some hkeyword).1] at h
    rw [h]

theorem standardStep_of_some (h : headAt? t i = some m) :
    standardStep (t.take i).getLast? ⟨i, t.drop i⟩ =
      match Body.end? t m.brace.index with
      | none => .pass (m.brace.index - i)
      | some stop => .hit ⟨i, stop, slice t i stop⟩ (stop - i) := by
  obtain ⟨hbegins, hat⟩ := headAt?_eq_some h
  obtain ⟨k, hk⟩ := Option.isSome_iff_exists.mp (keyword?_isSome_of_head hat hbegins)
  rw [standardStep, hk]
  dsimp only
  rw [hat, end?_of_headAt? h]
  dsimp only
  cases Body.length? m.brace.rest with
  | none => rfl
  | some n => rfl

/-- What is found from an offset of a text on. -/
def foundAt {α : Type} (step : Stepper α) (t : Text) (i : Nat) : List α :=
  findFrom step 0 (t.take i).getLast? i (t.drop i)

section FoundAt

variable {α : Type} {step : Stepper α} {n : Nat}

theorem foundAt_of_length_le (h : t.length ≤ i) : foundAt step t i = [] := by
  rw [foundAt, List.drop_eq_nil_of_le h, findFrom_nil]

theorem foundAt_skip (h : i + n ≤ t.length) :
    findFrom step n (t.take i).getLast? i (t.drop i) = foundAt step t (i + n) := by
  induction n generalizing i with
  | zero => rfl
  | succ n ih =>
    have hlt : i < t.length := by omega
    have hlast : (t.take (i + 1)).getLast? = some t[i] := by
      rw [List.take_succ_eq_append_getElem hlt, List.getLast?_concat]
    rw [List.drop_eq_getElem_cons hlt, findFrom_skip, ← hlast, ih (by omega), Nat.add_right_comm,
      Nat.add_assoc]

/-- The first of some characters is stepped over like the others. -/
theorem foundAt_tail (hlt : i < t.length) (hpos : 0 < n) (h : i + n ≤ t.length) :
    findFrom step (n - 1) (some t[i]) (i + 1) (t.drop (i + 1)) = foundAt step t (i + n) := by
  rw [← foundAt_skip h, List.drop_eq_getElem_cons hlt, ← findFrom_skip, Nat.sub_add_cancel hpos]

variable (hlt : i < t.length)

include hlt

theorem foundAt_miss (hstep : step (t.take i).getLast? ⟨i, t.drop i⟩ = .miss) :
    foundAt step t i = foundAt step t (i + 1) := by
  rw [List.drop_eq_getElem_cons hlt] at hstep
  rw [foundAt, List.drop_eq_getElem_cons hlt, findFrom_miss hstep]
  exact foundAt_tail hlt Nat.one_pos hlt

theorem foundAt_pass (hstep : step (t.take i).getLast? ⟨i, t.drop i⟩ = .pass n) (hpos : 0 < n)
    (h : i + n ≤ t.length) : foundAt step t i = foundAt step t (i + n) := by
  rw [List.drop_eq_getElem_cons hlt] at hstep
  rw [foundAt, List.drop_eq_getElem_cons hlt, findFrom_pass hstep]
  exact foundAt_tail hlt hpos h

theorem foundAt_hit {a : α} (hstep : step (t.take i).getLast? ⟨i, t.drop i⟩ = .hit a n)
    (hpos : 0 < n) (h : i + n ≤ t.length) : foundAt step t i = a :: foundAt step t (i + n) := by
  rw [List.drop_eq_getElem_cons hlt] at hstep
  rw [foundAt, List.drop_eq_getElem_cons hlt, findFrom_hit hstep]
  exact congrArg _ (foundAt_tail hlt hpos h)

end FoundAt

/-! ## The search -/

theorem NextHead.here (h : headAt? t i = some m) : NextHead t i i m :=
  ⟨Nat.le_refl i, fun _ hle hlt => absurd hle (Nat.not_le_of_lt hlt), h⟩

/-- An offset without a head may be stepped over. -/
theorem NextHead.of_succ (h : NextHead t (i + 1) j m) (hnone : headAt? t i = none) :
    NextHead t i j m := by
  refine ⟨Nat.le_of_succ_le h.le, ?_, h.head⟩
  intro k hik hkj
  rcases Nat.eq_or_lt_of_le hik with rfl | hlt
  · exact hnone
  · exact h.first k hlt hkj

theorem Searches.of_succ (h : Searches t (i + 1) ms) (hnone : headAt? t i = none) :
    Searches t i ms := by
  cases h with
  | finished h =>
    refine .finished fun j hij => ?_
    rcases Nat.eq_or_lt_of_le hij with rfl | hlt
    · exact hnone
    · exact h j hlt
  | unclosed hnext hend hrest => exact .unclosed (hnext.of_succ hnone) hend hrest
  | closed hnext hend hrest => exact .closed (hnext.of_succ hnone) hend hrest

/-- The scan from left to right makes the search. -/
theorem searches_foundAt (t : Text) (i : Nat) :
    Searches t i ((foundAt standardStep t i).filterMap Pattern.standard.finished?) := by
  -- each step of the scan gets closer to the end of the text
  induction hn : t.length - i using Nat.strongRecOn generalizing i with
  | ind n ih =>
    rcases Nat.lt_or_ge i t.length with hlt | hge
    · cases hhead : headAt? t i with
      | none =>
        rw [foundAt_miss hlt (standardStep_of_none hhead)]
        exact (ih _ (by omega) (i + 1) rfl).of_succ hhead
      | some m =>
        have hstep := standardStep_of_some hhead
        have hbrace := (brace_of_headAt? hhead).1
        cases hend : Body.end? t m.brace.index with
        | none =>
          rw [hend] at hstep
          have hle := Nat.le_of_lt (List.getElem?_eq_some_iff.mp (brace_of_headAt? hhead).2.2).1
          rw [foundAt_pass hlt hstep (by omega) (by omega), Nat.add_sub_cancel' (Nat.le_of_lt hbrace)]
          exact .unclosed (.here hhead) hend (ih _ (by omega) _ rfl)
        | some stop =>
          rw [hend] at hstep
          obtain ⟨hstop, hlength⟩ := stop_of_headAt? hhead hend
          rw [foundAt_hit hlt hstep (by omega) (by omega), Nat.add_sub_cancel' (by omega)]
          exact .closed (.here hhead) hend (ih _ (by omega) _ rfl)
    · rw [foundAt_of_length_le hge]
      refine .finished fun j hij => Option.eq_none_iff_forall_ne_some.mpr fun m hhead => ?_
      have hlt := lt_length_of_headAt? hhead
      omega

theorem NextHead.unique {j' : Nat} {m' : HeadMatch} (h : NextHead t i j m)
    (h' : NextHead t i j' m') : j = j' ∧ m = m' := by
  have hj : j = j' := by
    rcases Nat.lt_trichotomy j j' with hlt | heq | hlt
    · have hnone := h'.first j h.le hlt
      rw [h.head] at hnone
      cases hnone
    · exact heq
    · have hnone := h.first j' h'.le hlt
      rw [h'.head] at hnone
      cases hnone
  subst hj
  exact ⟨rfl, Option.some.inj (h.head.symm.trans h'.head)⟩

theorem NextHead.not_finished (h : NextHead t i j m) : ¬ ∀ j, i ≤ j → headAt? t j = none := by
  intro hnone
  have hhead := h.head
  rw [hnone j h.le] at hhead
  cases hhead

/-- The search leaves nothing open. -/
theorem Searches.unique {ns : List PatternMatch} (h : Searches t i ms) (h' : Searches t i ns) :
    ms = ns := by
  induction h generalizing ns with
  | finished h =>
    cases h' with
    | finished _ => rfl
    | unclosed hnext' _ _ => exact absurd h hnext'.not_finished
    | closed hnext' _ _ => exact absurd h hnext'.not_finished
  | unclosed hnext hend _ ih =>
    cases h' with
    | finished h' => exact absurd h' hnext.not_finished
    | unclosed hnext' _ hrest' =>
      obtain ⟨rfl, rfl⟩ := hnext.unique hnext'
      exact ih hrest'
    | closed hnext' hend' _ =>
      obtain ⟨rfl, rfl⟩ := hnext.unique hnext'
      rw [hend] at hend'
      cases hend'
  | closed hnext hend _ ih =>
    cases h' with
    | finished h' => exact absurd h' hnext.not_finished
    | unclosed hnext' hend' _ =>
      obtain ⟨rfl, rfl⟩ := hnext.unique hnext'
      rw [hend] at hend'
      cases hend'
    | closed hnext' hend' hrest' =>
      obtain ⟨rfl, rfl⟩ := hnext.unique hnext'
      cases hend.symm.trans hend'
      rw [ih hrest']

/-- The search of a text comes to its end, with the matches of the standard pattern. -/
theorem searches_iff : Searches t 0 ms ↔ ms = Pattern.standard.matchesIn t := by
  have hsearch : Searches t 0 (Pattern.standard.matchesIn t) := searches_foundAt t 0
  constructor
  · intro h
    exact h.unique hsearch
  · rintro rfl
    exact hsearch

/-! ## Matches -/

/-- A match is a head with the body behind it. -/
structure PatternMatch.IsStandardIn (t : Text) (x : PatternMatch) : Prop where
  start_lt : x.start < x.stop
  stop_le : x.stop ≤ t.length
  text : x.text = slice t x.start x.stop
  head : ∃ m, headAt? t x.start = some m ∧ t[m.brace.index]? = some '\x7b' ∧
    Body.end? t m.brace.index = some x.stop

theorem Searches.start_le (h : Searches t i ms) : ∀ x ∈ ms, i ≤ x.start := by
  induction h with
  | finished _ => exact List.forall_mem_nil _
  | unclosed hnext _ _ ih =>
    intro x hx
    have hlt := (brace_of_headAt? hnext.head).1
    have hle := hnext.le
    have := ih x hx
    omega
  | closed hnext hend _ ih =>
    rw [List.forall_mem_cons]
    refine ⟨hnext.le, fun x hx => ?_⟩
    have hlt := (brace_of_headAt? hnext.head).1
    have hstop := (stop_of_headAt? hnext.head hend).1
    have hle := hnext.le
    have := ih x hx
    omega

theorem Searches.pairwise (h : Searches t i ms) : ms.Pairwise fun x y => x.stop ≤ y.start := by
  induction h with
  | finished _ => exact .nil
  | unclosed _ _ _ ih => exact ih
  | closed _ _ hrest ih => exact .cons hrest.start_le ih

theorem Searches.isStandardIn (h : Searches t i ms) : ∀ x ∈ ms, x.IsStandardIn t := by
  induction h with
  | finished _ => exact List.forall_mem_nil _
  | unclosed _ _ _ ih => exact ih
  | closed hnext hend _ ih =>
    rw [List.forall_mem_cons]
    obtain ⟨hlt, -, hbrace⟩ := brace_of_headAt? hnext.head
    obtain ⟨hstop, hlength⟩ := stop_of_headAt? hnext.head hend
    exact ⟨⟨Nat.lt_trans hlt hstop, hlength, rfl, _, hnext.head, hbrace, hend⟩, ih⟩

/-- A head is passed over only inside a match or inside a head whose body never ends. -/
theorem Searches.covers (h : Searches t i ms) (hle : i ≤ k) (hhead : headAt? t k = some m)
    (hend : (Body.end? t m.brace.index).isSome) : (∃ x ∈ ms, x.start ≤ k ∧ k < x.stop) ∨
      ∃ j n, headAt? t j = some n ∧ Body.end? t n.brace.index = none ∧
        j < k ∧ k < n.brace.index := by
  induction h with
  | finished hnone =>
    rw [hnone k hle] at hhead
    cases hhead
  | @unclosed i j n ms hnext hopen _ ih =>
    rcases Nat.lt_or_ge k n.brace.index with hlt | hge
    · have hjk : j ≤ k := Nat.le_of_not_lt fun hkj => by
        rw [hnext.first k hle hkj] at hhead
        cases hhead
      rcases Nat.eq_or_lt_of_le hjk with rfl | hjk
      · cases hnext.head.symm.trans hhead
        rw [hopen] at hend
        cases hend
      · exact .inr ⟨j, n, hnext.head, hopen, hjk, hlt⟩
    · exact ih hge
  | @closed i j stop n ms hnext _ _ ih =>
    rcases Nat.lt_or_ge k stop with hlt | hge
    · have hjk : j ≤ k := Nat.le_of_not_lt fun hkj => by
        rw [hnext.first k hle hkj] at hhead
        cases hhead
      exact .inl ⟨standardMatch t j stop, List.mem_cons_self, hjk, hlt⟩
    · rcases ih hge with ⟨x, hx, hcover⟩ | hinside
      · exact .inl ⟨x, List.mem_cons_of_mem _ hx, hcover⟩
      · exact .inr hinside

/-- The search ends and leaves nothing open. Its matches follow one another, each is a head with
the body behind it, and an operation is in a match unless it begins inside the head of one whose
body never ends. -/
theorem standard_matchesIn_covers (t : Text) :
    (∀ ms, Searches t 0 ms ↔ ms = Pattern.standard.matchesIn t) ∧
    (Pattern.standard.matchesIn t).Pairwise (fun x y => x.stop ≤ y.start) ∧
    (∀ x ∈ Pattern.standard.matchesIn t, x.IsStandardIn t) ∧
    (∀ k m, headAt? t k = some m → (Body.end? t m.brace.index).isSome →
      (∃ x ∈ Pattern.standard.matchesIn t, x.start ≤ k ∧ k < x.stop) ∨
        ∃ j n, headAt? t j = some n ∧ Body.end? t n.brace.index = none ∧
          j < k ∧ k < n.brace.index) := by
  have hsearch : Searches t 0 (Pattern.standard.matchesIn t) := searches_iff.mpr rfl
  exact ⟨fun ms => searches_iff, hsearch.pairwise, hsearch.isStandardIn,
    fun k m hhead hend => hsearch.covers (Nat.zero_le k) hhead hend⟩

/-- An operation whose body never ends, with an operation among its arguments and one behind its
head. -/
def nestedText : Text :=
  "query A(a: \x7b query B \x7b b \x7d \x7d) \x7b open mutation M \x7b m \x7d".toList

/-- The operation among the arguments is passed over, and the one behind the head is the only
match. -/
theorem standard_matchesIn_covers_nested :
    (∃ m, headAt? nestedText 13 = some m ∧ (Body.end? nestedText m.brace.index).isSome) ∧
    (Pattern.standard.matchesIn nestedText).map (fun x => (x.start, x.stop)) = [(37, 53)] ∧
    ∃ j n, headAt? nestedText j = some n ∧ Body.end? nestedText n.brace.index = none ∧
      j < 13 ∧ 13 < n.brace.index := by
  have hbrace : (headAt? nestedText 13).map (·.brace.index) = some 21 := by decide +kernel
  obtain ⟨m, hhead, hindex⟩ := Option.map_eq_some_iff.mp hbrace
  have hend : (Body.end? nestedText m.brace.index).isSome := by
    rw [hindex]
    decide +kernel
  have hmatches : (Pattern.standard.matchesIn nestedText).map (fun x => (x.start, x.stop)) =
      [(37, 53)] := by
    decide +kernel
  refine ⟨⟨m, hhead, hend⟩, hmatches, ?_⟩
  obtain ⟨-, -, -, hcovers⟩ := standard_matchesIn_covers nestedText
  rcases hcovers 13 m hhead hend with ⟨x, hx, hstart, -⟩ | hinside
  · have hpair := List.mem_map_of_mem (f := fun x : PatternMatch => (x.start, x.stop)) hx
    rw [hmatches, List.mem_singleton, Prod.mk.injEq] at hpair
    omega
  · exact hinside

end OperationScan
