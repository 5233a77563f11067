import OperationScan.Proofs.Pattern.Shape
import OperationScan.Proofs.Pattern.Starts

/-!
# Matches can be traced back

A match says where in the text it comes from. Its own text has been anchored, clipped and perhaps
closed since, but all of it stands in that stretch, and no two stretches of a pattern overlap.

* `Span.IsIn`, `FindsInside`: what a stepper finds lies in what it steps over.
* `findsInside_of_mem_all`: the steppers of the library.
* `findFrom_pairwise`: what is found from left to right lies in the text, one behind the other.
* `matchesIn_traceable`: the matches of every pattern of the library.
-/

namespace OperationScan

open Text

/-- A span is a stretch of a text, where offsets count from that of the text. -/
def Span.IsIn (s : Span) (index : Nat) (t : Text) : Prop :=
  ∃ u v, t = u ++ (s.text ++ v) ∧ s.start = index + u.length ∧ s.stop = s.start + s.text.length

/-- What a stepper finds lies in the text that it looks at, and in what it steps over. -/
def FindsInside (step : Stepper Span) : Prop := ∀ before (p : Place) s n,
  step before p = .hit s n → s.IsIn p.index p.rest ∧ s.stop ≤ p.index + n

variable {p q : Place} {t u : Text} {before : Option Char} {index stop n : Nat} {s : Span}

/-! ## Places further on -/

theorem Place.Reads.total (h : p.Reads t q) :
    q.index + q.rest.length = p.index + p.rest.length := by
  rw [h.index, h.rest, List.length_append, Nat.add_assoc]

/-- A place with text behind it lies in the text of every place before it. -/
theorem Place.Reaches.total (h : p.Reaches q) (hq : q.rest ≠ []) :
    q.index + q.rest.length = p.index + p.rest.length := by
  obtain ⟨n, rfl⟩ := h
  have hpos : 0 < (p.rest.drop n).length := List.length_pos_iff.mpr hq
  rw [List.length_drop] at hpos
  simp only [drop, List.length_drop]
  omega

theorem Span.isIn_take (hle : p.index ≤ stop) (hstop : stop ≤ p.index + p.rest.length) :
    (Span.mk p.index stop (p.rest.take (stop - p.index))).IsIn p.index p.rest := by
  refine ⟨[], p.rest.drop (stop - p.index), ?_, rfl, ?_⟩
  · rw [List.nil_append, List.take_append_drop]
  · rw [List.length_take]
    dsimp only
    omega

/-- A span that begins at a place further on. -/
theorem Span.IsIn.of_reaches (h : p.Reaches q) (hq : q.rest ≠ []) (hs : s.IsIn q.index q.rest) :
    s.IsIn p.index p.rest := by
  obtain ⟨n, rfl⟩ := h
  obtain ⟨u, v, hsplit, hstart, hstop⟩ := hs
  have hn : n < p.rest.length := by
    have hpos : 0 < (p.rest.drop n).length := List.length_pos_iff.mpr hq
    rw [List.length_drop] at hpos
    omega
  refine ⟨p.rest.take n ++ u, v, ?_, ?_, hstop⟩
  · rw [List.append_assoc, ← hsplit]
    exact (List.take_append_drop n p.rest).symm
  · rw [hstart, List.length_append, List.length_take_of_le (Nat.le_of_lt hn), Place.drop,
      Nat.add_assoc]

/-! ## The steppers -/

theorem Braces.lengthFrom?_le {most count m : Nat}
    (h : Braces.lengthFrom? most n count t = some m) : m ≤ count + t.length := by
  induction t generalizing n count with
  | nil => cases h
  | cons c t ih =>
    rw [Braces.lengthFrom?] at h
    have hlater : ∀ {k : Nat}, Braces.lengthFrom? most k (count + 1) t = some m →
        m ≤ count + (c :: t).length := by
      intro k hk
      have := ih hk
      rw [List.length_cons]
      omega
    split at h
    · split at h
      · exact hlater h
      · cases h
    · split at h
      · split at h
        · split at h
          · cases h
            simp
          · cases h
        · exact hlater h
      · split at h
        · cases h
        · exact hlater h

theorem findsInside_standard : FindsInside standardStep := by
  intro before p s n h
  unfold standardStep at h
  split at h
  · cases h
  split at h
  · cases h
  rename_i m hat
  split at h
  · cases h
  rename_i n hbody
  cases h
  obtain ⟨-, s, -, -, hread⟩ := Head.exists_of_at? hat
  obtain ⟨body, rest, hsplit, -, -, rfl⟩ := Body.length?_eq_some_iff.mp hbody
  have hle := hread.reaches.le
  have htotal := hread.total
  rw [hsplit, List.length_append] at htotal
  exact ⟨Span.isIn_take (by omega) (by omega), by dsimp only; omega⟩

theorem findsInside_minified : FindsInside minifiedStep := by
  intro before p s n h
  unfold minifiedStep at h
  split at h
  · cases h
  rename_i k q hkeyword
  split at h
  · cases h
  rename_i brace hbrace
  split at h
  · cases h
  rename_i m hlength
  cases h
  obtain ⟨hreaches, hhead⟩ := Compact.reaches_afterKeyword? hbrace
  have hreaches := (Place.reaches_keyword? hkeyword).trans hreaches
  have hle := hreaches.le
  have htotal := hreaches.total (by
    intro hnil
    rw [hnil] at hhead
    cases hhead)
  have hbody := Braces.lengthFrom?_le hlength
  exact ⟨Span.isIn_take (by omega) (by omega), by dsimp only; omega⟩

theorem findsInside_split : FindsInside splitStep := by
  intro before p s n h
  unfold splitStep at h
  split at h
  · cases h
  rename_i k q hkeyword
  dsimp only at h
  split at h
  · cases h
  split at h
  · split at h
    · cases h
    · rename_i hrest
      cases h
      have hreaches : ∀ n test, p.Reaches ((q.drop n).skip test) := fun n test =>
        (Place.reaches_keyword? hkeyword).trans
          ((q.reaches_drop n).trans (Place.reaches_skip _ test))
      have htotal := (hreaches _ _).total fun hnil => hrest (List.isEmpty_iff.mpr hnil)
      exact ⟨Span.isIn_take (hreaches _ _).le (by omega), by dsimp only; omega⟩
  · cases h

/-- The span of a keyword ends where the quote stands. -/
theorem findsInside_of_liesIn {step : Stepper Span}
    (h : ∀ before (p : Place) s n, step before p = .hit s n →
      ∃ r : QuotedKeyword, s = r.span ∧ r.LiesIn before p n) : FindsInside step := by
  intro before p s n hstep
  obtain ⟨r, rfl, hr⟩ := h before p s n hstep
  obtain ⟨c, v, hstop⟩ := hr.stop
  have htotal := hstop.total (List.cons_ne_nil c v)
  rw [List.length_cons] at htotal
  have hne : r.keyword.rest ≠ [] := by
    intro hnil
    rw [hnil, List.length_nil] at htotal
    have := hstop.le
    dsimp only at this htotal
    omega
  refine ⟨.of_reaches hr.reaches hne (Span.isIn_take hstop.le ?_), Nat.le_of_lt hr.stop_lt⟩
  dsimp only at htotal
  omega

theorem findsInside_of_mem_all : ∀ p ∈ Pattern.all, FindsInside p.step := by
  simp only [Pattern.all, Pattern.aggressive, List.forall_mem_cons, List.not_mem_nil,
    false_implies, implies_true, and_true]
  exact ⟨findsInside_standard, findsInside_minified,
    findsInside_of_liesIn fun _ _ _ _ => exists_of_quotedStep,
    findsInside_of_liesIn fun _ _ _ _ => exists_of_escapedStep, findsInside_split⟩

/-! ## The scan -/

theorem Span.IsIn.append_left (h : s.IsIn (index + u.length) t) : s.IsIn index (u ++ t) := by
  obtain ⟨v, w, rfl, hstart, hstop⟩ := h
  refine ⟨u ++ v, w, (List.append_assoc ..).symm, ?_, hstop⟩
  rw [hstart, List.length_append, Nat.add_assoc]

theorem Span.IsIn.le (h : s.IsIn index t) : index ≤ s.start := by
  obtain ⟨u, v, -, hstart, -⟩ := h
  rw [hstart]
  exact Nat.le_add_right _ _

/-- What is found from left to right lies in the text, one behind the other. -/
theorem findFrom_pairwise {step : Stepper Span} (hstep : FindsInside step) (skipped : Nat) :
    (findFrom step skipped before index t).Pairwise (fun x y => x.stop ≤ y.start) ∧
      ∀ s ∈ findFrom step skipped before index t,
        index + skipped ≤ s.start ∧ s.IsIn index t := by
  induction t generalizing skipped before index with
  | nil =>
    rw [findFrom_nil]
    exact ⟨.nil, by simp⟩
  | cons c t ih =>
    have hlater : ∀ k, ∀ s ∈ findFrom step k (some c) (index + 1) t,
        index + 1 + k ≤ s.start ∧ s.IsIn index (c :: t) := by
      intro k s hs
      exact ((ih k).2 s hs).imp_right (Span.IsIn.append_left (u := [c]))
    have hskip : ∀ k j, j ≤ k + 1 →
        (findFrom step k (some c) (index + 1) t).Pairwise (fun x y => x.stop ≤ y.start) ∧
          ∀ s ∈ findFrom step k (some c) (index + 1) t,
            index + j ≤ s.start ∧ s.IsIn index (c :: t) := by
      intro k j hj
      exact ⟨(ih k).1, fun s hs => (hlater k s hs).imp_left fun hle => by omega⟩
    cases skipped with
    | succ skipped => exact hskip skipped (skipped + 1) (Nat.le_refl _)
    | zero =>
      cases h : step before ⟨index, c :: t⟩ with
      | miss =>
        rw [findFrom_miss h]
        exact hskip 0 0 (Nat.zero_le _)
      | pass n =>
        rw [findFrom_pass h]
        exact hskip (n - 1) 0 (Nat.zero_le _)
      | hit s n =>
        -- the scan goes on behind all that has been stepped over, the span included
        obtain ⟨hs, hstop⟩ := hstep _ _ _ _ h
        rw [findFrom_hit h]
        refine ⟨.cons (fun x hx => ?_) (ih (n - 1)).1, ?_⟩
        · have hstart := (hlater _ x hx).1
          have hend : s.stop ≤ index + n := hstop
          omega
        · rw [List.forall_mem_cons]
          exact ⟨⟨hs.le, hs⟩, fun x hx => (hlater _ x hx).imp_left fun hle => by omega⟩

/-! ## Anchoring, clipping and repair -/

/-- What stands up to the end of a body keeps its opening brace. -/
theorem brace_mem_take {brace : Nat} (hbrace : t[brace]? = some '\x7b')
    (hstop : Body.end? t brace = some stop) : '\x7b' ∈ t.take stop := by
  obtain ⟨n, hlength, rfl⟩ := Option.map_eq_some_iff.mp hstop
  obtain ⟨body, rest, -, hclose, -, rfl⟩ := Body.length?_eq_some_iff.mp hlength
  have hpos := List.length_pos_iff.mpr hclose.ne_nil
  refine List.mem_iff_getElem?.mpr ⟨brace, ?_⟩
  rw [List.getElem?_take_of_lt (by omega), hbrace]

/-- What is left of a text keeps its opening brace and stands in the text, but for a brace that has
been added. -/
theorem exists_of_clip? {repairable repaired : Bool}
    (h : clip? repairable t = some (u, repaired)) :
    '\x7b' ∈ u ∧ (if repaired then u.dropLast else u) <:+: t := by
  unfold clip? at h
  split at h
  · cases h
  · rename_i anchored hanchor
    obtain ⟨v, rfl, -, -⟩ := exists_of_anchor? hanchor
    have hpiece : ∀ {w : Text}, w <+: anchored → w <:+: v ++ anchored :=
      fun hw => hw.isInfix.trans (List.suffix_append v anchored).isInfix
    split at h
    · cases h
    · rename_i brace hfind
      obtain ⟨hlt, hbrace, -⟩ := List.findIdx?_eq_some_iff_getElem.mp hfind
      have hget : anchored[brace]? = some '\x7b' := by
        rw [List.getElem?_eq_getElem hlt, beq_iff_eq.mp hbrace]
      split at h
      · rename_i stop hstop
        cases h
        exact ⟨brace_mem_take hget hstop, hpiece (List.take_prefix _ _)⟩
      · split at h
        · have hstripped : dropEndWhile isResidue anchored <+: anchored :=
            ⟨_, dropEndWhile_append isResidue anchored⟩
          have hmem := brace_mem_dropEndWhile (List.mem_of_getElem? hget)
          rw [repair] at h
          split at h
          · cases h
            exact ⟨hmem, hpiece hstripped⟩
          · cases h
            rw [if_pos rfl, List.dropLast_concat]
            exact ⟨List.mem_append_left _ hmem, hpiece hstripped⟩
        · cases h

/-! ## Matches -/

/-- A match that is shaped like an operation, has the kind of its keyword, and stands in a stretch
of a text, but for a brace that has been added. -/
structure PatternMatch.Traceable (t : Text) (m : PatternMatch) : Prop where
  start_lt : m.start < m.stop
  stop_le : m.stop ≤ t.length
  keyword : ∃ k ∈ Kind.keywords, ∃ rest, m.text = k.word ++ rest ∧ wordEnds rest = true ∧
    (Head.describe m.text).kind = k
  brace : '\x7b' ∈ m.text
  ends : m.text.getLast? = some '\x7d'
  piece : (if m.repaired then m.text.dropLast else m.text) <:+: slice t m.start m.stop

theorem exists_of_finished? {p : Pattern} {m : PatternMatch} (hp : p ∈ Pattern.all)
    (h : m ∈ p.matchesIn t) (hs : p.finished? s = some m) :
    '\x7b' ∈ m.text ∧ (if m.repaired then m.text.dropLast else m.text) <:+: s.text ∧
      (p ∈ Pattern.aggressive → 30 ≤ m.text.length) := by
  rcases List.mem_cons.mp hp with rfl | hp
  · obtain ⟨s', body, -, hbrace, -, ht⟩ := (isOperation_of_mem_matchesIn h).exists_append
    cases hs
    refine ⟨?_, List.infix_rfl, fun haggressive => ?_⟩
    · rw [ht]
      exact List.mem_append_right _ (List.mem_of_mem_head? hbrace)
    · obtain ⟨repairable, hfinish⟩ := finish_of_mem_aggressive _ haggressive
      cases hfinish
  · obtain ⟨repairable, hfinish⟩ := finish_of_mem_aggressive p hp
    unfold Pattern.finished? at hs
    rw [hfinish] at hs
    dsimp only at hs
    split at hs
    · cases hs
    · rename_i body repaired hclip
      split at hs
      · cases hs
      · rename_i hlength
        cases hs
        obtain ⟨hbrace, hpiece⟩ := exists_of_clip? hclip
        exact ⟨hbrace, hpiece, fun _ => Nat.le_of_not_lt hlength⟩

theorem Span.IsIn.slice_eq (h : s.IsIn 0 t) :
    s.stop ≤ t.length ∧ slice t s.start s.stop = s.text := by
  obtain ⟨u, v, rfl, hstart, hstop⟩ := h
  rw [Nat.zero_add] at hstart
  constructor
  · rw [hstop, hstart, List.length_append, List.length_append]
    omega
  · rw [hstop, hstart, slice, List.drop_left, Nat.add_sub_cancel_left, List.take_left]

/-- A text that keeps its opening brace has more than its last character. -/
theorem ne_nil_of_piece {m : PatternMatch} (hbrace : '\x7b' ∈ m.text)
    (hends : m.text.getLast? = some '\x7d')
    (hpiece : (if m.repaired then m.text.dropLast else m.text) <:+: u) : u ≠ [] := by
  rintro rfl
  have hnil := List.infix_nil.mp hpiece
  obtain ⟨w, hw⟩ := List.getLast?_eq_some_iff.mp hends
  have hmem : '\x7b' ∈ w := by
    rw [hw, List.mem_append, List.mem_singleton] at hbrace
    exact hbrace.resolve_right (by decide)
  rw [hw, List.dropLast_concat] at hnil
  split at hnil
  · rw [hnil] at hmem
    cases hmem
  · simp at hnil

/-- The matches of every pattern of the library follow one another, each can be traced back to its
stretch of the text, and those of the aggressive patterns are not too short. -/
theorem matchesIn_traceable {p : Pattern} (hp : p ∈ Pattern.all) (t : Text) :
    (p.matchesIn t).Pairwise (fun x y => x.stop ≤ y.start) ∧
    ∀ m ∈ p.matchesIn t, m.Traceable t ∧ (p ∈ Pattern.aggressive → 30 ≤ m.text.length) := by
  obtain ⟨hpairwise, hfound⟩ : (findAll p.step t).Pairwise (fun x y => x.stop ≤ y.start) ∧
      ∀ s ∈ findAll p.step t, 0 + 0 ≤ s.start ∧ s.IsIn 0 t :=
    findFrom_pairwise (findsInside_of_mem_all p hp) 0
  refine ⟨hpairwise.filterMap _ fun x y hxy m hm n hn => ?_, fun m hm => ?_⟩
  · obtain ⟨-, -, hstop⟩ := finished?_eq_some hm
    obtain ⟨-, hstart, -⟩ := finished?_eq_some hn
    rw [hstop, hstart]
    exact hxy
  · have hshape := isOperationShaped_of_mem_matchesIn hp hm
    obtain ⟨s, hs, hfinished⟩ := List.mem_filterMap.mp hm
    obtain ⟨-, hstart, hstop⟩ := finished?_eq_some hfinished
    obtain ⟨hbrace, hpiece, hlength⟩ := exists_of_finished? hp hm hfinished
    obtain ⟨hle, hslice⟩ := (hfound s hs).2.slice_eq
    rw [← hslice, ← hstart, ← hstop] at hpiece
    have hne : slice t m.start m.stop ≠ [] := ne_nil_of_piece hbrace hshape.ends hpiece
    refine ⟨⟨?_, hstop ▸ hle, hshape.begins.describe, hbrace, hshape.ends, hpiece⟩, hlength⟩
    refine Nat.lt_of_not_le fun hge => hne ?_
    rw [slice, Nat.sub_eq_zero_of_le hge, List.take_zero]

/-- A quoted span with text around an operation, one with a truncated operation, and a short one. -/
def quotedText : Text :=
  ("f('a mutation Save \x7b save(id: 1) \x7b ok \x7d \x7d b', \"c query Truncated " ++
    "\x7b items \x7b id name, \", 'query A \x7b a \x7d')").toList

/-- The first match is clipped, the second one is closed by a brace of its own, and the third one
is dropped. -/
theorem matchesIn_traceable_quoted : Pattern.quoted ∈ Pattern.all ∧
    (Pattern.quoted.matchesIn quotedText).map (fun m => (m.text, m.start, m.stop, m.repaired)) =
      [("mutation Save \x7b save(id: 1) \x7b ok \x7d \x7d".toList, 5, 43, false),
        ("query Truncated \x7b items \x7b id name\x7d".toList, 49, 84, true)] ∧
    ∀ m ∈ Pattern.quoted.matchesIn quotedText, m.Traceable quotedText ∧ 30 ≤ m.text.length := by
  have hall : Pattern.quoted ∈ Pattern.all := by simp [Pattern.all, Pattern.aggressive]
  have haggressive : Pattern.quoted ∈ Pattern.aggressive := by simp [Pattern.aggressive]
  refine ⟨hall, by decide +kernel, fun m hm => ?_⟩
  exact ((matchesIn_traceable hall quotedText).2 m hm).imp_right fun h => h haggressive

end OperationScan
