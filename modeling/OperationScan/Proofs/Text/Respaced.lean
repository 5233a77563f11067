import OperationScan.Operation.Head

/-!
# Texts that differ in their gaps only

`Respaced t u` says that `u` has the characters of `t`, and white space exactly where `t` has
some: the runs of white space may be spelled in any way.

* `respaced_collapse`: collapsing the white space of a text respaces it.
* `Respaced.dropBlanks`, `Respaced.takeWhile_eq`, `Respaced.dropWhile`, `Respaced.inner`:
  what a reader finds at the start of respaced texts.
* `normalize_eq_collapse`: the signature of a text without white space at its ends is its
  collapsed text, so a text and its signature are respaced.
* `normalize_trim`: white space at the ends of a text does not show in its signature.
-/

namespace OperationScan.Text

/-- A run of white space, which is not empty. -/
def IsGap (t : Text) : Prop := t ≠ [] ∧ ∀ c ∈ t, isBlank c = true

/-- The characters of one text, with white space in the same places. -/
inductive Respaced : Text → Text → Prop where
  | nil : Respaced [] []
  | cons {c : Char} {t u : Text} (hc : isBlank c = false) (h : Respaced t u) :
      Respaced (c :: t) (c :: u)
  | gap {a b t u : Text} (ha : IsGap a) (hb : IsGap b) (h : Respaced t u) :
      Respaced (a ++ t) (b ++ u)

/-! ## Gaps -/

theorem isBlank_space : isBlank ' ' = true := by decide

theorem isGap_singleton {c : Char} (hc : isBlank c = true) : IsGap [c] :=
  ⟨by simp, by simpa using hc⟩

theorem IsGap.exists_cons {g : Text} (h : IsGap g) :
    ∃ c rest, g = c :: rest ∧ isBlank c = true := by
  obtain ⟨c, rest, rfl⟩ := List.exists_cons_of_ne_nil h.1
  exact ⟨c, rest, rfl, h.2 c (by simp)⟩

theorem IsGap.cons {c : Char} {g : Text} (hc : isBlank c = true) (h : IsGap g) :
    IsGap (c :: g) := by
  refine ⟨by simp, ?_⟩
  intro d hd
  rcases List.mem_cons.mp hd with rfl | hd
  · exact hc
  · exact h.2 d hd

theorem IsGap.takeWhile_append {g : Text} (h : IsGap g) {p : Char → Bool}
    (hp : ∀ c, isBlank c = true → p c = true) (t : Text) :
    (g ++ t).takeWhile p = g ++ t.takeWhile p :=
  List.takeWhile_append_of_pos fun c hc => hp c (h.2 c hc)

theorem IsGap.dropWhile_append {g : Text} (h : IsGap g) {p : Char → Bool}
    (hp : ∀ c, isBlank c = true → p c = true) (t : Text) :
    (g ++ t).dropWhile p = t.dropWhile p :=
  List.dropWhile_append_of_pos fun c hc => hp c (h.2 c hc)

theorem IsGap.takeWhile_eq_nil {g : Text} (h : IsGap g) {p : Char → Bool}
    (hp : ∀ c, isBlank c = true → p c = false) (t : Text) : (g ++ t).takeWhile p = [] := by
  obtain ⟨c, rest, rfl, hc⟩ := h.exists_cons
  simp [hp c hc]

theorem IsGap.dropWhile_eq_self {g : Text} (h : IsGap g) {p : Char → Bool}
    (hp : ∀ c, isBlank c = true → p c = false) (t : Text) : (g ++ t).dropWhile p = g ++ t := by
  obtain ⟨c, rest, rfl, hc⟩ := h.exists_cons
  simp [hp c hc]

namespace Respaced

variable {t u : Text}

/-! ## What a reader finds -/

theorem symm (h : Respaced t u) : Respaced u t := by
  induction h with
  | nil => exact .nil
  | cons hc _ ih => exact .cons hc ih
  | gap ha hb _ ih => exact .gap hb ha ih

/-- Another blank in front of a gap changes nothing. -/
theorem cons_blank {c d : Char} {v : Text} (hc : isBlank c = true) (hd : isBlank d = true)
    (h : Respaced t u) (hu : u = d :: v) : Respaced (c :: t) u := by
  cases h with
  | nil => cases hu
  | cons hx _ =>
    cases hu
    rw [hd] at hx
    cases hx
  | gap ha hb h => exact .gap (ha.cons hc) hb h

/-- How respaced texts begin: both are empty, or with the same character, or with white space. -/
theorem view (h : Respaced t u) :
    (t = [] ∧ u = []) ∨
    (∃ c t' u', isBlank c = false ∧ t = c :: t' ∧ u = c :: u' ∧ Respaced t' u') ∨
    (∃ c t' d u', isBlank c = true ∧ isBlank d = true ∧ t = c :: t' ∧ u = d :: u') := by
  cases h with
  | nil => exact .inl ⟨rfl, rfl⟩
  | cons hc h => exact .inr (.inl ⟨_, _, _, hc, rfl, rfl, h⟩)
  | gap ha hb _ =>
    obtain ⟨c, r, rfl, hc⟩ := ha.exists_cons
    obtain ⟨d, s, rfl, hd⟩ := hb.exists_cons
    exact .inr (.inr ⟨c, r ++ _, d, s ++ _, hc, hd, rfl, rfl⟩)

/-- White space at the start of respaced texts has the same effect whatever it is. -/
theorem dropBlanks (h : Respaced t u) :
    Respaced (t.dropWhile isBlank) (u.dropWhile isBlank) := by
  induction h with
  | nil => exact .nil
  | cons hc h _ => simpa [hc] using Respaced.cons hc h
  | gap ha hb _ ih =>
    rw [ha.dropWhile_append fun _ => id, hb.dropWhile_append fun _ => id]
    exact ih

theorem isEmpty_blanks (h : Respaced t u) :
    (t.takeWhile isBlank).isEmpty = (u.takeWhile isBlank).isEmpty := by
  rcases h.view with ⟨rfl, rfl⟩ | ⟨c, t', u', hc, rfl, rfl, -⟩ | ⟨c, t', d, u', hc, hd, rfl, rfl⟩
  · rfl
  · simp [hc]
  · simp [hc, hd]

/-- A first character that is no white space is the same. -/
theorem eq_cons {c : Char} (hc : isBlank c = false) (h : Respaced (c :: t) u) :
    ∃ v, u = c :: v ∧ Respaced t v := by
  rcases h.view with ⟨ht, -⟩ | ⟨d, t', u', -, ht, rfl, h'⟩ | ⟨d, t', e, u', hd, -, ht, -⟩
  · cases ht
  · cases ht
    exact ⟨u', rfl, h'⟩
  · cases ht
    rw [hc] at hd
    cases hd

theorem eq_nil (h : Respaced [] u) : u = [] := by
  rcases h.view with ⟨-, hu⟩ | ⟨d, t', u', -, ht, -⟩ | ⟨d, t', e, u', -, -, ht, -⟩
  · exact hu
  · cases ht
  · cases ht

variable {p : Char → Bool}

/-- A run of characters that are no white space is the same. -/
theorem takeWhile_eq (hp : ∀ c, isBlank c = true → p c = false) (h : Respaced t u) :
    t.takeWhile p = u.takeWhile p := by
  induction h with
  | nil => rfl
  | cons _ _ ih => rw [List.takeWhile_cons, List.takeWhile_cons, ih]
  | gap ha hb _ _ => rw [ha.takeWhile_eq_nil hp, hb.takeWhile_eq_nil hp]

theorem dropWhile (hp : ∀ c, isBlank c = true → p c = false) (h : Respaced t u) :
    Respaced (t.dropWhile p) (u.dropWhile p) := by
  induction h with
  | nil => exact .nil
  | @cons c t u hc h ih =>
    rw [List.dropWhile_cons, List.dropWhile_cons]
    split
    · exact ih
    · exact .cons hc h
  | gap ha hb h _ =>
    rw [ha.dropWhile_eq_self hp, hb.dropWhile_eq_self hp]
    exact .gap ha hb h

/-- A run in which white space may stand is respaced, and so is what follows it. -/
theorem inner (hp : ∀ c, isBlank c = true → p c = true) (h : Respaced t u) :
    Respaced (t.takeWhile p) (u.takeWhile p) ∧ Respaced (t.dropWhile p) (u.dropWhile p) := by
  induction h with
  | nil => exact ⟨.nil, .nil⟩
  | @cons c t u hc h ih =>
    simp only [List.takeWhile_cons, List.dropWhile_cons]
    split
    · exact ⟨.cons hc ih.1, ih.2⟩
    · exact ⟨.nil, .cons hc h⟩
  | gap ha hb _ ih =>
    rw [ha.takeWhile_append hp, hb.takeWhile_append hp, ha.dropWhile_append hp,
      hb.dropWhile_append hp]
    exact ⟨.gap ha hb ih.1, ih.2⟩

/-- A literal without white space stands at the start of both texts or of neither. -/
theorem afterStart? {literal : Text} (hl : ∀ c ∈ literal, isBlank c = false)
    (h : Respaced t u) :
    Option.Rel Respaced (Text.afterStart? literal t) (Text.afterStart? literal u) := by
  induction literal generalizing t u with
  | nil => exact .some h
  | cons c rest ih =>
    have hc : isBlank c = false := hl c (by simp)
    rcases h.view with ⟨rfl, rfl⟩ | ⟨d, t', u', hd, rfl, rfl, h'⟩ |
      ⟨d, t', e, u', hd, he, rfl, rfl⟩
    · exact .none
    · simp only [Text.afterStart?]
      split
      · exact ih (fun x hx => hl x (by simp [hx])) h'
      · exact .none
    · have hcd : c ≠ d := by
        rintro rfl
        simp [hc] at hd
      have hce : c ≠ e := by
        rintro rfl
        simp [hc] at he
      simp only [Text.afterStart?, if_neg hcd, if_neg hce]
      exact .none

/-- The first characters are the same, or both are white space. -/
theorem head?_isBlank (h : Respaced t u) : t.head?.any isBlank = u.head?.any isBlank := by
  rcases h.view with ⟨rfl, rfl⟩ | ⟨c, t', u', hc, rfl, rfl, -⟩ | ⟨c, t', d, u', hc, hd, rfl, rfl⟩
  · rfl
  · rfl
  · simp [hc, hd]

/-- The last characters are the same, or both are white space. -/
theorem getLast?_isBlank (h : Respaced t u) :
    t.getLast?.any isBlank = u.getLast?.any isBlank := by
  induction h with
  | nil => rfl
  | @cons c t u hc h ih =>
    cases t with
    | nil =>
      rw [h.eq_nil]
    | cons d t =>
      cases u with
      | nil => cases h.symm.eq_nil
      | cons e u => simpa [List.getLast?_cons_cons] using ih
  | @gap a b t u ha hb h ih =>
    have hlast : ∀ {g : Text}, IsGap g → g.getLast?.any isBlank = true := by
      intro g hg
      simp only [List.getLast?_eq_some_getLast hg.1, Option.any_some]
      exact hg.2 _ (List.getLast_mem hg.1)
    cases t with
    | nil =>
      rw [h.eq_nil, List.append_nil, List.append_nil, hlast ha, hlast hb]
    | cons d t =>
      cases u with
      | nil => cases h.symm.eq_nil
      | cons e u =>
        have happ : ∀ (x : Char) (g r : Text), (g ++ x :: r).getLast? = (x :: r).getLast? := by
          intro x g r
          rw [List.getLast?_append]
          simp [List.getLast?_cons]
        rw [happ, happ]
        exact ih

end Respaced

/-! ## Collapsing -/

theorem collapse_cons (c : Char) (t : Text) : collapse (c :: t) = consCollapsed c (collapse t) := by
  rw [collapse, collapse, List.foldr_cons]

theorem respaced_consCollapsed {t u : Text} (c : Char) (h : Respaced t u) :
    Respaced (c :: t) (consCollapsed c u) := by
  unfold consCollapsed
  split
  · rename_i hc
    split
    · rename_i w
      exact h.cons_blank hc isBlank_space rfl
    · exact .gap (isGap_singleton hc) (isGap_singleton isBlank_space) h
  · rename_i hc
    exact .cons (by simpa using hc) h

theorem respaced_collapse (t : Text) : Respaced t (collapse t) := by
  induction t with
  | nil => exact .nil
  | cons c t ih =>
    rw [collapse_cons]
    exact respaced_consCollapsed c ih

theorem dropWhile_eq_self {p : Char → Bool} {t : Text} (h : t.head?.any p = false) :
    t.dropWhile p = t := by
  cases t with
  | nil => rfl
  | cons c t =>
    have hc : p c = false := by simpa using h
    simp [hc]

/-- A text without white space at its ends. -/
def Trimmed (t : Text) : Prop :=
  t.head?.any isBlank = false ∧ t.getLast?.any isBlank = false

theorem Trimmed.trim_eq {t : Text} (h : Trimmed t) : trim t = t := by
  have hend : t.reverse.dropWhile isBlank = t.reverse := by
    apply dropWhile_eq_self
    rw [List.head?_reverse]
    exact h.2
  rw [trim, trimStart, dropWhile_eq_self h.1, trimEnd, dropEndWhile, hend, List.reverse_reverse]

theorem head?_dropWhile (p : Char → Bool) (t : Text) : (t.dropWhile p).head?.any p = false := by
  induction t with
  | nil => rfl
  | cons c t ih =>
    rw [List.dropWhile_cons]
    split
    · exact ih
    · rename_i hc
      simpa using hc

theorem dropEndWhile_append (p : Char → Bool) (t : Text) :
    dropEndWhile p t ++ (t.reverse.takeWhile p).reverse = t := by
  rw [dropEndWhile, ← List.reverse_append, List.takeWhile_append_dropWhile, List.reverse_reverse]

/-- What is cut off at the end of a text leaves its start. -/
theorem head?_dropEndWhile {p : Char → Bool} {t : Text} (h : t.head?.any p = false) :
    (dropEndWhile p t).head?.any p = false := by
  have hsplit := dropEndWhile_append p t
  cases hd : dropEndWhile p t with
  | nil => rfl
  | cons c rest =>
    rw [hd] at hsplit
    rw [← hsplit] at h
    simpa using h

theorem trimmed_trim (t : Text) : Trimmed (trim t) := by
  constructor
  · exact head?_dropEndWhile (head?_dropWhile isBlank t)
  · have h := head?_dropWhile isBlank (trimStart t).reverse
    rw [trim, trimEnd, dropEndWhile, List.getLast?_reverse]
    exact h

theorem trimmed_collapse {t : Text} (h : Trimmed t) : Trimmed (collapse t) := by
  have hr := respaced_collapse t
  exact ⟨hr.head?_isBlank ▸ h.1, hr.getLast?_isBlank ▸ h.2⟩

/-- The signature of a text without white space at its ends is its collapsed text. -/
theorem normalize_eq_collapse {t : Text} (h : Trimmed t) : normalize t = collapse t :=
  (trimmed_collapse h).trim_eq

/-- A text and its signature are respaced, up to the white space at the ends of the text. -/
theorem respaced_normalize_trim (t : Text) : Respaced (trim t) (normalize (trim t)) := by
  rw [normalize_eq_collapse (trimmed_trim t)]
  exact respaced_collapse _

/-! ## White space at the ends -/

/-- All characters of a text are white space. -/
def IsBlank (t : Text) : Prop := ∀ c ∈ t, isBlank c = true

instance : DecidablePred IsBlank := fun t => List.decidableBAll _ t

theorem isBlank_takeWhile (t : Text) : IsBlank (t.takeWhile isBlank) := by
  intro c hc
  exact List.all_eq_true.mp List.all_takeWhile c hc

theorem isBlank_nil : IsBlank [] := fun _ h => nomatch h

theorem isBlank_cons {c : Char} {t : Text} :
    IsBlank (c :: t) ↔ isBlank c = true ∧ IsBlank t := List.forall_mem_cons

theorem IsBlank.reverse {t : Text} (h : IsBlank t) : IsBlank t.reverse :=
  fun c hc => h c (List.mem_reverse.mp hc)

theorem IsBlank.dropWhile_append {a : Text} (h : IsBlank a) (t : Text) :
    (a ++ t).dropWhile isBlank = t.dropWhile isBlank :=
  List.dropWhile_append_of_pos h

/-- A text is what trimming leaves, between white space. -/
theorem exists_eq_trim (t : Text) : ∃ a b, IsBlank a ∧ IsBlank b ∧ t = a ++ (trim t ++ b) := by
  refine ⟨t.takeWhile isBlank, ((trimStart t).reverse.takeWhile isBlank).reverse,
    isBlank_takeWhile t, (isBlank_takeWhile _).reverse, ?_⟩
  rw [trim, trimEnd, dropEndWhile_append, trimStart, List.takeWhile_append_dropWhile]

theorem trim_between {a m b : Text} (ha : IsBlank a) (hm : Trimmed m) (hb : IsBlank b) :
    trim (a ++ (m ++ b)) = m := by
  rw [trim, trimStart, ha.dropWhile_append]
  cases m with
  | nil =>
    rw [List.nil_append, ← List.append_nil b, hb.dropWhile_append]
    rfl
  | cons c m =>
    have hstart : ((c :: m) ++ b).dropWhile isBlank = (c :: m) ++ b := dropWhile_eq_self hm.1
    have hend : (c :: m).reverse.dropWhile isBlank = (c :: m).reverse := by
      apply dropWhile_eq_self
      rw [List.head?_reverse]
      exact hm.2
    rw [hstart, trimEnd, dropEndWhile, List.reverse_append, hb.reverse.dropWhile_append, hend,
      List.reverse_reverse]

theorem trim_append_blank (t : Text) {blanks : Text} (h : IsBlank blanks) :
    trim (t ++ blanks) = trim t := by
  obtain ⟨a, b, ha, hb, ht⟩ := exists_eq_trim t
  have hblank : IsBlank (b ++ blanks) := fun c hc =>
    (List.mem_append.mp hc).elim (hb c) (h c)
  have heq : t ++ blanks = a ++ (trim t ++ (b ++ blanks)) := by
    rw [← List.append_assoc (trim t), ← List.append_assoc a, ← ht]
  rw [heq, trim_between ha (trimmed_trim t) hblank]

theorem trim_blank_append {blanks : Text} (h : IsBlank blanks) (t : Text) :
    trim (blanks ++ t) = trim t := by
  rw [trim, trimStart, h.dropWhile_append]
  rfl

theorem consCollapsed_eq (c : Char) (t : Text) :
    consCollapsed c t =
      if isBlank c then (if t.head? = some ' ' then t else ' ' :: t) else c :: t := by
  unfold consCollapsed
  split
  · split
    · rfl
    · rename_i hspace
      rw [if_neg]
      intro hhead
      obtain ⟨rest, hrest⟩ := List.head?_eq_some_iff.mp hhead
      exact hspace rest hrest
  · rfl

theorem consCollapsed_append (c : Char) {t : Text} (h : t ≠ []) (u : Text) :
    consCollapsed c (t ++ u) = consCollapsed c t ++ u := by
  have hhead : (t ++ u).head? = t.head? := by
    rw [List.head?_append, List.head?_eq_some_head h, Option.some_or]
  rw [consCollapsed_eq, consCollapsed_eq, hhead]
  split
  · split
    · rfl
    · rfl
  · rfl

theorem collapse_ne_nil {t : Text} (h : t ≠ []) : collapse t ≠ [] := by
  rintro hc
  have hr := respaced_collapse t
  rw [hc] at hr
  exact h hr.symm.eq_nil

/-- White space in front of a text comes in front of the collapsed text. -/
theorem exists_collapse_append_left {a : Text} (ha : IsBlank a) (t : Text) :
    ∃ g, IsBlank g ∧ collapse (a ++ t) = g ++ collapse t := by
  induction a with
  | nil => exact ⟨[], isBlank_nil, rfl⟩
  | cons c a ih =>
    rw [isBlank_cons] at ha
    obtain ⟨g, hg, heq⟩ := ih ha.2
    rw [List.cons_append, collapse_cons, heq, consCollapsed_eq, if_pos ha.1]
    split
    · exact ⟨g, hg, rfl⟩
    · exact ⟨' ' :: g, isBlank_cons.mpr ⟨isBlank_space, hg⟩, rfl⟩

/-- White space behind a text that does not end with any comes behind the collapsed text. -/
theorem exists_collapse_append_right {m b : Text} (hm : m.getLast?.any isBlank = false)
    (hb : IsBlank b) : ∃ g, IsBlank g ∧ collapse (m ++ b) = collapse m ++ g := by
  induction m with
  | nil =>
    obtain ⟨g, hg, heq⟩ := exists_collapse_append_left hb []
    rw [List.append_nil] at heq
    refine ⟨g, hg, ?_⟩
    rw [List.nil_append, heq]
    simp [collapse]
  | cons c m ih =>
    cases m with
    | nil =>
      have hc : isBlank c = false := by simpa using hm
      obtain ⟨g, hg, heq⟩ := exists_collapse_append_left hb []
      rw [List.append_nil] at heq
      refine ⟨g, hg, ?_⟩
      rw [List.cons_append, collapse_cons, List.nil_append, heq, collapse_cons]
      simp [consCollapsed_eq, collapse, hc]
    | cons d m =>
      obtain ⟨g, hg, heq⟩ := ih (by simpa [List.getLast?_cons_cons] using hm)
      refine ⟨g, hg, ?_⟩
      rw [List.cons_append, collapse_cons, heq,
        consCollapsed_append c (collapse_ne_nil (List.cons_ne_nil d m)), ← collapse_cons]

/-- White space at the ends of a text does not show in its signature. -/
theorem normalize_trim (t : Text) : normalize (trim t) = normalize t := by
  obtain ⟨a, b, ha, hb, ht⟩ := exists_eq_trim t
  have htrimmed := trimmed_trim t
  obtain ⟨g, hg, hleft⟩ := exists_collapse_append_left ha (trim t ++ b)
  obtain ⟨g', hg', hright⟩ := exists_collapse_append_right htrimmed.2 hb
  have hcollapse : collapse t = g ++ (collapse (trim t) ++ g') := by
    rw [← hright, ← hleft, ← ht]
  rw [normalize_eq_collapse htrimmed, normalize, hcollapse]
  exact (trim_between hg (trimmed_collapse htrimmed) hg').symm

end OperationScan.Text
