import OperationScan.Proofs.Operation.Reads

/-!
# The parts of a head

Behind its keyword and name a head has optional arguments, a type condition and directives, with
white space in front of each. What comes next tells which part it is.

* `Place.next?`: the next character that is no white space.
* `readArgs_some`, `skipCondition_some`, `skipDirective?_some`: a part that stands at a place is
  read.
* `readArgs_cases`, `skipCondition_cases`, `exists_of_skipDirective?`: what is read is such a part.
* `skipAllDirectives_eq`, `exists_skipAllDirectives`: the same for all directives in a row.
-/

namespace OperationScan

open Text

/-! ## The next character -/

namespace Place

variable {p q : Place} {t : Text} {c : Char}

/-- The first character at a place or behind it that is no white space. -/
def next? (p : Place) : Option Char := p.skipBlanks.rest.head?

theorem reads_skipBlanks (p : Place) :
    ∃ t, p.Reads t p.skipBlanks ∧ IsBlank t ∧ p.skipBlanks.rest.head?.any isBlank = false :=
  skipBlanks_eq_iff.mp rfl

theorem skipBlanks_eq (h : p.Reads t q) (ht : IsBlank t) (hq : q.rest.head? = some c)
    (hc : isBlank c = false) : p.skipBlanks = q :=
  skipBlanks_eq_iff.mpr ⟨t, h, ht, by simp [hq, hc]⟩

theorem next?_eq (h : p.Reads t q) (ht : IsBlank t) (hq : q.rest.head? = some c)
    (hc : isBlank c = false) : p.next? = some c := by
  rw [next?, skipBlanks_eq h ht hq hc, hq]

/-- The character at a place is white space or the next one. -/
theorem head?_of_next? {test : Char → Bool} (h : p.next? = some c) (hc : test c = false)
    (hblank : ∀ d, isBlank d = true → test d = false) : p.rest.head?.any test = false := by
  obtain ⟨t, ht, hall, -⟩ := p.reads_skipBlanks
  rw [ht.rest]
  cases t with
  | nil =>
    rw [List.nil_append]
    have hhead : p.skipBlanks.rest.head? = some c := h
    rw [hhead, Option.any_some, hc]
  | cons d t =>
    simpa using hblank d (hall d (by simp))

theorem head?_ne_of_next? {d : Char} (h : p.next? = some c) (hcd : c ≠ d)
    (hd : isBlank d = false) : p.rest.head? ≠ some d := by
  have hnot : p.rest.head?.any (fun x => x == d) = false := by
    refine head?_of_next? h (by simpa using hcd) fun x hx => ?_
    rw [beq_eq_false_iff_ne]
    rintro rfl
    rw [hd] at hx
    cases hx
  intro hhead
  rw [hhead] at hnot
  simp at hnot

end Place

namespace Head

open Place

variable {p q b : Place}

/-! ## Arguments -/

/-- The arguments of a head, with white space in front. -/
structure Arguments where
  blanks : Text
  inside : Text

namespace Arguments

def text (a : Arguments) : Text := a.blanks ++ '(' :: (a.inside ++ [')'])

structure Valid (a : Arguments) : Prop where
  blanks : IsBlank a.blanks
  inside : IsInside a.inside

end Arguments

theorem readArgs_none (h : p.next? ≠ some '(') : readArgs p = (none, p) := by
  rw [readArgs, parenthesized?_eq_none h]

theorem readArgs_some {a : Arguments} (h : p.Reads a.text q) (ha : a.Valid) :
    readArgs p = (some a.inside, q) := by
  obtain ⟨r, hblanks, hinside⟩ := h.append_cases
  have hskip : p.skipBlanks = r :=
    skipBlanks_eq (c := '(') hblanks ha.blanks (by rw [hinside.rest]; rfl) (by decide)
  rw [readArgs, hskip, parenthesized?_eq_some_iff.mpr ⟨ha.inside, hinside⟩]

theorem readArgs_cases (p : Place) :
    (readArgs p = (none, p)) ∨
      ∃ a : Arguments, ∃ q, a.Valid ∧ p.Reads a.text q ∧ readArgs p = (some a.inside, q) := by
  obtain ⟨t, ht, hblanks, -⟩ := p.reads_skipBlanks
  rw [readArgs]
  split
  · rename_i inside q h
    rw [parenthesized?_eq_some_iff] at h
    exact .inr ⟨⟨t, inside⟩, q, ⟨hblanks, h.1⟩, ht.trans h.2, rfl⟩
  · exact .inl rfl

/-! ## Type conditions -/

/-- A type condition: white space, the word `on`, white space and the name of a type. -/
structure Condition where
  blanks : Text
  gap : Text
  type : Text

namespace Condition

def text (c : Condition) : Text := c.blanks ++ (['o', 'n'] ++ (c.gap ++ c.type))

structure Valid (c : Condition) : Prop where
  blanks : IsBlank c.blanks
  gap : IsGap c.gap
  type : IsName c.type

end Condition

theorem isName_on : IsName ['o', 'n'] := ⟨rfl, List.forall_mem_singleton.mpr rfl⟩

theorem isBlank_of_isNameStart {c : Char} (h : isNameStart c = true) : isBlank c = false :=
  isBlank_of_isNameChar (isNameChar_of_isNameStart h)

theorem IsName.exists_head? {t : Text} (h : IsName t) (u : Text) :
    ∃ c, (t ++ u).head? = some c ∧ isNameStart c = true := by
  cases t with
  | nil => exact h.elim
  | cons c t => exact ⟨c, rfl, h.1⟩

theorem skipCondition_none (h : p.next? ≠ some 'o') : skipCondition p = p := by
  rw [skipCondition, skipLiteral?_eq_none h]

theorem skipCondition_some {c : Condition} (h : p.Reads c.text q) (hc : c.Valid)
    (hq : q.rest.head?.any isNameChar = false) : skipCondition p = q := by
  obtain ⟨r, hblanks, hrest⟩ := h.append_cases
  obtain ⟨s, hon, hrest⟩ := hrest.append_cases
  obtain ⟨u, hgap, htype⟩ := hrest.append_cases
  obtain ⟨d, hhead, hd⟩ := IsName.exists_head? hc.type q.rest
  have hskip := skipBlanks_eq (c := 'o') hblanks hc.blanks (by rw [hon.rest]; rfl) (by decide)
  have hskip' := skipBlanks_eq hgap hc.gap.2 (by rw [htype.rest]; exact hhead)
    (isBlank_of_isNameStart hd)
  have hindex : u.index ≠ s.index := by
    have hlength : c.gap.length ≠ 0 := by simpa using hc.gap.1
    rw [hgap.index]
    omega
  rw [skipCondition, hskip, skipLiteral?_eq_some_iff.mpr hon]
  dsimp only
  rw [hskip', if_neg (by simpa using hindex), name?_eq_some_iff.mpr ⟨hc.type, htype, hq⟩]

theorem skipCondition_cases (p : Place) :
    skipCondition p = p ∨ ∃ c : Condition, c.Valid ∧ p.Reads c.text (skipCondition p) := by
  unfold skipCondition
  split
  · rename_i q hon
    dsimp only
    split
    · exact .inl rfl
    · rename_i hindex
      split
      · rename_i type s hname
        obtain ⟨t, ht, hblanks, -⟩ := p.reads_skipBlanks
        obtain ⟨u, hu, hgap, -⟩ := q.reads_skipBlanks
        rw [skipLiteral?_eq_some_iff] at hon
        rw [name?_eq_some_iff] at hname
        have hne : u ≠ [] := by
          rintro rfl
          exact hindex (beq_iff_eq.mpr hu.index)
        exact .inr ⟨⟨t, u, type⟩, ⟨hblanks, ⟨hne, hgap⟩, hname.1⟩,
          ht.trans (hon.trans (hu.trans hname.2.1))⟩
      · exact .inl rfl
  · exact .inl rfl

/-! ## Directives -/

/-- A directive, with white space in front and perhaps with arguments right behind its name. -/
structure Directive where
  blanks : Text
  name : Text
  inside : Option Text

namespace Directive

def insideText (inside : Option Text) : Text :=
  (inside.map fun t => '(' :: (t ++ [')'])).getD []

def text (d : Directive) : Text := d.blanks ++ (['@'] ++ (d.name ++ insideText d.inside))

structure Valid (d : Directive) : Prop where
  blanks : IsBlank d.blanks
  name : IsName d.name
  inside : ∀ t ∈ d.inside, IsInside t

end Directive

theorem skipDirective?_none (h : p.next? ≠ some '@') : skipDirective? p = none := by
  rw [skipDirective?, skipLiteral?_eq_none h]

theorem skipDirective?_some {d : Directive} (h : p.Reads d.text q) (hd : d.Valid)
    (hname : q.rest.head?.any isNameChar = false) (hopen : q.rest.head? ≠ some '(') :
    skipDirective? p = some q := by
  obtain ⟨r, hblanks, hrest⟩ := h.append_cases
  obtain ⟨s, hat, hrest⟩ := hrest.append_cases
  obtain ⟨u, hread, hinside⟩ := hrest.append_cases
  have hskip := skipBlanks_eq (c := '@') hblanks hd.blanks (by rw [hat.rest]; rfl) (by decide)
  rw [skipDirective?, hskip, skipLiteral?_eq_some_iff.mpr hat]
  dsimp only
  cases hargs : d.inside with
  | none =>
    rw [hargs] at hinside
    have hq := hinside.eq_of_reads (.refl _)
    rw [hq] at hname hopen ⊢
    rw [name?_eq_some_iff.mpr ⟨hd.name, hread, hname⟩]
    dsimp only
    rw [parenthesized?_eq_none hopen]
  | some t =>
    rw [hargs] at hinside
    have hstop : u.rest.head?.any isNameChar = false := by
      rw [hinside.rest]
      rfl
    rw [name?_eq_some_iff.mpr ⟨hd.name, hread, hstop⟩]
    dsimp only
    rw [parenthesized?_eq_some_iff.mpr ⟨hd.inside t hargs, hinside⟩]

theorem exists_of_skipDirective? (h : skipDirective? p = some q) :
    ∃ d : Directive, d.Valid ∧ p.Reads d.text q := by
  obtain ⟨t, ht, hblanks, -⟩ := p.reads_skipBlanks
  unfold skipDirective? at h
  split at h
  · rename_i a hat
    rw [skipLiteral?_eq_some_iff] at hat
    split at h
    · rename_i name r hname
      rw [name?_eq_some_iff] at hname
      split at h
      · rename_i inside s hinside
        rw [parenthesized?_eq_some_iff] at hinside
        cases h
        refine ⟨⟨t, name, some inside⟩, ⟨hblanks, hname.1, ?_⟩,
          ht.trans (hat.trans (hname.2.1.trans hinside.2))⟩
        rintro u ⟨⟩
        exact hinside.1
      · cases h
        refine ⟨⟨t, name, none⟩, ⟨hblanks, hname.1, ?_⟩,
          ht.trans (hat.trans (hname.2.1.trans (.refl _)))⟩
        rintro u ⟨⟩
    · cases h
  · cases h

/-- The text of directives in a row. -/
def directivesText (ds : List Directive) : Text := ds.flatMap Directive.text

theorem next?_directive {d : Directive} {ds : List Directive}
    (h : p.Reads (directivesText (d :: ds)) q) (hd : d.Valid) : p.next? = some '@' := by
  have htext : directivesText (d :: ds) =
      d.blanks ++ (['@'] ++ (d.name ++ Directive.insideText d.inside ++ directivesText ds)) := by
    simp [directivesText, Directive.text]
  rw [htext] at h
  obtain ⟨r, hblanks, hrest⟩ := h.append_cases
  exact next?_eq hblanks hd.blanks (by rw [hrest.rest]; rfl) (by decide)

theorem next?_directives {ds : List Directive} (h : p.Reads (directivesText ds) q)
    (hds : ∀ d ∈ ds, d.Valid) (hq : q.next? = some '\x7b') :
    p.next? = some '@' ∨ p.next? = some '\x7b' := by
  cases ds with
  | nil =>
    have hpq : q = p := h.eq_of_reads (.refl p)
    exact .inr (hpq ▸ hq)
  | cons d ds => exact .inl (next?_directive h (hds d (by simp)))

/-- Where a directive or a brace comes next, no name goes on and no parenthesis opens. -/
theorem head?_of_closing (h : p.next? = some '@' ∨ p.next? = some '\x7b') :
    p.rest.head?.any isNameChar = false ∧ p.rest.head? ≠ some '(' := by
  rcases h with h | h
  · exact ⟨head?_of_next? h (by decide) fun _ => isNameChar_of_isBlank,
      head?_ne_of_next? h (by decide) (by decide)⟩
  · exact ⟨head?_of_next? h (by decide) fun _ => isNameChar_of_isBlank,
      head?_ne_of_next? h (by decide) (by decide)⟩

theorem skipDirectives_eq {ds : List Directive} {n : Nat} (hn : ds.length ≤ n)
    (h : p.Reads (directivesText ds) q) (hds : ∀ d ∈ ds, d.Valid)
    (hq : q.next? = some '\x7b') : skipDirectives n p = q := by
  induction ds generalizing n p with
  | nil =>
    have hpq : q = p := h.eq_of_reads (.refl p)
    subst hpq
    cases n with
    | zero => rfl
    | succ n => rw [skipDirectives, skipDirective?_none (by simp [hq])]
  | cons d ds ih =>
    have hrest : ∀ e ∈ ds, e.Valid := fun e he => hds e (by simp [he])
    obtain ⟨r, hfirst, hmore⟩ := Reads.append_cases (t := d.text) (u := directivesText ds) h
    obtain ⟨hname, hopen⟩ := head?_of_closing (next?_directives hmore hrest hq)
    cases n with
    | zero => exact absurd hn (Nat.not_succ_le_zero _)
    | succ n =>
      rw [skipDirectives, skipDirective?_some hfirst (hds d (by simp)) hname hopen]
      exact ih (Nat.le_of_succ_le_succ hn) hmore hrest

theorem length_le_directivesText (ds : List Directive) :
    ds.length ≤ (directivesText ds).length := by
  induction ds with
  | nil => simp
  | cons d ds ih =>
    have hsplit : directivesText (d :: ds) = d.text ++ directivesText ds := rfl
    rw [hsplit, List.length_append, List.length_cons]
    simp only [Directive.text, List.length_append, List.length_cons]
    omega

theorem skipAllDirectives_eq {ds : List Directive} (h : p.Reads (directivesText ds) q)
    (hds : ∀ d ∈ ds, d.Valid) (hq : q.next? = some '\x7b') : skipAllDirectives p = q := by
  unfold skipAllDirectives
  split
  · -- every directive has a character of its own, so the text left is budget enough
    refine skipDirectives_eq ?_ h hds hq
    rw [h.rest, List.length_append]
    exact Nat.le_trans (length_le_directivesText ds) (Nat.le_add_right _ _)
  · rename_i hat
    have hat : p.next? ≠ some '@' := fun h => hat (beq_iff_eq.mpr h)
    cases ds with
    | nil => exact (h.eq_of_reads (.refl p)).symm
    | cons d ds => exact absurd (next?_directive h (hds d (by simp))) hat

theorem exists_skipDirectives (n : Nat) (p : Place) :
    ∃ ds : List Directive, (∀ d ∈ ds, d.Valid) ∧
      p.Reads (directivesText ds) (skipDirectives n p) := by
  induction n generalizing p with
  | zero => exact ⟨[], by simp, .refl p⟩
  | succ n ih =>
    rw [skipDirectives]
    split
    · rename_i q h
      obtain ⟨d, hd, hread⟩ := exists_of_skipDirective? h
      obtain ⟨ds, hds, hmore⟩ := ih q
      refine ⟨d :: ds, ?_, hread.trans hmore⟩
      intro e he
      rcases List.mem_cons.mp he with rfl | he
      · exact hd
      · exact hds e he
    · exact ⟨[], by simp, .refl p⟩

theorem exists_skipAllDirectives (p : Place) :
    ∃ ds : List Directive, (∀ d ∈ ds, d.Valid) ∧
      p.Reads (directivesText ds) (skipAllDirectives p) := by
  unfold skipAllDirectives
  split
  · exact exists_skipDirectives _ p
  · exact ⟨[], by simp, .refl p⟩

end Head

end OperationScan
