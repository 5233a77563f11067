import OperationScan.Proofs.Operation.HeadParts

/-!
# What follows the name of a head

* `Head.Tail`: the arguments, the type condition and the directives, up to the brace.
* `afterName?_of_reads`, `exists_of_afterName?`: a tail that stands at a place is read, and what is
  read is one.
* `afterName?_type`: a type without the word `on` in front of it is no tail.
-/

namespace OperationScan

open Text

namespace Head

open Place

variable {p q b : Place}

/-! ## What follows the name -/

/-- The part of a head behind the name, up to the brace. -/
structure Tail where
  args : Option Arguments
  condition : Option Condition
  directives : List Directive
  blanks : Text

namespace Tail

def argsText (t : Tail) : Text := (t.args.map Arguments.text).getD []

def conditionText (t : Tail) : Text := (t.condition.map Condition.text).getD []

def text (t : Tail) : Text :=
  t.argsText ++ (t.conditionText ++ (directivesText t.directives ++ t.blanks))

structure Valid (t : Tail) : Prop where
  args : ∀ a ∈ t.args, a.Valid
  condition : ∀ c ∈ t.condition, c.Valid
  directives : ∀ d ∈ t.directives, d.Valid
  blanks : IsBlank t.blanks

end Tail

theorem next?_args {a : Arguments} (h : p.Reads a.text q) (ha : a.Valid) : p.next? = some '(' := by
  obtain ⟨r, hblanks, hrest⟩ := h.append_cases
  exact next?_eq hblanks ha.blanks (by rw [hrest.rest]; rfl) (by decide)

theorem next?_condition {c : Condition} (h : p.Reads c.text q) (hc : c.Valid) :
    p.next? = some 'o' := by
  obtain ⟨r, hblanks, hrest⟩ := h.append_cases
  exact next?_eq hblanks hc.blanks (by rw [hrest.rest]; rfl) (by decide)

theorem next?_name {blanks name : Text} (h : p.Reads (blanks ++ name) q) (hblanks : IsBlank blanks)
    (hname : IsName name) : ∃ c, p.next? = some c ∧ isNameStart c = true := by
  obtain ⟨r, hgap, hrest⟩ := h.append_cases
  obtain ⟨c, hhead, hc⟩ := IsName.exists_head? hname q.rest
  exact ⟨c, next?_eq hgap hblanks (by rw [hrest.rest, hhead]) (isBlank_of_isNameStart hc), hc⟩

theorem head?_of_gap {gap t : Text} {test : Char → Bool} (h : p.Reads (gap ++ t) q)
    (hgap : IsGap gap) (hblank : ∀ c, isBlank c = true → test c = false) :
    p.rest.head?.any test = false := by
  obtain ⟨c, rest, rfl, hc⟩ := hgap.exists_cons
  rw [h.rest]
  exact hblank c hc

/-- What follows the arguments: a type condition or, without one, directives and the brace. -/
theorem conditionText_cases {t : Tail} (ht : t.Valid)
    (h : p.Reads (t.conditionText ++ (directivesText t.directives ++ t.blanks)) b)
    (hb : b.rest.head? = some '\x7b') :
    (∃ c r, t.condition = some c ∧ p.Reads c.text r ∧
      r.Reads (directivesText t.directives ++ t.blanks) b ∧
      (r.next? = some '@' ∨ r.next? = some '\x7b')) ∨
    (t.condition = none ∧ p.Reads (directivesText t.directives ++ t.blanks) b ∧
      (p.next? = some '@' ∨ p.next? = some '\x7b')) := by
  obtain ⟨r, hcondition, hrest⟩ := h.append_cases
  obtain ⟨s, hdirectives, hblanks⟩ := hrest.append_cases
  have hnext := next?_directives hdirectives ht.directives
    (next?_eq hblanks ht.blanks hb (by decide))
  rw [Tail.conditionText] at hcondition
  cases hc : t.condition with
  | none =>
    rw [hc] at hcondition
    have hr : r = p := hcondition.eq_of_reads (.refl p)
    subst hr
    exact .inr ⟨rfl, hrest, hnext⟩
  | some c =>
    rw [hc] at hcondition
    exact .inl ⟨c, r, rfl, hcondition, hrest, hnext⟩

/-- What follows a name: arguments or, without any, a type condition or the end of the head. -/
theorem tailText_cases {t : Tail} (ht : t.Valid) (h : p.Reads t.text b)
    (hb : b.rest.head? = some '\x7b') :
    (∃ a r, t.args = some a ∧ p.Reads a.text r ∧
      r.Reads (t.conditionText ++ (directivesText t.directives ++ t.blanks)) b) ∨
    (∃ c r, t.args = none ∧ t.condition = some c ∧ p.Reads c.text r ∧
      (r.next? = some '@' ∨ r.next? = some '\x7b')) ∨
    (t.args = none ∧ t.condition = none ∧ (p.next? = some '@' ∨ p.next? = some '\x7b')) := by
  obtain ⟨r, hargs, hrest⟩ := h.append_cases
  rw [Tail.argsText] at hargs
  cases ha : t.args with
  | some a =>
    rw [ha] at hargs
    exact .inl ⟨a, r, rfl, hargs, hrest⟩
  | none =>
    rw [ha] at hargs
    have hr : r = p := hargs.eq_of_reads (.refl p)
    subst hr
    rcases conditionText_cases ht hrest hb with ⟨c, s, hc, hread, -, hnext⟩ | ⟨hc, -, hnext⟩
    · exact .inr (.inl ⟨c, s, rfl, hc, hread, hnext⟩)
    · exact .inr (.inr ⟨rfl, hc, hnext⟩)

theorem readArgs_of_reads {t : Tail} (ht : t.Valid) (h : p.Reads t.text b)
    (hb : b.rest.head? = some '\x7b') :
    ∃ q, readArgs p = (t.args.map Arguments.inside, q) ∧
      q.Reads (t.conditionText ++ (directivesText t.directives ++ t.blanks)) b := by
  have hplain : t.args = none → p.next? ≠ some '(' →
      ∃ q, readArgs p = (t.args.map Arguments.inside, q) ∧
        q.Reads (t.conditionText ++ (directivesText t.directives ++ t.blanks)) b := by
    intro ha hnext
    rw [Tail.text, Tail.argsText, ha] at h
    rw [ha]
    exact ⟨p, readArgs_none hnext, h⟩
  rcases tailText_cases ht h hb with ⟨a, r, ha, hread, hrest⟩ | ⟨c, r, ha, hc, hread, -⟩ |
    ⟨ha, -, hnext | hnext⟩
  · rw [ha]
    exact ⟨r, readArgs_some hread (ht.args a ha), hrest⟩
  · exact hplain ha (by simp [next?_condition hread (ht.condition c hc)])
  · exact hplain ha (by simp [hnext])
  · exact hplain ha (by simp [hnext])

theorem skipCondition_of_reads {t : Tail} (ht : t.Valid)
    (h : p.Reads (t.conditionText ++ (directivesText t.directives ++ t.blanks)) b)
    (hb : b.rest.head? = some '\x7b') :
    (skipCondition p).Reads (directivesText t.directives ++ t.blanks) b := by
  rcases conditionText_cases ht h hb with ⟨c, r, hc, hread, hrest, hnext⟩ | ⟨-, hrest, hnext⟩
  · rw [skipCondition_some hread (ht.condition c hc) (head?_of_closing hnext).1]
    exact hrest
  · rw [skipCondition_none]
    · exact hrest
    · rcases hnext with hnext | hnext
      · simp [hnext]
      · simp [hnext]

theorem afterName?_of_reads {t : Tail} (ht : t.Valid) (h : p.Reads t.text b)
    (hb : b.rest.head? = some '\x7b') :
    afterName? p = some (t.args.map Arguments.inside, b) := by
  obtain ⟨q, hread, hrest⟩ := readArgs_of_reads ht h hb
  obtain ⟨r, hdirectives, hblanks⟩ := (skipCondition_of_reads ht hrest hb).append_cases
  have hnext := next?_eq hblanks ht.blanks hb (by decide)
  have hbrace : braceAfterName p = b := by
    rw [braceAfterName, hread, skipAllDirectives_eq hdirectives ht.directives hnext]
    exact skipBlanks_eq hblanks ht.blanks hb (by decide)
  have hhead : b.head? = some '\x7b' := hb
  rw [afterName?_eq, hbrace, if_pos hhead, hread]

theorem exists_of_afterName? {args : Option Text} (h : afterName? p = some (args, b)) :
    b.rest.head? = some '\x7b' ∧
      ∃ t : Tail, t.Valid ∧ p.Reads t.text b ∧ args = t.args.map Arguments.inside := by
  rw [afterName?_eq] at h
  split at h
  · rename_i hb
    cases h
    refine ⟨hb, ?_⟩
    obtain ⟨ds, hds, hdirectives⟩ := exists_skipAllDirectives (skipCondition (readArgs p).2)
    obtain ⟨u, hu, hblanks, -⟩ :=
      (skipAllDirectives (skipCondition (readArgs p).2)).reads_skipBlanks
    -- the arguments and the condition are there or not, independently of each other
    obtain ⟨condition, hcondition, hmiddle⟩ : ∃ condition : Option Condition,
        (∀ c ∈ condition, c.Valid) ∧ (readArgs p).2.Reads
          ((condition.map Condition.text).getD []) (skipCondition (readArgs p).2) := by
      rcases skipCondition_cases (readArgs p).2 with hsame | ⟨c, hc, hread⟩
      · rw [hsame]
        exact ⟨none, by simp, .refl _⟩
      · exact ⟨some c, by simpa using hc, hread⟩
    obtain ⟨a, ha, hopening, hinside⟩ : ∃ a : Option Arguments,
        (∀ x ∈ a, x.Valid) ∧ p.Reads ((a.map Arguments.text).getD []) (readArgs p).2 ∧
          (readArgs p).1 = a.map Arguments.inside := by
      rcases readArgs_cases p with hnone | ⟨a, q, ha, hread, hsome⟩
      · rw [hnone]
        exact ⟨none, by simp, .refl p, rfl⟩
      · rw [hsome]
        exact ⟨some a, by simpa using ha, hread, rfl⟩
    exact ⟨⟨a, condition, ds, u⟩, ⟨ha, hcondition, hds, hblanks⟩,
      hopening.trans (hmiddle.trans (hdirectives.trans hu)), hinside⟩
  · cases h

/-- A type condition without its word `on` is no end of a head, as its type cannot be the
word. -/
theorem afterName?_type {blanks type : Text} (hblanks : IsBlank blanks) (htype : IsName type)
    (h : p.Reads (blanks ++ type) q) (hq : q.next? = some '@' ∨ q.next? = some '\x7b') :
    afterName? p = none := by
  cases hafter : afterName? p with
  | none => rfl
  | some found =>
    obtain ⟨args, b⟩ := found
    obtain ⟨hb, t, ht, hread, -⟩ := exists_of_afterName? hafter
    obtain ⟨c, hnext, hc⟩ := next?_name h hblanks htype
    rcases tailText_cases ht hread hb with ⟨a, r, ha, hargs, -⟩ | ⟨d, r, -, hd, hcondition, -⟩ |
      ⟨-, -, hclose⟩
    · rw [next?_args hargs (ht.args a ha)] at hnext
      cases hnext
      cases hc
    · -- both readings name what comes next, so the type is the word `on`
      have hvalid := ht.condition d hd
      obtain ⟨s, hgap, hname⟩ := h.append_cases
      obtain ⟨s', hgap', hrest⟩ := hcondition.append_cases
      obtain ⟨v, hon, hbehind⟩ := hrest.append_cases
      obtain ⟨x, hhead, hx⟩ := IsName.exists_head? htype q.rest
      have hs : p.skipBlanks = s :=
        skipBlanks_eq hgap hblanks (by rw [hname.rest]; exact hhead) (isBlank_of_isNameStart hx)
      have hs' : p.skipBlanks = s' :=
        skipBlanks_eq (c := 'o') hgap' hvalid.blanks (by rw [hon.rest]; rfl) (by decide)
      obtain ⟨y, hy, hstart⟩ := next?_name hbehind hvalid.gap.2 hvalid.type
      have hstop := head?_of_gap hbehind hvalid.gap fun _ => isNameChar_of_isBlank
      have hread₁ : s.name? = some (type, q) :=
        name?_eq_some_iff.mpr ⟨htype, hname, (head?_of_closing hq).1⟩
      have hread₂ : s.name? = some (['o', 'n'], v) :=
        name?_eq_some_iff.mpr ⟨isName_on, (hs.symm.trans hs') ▸ hon, hstop⟩
      rw [hread₁] at hread₂
      cases hread₂
      rw [hy] at hq
      rcases hq with hq | hq
      · cases hq
        cases hstart
      · cases hq
        cases hstart
    · rw [hnext] at hclose
      rcases hclose with hclose | hclose
      · cases hclose
        cases hc
      · cases hclose
        cases hc

end Head

end OperationScan
