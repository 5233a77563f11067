import OperationScan.Proofs.Operation.HeadSpelling

/-!
# The words of a head

The keyword, the name, the type of the condition and the names of the directives. None of them is
reserved, so a keyword may stand behind the first one, too.

* `Spelling.words`: the words of a head in order, each with the part of the head that begins with
  it.
* `Spelling.beginsHead_of_mem_words`: where such a word is a keyword, what begins with it is a head.
* `Spelling.opens`: between parentheses no head ends.
-/

namespace OperationScan

open Text

namespace Head

/-- A word and the part of a head that begins with it. -/
structure Word where
  word : Text
  text : Text

def Word.isKeyword (w : Word) : Bool := Kind.keywords.any fun k => k.word == w.word

theorem Word.isKeyword_iff {w : Word} :
    w.isKeyword = true ↔ ∃ k ∈ Kind.keywords, k.word = w.word := by
  simp [Word.isKeyword]

/-! ## Words in order -/

/-- The words of directives in a row, with white space behind the last. -/
def directiveWords (blanks : Text) : List Directive → List Word
  | [] => []
  | d :: ds =>
    ⟨d.name, d.name ++ (Directive.insideText d.inside ++ (directivesText ds ++ blanks))⟩ ::
      directiveWords blanks ds

namespace Tail

/-- The word `on` of a condition that touches the name in front of it. -/
def touching (t : Tail) : Text :=
  match t.args, t.condition with
  | none, some ⟨[], _, _⟩ => ['o', 'n']
  | _, _ => []

def words (t : Tail) : List Word :=
  (t.condition.map fun c => ⟨c.type, c.type ++ (directivesText t.directives ++ t.blanks)⟩).toList ++
    directiveWords t.blanks t.directives

end Tail

namespace Spelling

/-- The words behind the keyword. A name and the word `on` that touches it are one. -/
def laterWords (s : Spelling) : List Word :=
  (s.name.map fun n => ⟨n.word ++ s.tail.touching, n.word ++ s.tail.text⟩).toList ++ s.tail.words

def words (s : Spelling) : List Word := ⟨s.kind.word, s.text⟩ :: s.laterWords

end Spelling

/-! ## Heads within heads -/

/-- What begins with a word is a head of its own. -/
def Word.BeginsHead (w : Word) : Prop := ∃ s : Spelling, s.Valid ∧ s.text = w.text

variable {w : Word} {blanks : Text} {ds : List Directive} {t : Tail} {s : Spelling}

theorem beginsHead_of_mem_directiveWords (hds : ∀ d ∈ ds, d.Valid) (hblanks : IsBlank blanks)
    (h : w ∈ directiveWords blanks ds) (hw : w.isKeyword = true) : w.BeginsHead := by
  obtain ⟨k, hk, hword⟩ := Word.isKeyword_iff.mp hw
  induction ds with
  | nil => cases h
  | cons d ds ih =>
    have hmore : ∀ e ∈ ds, e.Valid := fun e he => hds e (by simp [he])
    rcases List.mem_cons.mp h with rfl | h
    · -- what stands between the parentheses of the directive becomes the arguments
      refine ⟨⟨k, none, ⟨d.inside.map fun t => ⟨[], t⟩, none, ds, blanks⟩⟩, ?_, ?_⟩
      · refine ⟨hk, by simp, ⟨?_, by simp, hmore, hblanks⟩, by simp⟩
        intro a ha
        obtain ⟨u, hu, rfl⟩ := Option.map_eq_some_iff.mp ha
        exact ⟨isBlank_nil, (hds d (by simp)).inside u hu⟩
      · rw [Spelling.text, hword]
        cases hinside : d.inside <;>
          simp [Spelling.nameText, Tail.text, Tail.argsText, Tail.conditionText, Arguments.text,
            Directive.insideText]
    · exact ih hmore h

theorem Tail.beginsHead_of_mem_words (ht : t.Valid) (h : w ∈ t.words)
    (hw : w.isKeyword = true) : w.BeginsHead := by
  rcases List.mem_append.mp h with h | h
  · obtain ⟨c, -, rfl⟩ := Option.map_eq_some_iff.mp (Option.mem_toList.mp h)
    obtain ⟨k, hk, hword⟩ := Word.isKeyword_iff.mp hw
    refine ⟨⟨k, none, ⟨none, none, t.directives, t.blanks⟩⟩, ?_, ?_⟩
    · exact ⟨hk, by simp, ⟨by simp, by simp, ht.directives, ht.blanks⟩, by simp⟩
    · rw [Spelling.text, hword]
      rfl
  · exact beginsHead_of_mem_directiveWords ht.directives ht.blanks h hw

/-- Whether a condition touches the name, and what the tail is then. -/
theorem Tail.touching_cases (t : Tail) : (t.touching = [] ∧
    (t.args = none → ∀ c ∈ t.condition, c.blanks ≠ [])) ∨
    ∃ gap type, t.condition = some ⟨[], gap, type⟩ ∧ t.touching = ['o', 'n'] ∧
      t.text = ['o', 'n'] ++ (gap ++ (type ++ (directivesText t.directives ++ t.blanks))) := by
  obtain ⟨args, condition, directives, blanks⟩ := t
  cases args with
  | some a => exact .inl ⟨rfl, by simp⟩
  | none =>
    cases condition with
    | none => exact .inl ⟨rfl, by simp⟩
    | some c =>
      obtain ⟨cblanks, gap, type⟩ := c
      cases cblanks with
      | cons d ds => exact .inl ⟨rfl, by simp⟩
      | nil =>
        refine .inr ⟨gap, type, rfl, rfl, ?_⟩
        simp [Tail.text, Tail.argsText, Tail.conditionText, Condition.text]

theorem Tail.beginsHead_of_name (name : Text) (ht : t.Valid)
    (hw : Word.isKeyword ⟨name ++ t.touching, name ++ t.text⟩ = true) :
    Word.BeginsHead ⟨name ++ t.touching, name ++ t.text⟩ := by
  obtain ⟨k, hk, hword⟩ := Word.isKeyword_iff.mp hw
  dsimp only at hword
  rcases t.touching_cases with ⟨hnone, hapart⟩ | ⟨gap, type, hcondition, htouching, htext⟩
  · rw [hnone, List.append_nil] at hword
    refine ⟨⟨k, none, t⟩, ⟨hk, by simp, ht, fun _ => hapart⟩, ?_⟩
    rw [Spelling.text, hword]
    rfl
  · -- the type becomes the name
    have hvalid := ht.condition _ hcondition
    refine ⟨⟨k, some ⟨gap, type⟩, ⟨none, none, t.directives, t.blanks⟩⟩, ?_, ?_⟩
    · refine ⟨hk, ?_, ⟨by simp, by simp, ht.directives, ht.blanks⟩, by simp⟩
      rintro m ⟨⟩
      exact ⟨hvalid.gap, hvalid.type⟩
    · rw [Spelling.text, hword, htouching, htext]
      simp [Spelling.nameText, Tail.text, Tail.argsText, Tail.conditionText]

/-- A keyword among the words of a head begins a head. -/
theorem Spelling.beginsHead_of_mem_words (hs : s.Valid) (h : w ∈ s.words)
    (hw : w.isKeyword = true) : w.BeginsHead := by
  rcases List.mem_cons.mp h with rfl | h
  · exact ⟨s, hs, rfl⟩
  rcases List.mem_append.mp h with h | h
  · obtain ⟨n, -, rfl⟩ := Option.map_eq_some_iff.mp (Option.mem_toList.mp h)
    exact Tail.beginsHead_of_name n.word hs.tail hw
  · exact Tail.beginsHead_of_mem_words hs.tail h hw

/-! ## Parts of heads -/

theorem exists_append_of_mem_directiveWords (h : w ∈ directiveWords blanks ds) :
    ∃ x, directivesText ds ++ blanks = x ++ w.text := by
  induction ds with
  | nil => cases h
  | cons d ds ih =>
    rcases List.mem_cons.mp h with rfl | h
    · exact ⟨d.blanks ++ ['@'], by simp [directivesText, Directive.text]⟩
    · obtain ⟨x, hx⟩ := ih h
      refine ⟨d.text ++ x, ?_⟩
      rw [List.append_assoc, ← hx]
      simp [directivesText]

theorem Tail.exists_append_of_mem_words (h : w ∈ t.words) : ∃ x, t.text = x ++ w.text := by
  rcases List.mem_append.mp h with h | h
  · obtain ⟨c, hc, rfl⟩ := Option.map_eq_some_iff.mp (Option.mem_toList.mp h)
    exact ⟨t.argsText ++ (c.blanks ++ (['o', 'n'] ++ c.gap)),
      by simp [Tail.text, Tail.conditionText, hc, Condition.text]⟩
  · obtain ⟨x, hx⟩ := exists_append_of_mem_directiveWords h
    exact ⟨t.argsText ++ (t.conditionText ++ x), by simp [Tail.text, hx]⟩

/-- The part that begins with a later word is not the whole head. -/
theorem Spelling.exists_append_of_mem_laterWords (hs : s.Valid) (h : w ∈ s.laterWords) :
    ∃ x ≠ [], s.text = x ++ w.text := by
  rcases List.mem_append.mp h with h | h
  · obtain ⟨n, hn, rfl⟩ := Option.map_eq_some_iff.mp (Option.mem_toList.mp h)
    exact ⟨s.kind.word ++ n.gap, by simp [word_ne_nil s.kind hs.kind],
      by simp [Spelling.text, Spelling.nameText, hn]⟩
  · obtain ⟨x, hx⟩ := Tail.exists_append_of_mem_words h
    exact ⟨s.kind.word ++ (s.nameText ++ x), by simp [word_ne_nil s.kind hs.kind],
      by simp [Spelling.text, hx]⟩

/-! ## Parentheses -/

/-- No parenthesis closes before one opens. -/
def Opens (t : Text) : Prop := ∀ x y, t = x ++ ')' :: y → '(' ∈ x

theorem Opens.append {t u : Text} (ht : Opens t) (hu : Opens u) : Opens (t ++ u) := by
  intro x y h
  rcases List.append_eq_append_iff.mp h with ⟨v, rfl, hv⟩ | ⟨v, rfl, hv⟩
  · exact List.mem_append_right t (hu v y hv)
  · cases v with
    | nil => exact (List.not_mem_nil (hu [] y hv.symm)).elim
    | cons c v =>
      cases hv
      exact ht x v rfl

theorem opens_of_forall {t : Text} (h : ∀ c ∈ t, c ≠ ')') : Opens t := by
  rintro x y rfl
  exact absurd rfl (h ')' (by simp))

theorem opens_parenthesis (t : Text) : Opens ('(' :: t) := by
  intro x y h
  cases x with
  | nil => cases h
  | cons c x =>
    cases h
    exact List.mem_cons_self

theorem opens_of_isBlank {t : Text} (h : IsBlank t) : Opens t := by
  refine opens_of_forall fun c hc => ?_
  rintro rfl
  cases h _ hc

theorem opens_of_isName {t : Text} (h : IsName t) : Opens t := by
  refine opens_of_forall fun c hc => ?_
  rintro rfl
  cases h.isNameChar _ hc

theorem opens_option {α : Type} {f : α → Text} {o : Option α} (h : ∀ a ∈ o, Opens (f a)) :
    Opens ((o.map f).getD []) := by
  cases o with
  | none => exact opens_of_forall (by simp)
  | some a => exact h a rfl

theorem Condition.Valid.opens {c : Condition} (hc : c.Valid) : Opens c.text :=
  (opens_of_isBlank hc.blanks).append ((opens_of_isName isName_on).append
    ((opens_of_isBlank hc.gap.2).append (opens_of_isName hc.type)))

theorem Directive.Valid.opens {d : Directive} (hd : d.Valid) : Opens d.text := by
  have hat : Opens ['@'] := opens_of_forall (by simp)
  exact (opens_of_isBlank hd.blanks).append (hat.append
    ((opens_of_isName hd.name).append (opens_option fun t _ => opens_parenthesis _)))

theorem opens_directives (hds : ∀ d ∈ ds, d.Valid) : Opens (directivesText ds) := by
  induction ds with
  | nil => exact opens_of_forall (by simp [directivesText])
  | cons d ds ih => exact (hds d (by simp)).opens.append (ih fun e he => hds e (by simp [he]))

theorem Tail.Valid.opens (ht : t.Valid) : Opens t.text := by
  have hargs : Opens t.argsText := opens_option fun a ha =>
    (opens_of_isBlank (ht.args a ha).blanks).append (opens_parenthesis _)
  have hcondition : Opens t.conditionText := opens_option fun c hc => (ht.condition c hc).opens
  exact hargs.append (hcondition.append ((opens_directives ht.directives).append
    (opens_of_isBlank ht.blanks)))

theorem isName_word (k : Kind) : IsName k.word := by
  cases k
  all_goals exact ⟨rfl, List.all_eq_true.mp rfl⟩

theorem Spelling.Valid.opens (hs : s.Valid) : Opens s.text := by
  have hname : Opens s.nameText := opens_option fun n hn =>
    (opens_of_isBlank (hs.name n hn).1.2).append (opens_of_isName (hs.name n hn).2)
  exact (opens_of_isName (isName_word s.kind)).append (hname.append hs.tail.opens)

end Head

end OperationScan
