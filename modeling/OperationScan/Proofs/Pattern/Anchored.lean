import OperationScan.Proofs.Operation.Described
import OperationScan.Proofs.Operation.HeadWords

/-!
# Anchoring whole operations

Keywords are not reserved, so the name of an operation, its type or a directive may be one. The
text of an operation is anchored at the last keyword in front of the brace that begins a head; if
one of those names is a keyword, that is not the first.

* `Scans`: the last head that begins in a text begins with the last keyword among certain words.
* `Scans.spelling`: over a whole head these are the words of the head.
* `clip?_of_matchesIn`: what is left of an operation that the standard pattern matches as a whole.
-/

namespace OperationScan

open Text Head Place

variable {b p q r : Place} {before : Option Char} {index n : Nat} {c : Char} {t u v : Text}
  {found : List Place} {w : Head.Word} {words words' : List Head.Word}

/-! ## Words in a text -/

theorem isWord_of_isNameChar (h : isNameChar c = true) : isWord c = true := by
  obtain ⟨-, hc⟩ := toNat_of_isNameChar h
  rw [isWord, if_pos (by omega), h]

theorem beginsKeyword_of_isBlank (h : isBlank c = true) : beginsKeyword c = false := by
  rw [Bool.eq_false_iff]
  intro hc
  simp only [beginsKeyword, Bool.or_eq_true, beq_iff_eq] at hc
  rcases hc with ((rfl | rfl) | rfl) | rfl
  all_goals cases h

/-- A whole word begins a keyword where it is one. -/
theorem beginsKeyword_append_iff (hu : ∀ c ∈ u, isNameChar c = true)
    (hstop : t.head?.any isWord = false) :
    BeginsKeyword (u ++ t) ↔ ∃ k ∈ Kind.keywords, k.word = u := by
  constructor
  · rintro ⟨k, hk, rest, heq, hends⟩
    refine ⟨k, hk, ?_⟩
    rcases List.append_eq_append_iff.mp heq with ⟨x, hword, ht⟩ | ⟨x, hword, hrest⟩
    · cases x with
      | nil => rw [hword, List.append_nil]
      | cons c x =>
        have hc := (isName_word k).isNameChar c (by simp [hword])
        rw [ht, List.cons_append, List.head?_cons, Option.any_some,
          isWord_of_isNameChar hc] at hstop
        cases hstop
    · cases x with
      | nil => rw [hword, List.append_nil]
      | cons c x =>
        have hc := hu c (by simp [hword])
        rw [hrest, Head.wordEnds_eq, List.cons_append, List.head?_cons, Option.any_some,
          isWord_of_isNameChar hc] at hends
        cases hends
  · rintro ⟨k, hk, rfl⟩
    exact ⟨k, hk, t, rfl, by rw [Head.wordEnds_eq, hstop]; rfl⟩

/-- No word goes on where directives or the brace come next. -/
theorem head?_of_directives {ds : List Directive} {blanks : Text}
    (hb : b.rest.head? = some '\x7b') (hds : ∀ d ∈ ds, d.Valid) (hblanks : IsBlank blanks)
    (h : p.Reads (directivesText ds ++ blanks) b) : p.rest.head?.any isWord = false := by
  obtain ⟨q, hdirectives, hrest⟩ := h.append_cases
  rcases next?_directives hdirectives hds (next?_eq hrest hblanks hb (by decide)) with
    hnext | hnext
  · exact head?_of_next? hnext rfl fun _ => isWord_of_isBlank
  · exact head?_of_next? hnext rfl fun _ => isWord_of_isBlank

theorem wordBegins_of_isGap {gap : Text} (h : IsGap gap) :
    wordBegins (lastOr before gap) = true := by
  have hlast := List.getLast?_eq_some_getLast h.1
  rw [lastOr, hlast, Option.some_or]
  change (!isWord (gap.getLast h.1)) = true
  rw [isWord_of_isBlank (h.2 _ (List.getLast_mem h.1))]
  rfl

theorem wordBegins_eq_false (h : isNameChar c = true) : wordBegins (some c) = false := by
  rw [wordBegins, isWord_of_isNameChar h]
  rfl

/-! ## Places of keywords -/

theorem keywordPlacesFrom_append : keywordPlacesFrom index before found (u.length + n) (u ++ t) =
    keywordPlacesFrom (index + u.length) (lastOr before u)
      (keywordPlacesFrom index before found u.length (u ++ t)) n t := by
  induction u generalizing index before found with
  | nil =>
    rw [List.length_nil, Nat.zero_add, List.nil_append, keywordPlacesFrom]
    rfl
  | cons c u ih =>
    rw [List.length_cons, Nat.succ_add, List.cons_append, keywordPlacesFrom, ih,
      keywordPlacesFrom, lastOr_cons, Nat.add_assoc, Nat.add_comm 1]

/-- A head begins at a place and ends at the brace. -/
def endsAt (b p : Place) : Bool := (Head.at? p).map (·.brace.index) == some b.index

/-- What is left of a text from the last of some places on at which a head begins that ends at the
brace. -/
def lastHead? (b : Place) (found : List Place) : Option Text :=
  (found.find? (endsAt b)).map (·.rest)

/-- The last keyword among the words of a head. -/
def lastKeyword? (words : List Head.Word) : Option Head.Word := words.reverse.find? (·.isKeyword)

theorem lastKeyword?_append : lastKeyword? (words ++ words') =
    (lastKeyword? words').or (lastKeyword? words) := by
  rw [lastKeyword?, List.reverse_append, List.find?_append]
  rfl

theorem endsAt_of_reads {s : Spelling} (hs : s.Valid) (h : p.Reads s.text b)
    (hb : b.rest.head? = some '\x7b') : endsAt b p = true := by
  simp [endsAt, Head.at?_of_reads hs h hb]

theorem exists_of_endsAt (h : endsAt b p = true) (ht : p.Reads t b) :
    ∃ s : Spelling, s.Valid ∧ s.text = t := by
  obtain ⟨m, hat, hindex⟩ := Option.map_eq_some_iff.mp (beq_iff_eq.mp h)
  obtain ⟨-, s, hs, -, hread⟩ := Head.exists_of_at? hat
  have hlength : s.text.length = t.length := by
    have h₁ := hread.index
    have h₂ := ht.index
    omega
  exact ⟨s, hs, (List.append_inj (hread.rest.symm.trans ht.rest) hlength).1⟩

/-- A text stands at a place, and the last head that begins in it and ends at the brace is the one
that begins with the last keyword among the words. -/
structure Scans (b : Place) (before : Option Char) (p : Place) (u : Text) (q : Place)
    (words : List Head.Word) : Prop where
  reads : p.Reads u q
  lastHead : ∀ found, lastHead? b (keywordPlacesFrom p.index before found u.length p.rest) =
    ((lastKeyword? words).map (·.text ++ b.rest)).or (lastHead? b found)

namespace Scans

theorem nil (h : p.Reads [] q) : Scans b before p [] q [] := by
  refine ⟨h, fun found => ?_⟩
  rw [List.length_nil, keywordPlacesFrom]
  rfl

theorem trans (h : Scans b before p u q words) (h' : Scans b (lastOr before u) q v r words') :
    Scans b before p (u ++ v) r (words ++ words') := by
  refine ⟨h.reads.trans h'.reads, fun found => ?_⟩
  rw [List.length_append, h.reads.rest, keywordPlacesFrom_append, ← h.reads.rest, ← h.reads.index,
    h'.lastHead, h.lastHead, lastKeyword?_append, Option.map_or, Option.or_assoc]

theorem keywordPlacesFrom_first (h : p.Reads [c] q) :
    keywordPlacesFrom p.index before found [c].length p.rest =
      if (p.keyword? before).isSome then p :: found else found := by
  obtain ⟨index, rest⟩ := p
  have hrest : rest = c :: q.rest := h.rest
  rw [List.length_singleton, hrest, keywordPlacesFrom, keywordPlacesFrom]

/-- Over a character at which no keyword stands, or none that begins a head up to the brace. -/
theorem idle (h : p.Reads [c] q)
    (hidle : (p.keyword? before).isSome = true → endsAt b p = false) :
    Scans b before p [c] q [] := by
  refine ⟨h, fun found => ?_⟩
  rw [keywordPlacesFrom_first h]
  split
  · rename_i hkeyword
    rw [lastHead?, List.find?_cons_of_neg (by simp [hidle hkeyword])]
    rfl
  · rfl

/-- Over a character that is the first one of no keyword. -/
theorem plain (h : p.Reads u q) (hu : u.any beginsKeyword = false) :
    Scans b before p u q [] := by
  induction u generalizing p before with
  | nil => exact .nil h
  | cons c u ih =>
    obtain ⟨r, hfirst, hmore⟩ := Place.Reads.append_cases (t := [c]) h
    rw [List.any_cons, Bool.or_eq_false_iff] at hu
    refine (idle hfirst fun hkeyword => ?_).trans (ih hmore hu.2)
    rw [Place.keyword?, hfirst.rest] at hkeyword
    simp [hu.1] at hkeyword

/-- Behind a letter of a word, over the rest of the word. -/
theorem inWord (h : p.Reads u q) (hbefore : wordBegins before = false)
    (hu : ∀ c ∈ u, isNameChar c = true) : Scans b before p u q [] := by
  induction u generalizing p before with
  | nil => exact .nil h
  | cons c u ih =>
    obtain ⟨r, hfirst, hmore⟩ := Place.Reads.append_cases (t := [c]) h
    rw [List.forall_mem_cons] at hu
    refine (idle hfirst fun hkeyword => ?_).trans (ih hmore (wordBegins_eq_false hu.1) hu.2)
    rw [keyword?_isSome_iff, hbefore] at hkeyword
    cases hkeyword.1

/-- A word, which begins a head up to the brace if it is a keyword. -/
theorem word (hb : b.rest.head? = some '\x7b') (h : p.Reads w.word q) (hw : IsName w.word)
    (hbefore : wordBegins before = true) (hstop : q.rest.head?.any isWord = false)
    (htext : p.Reads w.text b) (hhead : w.isKeyword = true → w.BeginsHead) :
    Scans b before p w.word q [w] := by
  obtain ⟨word, text⟩ := w
  cases word with
  | nil => exact hw.elim
  | cons c u =>
    obtain ⟨r, hread, hmore⟩ := Place.Reads.append_cases (t := [c]) (u := u) h
    have hkeyword : (p.keyword? before).isSome = Word.isKeyword ⟨c :: u, text⟩ := by
      rw [Bool.eq_iff_iff, keyword?_isSome_iff, Word.isKeyword_iff, h.rest,
        beginsKeyword_append_iff hw.isNameChar hstop]
      exact ⟨And.right, fun h => ⟨hbefore, h⟩⟩
    have hfirst : Scans b before p [c] r [⟨c :: u, text⟩] := by
      refine ⟨hread, fun found => ?_⟩
      rw [keywordPlacesFrom_first hread, hkeyword]
      split
      · rename_i hsome
        obtain ⟨s, hs, rfl⟩ := hhead hsome
        rw [lastHead?, List.find?_cons_of_pos (endsAt_of_reads hs htext hb), lastKeyword?,
          List.reverse_singleton, List.find?_cons_of_pos hsome, Option.map_some, Option.map_some,
          htext.rest]
        rfl
      · rename_i hnone
        rw [lastKeyword?, List.reverse_singleton, List.find?_cons_of_neg hnone]
        rfl
    have hletters := List.forall_mem_cons.mp hw.isNameChar
    exact hfirst.trans (inWord hmore (wordBegins_eq_false hletters.1) hletters.2)

/-- Between parentheses no head begins, as it would have to hold the closing one alone. -/
theorem inside (h : p.Reads u q) (hu : IsInside u) (hclose : q.Reads (')' :: v) b) :
    Scans b before p u q [] := by
  induction u generalizing p before with
  | nil => exact .nil h
  | cons c u ih =>
    obtain ⟨r, hfirst, hmore⟩ := Place.Reads.append_cases (t := [c]) h
    refine (idle hfirst fun _ => ?_).trans (ih hmore fun d hd => hu d (by simp [hd]))
    rw [Bool.eq_false_iff]
    intro hends
    obtain ⟨s, hs, htext⟩ := exists_of_endsAt hends (h.trans hclose)
    have hopen := hs.opens (c :: u) v htext
    cases hu _ hopen

theorem parenthesized (h : p.Reads ('(' :: (u ++ [')'])) q) (hu : IsInside u)
    (hmore : q.Reads v b) : Scans b before p ('(' :: (u ++ [')'])) q [] := by
  obtain ⟨r, hopen, hrest⟩ := Place.Reads.append_cases (t := ['(']) h
  obtain ⟨s, hinside, hclose⟩ := hrest.append_cases
  exact (plain hopen rfl).trans ((inside hinside hu (hclose.trans hmore)).trans
    (plain hclose rfl))

/-! ## Parts of heads -/

theorem ofBlanks (h : p.Reads u q) (hu : IsBlank u) : Scans b before p u q [] :=
  plain h (List.any_eq_false.mpr fun c hc => by simp [beginsKeyword_of_isBlank (hu c hc)])

theorem insideText {o : Option Text} (ho : ∀ t ∈ o, IsInside t)
    (h : p.Reads (Directive.insideText o) q) (hmore : q.Reads v b) :
    Scans b before p (Directive.insideText o) q [] := by
  cases o with
  | none => exact .nil h
  | some t => exact parenthesized h (ho t rfl) hmore

variable {ds : List Directive} {blanks : Text}

theorem directives (hb : b.rest.head? = some '\x7b') (hds : ∀ d ∈ ds, d.Valid)
    (hblanks : IsBlank blanks) (h : p.Reads (directivesText ds ++ blanks) b) :
    Scans b before p (directivesText ds ++ blanks) b (directiveWords blanks ds) := by
  induction ds generalizing p before with
  | nil => exact ofBlanks h hblanks
  | cons d ds ih =>
    have hd : d.Valid := hds d (by simp)
    have hmore : ∀ e ∈ ds, e.Valid := fun e he => hds e (by simp [he])
    have htext : directivesText (d :: ds) ++ blanks = d.blanks ++ (['@'] ++
        (d.name ++ (Directive.insideText d.inside ++ (directivesText ds ++ blanks)))) := by
      simp [directivesText, Directive.text]
    have hkeyword : ∀ w ∈ directiveWords blanks (d :: ds), w.isKeyword = true → w.BeginsHead :=
      fun w hw => beginsHead_of_mem_directiveWords hds hblanks hw
    rw [htext] at h ⊢
    obtain ⟨q, hfirst, hbehind⟩ := h.append_cases
    obtain ⟨r, hat, hname⟩ := hbehind.append_cases
    obtain ⟨u, hword, hbehind⟩ := hname.append_cases
    obtain ⟨v, hinside, hrest⟩ := hbehind.append_cases
    have hstop : u.rest.head?.any isWord = false := by
      cases ho : d.inside with
      | some t =>
        rw [hinside.rest, ho]
        rfl
      | none =>
        rw [ho] at hinside
        obtain rfl : v = u := hinside.eq_of_reads (.refl u)
        exact head?_of_directives hb hmore hblanks hrest
    have hscan : Scans b (some '@') r d.name u [⟨d.name, _⟩] :=
      word (w := ⟨_, _⟩) hb hword hd.name rfl hstop hname (hkeyword _ List.mem_cons_self)
    exact (ofBlanks hfirst hd.blanks).trans ((plain hat rfl).trans
      (hscan.trans ((insideText hd.inside hinside hrest).trans (ih hmore hrest))))

/-- A type behind the word `on`, and what follows it. -/
theorem type {gap type : Text} {t : Tail} (hb : b.rest.head? = some '\x7b') (ht : t.Valid)
    (hc : t.condition = some ⟨u, gap, type⟩)
    (h : p.Reads (gap ++ (type ++ (directivesText t.directives ++ t.blanks))) b) :
    Scans b before p (gap ++ (type ++ (directivesText t.directives ++ t.blanks))) b
      t.words := by
  have hvalid := ht.condition _ hc
  have hwords : t.words = ⟨type, type ++ (directivesText t.directives ++ t.blanks)⟩ ::
      directiveWords t.blanks t.directives := by
    simp [Tail.words, hc]
  have hkeyword : ∀ w ∈ t.words, w.isKeyword = true → w.BeginsHead :=
    fun w hw => Tail.beginsHead_of_mem_words ht hw
  rw [hwords] at hkeyword ⊢
  obtain ⟨q, hgap, hname⟩ := h.append_cases
  obtain ⟨r, hword, hrest⟩ := hname.append_cases
  have hstop := head?_of_directives hb ht.directives ht.blanks hrest
  have hscan : Scans b (lastOr before gap) q type r [⟨type, _⟩] :=
    word (w := ⟨_, _⟩) hb hword hvalid.type (wordBegins_of_isGap hvalid.gap) hstop hname
      (hkeyword _ List.mem_cons_self)
  exact (ofBlanks hgap hvalid.gap.2).trans
    (hscan.trans (directives hb ht.directives ht.blanks hrest))

theorem tail {t : Tail} (hb : b.rest.head? = some '\x7b') (ht : t.Valid) (h : p.Reads t.text b) :
    Scans b before p t.text b t.words := by
  obtain ⟨q, hargs, hrest⟩ := h.append_cases
  have hscan : Scans b before p t.argsText q [] := by
    rw [Tail.argsText] at hargs ⊢
    cases ha : t.args with
    | none =>
      rw [ha] at hargs
      exact .nil hargs
    | some a =>
      rw [ha] at hargs
      obtain ⟨r, hblanks, hinside⟩ := Place.Reads.append_cases (t := a.blanks) hargs
      exact (ofBlanks hblanks (ht.args a ha).blanks).trans
        (parenthesized hinside (ht.args a ha).inside hrest)
  have hscan' : Scans b (lastOr before t.argsText) q
      (t.conditionText ++ (directivesText t.directives ++ t.blanks)) b t.words := by
    cases hc : t.condition with
    | none =>
      have hwords : t.words = directiveWords t.blanks t.directives := by simp [Tail.words, hc]
      rw [Tail.conditionText, hc] at hrest ⊢
      rw [hwords]
      exact directives hb ht.directives ht.blanks hrest
    | some c =>
      have htext : t.conditionText ++ (directivesText t.directives ++ t.blanks) =
          c.blanks ++ (['o', 'n'] ++
            (c.gap ++ (c.type ++ (directivesText t.directives ++ t.blanks)))) := by
        simp [Tail.conditionText, hc, Condition.text]
      rw [htext] at hrest ⊢
      obtain ⟨r, hblanks, hbehind⟩ := hrest.append_cases
      obtain ⟨s, hon, htype⟩ := hbehind.append_cases
      exact (ofBlanks hblanks (ht.condition c hc).blanks).trans
        ((plain hon rfl).trans (type hb ht hc htype))
  exact hscan.trans hscan'

theorem name {name : Text} {t : Tail} (hb : b.rest.head? = some '\x7b') (hname : IsName name)
    (ht : t.Valid) (hbefore : wordBegins before = true) (h : p.Reads (name ++ t.text) b) :
    Scans b before p (name ++ t.text) b
      (⟨name ++ t.touching, name ++ t.text⟩ :: t.words) := by
  have hkeyword := Tail.beginsHead_of_name name ht
  rcases t.touching_cases with ⟨hnone, hapart⟩ | ⟨gap, type, hcondition, htouching, htext⟩
  · rw [hnone, List.append_nil] at hkeyword ⊢
    obtain ⟨q, hword, hrest⟩ := h.append_cases
    have hscan : Scans b before p name q [⟨name, name ++ t.text⟩] :=
      word (w := ⟨_, _⟩) hb hword hname hbefore (head?_of_tail ht hapart hrest hb) h hkeyword
    exact hscan.trans (Scans.tail hb ht hrest)
  · -- the name and the word behind it are scanned as one
    have hvalid := ht.condition _ hcondition
    rw [htouching, htext, ← List.append_assoc] at hkeyword ⊢
    rw [htext, ← List.append_assoc] at h
    obtain ⟨q, hword, hrest⟩ := h.append_cases
    have hscan : Scans b before p (name ++ ['o', 'n']) q [⟨name ++ ['o', 'n'], _⟩] :=
      word (w := ⟨_, _⟩) hb hword (hname.append isName_on.isNameChar) hbefore
        (head?_of_gap hrest hvalid.gap fun _ => isWord_of_isBlank) h hkeyword
    exact hscan.trans (Scans.type hb ht hcondition hrest)

theorem spelling {s : Spelling} (hb : b.rest.head? = some '\x7b') (hs : s.Valid)
    (hbefore : wordBegins before = true) (h : p.Reads s.text b) :
    Scans b before p s.text b s.words := by
  obtain ⟨q, hword, hrest⟩ := h.append_cases
  have hstop : q.rest.head?.any isWord = false := by
    have hends := wordEnds_of_spelling hs hrest hb
    rwa [Head.wordEnds_eq, Bool.not_eq_true'] at hends
  have hscan : Scans b before p s.kind.word q [⟨s.kind.word, s.text⟩] :=
    word (w := ⟨_, _⟩) hb hword (isName_word s.kind) hbefore hstop h fun _ => ⟨s, hs, rfl⟩
  have hscan' : Scans b (lastOr before s.kind.word) q (s.nameText ++ s.tail.text) b
      s.laterWords := by
    rw [Spelling.laterWords]
    cases hn : s.name with
    | none =>
      have htext : s.nameText ++ s.tail.text = s.tail.text := by simp [Spelling.nameText, hn]
      rw [htext] at hrest ⊢
      exact Scans.tail hb hs.tail hrest
    | some n =>
      have htext : s.nameText ++ s.tail.text = n.gap ++ (n.word ++ s.tail.text) := by
        simp [Spelling.nameText, hn]
      rw [htext] at hrest ⊢
      obtain ⟨hgap, hname⟩ := hs.name n hn
      obtain ⟨r, hblanks, hrest⟩ := hrest.append_cases
      exact (ofBlanks hblanks hgap.2).trans
        (Scans.name hb hname hs.tail (wordBegins_of_isGap hgap) hrest)
  exact hscan.trans hscan'

end Scans

/-! ## Whole operations -/

variable {s : Spelling} {body : Text} {repairable : Bool}

/-- The first word of a head is a keyword, so some word is the last one. -/
theorem lastKeyword?_words (hs : s.Valid) : lastKeyword? s.words =
    (lastKeyword? s.laterWords).or (some ⟨s.kind.word, s.text⟩) := by
  have hfirst : Word.isKeyword ⟨s.kind.word, s.text⟩ = true :=
    Word.isKeyword_iff.mpr ⟨s.kind, hs.kind, rfl⟩
  have hwords : s.words = [⟨s.kind.word, s.text⟩] ++ s.laterWords := rfl
  rw [hwords, lastKeyword?_append]
  congr 1
  rw [lastKeyword?, List.reverse_singleton, List.find?_cons_of_pos hfirst]

theorem lastKeyword?_eq_none_iff :
    lastKeyword? words = none ↔ ∀ w ∈ words, w.isKeyword = false := by
  simp [lastKeyword?]

theorem exists_lastKeyword? (hs : s.Valid) : ∃ w, lastKeyword? s.words = some w ∧
    w ∈ s.words ∧ w.isKeyword = true := by
  obtain ⟨w, hw⟩ : ∃ w, lastKeyword? s.words = some w := by
    rw [lastKeyword?_words hs]
    cases lastKeyword? s.laterWords with
    | none => exact ⟨_, rfl⟩
    | some w => exact ⟨w, rfl⟩
  exact ⟨w, hw, List.mem_reverse.mp (List.mem_of_find?_eq_some hw), List.find?_some hw⟩

theorem brace_notMem_of_mem_words (hs : s.Valid) (hbrace : '\x7b' ∉ s.text) (hw : w ∈ s.words) :
    '\x7b' ∉ w.text := by
  rcases List.mem_cons.mp hw with rfl | hw
  · exact hbrace
  · obtain ⟨x, -, hx⟩ := Spelling.exists_append_of_mem_laterWords hs hw
    exact fun hmem => hbrace (hx ▸ List.mem_append_right x hmem)

/-- The last keyword is the first word exactly if what begins with it is the whole head. -/
theorem text_lastKeyword?_eq_iff (hs : s.Valid) (hw : lastKeyword? s.words = some w) :
    w.text = s.text ↔ ∀ later ∈ s.laterWords, later.isKeyword = false := by
  rw [lastKeyword?_words hs] at hw
  rw [← lastKeyword?_eq_none_iff]
  cases hlater : lastKeyword? s.laterWords with
  | none =>
    rw [hlater] at hw
    cases hw
    exact ⟨fun _ => rfl, fun _ => rfl⟩
  | some v =>
    rw [hlater] at hw
    cases hw
    have hmem : w ∈ s.laterWords := List.mem_reverse.mp (List.mem_of_find?_eq_some hlater)
    obtain ⟨x, hne, hx⟩ := Spelling.exists_append_of_mem_laterWords hs hmem
    refine ⟨fun htext => ?_, fun hnone => by cases hnone⟩
    rw [htext] at hx
    exact absurd (List.self_eq_append_left.mp hx) hne

theorem findIdx?_of_notMem (hu : '\x7b' ∉ u) : u.findIdx? (· == '\x7b') = none := by
  rw [List.findIdx?_eq_none_iff]
  intro c hc
  rw [beq_eq_false_iff_ne]
  rintro rfl
  exact hu hc

theorem findIdx?_brace (hu : '\x7b' ∉ u) (hbody : body.head? = some '\x7b') :
    (u ++ body).findIdx? (· == '\x7b') = some u.length := by
  obtain ⟨rest, rfl⟩ := List.head?_eq_some_iff.mp hbody
  rw [List.findIdx?_append, findIdx?_of_notMem hu, List.findIdx?_cons]
  simp

/-- An operation is anchored at the last keyword among the words of its head. -/
theorem anchor?_spelled (hs : s.Valid) (hbody : body.head? = some '\x7b')
    (hbrace : '\x7b' ∉ s.text) :
    anchor? (s.text ++ body) = (lastKeyword? s.words).map (·.text ++ body) := by
  have hread : (Place.start (s.text ++ body)).Reads s.text ⟨s.text.length, body⟩ :=
    ⟨rfl, (Nat.zero_add _).symm⟩
  have hlast : ((keywordPlaces (s.text ++ body) s.text.length).find?
      (endsAt ⟨s.text.length, body⟩)).map (·.rest) =
        (lastKeyword? s.words).map (·.text ++ body) := by
    have hscan : Scans _ none _ _ _ s.words := Scans.spelling hbody hs rfl hread
    have hlast := hscan.lastHead []
    rw [lastHead?, lastHead?, List.find?_nil, Option.map_none, Option.or_none] at hlast
    exact hlast
  obtain ⟨w, hw, -⟩ := exists_lastKeyword? hs
  rw [hw] at hlast ⊢
  obtain ⟨p, hfind, hp⟩ := Option.map_eq_some_iff.mp hlast
  have hfind' : (keywordPlaces (s.text ++ body) s.text.length).find?
      (fun p => ((Head.at? p).map (·.brace.index)) == some s.text.length) = some p := hfind
  rw [anchor?, findIdx?_brace hbrace hbody]
  dsimp only
  rw [hfind']
  exact congrArg some hp

/-- The head and the body that make up an operation text. -/
structure Parts (t : Text) where
  head : Spelling
  body : Text
  valid : head.Valid
  opens : body.head? = some '\x7b'
  text : t = head.text ++ body

theorem IsOperation.nonempty_parts (h : IsOperation t) : Nonempty (Parts t) := by
  obtain ⟨s, body, hs, hbrace, -, ht⟩ := h.exists_append
  exact ⟨⟨s, body, hs, hbrace, ht⟩⟩

/-- The body is what closes, however the operation is taken to pieces. -/
theorem IsOperation.length?_body (h : IsOperation t) (a : Parts t) :
    Body.length? a.body = some a.body.length := by
  obtain ⟨m, hat, hbody⟩ := h
  have hread : (Place.start t).Reads a.head.text ⟨0 + a.head.text.length, a.body⟩ := ⟨a.text, rfl⟩
  rw [Head.at?_of_reads a.valid hread a.opens] at hat
  cases hat
  exact hbody

theorem clip?_of_anchor? (hanchor : anchor? t = some (u ++ body)) (hu : '\x7b' ∉ u)
    (hbody : body.head? = some '\x7b') (hlength : Body.length? body = some body.length) :
    clip? repairable t = some (u ++ body, false) := by
  have hend : Body.end? (u ++ body) u.length = some (u ++ body).length := by
    rw [Body.end?, List.drop_left, hlength, List.length_append]
    rfl
  rw [clip?, hanchor]
  dsimp only
  rw [findIdx?_brace hu hbody]
  dsimp only
  rw [hend]
  dsimp only
  rw [List.take_length]

/-- An operation that is matched as a whole, without a brace in its head, is cut in front of the
last keyword among the words of the head. Nothing is missing at its end, and what is left is
matched as a whole, too. -/
theorem clip?_of_matchesIn (h : Pattern.standard.matchesIn t = [wholeMatch t]) :
    Nonempty (Parts t) ∧ ∀ (a : Parts t), '\x7b' ∉ a.head.text → ∀ repairable,
      ∃ w, lastKeyword? a.head.words = some w ∧
        clip? repairable t = some (w.text ++ a.body, false) ∧
        Pattern.standard.matchesIn (w.text ++ a.body) = [wholeMatch (w.text ++ a.body)] ∧
        (w.text ++ a.body = t ↔ ∀ later ∈ a.head.laterWords, later.isKeyword = false) := by
  have hwhole : wholeMatch t ∈ Pattern.standard.matchesIn t := by
    rw [h]
    exact List.mem_singleton_self _
  have hop : IsOperation t := isOperation_of_mem_matchesIn hwhole
  refine ⟨hop.nonempty_parts, ?_⟩
  rintro ⟨s, body, hs, hbody, rfl⟩ hbrace repairable
  have hlength : Body.length? body = some body.length :=
    hop.length?_body ⟨s, body, hs, hbody, rfl⟩
  obtain ⟨w, hw, hmem, hkeyword⟩ := exists_lastKeyword? hs
  have hanchor : anchor? (s.text ++ body) = some (w.text ++ body) := by
    rw [anchor?_spelled hs hbody hbrace, hw]
    rfl
  have hbrace' := brace_notMem_of_mem_words hs hbrace hmem
  obtain ⟨s', hs', htext⟩ := Spelling.beginsHead_of_mem_words hs hmem hkeyword
  refine ⟨w, hw, clip?_of_anchor? hanchor hbrace' hbody hlength, ?_, ?_⟩
  · rw [← htext]
    exact (isOperation_append hs' hbody hlength).matchesIn_eq
  · rw [← text_lastKeyword?_eq_iff hs hw]
    exact List.append_left_inj body

def keywordNamesText : Text := "query fragment @mutation(if: true) \x7b a \x7d".toList

def keywordNames : Parts keywordNamesText where
  head :=
    { kind := .query
      name := some ⟨" ".toList, "fragment".toList⟩
      tail :=
        { args := none
          condition := none
          directives := [⟨" ".toList, "mutation".toList, some "if: true".toList⟩]
          blanks := " ".toList } }
  body := "\x7b a \x7d".toList
  valid := by decide +kernel
  opens := rfl
  text := by decide +kernel

/-- The name of a directive is the last keyword in this one. -/
theorem clip?_of_matchesIn_keywordNames :
    Pattern.standard.matchesIn keywordNamesText = [wholeMatch keywordNamesText] ∧
    '\x7b' ∉ keywordNames.head.text ∧
    clip? true keywordNamesText = some ("mutation(if: true) \x7b a \x7d".toList, false) ∧
    ¬ ∀ later ∈ keywordNames.head.laterWords, later.isKeyword = false := by
  have hwhole : Pattern.standard.matchesIn keywordNamesText = [wholeMatch keywordNamesText] := by
    decide +kernel
  have hbrace : '\x7b' ∉ keywordNames.head.text := by decide +kernel
  obtain ⟨w, hw, hclip, -, hsame⟩ := (clip?_of_matchesIn hwhole).2 keywordNames hbrace true
  cases hw
  refine ⟨hwhole, hbrace, hclip, fun hnone => ?_⟩
  have htext := hsame.mpr hnone
  revert htext
  decide +kernel

/-- An operation whose name is a keyword is not kept as a whole. -/
theorem not_clip?_self_keywordName :
    let t := "query fragment \x7b a \x7d".toList
    Pattern.standard.matchesIn t = [wholeMatch t] ∧ clip? true t ≠ some (t, false) := by
  decide +kernel

end OperationScan
