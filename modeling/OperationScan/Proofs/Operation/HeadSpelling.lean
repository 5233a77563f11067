import OperationScan.Proofs.Operation.HeadTail

/-!
# How heads are spelled

A head is a keyword, and optionally a name, arguments, a type condition and directives, with white
space between them. The grammar is given by the parts of a head and the text that they make up.

* `Head.Spelling`: the parts of a head; `Spelling.text` is what they make up and `Spelling.head`
  what they say.
* `Head.at?_of_reads`, `Head.exists_of_at?`: reading finds a head where a spelling stands in front
  of an opening brace, and nowhere else. What stands behind the brace does not matter, and a text
  has one reading.

The word `on` is what makes this less than obvious: it may be a name, the end of a name, or the
beginning of a type condition that touches the name.
-/

namespace OperationScan

open Text

namespace Head

open Place

variable {p q b : Place}

/-! ## Keywords -/

theorem eq_of_head?_word : ∀ k ∈ Kind.keywords, ∀ k' ∈ Kind.keywords,
    k.word.head? = k'.word.head? → k = k' := by
  decide

theorem word_ne_nil : ∀ k ∈ Kind.keywords, k.word ≠ [] := by
  decide

/-- A given keyword at a place, which ends a word there. -/
def wordAt? (p : Place) (k : Kind) : Option (Kind × Place) :=
  (p.skipLiteral? k.word).bind fun q => if wordEnds q.rest then some (k, q) else none

theorem kindAt?_eq (p : Place) : Kind.at? p = Kind.keywords.findSome? (wordAt? p) := by
  unfold Kind.at?
  congr 1
  funext k
  rw [wordAt?]
  cases p.skipLiteral? k.word <;> rfl

theorem wordAt?_eq_some_iff {k : Kind} {r : Kind × Place} : wordAt? p k = some r ↔
    r.1 = k ∧ p.Reads k.word r.2 ∧ wordEnds r.2.rest = true := by
  obtain ⟨k', q⟩ := r
  rw [wordAt?, Option.bind_eq_some_iff]
  constructor
  · rintro ⟨s, hs, hsome⟩
    split at hsome
    · rename_i hends
      cases hsome
      exact ⟨rfl, skipLiteral?_eq_some_iff.mp hs, hends⟩
    · cases hsome
  · rintro ⟨rfl, hread, hends⟩
    exact ⟨q, skipLiteral?_eq_some_iff.mpr hread, if_pos hends⟩

/-- At most one keyword stands at a place. -/
theorem eq_of_reads_word {j k : Kind} {r : Place} (hj : j ∈ Kind.keywords)
    (hk : k ∈ Kind.keywords) (hread : p.Reads j.word r) (hread' : p.Reads k.word q) : j = k := by
  have hhead : ∀ i ∈ Kind.keywords, ∀ s, p.Reads i.word s → p.rest.head? = i.word.head? := by
    intro i hi s hs
    obtain ⟨c, w, hw⟩ := List.exists_cons_of_ne_nil (word_ne_nil i hi)
    rw [hs.rest, hw]
    rfl
  exact eq_of_head?_word j hj k hk ((hhead j hj _ hread).symm.trans (hhead k hk _ hread'))

theorem kindAt?_eq_some_iff {k : Kind} : Kind.at? p = some (k, q) ↔
    k ∈ Kind.keywords ∧ p.Reads k.word q ∧ wordEnds q.rest = true := by
  rw [kindAt?_eq]
  constructor
  · intro h
    obtain ⟨j, hj, hjr⟩ := List.exists_of_findSome?_eq_some h
    obtain ⟨rfl, hread, hends⟩ := wordAt?_eq_some_iff.mp hjr
    exact ⟨hj, hread, hends⟩
  · rintro ⟨hk, hread, hends⟩
    have hsome : wordAt? p k = some (k, q) := wordAt?_eq_some_iff.mpr ⟨rfl, hread, hends⟩
    cases hfind : Kind.keywords.findSome? (wordAt? p) with
    | none =>
      rw [List.findSome?_eq_none_iff.mp hfind k hk] at hsome
      cases hsome
    | some r =>
      obtain ⟨j, hj, hjr⟩ := List.exists_of_findSome?_eq_some hfind
      obtain ⟨-, hread', -⟩ := wordAt?_eq_some_iff.mp hjr
      obtain rfl : j = k := eq_of_reads_word hj hk hread' hread
      rw [hsome] at hjr
      exact hjr.symm

/-! ## Whole heads -/

/-- A name with the white space between it and the keyword. -/
structure NamePart where
  gap : Text
  word : Text

/-- The parts of a head. -/
structure Spelling where
  kind : Kind
  name : Option NamePart
  tail : Tail

namespace Spelling

def nameText (s : Spelling) : Text := (s.name.map fun n => n.gap ++ n.word).getD []

/-- What the parts make up. -/
def text (s : Spelling) : Text := s.kind.word ++ (s.nameText ++ s.tail.text)

/-- What the parts say. -/
def head (s : Spelling) : Head :=
  ⟨s.kind, s.name.map NamePart.word, s.tail.args.map Arguments.inside⟩

/-- Without a name and arguments, white space keeps the word `on` apart from the keyword. -/
structure Valid (s : Spelling) : Prop where
  kind : s.kind ∈ Kind.keywords
  name : ∀ n ∈ s.name, IsGap n.gap ∧ IsName n.word
  tail : s.tail.Valid
  apart : s.name = none → s.tail.args = none → ∀ c ∈ s.tail.condition, c.blanks ≠ []

end Spelling

theorem wordEnds_eq (t : Text) : wordEnds t = !t.head?.any isWord := by
  cases t with
  | nil => rfl
  | cons c t => rfl

/-- Where the longest name behind a keyword begins, and what is tried with it. -/
theorem at?_of_name {k : Kind} {gap name : Text} {s r : Place} (hk : Kind.at? p = some (k, q))
    (hgap : q.Reads gap s) (hblank : IsGap gap) (hread : s.Reads name r) (hname : IsName name)
    (hstop : r.rest.head?.any isNameChar = false) :
    at? p = (named? k name r).or (((withoutOn? name).bind fun short =>
      named? k short (s.drop short.length)).or (unnamed? k q)) := by
  obtain ⟨c, hhead, hc⟩ := IsName.exists_head? hname r.rest
  have hskip : q.skipBlanks = s :=
    skipBlanks_eq hgap hblank.2 (by rw [hread.rest]; exact hhead) (isBlank_of_isNameStart hc)
  have hindex : s.index ≠ q.index := by
    have hlength : gap.length ≠ 0 := by simpa using hblank.1
    rw [hgap.index]
    omega
  unfold at?
  rw [hk]
  dsimp only
  rw [hskip, if_neg (by simpa using hindex), name?_eq_some_iff.mpr ⟨hname, hread, hstop⟩]

theorem at?_of_next? {k : Kind} (hk : Kind.at? p = some (k, q))
    (hnext : q.next?.any isNameStart = false) : at? p = unnamed? k q := by
  unfold at?
  rw [hk]
  dsimp only
  rw [name?_eq_none_iff.mpr hnext]
  split
  · rfl
  · rfl

theorem withoutOn?_eq_some_iff {name short : Text} :
    withoutOn? name = some short ↔ short ≠ [] ∧ name = short ++ ['o', 'n'] := by
  constructor
  · intro h
    refine ⟨?_, withoutOn?_eq_some h⟩
    rintro rfl
    rw [withoutOn?_eq_some h] at h
    cases h
  · rintro ⟨hne, rfl⟩
    obtain ⟨c, rest, hrev⟩ := List.exists_cons_of_ne_nil (List.reverse_ne_nil_iff.mpr hne)
    have hname : (short ++ ['o', 'n']).reverse = 'n' :: 'o' :: c :: rest := by
      rw [List.reverse_append, hrev]
      rfl
    rw [withoutOn?, hname]
    change some (c :: rest).reverse = some short
    rw [← hrev, List.reverse_reverse]

theorem named?_of_reads {k : Kind} {name : Text} {t : Tail} (ht : t.Valid) (h : p.Reads t.text b)
    (hb : b.rest.head? = some '\x7b') :
    named? k name p = some ⟨⟨k, some name, t.args.map Arguments.inside⟩, b⟩ := by
  rw [named?, afterName?_of_reads ht h hb]
  rfl

theorem unnamed?_of_reads {k : Kind} {t : Tail} (ht : t.Valid) (h : p.Reads t.text b)
    (hb : b.rest.head? = some '\x7b') :
    unnamed? k p = some ⟨⟨k, none, t.args.map Arguments.inside⟩, b⟩ := by
  rw [unnamed?, afterName?_of_reads ht h hb]
  rfl

/-- The name `on` is no name where it begins a type condition. -/
theorem at?_of_unnamed {k : Kind} {t : Tail} (hk : Kind.at? p = some (k, q)) (ht : t.Valid)
    (hapart : t.args = none → ∀ c ∈ t.condition, c.blanks ≠ []) (h : q.Reads t.text b)
    (hb : b.rest.head? = some '\x7b') :
    at? p = some ⟨⟨k, none, t.args.map Arguments.inside⟩, b⟩ := by
  rw [← unnamed?_of_reads ht h hb]
  rcases tailText_cases ht h hb with ⟨a, r, ha, hargs, -⟩ | ⟨c, r, ha, hc, hcondition, hnext⟩ |
    ⟨-, -, hnext⟩
  · exact at?_of_next? hk (by rw [next?_args hargs (ht.args a ha)]; rfl)
  · have hvalid := ht.condition c hc
    obtain ⟨s, hblanks, hrest⟩ := hcondition.append_cases
    obtain ⟨u, hon, htype⟩ := hrest.append_cases
    have hstop := head?_of_gap htype hvalid.gap fun _ => isNameChar_of_isBlank
    -- with `on` as the name, the type would have to be the rest of a head
    have hnone : named? k ['o', 'n'] u = none := by
      rw [named?, afterName?_type hvalid.gap.2 hvalid.type htype hnext]
      rfl
    have hshort : withoutOn? ['o', 'n'] = none := rfl
    rw [at?_of_name hk hblanks ⟨hapart ha c hc, hvalid.blanks⟩ hon isName_on hstop, hnone, hshort,
      Option.none_or, Option.bind_none, Option.none_or]
  · rcases hnext with hnext | hnext
    · exact at?_of_next? hk (by rw [hnext]; rfl)
    · exact at?_of_next? hk (by rw [hnext]; rfl)

/-- The end of a longer name is the word `on` where that begins a type condition. -/
theorem at?_of_named {k : Kind} {n : NamePart} {t : Tail} {r : Place}
    (hk : Kind.at? p = some (k, q)) (hread : q.Reads (n.gap ++ n.word) r) (hgap : IsGap n.gap)
    (hname : IsName n.word) (ht : t.Valid) (h : r.Reads t.text b)
    (hb : b.rest.head? = some '\x7b') :
    at? p = some ⟨⟨k, some n.word, t.args.map Arguments.inside⟩, b⟩ := by
  obtain ⟨s, hblanks, hword⟩ := hread.append_cases
  have hsome : named? k n.word r = some ⟨⟨k, some n.word, t.args.map Arguments.inside⟩, b⟩ :=
    named?_of_reads ht h hb
  by_cases hstop : r.rest.head?.any isNameChar = false
  · rw [at?_of_name hk hblanks hgap hword hname hstop, hsome]
    rfl
  · rcases tailText_cases ht h hb with ⟨a, u, ha, hargs, -⟩ | ⟨c, u, ha, hc, hcondition, hnext⟩ |
      ⟨-, -, hnext⟩
    · exact absurd (head?_of_next? (next?_args hargs (ht.args a ha)) rfl
        fun _ => isNameChar_of_isBlank) hstop
    · -- only a condition may touch the name, and the longest name takes its `on` along
      have hvalid := ht.condition c hc
      obtain ⟨v, hfirst, hrest⟩ := hcondition.append_cases
      have hnil : c.blanks = [] := by
        cases hcb : c.blanks with
        | nil => rfl
        | cons d rest =>
          refine absurd ?_ hstop
          rw [hfirst.rest, hcb]
          exact isNameChar_of_isBlank (hvalid.blanks d (by simp [hcb]))
      rw [hnil] at hfirst
      have hv : v = r := hfirst.eq_of_reads (.refl r)
      subst hv
      obtain ⟨w, hon, htype⟩ := hrest.append_cases
      have hstop' := head?_of_gap htype hvalid.gap fun _ => isNameChar_of_isBlank
      have hnone : named? k (n.word ++ ['o', 'n']) w = none := by
        rw [named?, afterName?_type hvalid.gap.2 hvalid.type htype hnext]
        rfl
      have hshort : withoutOn? (n.word ++ ['o', 'n']) = some n.word := by
        refine withoutOn?_eq_some_iff.mpr ⟨?_, rfl⟩
        intro hnil
        rw [hnil] at hname
        exact hname
      rw [at?_of_name hk hblanks hgap (hword.trans hon) (hname.append isName_on.isNameChar) hstop',
        hnone, hshort, Option.none_or, Option.bind_some, ← hword.eq_drop, hsome]
      rfl
    · exact absurd (head?_of_closing hnext).1 hstop

/-- No word goes on in what follows a name or a keyword, unless a type condition touches it. -/
theorem head?_of_tail {t : Tail} (ht : t.Valid)
    (hapart : t.args = none → ∀ c ∈ t.condition, c.blanks ≠ []) (h : p.Reads t.text b)
    (hb : b.rest.head? = some '\x7b') : p.rest.head?.any isWord = false := by
  rcases tailText_cases ht h hb with ⟨a, r, ha, hargs, -⟩ | ⟨c, r, ha, hc, hcondition, -⟩ |
    ⟨-, -, hnext | hnext⟩
  · exact head?_of_next? (next?_args hargs (ht.args a ha)) rfl fun _ => isWord_of_isBlank
  · exact head?_of_gap hcondition ⟨hapart ha c hc, (ht.condition c hc).blanks⟩
      fun _ => isWord_of_isBlank
  · exact head?_of_next? hnext rfl fun _ => isWord_of_isBlank
  · exact head?_of_next? hnext rfl fun _ => isWord_of_isBlank

/-- A keyword that begins a head ends a word. -/
theorem wordEnds_of_spelling {s : Spelling} (hs : s.Valid)
    (h : q.Reads (s.nameText ++ s.tail.text) b) (hb : b.rest.head? = some '\x7b') :
    wordEnds q.rest = true := by
  suffices hhead : q.rest.head?.any isWord = false by
    rw [wordEnds_eq, hhead]
    rfl
  cases hn : s.name with
  | some n =>
    have htext : s.nameText ++ s.tail.text = n.gap ++ (n.word ++ s.tail.text) := by
      simp [Spelling.nameText, hn]
    rw [htext] at h
    exact head?_of_gap h (hs.name n hn).1 fun _ => isWord_of_isBlank
  | none =>
    have htext : s.nameText ++ s.tail.text = s.tail.text := by simp [Spelling.nameText, hn]
    rw [htext] at h
    exact head?_of_tail hs.tail (hs.apart hn) h hb

/-- A head is read wherever it is spelled. -/
theorem at?_of_reads {s : Spelling} (hs : s.Valid) (h : p.Reads s.text b)
    (hb : b.rest.head? = some '\x7b') : at? p = some ⟨s.head, b⟩ := by
  obtain ⟨q, hword, hrest⟩ := h.append_cases
  have hk : Kind.at? p = some (s.kind, q) :=
    kindAt?_eq_some_iff.mpr ⟨hs.kind, hword, wordEnds_of_spelling hs hrest hb⟩
  obtain ⟨r, hname, htail⟩ := hrest.append_cases
  rw [Spelling.nameText] at hname
  rw [Spelling.head]
  cases hn : s.name with
  | some n =>
    rw [hn] at hname
    obtain ⟨hgap, hn⟩ := hs.name n hn
    exact at?_of_named hk hname hgap hn hs.tail htail hb
  | none =>
    rw [hn] at hname
    have hr : r = q := hname.eq_of_reads (.refl q)
    subst hr
    exact at?_of_unnamed hk hs.tail (hs.apart hn) htail hb

/-- What is read without a name is spelled without one. -/
theorem exists_of_unnamed? {k : Kind} {m : HeadMatch} (hk : Kind.at? p = some (k, q))
    (h : unnamed? k q = some m) : m.brace.rest.head? = some '\x7b' ∧
      ∃ s : Spelling, s.Valid ∧ s.head = m.head ∧ p.Reads s.text m.brace := by
  obtain ⟨⟨args, b⟩, hafter, rfl⟩ := Option.map_eq_some_iff.mp h
  obtain ⟨hb, t, ht, hread, rfl⟩ := exists_of_afterName? hafter
  obtain ⟨hkind, hword, hends⟩ := kindAt?_eq_some_iff.mp hk
  refine ⟨hb, ⟨k, none, t⟩, ⟨hkind, by simp, ht, ?_⟩, rfl, hword.trans hread⟩
  -- a condition that touched the keyword would go on with its word
  rintro - ha c hc hnil
  rcases tailText_cases ht hread hb with ⟨a, r, hargs, -⟩ | ⟨d, r, -, hd, hcondition, -⟩ |
    ⟨-, hnone, -⟩
  · rw [ha] at hargs
    cases hargs
  · have hcd : c = d := Option.some.inj (hc.symm.trans hd)
    subst hcd
    rw [hcondition.rest, Condition.text, hnil] at hends
    cases hends
  · rw [hnone] at hc
    cases hc

theorem exists_of_named? {k : Kind} {gap name : Text} {r : Place} {m : HeadMatch}
    (hk : Kind.at? p = some (k, q)) (hread : q.Reads (gap ++ name) r) (hgap : IsGap gap)
    (hname : IsName name) (h : named? k name r = some m) :
    m.brace.rest.head? = some '\x7b' ∧
      ∃ s : Spelling, s.Valid ∧ s.head = m.head ∧ p.Reads s.text m.brace := by
  obtain ⟨⟨args, b⟩, hafter, rfl⟩ := Option.map_eq_some_iff.mp h
  obtain ⟨hb, t, ht, htail, rfl⟩ := exists_of_afterName? hafter
  obtain ⟨hkind, hword, -⟩ := kindAt?_eq_some_iff.mp hk
  refine ⟨hb, ⟨k, some ⟨gap, name⟩, t⟩, ⟨hkind, ?_, ht, by simp⟩, rfl,
    hword.trans (hread.trans htail)⟩
  rintro n ⟨⟩
  exact ⟨hgap, hname⟩

/-- What is read as a head is spelled as one. -/
theorem exists_of_at? {m : HeadMatch} (h : at? p = some m) : m.brace.rest.head? = some '\x7b' ∧
    ∃ s : Spelling, s.Valid ∧ s.head = m.head ∧ p.Reads s.text m.brace := by
  unfold at? at h
  split at h
  · cases h
  · rename_i k q hk
    dsimp only at h
    split at h
    · exact exists_of_unnamed? hk h
    · rename_i hindex
      obtain ⟨gap, hgap, hblank, -⟩ := q.reads_skipBlanks
      have hne : gap ≠ [] := by
        rintro rfl
        exact hindex (beq_iff_eq.mpr hgap.index)
      split at h
      · exact exists_of_unnamed? hk h
      · rename_i name r hname
        obtain ⟨hname, hread, -⟩ := name?_eq_some_iff.mp hname
        rcases Option.or_eq_some_iff.mp h with h | ⟨-, h⟩
        · exact exists_of_named? hk (hgap.trans hread) ⟨hne, hblank⟩ hname h
        · rcases Option.or_eq_some_iff.mp h with h | ⟨-, h⟩
          · obtain ⟨short, hshort, hnamed⟩ := Option.bind_eq_some_iff.mp h
            obtain ⟨hshortne, rfl⟩ := withoutOn?_eq_some_iff.mp hshort
            obtain ⟨s, hread, -⟩ := hread.append_cases
            rw [← hread.eq_drop] at hnamed
            exact exists_of_named? hk (hgap.trans hread) ⟨hne, hblank⟩
              (hname.of_append hshortne) hnamed
          · exact exists_of_unnamed? hk h

end Head

end OperationScan
