import OperationScan.Pattern.Basic
import OperationScan.Proofs.Operation.Keywords

/-!
# Where the aggressive patterns match

Every match of an aggressive pattern begins where a keyword stands as a whole word, also where the
pattern itself begins at a quote in front of it.

* `StartsAtKeyword`: what a stepper finds begins at a keyword.
* `hasKeywordAt_of_mem_matchesIn`: the matches of the aggressive patterns.
-/

namespace OperationScan

open Text

/-- What a stepper finds begins at a keyword of the text that it looks at. -/
def StartsAtKeyword (step : Stepper Span) : Prop := ∀ before (p : Place) s n,
  step before p = .hit s n → HasKeywordAt before p.index p.rest s.start ∧ s.start ≤ s.stop

variable {p q : Place} {before : Option Char}

/-! ## Places further on -/

namespace Place

/-- A place is another one or lies some characters further on. -/
def Reaches (p q : Place) : Prop := ∃ n, q = p.drop n

namespace Reaches

variable {r : Place}

theorem trans (h : p.Reaches q) (h' : q.Reaches r) : p.Reaches r := by
  obtain ⟨m, rfl⟩ := h
  obtain ⟨n, rfl⟩ := h'
  exact ⟨m + n, by simp [drop, Nat.add_assoc]⟩

theorem le (h : p.Reaches q) : p.index ≤ q.index := by
  obtain ⟨n, rfl⟩ := h
  exact Nat.le_add_right _ _

end Reaches

theorem Reads.reaches {t : Text} (h : p.Reads t q) : p.Reaches q := ⟨t.length, h.eq_drop⟩

theorem reaches_drop (p : Place) (n : Nat) : p.Reaches (p.drop n) := ⟨n, rfl⟩

theorem reaches_skip (p : Place) (test : Char → Bool) : p.Reaches (p.skip test) := p.reaches_drop _

theorem reaches_skipBlanks (p : Place) : p.Reaches p.skipBlanks := reaches_skip p isBlank

theorem reaches_name? {name : Text} (h : p.name? = some (name, q)) : p.Reaches q :=
  (name?_eq_some_iff.mp h).2.1.reaches

theorem reaches_skipLiteral? {literal : Text} (h : p.skipLiteral? literal = some q) :
    p.Reaches q :=
  (skipLiteral?_eq_some_iff.mp h).reaches

theorem reaches_parenthesized? {inside : Text} (h : p.parenthesized? = some (inside, q)) :
    p.Reaches q :=
  (parenthesized?_eq_some_iff.mp h).2.reaches

theorem reaches_keyword? {k : Kind} (h : p.keyword? before = some (k, q)) : p.Reaches q :=
  (Head.kindAt?_eq_some_iff.mp (keyword?_eq_some h).2).2.1.reaches

end Place

/-! ## Heads without much spacing -/

namespace Compact

theorem reaches_brace? (h : brace? p = some q) : p.Reaches q ∧ q.rest.head? = some '\x7b' := by
  unfold brace? at h
  dsimp only at h
  split at h
  · rename_i hbrace
    cases h
    exact ⟨p.reaches_skipBlanks, beq_iff_eq.mp hbrace⟩
  · cases h

theorem reaches_afterOn? (h : afterOn? p = some q) :
    p.Reaches q ∧ q.rest.head? = some '\x7b' := by
  unfold afterOn? at h
  split at h
  · cases h
  · rename_i r hon
    split at h
    · cases h
    · rename_i name s hname
      obtain ⟨hreaches, hbrace⟩ := reaches_brace? h
      exact ⟨(Place.reaches_skipLiteral? hon).trans (r.reaches_skipBlanks.trans
        ((Place.reaches_name? hname).trans hreaches)), hbrace⟩

theorem reaches_afterName? (h : afterName? p = some q) :
    p.Reaches q ∧ q.rest.head? = some '\x7b' := by
  have hor : ∀ {r : Place}, p.Reaches r → (brace? r).or (afterOn? r) = some q →
      p.Reaches q ∧ q.rest.head? = some '\x7b' := by
    intro r hpr hr
    rcases Option.or_eq_some_iff.mp hr with hr | ⟨-, hr⟩
    · exact (reaches_brace? hr).imp_left hpr.trans
    · exact (reaches_afterOn? hr).imp_left hpr.trans
  unfold afterName? at h
  dsimp only at h
  split at h
  · rename_i inside r hinside
    exact hor (p.reaches_skipBlanks.trans
      ((Place.reaches_parenthesized? hinside).trans r.reaches_skipBlanks)) h
  · exact hor p.reaches_skipBlanks h

theorem reaches_insideName? {fuel : Nat} (h : insideName? fuel p = some q) :
    p.Reaches q ∧ q.rest.head? = some '\x7b' := by
  induction fuel generalizing p with
  | zero => cases h
  | succ fuel ih =>
    rcases Option.or_eq_some_iff.mp h with h | ⟨-, h⟩
    · exact reaches_afterOn? h
    · exact (ih h).imp_left (p.reaches_drop 1).trans

/-- Behind a keyword and what may follow it stands the brace. -/
theorem reaches_afterKeyword? (h : afterKeyword? p = some q) :
    p.Reaches q ∧ q.rest.head? = some '\x7b' := by
  unfold afterKeyword? at h
  dsimp only at h
  split at h
  · exact reaches_afterName? h
  · rename_i name r hname
    rcases Option.or_eq_some_iff.mp h with h | ⟨-, h⟩
    · exact (reaches_afterName? h).imp_left
        (p.reaches_skipBlanks.trans (Place.reaches_name? hname)).trans
    · exact (reaches_insideName? h).imp_left p.reaches_skipBlanks.trans

end Compact

theorem startsAtKeyword_minified : StartsAtKeyword minifiedStep := by
  intro before p s n h
  unfold minifiedStep at h
  split at h
  · cases h
  rename_i k q hkeyword
  split at h
  · cases h
  rename_i brace hbrace
  split at h
  · cases h
  cases h
  refine ⟨.of_keyword? (by rw [hkeyword]; rfl), ?_⟩
  exact Nat.le_trans ((Place.reaches_keyword? hkeyword).trans
    (Compact.reaches_afterKeyword? hbrace).1).le (Nat.le_add_right _ _)

theorem startsAtKeyword_split : StartsAtKeyword splitStep := by
  intro before p s n h
  unfold splitStep at h
  split at h
  · cases h
  rename_i k q hkeyword
  dsimp only at h
  split at h
  · cases h
  split at h
  · split at h
    · cases h
    · cases h
      refine ⟨.of_keyword? (by rw [hkeyword]; rfl), ?_⟩
      exact ((Place.reaches_keyword? hkeyword).trans
        ((q.reaches_drop _).trans (Place.reaches_skip _ _))).le
  · cases h

/-! ## Quoted spans -/

section Quoted

/-- All keywords of a text stand at places with a property, where offsets count from that of the
text. -/
def AllKeywords (P : Place → Prop) (before : Option Char) (index : Nat) (t : Text) : Prop :=
  ∀ u v, t = u ++ v → wordBegins (lastOr before u) = true → BeginsKeyword v →
    P ⟨index + u.length, v⟩

variable {P : Place → Prop} {keyword : Option Place} {index : Nat} {t rest : Text}
  {r : QuotedKeyword}

theorem AllKeywords.append (h : AllKeywords P before index (t ++ rest)) :
    AllKeywords P (lastOr before t) (index + t.length) rest := by
  rintro u v rfl hbefore hv
  rw [Nat.add_assoc, ← List.length_append]
  refine h (t ++ u) v (List.append_assoc ..).symm ?_ hv
  rw [← hbefore, lastOr, lastOr, lastOr, List.getLast?_append, Option.or_assoc]

theorem AllKeywords.tail {c : Char} (h : AllKeywords P before index (c :: rest)) :
    AllKeywords P (some c) (index + 1) rest :=
  AllKeywords.append (t := [c]) h

/-- The keywords behind a place are reached from it. -/
theorem allKeywords_reaches (p : Place) (before : Option Char) :
    AllKeywords (fun k => p.Reaches k ∧ HasKeywordAt before p.index p.rest k.index) before
      p.index p.rest := by
  intro u v hrest hbefore hv
  refine ⟨⟨u.length, ?_⟩, u, v, hrest, rfl, hbefore, hv⟩
  rw [Place.drop, hrest, List.drop_left]

theorem keyword_succ {c : Char} (h : ∀ k ∈ keyword, P k ∧ k.Reaches ⟨index, c :: rest⟩) :
    ∀ k ∈ keyword, P k ∧ k.Reaches ⟨index + 1, rest⟩ :=
  fun k hk => (h k hk).imp_right fun hreaches => hreaches.trans ⟨1, rfl⟩

/-- The first keyword that a reader of spans keeps. -/
theorem keyword_orElse {c : Char} (hkeyword : ∀ k ∈ keyword, P k ∧ k.Reaches ⟨index, c :: rest⟩)
    (hrest : AllKeywords P before index (c :: rest)) :
    ∀ k ∈ keyword.orElse fun _ =>
      (Place.keyword? before ⟨index, c :: rest⟩).map fun _ => ⟨index, c :: rest⟩,
      P k ∧ k.Reaches ⟨index + 1, rest⟩ := by
  intro k hk
  cases keyword with
  | some k' =>
    exact keyword_succ hkeyword k hk
  | none =>
    obtain ⟨found, hfound, rfl⟩ := Option.map_eq_some_iff.mp hk
    obtain ⟨hbefore, hbegins⟩ := keyword?_isSome_iff.mp (Option.isSome_of_eq_some hfound)
    exact ⟨hrest [] _ rfl hbefore hbegins, 1, rfl⟩

theorem readPlain_keyword {quote : Char} (h : readPlain quote keyword before index rest = some r)
    (hkeyword : ∀ k ∈ keyword, P k ∧ k.Reaches ⟨index, rest⟩)
    (hrest : AllKeywords P before index rest) :
    P r.keyword ∧ ∃ v, r.keyword.Reaches ⟨r.stop, quote :: v⟩ := by
  induction rest generalizing keyword before index with
  | nil => cases h
  | cons c rest ih =>
    rw [readPlain] at h
    split at h
    · rename_i hquote
      obtain ⟨k, hk, rfl⟩ := Option.map_eq_some_iff.mp h
      obtain rfl := beq_iff_eq.mp hquote
      exact (hkeyword k hk).imp_right fun hreaches => ⟨rest, hreaches⟩
    · split at h
      · cases h
      · -- the keyword that is kept is an earlier one or stands here
        exact ih h (keyword_orElse hkeyword hrest) hrest.tail

theorem readEscaped_keyword {quote : Text} {taken : Bool}
    (h : readEscaped quote keyword taken before index rest = some r)
    (hkeyword : ∀ k ∈ keyword, P k ∧ k.Reaches ⟨index, rest⟩)
    (hrest : AllKeywords P before index rest) :
    P r.keyword ∧ ∃ v, r.keyword.Reaches ⟨r.stop, quote ++ v⟩ := by
  induction rest generalizing keyword taken before index with
  | nil => cases taken <;> cases h
  | cons c rest ih =>
    cases taken with
    | true => exact ih h (keyword_succ hkeyword) hrest.tail
    | false =>
      rw [readEscaped] at h
      split at h
      · rename_i hquote
        obtain ⟨k, hk, rfl⟩ := Option.map_eq_some_iff.mp h
        obtain ⟨v, hv⟩ := Option.isSome_iff_exists.mp hquote
        rw [Place.afterStart?_eq_some_iff] at hv
        exact (hkeyword k hk).imp_right fun hreaches => ⟨v, hv ▸ hreaches⟩
      · split at h
        · exact ih h (keyword_succ hkeyword) hrest.tail
        · exact ih h (keyword_orElse hkeyword hrest) hrest.tail

/-- A keyword behind a place whose span ends at a character in front of a number of others. -/
structure QuotedKeyword.LiesIn (before : Option Char) (p : Place) (n : Nat) (r : QuotedKeyword) :
    Prop where
  reaches : p.Reaches r.keyword
  keyword : HasKeywordAt before p.index p.rest r.keyword.index
  stop : ∃ c v, r.keyword.Reaches ⟨r.stop, c :: v⟩
  stop_lt : r.stop < p.index + n

theorem exists_of_quotedStep {s : Span} {n : Nat} (h : quotedStep before p = .hit s n) :
    ∃ r : QuotedKeyword, s = r.span ∧ r.LiesIn before p n := by
  unfold quotedStep at h
  split at h
  · rename_i c rest hrest
    split at h
    · split at h
      · rename_i r hread
        cases h
        have hall := allKeywords_reaches p before
        rw [hrest] at hall
        obtain ⟨⟨hreaches, hkeyword⟩, v, hstop⟩ := readPlain_keyword hread (by simp) hall.tail
        have hle := (hreaches.trans hstop).le
        dsimp only at hle
        exact ⟨r, rfl, hreaches, hrest ▸ hkeyword, ⟨c, v, hstop⟩, by omega⟩
      · cases h
    · cases h
  · cases h

theorem openingQuote?_eq_some {t quote : Text} {n : Nat} (h : openingQuote? t = some (quote, n)) :
    quote ≠ [] ∧ n = quote.length ∧ ∃ rest, t = quote ++ rest := by
  unfold openingQuote? at h
  split at h
  · split at h
    · cases h
      exact ⟨by simp, rfl, _, rfl⟩
    · cases h
  · split at h
    · cases h
      exact ⟨by simp, rfl, _, rfl⟩
    · cases h
  · cases h

theorem lastOr_of_ne_nil {t : Text} (ht : t ≠ []) (before : Option Char) :
    lastOr before t = t.getLast? := by
  rw [lastOr, List.getLast?_eq_some_getLast ht]
  rfl

theorem exists_of_escapedStep {s : Span} {n : Nat} (h : escapedStep before p = .hit s n) :
    ∃ r : QuotedKeyword, s = r.span ∧ r.LiesIn before p n := by
  unfold escapedStep at h
  split at h
  · rename_i quote m hquote
    obtain ⟨hne, rfl, rest, hrest⟩ := openingQuote?_eq_some hquote
    dsimp only at h
    split at h
    · rename_i r hread
      cases h
      -- inside of the span the quote is the character in front, as it is in the text
      have hdrop : (p.drop quote.length).rest = rest := by
        rw [Place.drop, hrest, List.drop_left]
      have hall := allKeywords_reaches p before
      rw [hrest] at hall
      have hinside := hall.append
      rw [lastOr_of_ne_nil hne] at hinside
      rw [hdrop] at hread
      obtain ⟨⟨hreaches, hkeyword⟩, v, hstop⟩ := readEscaped_keyword hread (by simp) hinside
      have hle := (hreaches.trans hstop).le
      dsimp only at hle
      obtain ⟨c, w, rfl⟩ := List.exists_cons_of_ne_nil hne
      exact ⟨r, rfl, hreaches, hrest ▸ hkeyword, ⟨c, w ++ v, hstop⟩, by
        rw [List.length_cons]
        omega⟩
    · cases h
  · cases h

theorem startsAtKeyword_of_liesIn {step : Stepper Span}
    (h : ∀ before (p : Place) s n, step before p = .hit s n →
      ∃ r : QuotedKeyword, s = r.span ∧ r.LiesIn before p n) : StartsAtKeyword step := by
  intro before p s n hstep
  obtain ⟨r, rfl, hr⟩ := h before p s n hstep
  obtain ⟨c, v, hstop⟩ := hr.stop
  exact ⟨hr.keyword, hstop.le⟩

theorem startsAtKeyword_quoted : StartsAtKeyword quotedStep :=
  startsAtKeyword_of_liesIn fun _ _ _ _ => exists_of_quotedStep

theorem startsAtKeyword_escaped : StartsAtKeyword escapedStep :=
  startsAtKeyword_of_liesIn fun _ _ _ _ => exists_of_escapedStep

end Quoted

/-! ## Matches -/

theorem startsAtKeyword_of_mem_aggressive :
    ∀ p ∈ Pattern.aggressive, StartsAtKeyword p.step := by
  simp only [Pattern.aggressive, List.forall_mem_cons, List.not_mem_nil, false_implies,
    implies_true, and_true]
  exact ⟨startsAtKeyword_minified, startsAtKeyword_quoted, startsAtKeyword_escaped,
    startsAtKeyword_split⟩

/-- A match comes from its span and bears the index of its pattern. -/
theorem finished?_eq_some {p : Pattern} {s : Span} {m : PatternMatch}
    (h : p.finished? s = some m) : m.index = p.index ∧ m.start = s.start ∧ m.stop = s.stop := by
  unfold Pattern.finished? at h
  split at h
  · cases h
    exact ⟨rfl, rfl, rfl⟩
  · split at h
    · cases h
    · split at h
      · cases h
      · cases h
        exact ⟨rfl, rfl, rfl⟩

/-- The matches of the aggressive patterns begin at keywords. -/
theorem hasKeywordAt_of_mem_matchesIn {p : Pattern} (hp : p ∈ Pattern.aggressive) {t : Text}
    {m : PatternMatch} (h : m ∈ p.matchesIn t) :
    HasKeywordAt none 0 t m.start ∧ m.start ≤ m.stop := by
  obtain ⟨s, hs, hm⟩ := List.mem_filterMap.mp h
  obtain ⟨-, hstart, hstop⟩ := finished?_eq_some hm
  rw [findAll_eq] at hs
  obtain ⟨u, v, n, rfl, hhit⟩ := exists_of_mem_findFrom hs
  obtain ⟨hkeyword, hle⟩ := startsAtKeyword_of_mem_aggressive p hp _ _ _ _ hhit
  rw [hstart, hstop]
  exact ⟨hkeyword.append_left, hle⟩

end OperationScan
