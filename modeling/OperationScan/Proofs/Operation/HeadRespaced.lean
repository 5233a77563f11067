import OperationScan.Proofs.Text.Reads
import OperationScan.Operation.Head

/-!
# Heads do not depend on the spelling of gaps

A head is read in the same way from respaced texts: kind and name are the same, and the argument
texts are respaced. One lemma for each reader of `Head`, in the order in which the readers are
built from each other.

* `Head.respaced_at?`: the full head at respaced places.
* `Head.respaced_describe`: kind, name and arguments of respaced texts.
-/

namespace OperationScan

open Text

/-! ## Optional results -/

section OptionRel

variable {α β γ δ : Type} {r : α → β → Prop} {s : γ → δ → Prop}

/-- Related results are both missing, or both there and related. -/
theorem rel_cases {a : Option α} {b : Option β} (h : Option.Rel r a b) :
    (a = none ∧ b = none) ∨ ∃ x y, a = some x ∧ b = some y ∧ r x y := by
  cases h with
  | some h => exact .inr ⟨_, _, rfl, rfl, h⟩
  | none => exact .inl ⟨rfl, rfl⟩

theorem rel_or {a c : Option α} {b d : Option β} (h : Option.Rel r a b)
    (h' : Option.Rel r c d) : Option.Rel r (a.or c) (b.or d) := by
  cases h with
  | some h => exact .some h
  | none => exact h'

theorem rel_map {a : Option α} {b : Option β} {f : α → γ} {g : β → δ}
    (h : Option.Rel r a b) (hfg : ∀ x y, r x y → s (f x) (g y)) :
    Option.Rel s (a.map f) (b.map g) := by
  cases h with
  | some h => exact .some (hfg _ _ h)
  | none => exact .none

end OptionRel

/-! ## Characters of names and words -/

namespace Text

theorem toNat_of_isNameChar {c : Char} (h : isNameChar c = true) :
    48 ≤ c.toNat ∧ c.toNat ≤ 122 := by
  rw [isNameChar, Bool.or_eq_true, beq_iff_eq] at h
  rcases h with h | rfl
  · change ((decide (65 ≤ c.val ∧ c.val ≤ 90) || (decide (97 ≤ c.val) && decide (c.val ≤ 122))) ||
      (decide (48 ≤ c.val) && decide (c.val ≤ 57))) = true at h
    simp only [Bool.or_eq_true, Bool.and_eq_true, decide_eq_true_eq, UInt32.le_iff_toNat_le] at h
    change (((65 ≤ c.toNat ∧ c.toNat ≤ 90) ∨ (97 ≤ c.toNat ∧ c.toNat ≤ 122)) ∨
      (48 ≤ c.toNat ∧ c.toNat ≤ 57)) at h
    omega
  · decide

theorem isNameChar_of_isBlank {c : Char} (hc : isBlank c = true) : isNameChar c = false := by
  have hn : c.toNat ≤ 32 ∨ 0x85 ≤ c.toNat := by
    simp only [isBlank, Bool.or_eq_true, Bool.and_eq_true, decide_eq_true_eq, beq_iff_eq] at hc
    omega
  cases hname : isNameChar c with
  | false => rfl
  | true =>
    have hrange := toNat_of_isNameChar hname
    omega

theorem isNameStart_of_isBlank {c : Char} (hc : isBlank c = true) : isNameStart c = false := by
  have h := isNameChar_of_isBlank hc
  simp only [isNameChar, Char.isAlphanum, Bool.or_eq_false_iff] at h
  simp [isNameStart, h.1.1, h.2]

/-- White space outside ASCII. -/
def wideBlanks : List Nat :=
  [0x85, 0xa0, 0x1680, 0x2000, 0x2001, 0x2002, 0x2003, 0x2004, 0x2005, 0x2006, 0x2007, 0x2008,
    0x2009, 0x200a, 0x2028, 0x2029, 0x202f, 0x205f, 0x3000]

theorem inRanges_wideBlanks : ∀ n ∈ wideBlanks,
    (inRanges wordRanges1 n || inRanges wordRanges2 n || inRanges wordRanges3 n) = false := by
  decide +kernel

/-- White space does not belong to words. -/
theorem isWord_of_isBlank {c : Char} (hc : isBlank c = true) : isWord c = false := by
  by_cases hsmall : c.toNat < 128
  · rw [isWord, if_pos hsmall]
    exact isNameChar_of_isBlank hc
  · rw [isWord, if_neg hsmall]
    apply inRanges_wideBlanks
    simp only [isBlank, Bool.or_eq_true, Bool.and_eq_true, decide_eq_true_eq, beq_iff_eq] at hc
    simp only [wideBlanks, List.mem_cons, List.not_mem_nil, or_false]
    omega

namespace Respaced

variable {t u : Text}

/-- Characters that are no white space stand in both texts. -/
theorem drop {n : Nat} (hn : ∀ c ∈ t.take n, isBlank c = false) (h : Respaced t u) :
    Respaced (t.drop n) (u.drop n) := by
  induction n generalizing t u with
  | zero => exact h
  | succ n ih =>
    cases h with
    | nil => exact .nil
    | cons hc h => exact ih (fun d hd => hn d (by simp [hd])) h
    | gap ha _ _ =>
      obtain ⟨c, r, rfl, hc⟩ := ha.exists_cons
      have := hn c (by simp)
      rw [hc] at this
      cases this

theorem wordEnds_eq (h : Respaced t u) : wordEnds t = wordEnds u := by
  rcases h.view with ⟨rfl, rfl⟩ | ⟨c, t', u', hc, rfl, rfl, -⟩ | ⟨c, t', d, u', hc, hd, rfl, rfl⟩
  · rfl
  · rfl
  · simp [wordEnds, isWord_of_isBlank hc, isWord_of_isBlank hd]

/-- A character that is no white space begins both texts or neither. -/
theorem head?_eq_some_iff {c : Char} (hc : isBlank c = false) (h : Respaced t u) :
    t.head? = some c ↔ u.head? = some c := by
  rcases h.view with ⟨rfl, rfl⟩ | ⟨d, t', u', hd, rfl, rfl, -⟩ | ⟨d, t', e, u', hd, he, rfl, rfl⟩
  · rfl
  · rfl
  · have hdc : d ≠ c := by
      rintro rfl
      rw [hc] at hd
      cases hd
    have hec : e ≠ c := by
      rintro rfl
      rw [hc] at he
      cases he
    simp [hdc, hec]

end Respaced

end Text
/-! ## Places -/

namespace Place

/-- The texts from two places on are respaced. -/
def Respaced (p q : Place) : Prop := Text.Respaced p.rest q.rest

theorem rest_skipBlanks (p : Place) : p.skipBlanks.rest = p.rest.dropWhile isBlank :=
  rest_skip p isBlank

theorem index_skipBlanks_eq (p : Place) :
    (p.skipBlanks.index == p.index) = (p.rest.takeWhile isBlank).isEmpty := by
  have hindex : p.skipBlanks.index = p.index + (p.rest.takeWhile isBlank).length := rfl
  rw [hindex]
  cases p.rest.takeWhile isBlank with
  | nil => simp
  | cons c t => simp

variable {p q : Place}

theorem Respaced.skipBlanks (h : p.Respaced q) : p.skipBlanks.Respaced q.skipBlanks := by
  unfold Respaced
  rw [rest_skipBlanks, rest_skipBlanks]
  exact h.dropBlanks

theorem Respaced.index_skipBlanks_eq (h : p.Respaced q) :
    (p.skipBlanks.index == p.index) = (q.skipBlanks.index == q.index) := by
  rw [Place.index_skipBlanks_eq, Place.index_skipBlanks_eq]
  exact h.isEmpty_blanks

theorem Respaced.skipLiteral? {literal : Text} (hl : literal.any isBlank = false)
    (h : p.Respaced q) : Option.Rel Place.Respaced (p.skipLiteral? literal)
      (q.skipLiteral? literal) := by
  have hsolid : ∀ c ∈ literal, isBlank c = false := by simpa using hl
  exact rel_map (Text.Respaced.afterStart? hsolid h) fun _ _ hxy => hxy

/-- What is read together with the place behind it. -/
def RespacedPair {α : Type} (r : α → α → Prop) (a b : α × Place) : Prop :=
  r a.1 b.1 ∧ a.2.Respaced b.2

theorem Respaced.name? (h : p.Respaced q) :
    Option.Rel (RespacedPair Eq) p.name? q.name? := by
  obtain ⟨i, t⟩ := p
  obtain ⟨j, u⟩ := q
  have hname := Text.Respaced.takeWhile_eq (fun d hd => isNameChar_of_isBlank hd) h
  have hdrop := Text.Respaced.dropWhile (fun d hd => isNameChar_of_isBlank hd) h
  rcases Text.Respaced.view h with ⟨rfl, rfl⟩ | ⟨c, t', u', -, rfl, rfl, -⟩ |
    ⟨c, t', d, u', hc, hd, rfl, rfl⟩
  · exact .none
  · simp only [Place.name?]
    split
    · refine .some ⟨hname, ?_⟩
      simpa only [Respaced, drop, run, drop_takeWhile] using hdrop
    · exact .none
  · simp only [Place.name?, isNameStart_of_isBlank hc, isNameStart_of_isBlank hd]
    exact .none

theorem isInside_of_isBlank (c : Char) (hc : isBlank c = true) : isInside c = true := by
  have hopen : c ≠ '(' := by
    rintro rfl
    exact absurd hc (by decide)
  have hclose : c ≠ ')' := by
    rintro rfl
    exact absurd hc (by decide)
  simp [isInside, hopen, hclose]

/-- The readers of parentheses see the character behind the inside. -/
theorem parenthesized?_cons (i : Nat) (t : Text) :
    Place.parenthesized? ⟨i, '(' :: t⟩ =
      if (t.dropWhile isInside).head? = some ')' then
        some (t.takeWhile isInside,
          ⟨i + ((t.takeWhile isInside).length + 2), (t.dropWhile isInside).tail⟩)
      else none := by
  have hdrop : ('(' :: t).drop ((t.takeWhile isInside).length + 2) =
      (t.dropWhile isInside).tail := by
    rw [← drop_takeWhile isInside t, List.tail_drop]
    rfl
  unfold Place.parenthesized?
  split
  · rename_i rest hrest
    cases hrest
    dsimp only [Place.drop]
    rw [drop_takeWhile]
    split
    · rename_i hclose
      rw [if_pos hclose]
      exact congrArg (fun r => some (t.takeWhile isInside, Place.mk _ r)) hdrop
    · rename_i hclose
      rw [if_neg hclose]
  · rename_i hopen
    exact absurd rfl (hopen t)

theorem parenthesized?_eq_none {i : Nat} {t : Text} (h : t.head? ≠ some '(') :
    Place.parenthesized? ⟨i, t⟩ = none := by
  unfold Place.parenthesized?
  split
  · rename_i rest ht
    dsimp only at ht
    rw [ht] at h
    exact absurd rfl h
  · rfl

theorem Respaced.parenthesized? (h : p.Respaced q) :
    Option.Rel (RespacedPair Text.Respaced) p.parenthesized? q.parenthesized? := by
  obtain ⟨i, t⟩ := p
  obtain ⟨j, u⟩ := q
  have hopen : isBlank '(' = false := by decide
  have hclose : isBlank ')' = false := by decide
  by_cases ht : t.head? = some '('
  · obtain ⟨t', rfl⟩ : ∃ t', t = '(' :: t' := by
      cases t with
      | nil => cases ht
      | cons c t' => exact ⟨t', by cases ht; rfl⟩
    obtain ⟨u', rfl, h'⟩ := Text.Respaced.eq_cons hopen h
    obtain ⟨hinside, hrest⟩ := h'.inner isInside_of_isBlank
    rw [parenthesized?_cons, parenthesized?_cons]
    have hiff := hrest.head?_eq_some_iff hclose
    split
    · rename_i hend
      rw [if_pos (hiff.mp hend)]
      refine .some ⟨hinside, ?_⟩
      obtain ⟨v, hv⟩ : ∃ v, t'.dropWhile isInside = ')' :: v := by
        cases hd : t'.dropWhile isInside with
        | nil => rw [hd] at hend; cases hend
        | cons c v => exact ⟨v, by rw [hd] at hend; cases hend; rfl⟩
      rw [hv] at hrest
      obtain ⟨w, hw, hvw⟩ := hrest.eq_cons hclose
      simpa only [Respaced, hv, hw, List.tail_cons] using hvw
    · rename_i hend
      rw [if_neg (fun he => hend (hiff.mpr he))]
      exact .none
  · have hu : u.head? ≠ some '(' := fun he =>
      ht ((Text.Respaced.head?_eq_some_iff hopen h).mpr he)
    rw [parenthesized?_eq_none ht, parenthesized?_eq_none hu]
    exact .none

theorem name?_eq_some {p : Place} {name : Text} {q : Place} (h : p.name? = some (name, q)) :
    name = p.rest.takeWhile isNameChar ∧ q = p.drop name.length := by
  unfold Place.name? at h
  split at h
  · split at h
    · cases h
      exact ⟨rfl, rfl⟩
    · cases h
  · cases h

theorem length_rest_name? {p : Place} {name : Text} {q : Place} (h : p.name? = some (name, q)) :
    q.rest.length ≤ p.rest.length := by
  obtain ⟨-, rfl⟩ := name?_eq_some h
  simp [drop]

theorem length_rest_parenthesized? {p : Place} {inside : Text} {q : Place}
    (h : p.parenthesized? = some (inside, q)) : q.rest.length ≤ p.rest.length := by
  unfold Place.parenthesized? at h
  split at h
  · dsimp only at h
    split at h
    · cases h
      simp [drop]
    · cases h
  · cases h

end Place

namespace Head

variable {p q : Place}

/-! ## Parts of a head -/

theorem respaced_readArgs (h : p.Respaced q) :
    Option.Rel Text.Respaced (readArgs p).1 (readArgs q).1 ∧
      (readArgs p).2.Respaced (readArgs q).2 := by
  unfold readArgs
  rcases rel_cases h.skipBlanks.parenthesized? with ⟨ha, hb⟩ | ⟨x, y, ha, hb, hxy⟩
  · simp only [ha, hb]
    exact ⟨.none, h⟩
  · simp only [ha, hb]
    exact ⟨.some hxy.1, hxy.2⟩

theorem respaced_skipCondition (h : p.Respaced q) :
    (skipCondition p).Respaced (skipCondition q) := by
  unfold skipCondition
  have hon : ['o', 'n'].any isBlank = false := rfl
  rcases rel_cases (h.skipBlanks.skipLiteral? hon) with
    ⟨ha, hb⟩ | ⟨x, y, ha, hb, hxy⟩
  · simp only [ha, hb]
    exact h
  · simp only [ha, hb, hxy.index_skipBlanks_eq]
    split
    · exact h
    · rcases rel_cases hxy.skipBlanks.name? with ⟨hc, hd⟩ | ⟨m, n, hc, hd, hmn⟩
      · simp only [hc, hd]
        exact h
      · simp only [hc, hd]
        exact hmn.2

theorem respaced_skipDirective? (h : p.Respaced q) :
    Option.Rel Place.Respaced (skipDirective? p) (skipDirective? q) := by
  unfold skipDirective?
  have hat : ['@'].any isBlank = false := rfl
  rcases rel_cases (h.skipBlanks.skipLiteral? hat) with
    ⟨ha, hb⟩ | ⟨x, y, ha, hb, hxy⟩
  · simp only [ha, hb]
    exact .none
  · simp only [ha, hb]
    rcases rel_cases hxy.name? with ⟨hc, hd⟩ | ⟨m, n, hc, hd, hmn⟩
    · simp only [hc, hd]
      exact .none
    · simp only [hc, hd]
      rcases rel_cases hmn.2.parenthesized? with ⟨he, hf⟩ | ⟨v, w, he, hf, hvw⟩
      · simp only [he, hf]
        exact .some hmn.2
      · simp only [he, hf]
        exact .some hvw.2

theorem length_rest_skipLiteral? {p q : Place} {c : Char} {literal : Text}
    (h : p.skipLiteral? (c :: literal) = some q) : q.rest.length < p.rest.length := by
  have hafter : ∀ {l t u : Text}, Text.afterStart? l t = some u →
      u.length + l.length = t.length := by
    intro l
    induction l with
    | nil => rintro t u ⟨⟩; rfl
    | cons d l ih =>
      intro t u hu
      cases t with
      | nil => cases hu
      | cons e t =>
        simp only [Text.afterStart?] at hu
        split at hu
        · have := ih hu
          simp only [List.length_cons]
          omega
        · cases hu
  unfold Place.skipLiteral? at h
  obtain ⟨rest, hrest, rfl⟩ := Option.map_eq_some_iff.mp h
  have := hafter hrest
  simp only [List.length_cons] at this
  dsimp only
  omega

theorem length_rest_skipBlanks (p : Place) : p.skipBlanks.rest.length ≤ p.rest.length := by
  rw [Place.rest_skipBlanks]
  exact (List.dropWhile_sublist _).length_le

/-- A directive takes characters away. -/
theorem length_rest_skipDirective? (h : skipDirective? p = some q) :
    q.rest.length < p.rest.length := by
  have hblanks := length_rest_skipBlanks p
  unfold skipDirective? at h
  split at h
  · rename_i a hat
    have ha := length_rest_skipLiteral? hat
    split at h
    · rename_i name b hname
      have hb := Place.length_rest_name? hname
      split at h
      · rename_i inside c hinside
        have hc := Place.length_rest_parenthesized? hinside
        cases h
        omega
      · cases h
        omega
    · cases h
  · cases h

/-- The bound on the number of directives does not matter once it reaches the length of the
text. -/
theorem respaced_skipDirectives {m n : Nat} (hm : p.rest.length ≤ m) (hn : q.rest.length ≤ n)
    (h : p.Respaced q) : (skipDirectives m p).Respaced (skipDirectives n q) := by
  -- the induction is on the first bound; the second one is used up in step with it
  induction m generalizing n p q with
  | zero =>
    have hp : p.rest = [] := List.eq_nil_of_length_eq_zero (Nat.le_zero.mp hm)
    have hnone : skipDirective? p = none := by
      cases hd : skipDirective? p with
      | none => rfl
      | some r =>
        have := length_rest_skipDirective? hd
        rw [hp] at this
        cases this
    rcases rel_cases (respaced_skipDirective? h) with ⟨-, hq⟩ | ⟨x, y, hx, -, -⟩
    · cases n with
      | zero => exact h
      | succ n =>
        simp only [skipDirectives, hq]
        exact h
    · rw [hnone] at hx
      cases hx
  | succ m ih =>
    rcases rel_cases (respaced_skipDirective? h) with ⟨hp, hq⟩ | ⟨x, y, hx, hy, hxy⟩
    · cases n with
      | zero =>
        simp only [skipDirectives, hp]
        exact h
      | succ n =>
        simp only [skipDirectives, hp, hq]
        exact h
    · have hlx := length_rest_skipDirective? hx
      have hly := length_rest_skipDirective? hy
      cases n with
      | zero => omega
      | succ n =>
        simp only [skipDirectives, hx, hy]
        exact ih (by omega) (by omega) hxy

theorem respaced_skipAllDirectives (h : p.Respaced q) :
    (skipAllDirectives p).Respaced (skipAllDirectives q) := by
  have hat : p.skipBlanks.head? = some '@' ↔ q.skipBlanks.head? = some '@' :=
    Text.Respaced.head?_eq_some_iff (by decide) h.skipBlanks
  unfold skipAllDirectives
  by_cases hp : p.skipBlanks.head? = some '@'
  · rw [if_pos (by simpa using hp), if_pos (by simpa using hat.mp hp)]
    exact respaced_skipDirectives (Nat.le_refl _) (Nat.le_refl _) h
  · have hq : ¬ q.skipBlanks.head? = some '@' := fun hq => hp (hat.mpr hq)
    rw [if_neg (by simpa using hp), if_neg (by simpa using hq)]
    exact h

/-- The place of the brace that has to stand behind a name, arguments, condition and
directives. -/
def braceAfterName (p : Place) : Place :=
  (skipAllDirectives (skipCondition (readArgs p).2)).skipBlanks

theorem afterName?_eq (p : Place) :
    afterName? p =
      if (braceAfterName p).head? = some '\x7b' then some ((readArgs p).1, braceAfterName p)
      else none := by
  unfold afterName? Place.head?
  dsimp only
  split
  · rename_i hrest
    have hhead : (braceAfterName p).rest.head? = some '\x7b' := by
      rw [braceAfterName, hrest, List.head?_cons]
    rw [if_pos hhead]
    rfl
  · rename_i hrest
    rw [if_neg]
    intro hhead
    obtain ⟨rest, hcons⟩ := List.head?_eq_some_iff.mp hhead
    exact hrest rest hcons

/-- What stands behind the name: the arguments are respaced. -/
theorem respaced_afterName? (h : p.Respaced q) :
    Option.Rel (Place.RespacedPair (Option.Rel Text.Respaced)) (afterName? p) (afterName? q) := by
  obtain ⟨hargs, hrest⟩ := respaced_readArgs h
  have hbrace : (braceAfterName p).Respaced (braceAfterName q) :=
    (respaced_skipAllDirectives (respaced_skipCondition hrest)).skipBlanks
  have hiff : (braceAfterName p).head? = some '\x7b' ↔ (braceAfterName q).head? = some '\x7b' :=
    Text.Respaced.head?_eq_some_iff (by decide) hbrace
  rw [afterName?_eq, afterName?_eq]
  by_cases hp : (braceAfterName p).head? = some '\x7b'
  · rw [if_pos hp, if_pos (hiff.mp hp)]
    exact .some ⟨hargs, hbrace⟩
  · rw [if_neg hp, if_neg (fun hq => hp (hiff.mpr hq))]
    exact .none

/-! ## The whole head -/

/-- Heads with the same kind and name and respaced arguments. -/
def Respaced (h k : Head) : Prop :=
  h.kind = k.kind ∧ h.name = k.name ∧ Option.Rel Text.Respaced h.args k.args

end Head

/-- Equal heads up to respacing, at braces in respaced places. -/
def HeadMatch.Respaced (m n : HeadMatch) : Prop :=
  m.head.Respaced n.head ∧ m.brace.Respaced n.brace

namespace Head

variable {p q : Place}

theorem respaced_named? (kind : Kind) (name : Text) (h : p.Respaced q) :
    Option.Rel HeadMatch.Respaced (named? kind name p) (named? kind name q) :=
  rel_map (respaced_afterName? h) fun _ _ hxy => ⟨⟨rfl, rfl, hxy.1⟩, hxy.2⟩

theorem respaced_unnamed? (kind : Kind) (h : p.Respaced q) :
    Option.Rel HeadMatch.Respaced (unnamed? kind p) (unnamed? kind q) :=
  rel_map (respaced_afterName? h) fun _ _ hxy => ⟨⟨rfl, rfl, hxy.1⟩, hxy.2⟩

theorem not_isBlank_word : ∀ k ∈ Kind.keywords, k.word.any isBlank = false := by
  decide

theorem respaced_kindAt? (h : p.Respaced q) :
    Option.Rel (Place.RespacedPair Eq) (Kind.at? p) (Kind.at? q) := by
  unfold Kind.at?
  have hkeywords := not_isBlank_word
  revert hkeywords
  generalize Kind.keywords = ks
  intro hkeywords
  induction ks with
  | nil => exact .none
  | cons k ks ih =>
    have hword := h.skipLiteral? (hkeywords k (by simp))
    have hrest := ih fun k' hk' => hkeywords k' (by simp [hk'])
    simp only [List.findSome?_cons]
    rcases rel_cases hword with ⟨ha, hb⟩ | ⟨x, y, ha, hb, hxy⟩
    · simp only [ha, hb]
      exact hrest
    · simp only [ha, hb]
      have hends : wordEnds x.rest = wordEnds y.rest := Text.Respaced.wordEnds_eq hxy
      rw [hends]
      cases wordEnds y.rest with
      | true => exact .some ⟨rfl, hxy⟩
      | false => exact hrest

/-- What is left of a name stands at its start. -/
theorem withoutOn?_eq_some {name short : Text} (h : withoutOn? name = some short) :
    name = short ++ ['o', 'n'] := by
  unfold withoutOn? at h
  split at h
  · rename_i c rest hname
    cases h
    have hrev := congrArg List.reverse hname
    simpa using hrev
  · cases h

/-- A shorter name ends at respaced places, too. -/
theorem respaced_drop_short {name short : Text} {r : Place} (hname : p.name? = some (name, r))
    (hshort : withoutOn? name = some short) (h : p.Respaced q) :
    (p.drop short.length).Respaced (q.drop short.length) := by
  suffices hgap : ∀ c ∈ p.rest.take short.length, isBlank c = false from
    Text.Respaced.drop hgap h
  obtain ⟨hrun, -⟩ := Place.name?_eq_some hname
  have hrest : p.rest = short ++ (['o', 'n'] ++ p.rest.dropWhile isNameChar) := by
    rw [← List.append_assoc, ← withoutOn?_eq_some hshort, hrun, List.takeWhile_append_dropWhile]
  have htake : p.rest.take short.length = short := by
    rw [hrest, List.take_left]
  intro c hc
  rw [htake] at hc
  have hmem : c ∈ p.rest.takeWhile isNameChar := by
    rw [← hrun, withoutOn?_eq_some hshort]
    exact List.mem_append_left _ hc
  cases hblank : isBlank c with
  | false => rfl
  | true =>
    have hchar := List.all_takeWhile (p := isNameChar) (l := p.rest)
    have := List.all_eq_true.mp hchar c hmem
    rw [isNameChar_of_isBlank hblank] at this
    cases this

/-- Heads are read in the same way at respaced places. -/
theorem respaced_at? (h : p.Respaced q) :
    Option.Rel HeadMatch.Respaced (at? p) (at? q) := by
  unfold at?
  rcases rel_cases (respaced_kindAt? h) with ⟨ha, hb⟩ | ⟨⟨k, x⟩, ⟨k', y⟩, ha, hb, hkk, hxy⟩
  · simp only [ha, hb]
    exact .none
  · cases hkk
    have hxy : x.Respaced y := hxy
    simp only [ha, hb, hxy.index_skipBlanks_eq]
    split
    · exact respaced_unnamed? k hxy
    · rcases rel_cases hxy.skipBlanks.name? with
        ⟨hc, hd⟩ | ⟨⟨name, r⟩, ⟨name', s⟩, hc, hd, hnn, hrs⟩
      · simp only [hc, hd]
        exact respaced_unnamed? k hxy
      · cases hnn
        simp only [hc, hd]
        refine rel_or (respaced_named? k name hrs) (rel_or ?_ (respaced_unnamed? k hxy))
        cases hshort : withoutOn? name with
        | none => exact .none
        | some short =>
          simp only [Option.bind_some]
          exact respaced_named? k short (respaced_drop_short hc hshort hxy.skipBlanks)

theorem respaced_loose? {t u : Text} (h : Text.Respaced t u) :
    Option.Rel Head.Respaced (loose? t) (loose? u) := by
  have hstart : (Place.start t).Respaced (Place.start u) := h
  unfold loose?
  rcases rel_cases (respaced_kindAt? hstart.skipBlanks) with
    ⟨ha, hb⟩ | ⟨⟨k, x⟩, ⟨k', y⟩, ha, hb, hkk, hxy⟩
  · simp only [ha, hb]
    exact .none
  · cases hkk
    have hxy : x.Respaced y := hxy
    simp only [ha, hb]
    rcases rel_cases hxy.skipBlanks.name? with
      ⟨hc, hd⟩ | ⟨⟨name, r⟩, ⟨name', s⟩, hc, hd, hnn, hrs⟩
    · simp only [hc, hd]
      exact .some ⟨rfl, rfl, .none⟩
    · cases hnn
      simp only [hc, hd]
      exact .some ⟨rfl, rfl, .none⟩

/-- Respaced texts have the same kind and the same name. -/
theorem respaced_describe {t u : Text} (h : Text.Respaced t u) :
    (describe t).Respaced (describe u) := by
  have hstart : (Place.start (trimStart t)).Respaced (Place.start (trimStart u)) := h.dropBlanks
  unfold describe
  rcases rel_cases (respaced_at? hstart) with ⟨ha, hb⟩ | ⟨m, n, ha, hb, hmn⟩
  · simp only [ha, hb]
    rcases rel_cases (respaced_loose? h.dropBlanks) with ⟨hc, hd⟩ | ⟨x, y, hc, hd, hxy⟩
    · simp only [trimStart, hc, hd]
      exact ⟨rfl, rfl, .none⟩
    · simp only [trimStart, hc, hd]
      exact hxy
  · simp only [ha, hb]
    exact hmn.1

end Head

end OperationScan
