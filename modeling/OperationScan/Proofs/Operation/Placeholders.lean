import OperationScan.Proofs.Operation.Described
import OperationScan.Proofs.Value.Members
import OperationScan.Operation.Variables

/-!
# Placeholders for printed declarations

The text of an argument list is searched for names in front of colons; no grammar is read. The type
of a variable goes on through its default value up to a comma, a line feed or a dollar sign, and
what stands behind one of those in a default value is searched, too.

* `declaration?_of_opening`, `typeText?_append`: what is read of one declaration, and how far it
  depends on what stands behind it.
* `placeholders_append`: what stands apart is searched apart.
* `inferVariables_printed`: what is found in printed declarations, and when it is what they declare.
-/

namespace OperationScan

open Text

/-! ## The scan for declarations -/

theorem declarationsFrom_eq (found : List (Text × Text)) (skipped : Nat) (t : Text) :
    declarationsFrom found skipped t = declarationsFrom [] 0 (t.drop skipped) ++ found := by
  induction t generalizing found skipped with
  | nil => rw [List.drop_nil, declarationsFrom, declarationsFrom, List.nil_append]
  | cons c t ih =>
    cases skipped with
    | succ skipped => rw [declarationsFrom, ih, List.drop_succ_cons]
    | zero =>
      rw [List.drop_zero, declarationsFrom, declarationsFrom]
      split
      · rename_i name type behind _
        rw [ih, ih [(name, type)], List.append_assoc, List.singleton_append]
      · exact ih found 0

/-- Where nothing is declared, the scan goes on with the next character. -/
theorem declarations_of_eq_none {c : Char} {t : Text}
    (h : declaration? (.start (c :: t)) = none) : declarations (c :: t) = declarations t := by
  rw [declarations, declarationsFrom, h, declarations]

/-- A declaration comes first, and the scan goes on behind it. -/
theorem declarations_of_eq_some {t name type read : Text} {q : Place}
    (h : declaration? (.start t) = some (name, type, q)) (hq : (Place.start t).Reads read q)
    (hread : read ≠ []) : declarations t = (name, type) :: declarations q.rest := by
  obtain ⟨c, read, rfl⟩ := List.exists_cons_of_ne_nil hread
  have ht : t = c :: (read ++ q.rest) := hq.rest
  have hindex : q.index - 1 = read.length := by
    rw [hq.index, List.length_cons]
    exact congrArg (· - 1) (Nat.zero_add (read.length + 1))
  rw [ht] at h ⊢
  rw [declarations, declarationsFrom, h]
  dsimp only
  rw [declarationsFrom_eq, hindex, List.drop_left, List.reverse_append, List.reverse_singleton,
    List.singleton_append, ← declarations]

/-! ## One declaration -/

/-- What stands in front of a type: the name, perhaps behind a dollar sign, and a colon. -/
def IsOpening (t name : Text) : Prop :=
  ∃ dollar blanks, (dollar = [] ∨ dollar = ['$']) ∧ IsName name ∧ IsBlank blanks ∧
    t = dollar ++ (name ++ (blanks ++ [':']))

theorem head?_ne_of_isName {c : Char} {t : Text} (h : IsName t) (hc : isNameStart c = false)
    (rest : Text) : (t ++ rest).head? ≠ some c := by
  cases t with
  | nil => exact h.elim
  | cons d t =>
    rw [List.cons_append, List.head?_cons, Ne, Option.some.injEq]
    rintro rfl
    rw [h.1] at hc
    cases hc

theorem exists_opening_of_declaration? {p q : Place} {name type : Text}
    (h : declaration? p = some (name, type, q)) :
    ∃ opening r, IsOpening opening name ∧ p.Reads opening r ∧ typeText? r = some (type, q) := by
  obtain ⟨dollar, start, hdollar, hstart, hp⟩ : ∃ dollar start,
      (dollar = [] ∨ dollar = ['$']) ∧ (p.skipLiteral? ['$']).getD p = start ∧
        p.Reads dollar start := by
    cases hp : p.skipLiteral? ['$'] with
    | none => exact ⟨[], p, .inl rfl, rfl, .refl p⟩
    | some start => exact ⟨_, start, .inr rfl, rfl, Place.skipLiteral?_eq_some_iff.mp hp⟩
  rw [declaration?, hstart] at h
  dsimp only at h
  split at h
  · cases h
  · rename_i name' s hname
    obtain ⟨hisName, hs, -⟩ := Place.name?_eq_some_iff.mp hname
    split at h
    · cases h
    · rename_i r hcolon
      obtain ⟨blanks, hblanks, hisBlank, -⟩ := Place.skipBlanks_eq_iff.mp
        (rfl : s.skipBlanks = s.skipBlanks)
      obtain ⟨⟨type', q'⟩, htype, heq⟩ := Option.map_eq_some_iff.mp h
      cases heq
      exact ⟨_, r, ⟨dollar, blanks, hdollar, hisName, hisBlank, rfl⟩,
        hp.trans (hs.trans (hblanks.trans (Place.skipLiteral?_eq_some_iff.mp hcolon))), htype⟩

theorem declaration?_eq_none {p : Place}
    (h : ∀ opening name r, IsOpening opening name → ¬p.Reads opening r) :
    declaration? p = none := by
  cases hfound : declaration? p with
  | none => rfl
  | some d =>
    obtain ⟨opening, r, ho, hr, -⟩ := exists_opening_of_declaration? hfound
    exact absurd hr (h opening d.1 r ho)

theorem declaration?_of_opening {p r : Place} {opening name : Text} (ho : IsOpening opening name)
    (hp : p.Reads opening r) :
    declaration? p = (typeText? r).map fun (type, q) => (name, type, q) := by
  obtain ⟨dollar, blanks, hdollar, hname, hblanks, rfl⟩ := ho
  obtain ⟨start, hp, hrest⟩ := hp.append_cases
  obtain ⟨s, hs, hrest⟩ := hrest.append_cases
  obtain ⟨u, hu, hcolon⟩ := hrest.append_cases
  have hstart : (p.skipLiteral? ['$']).getD p = start := by
    rcases hdollar with rfl | rfl
    · rw [Place.skipLiteral?_eq_none, Option.getD_none]
      · exact (Place.Reads.refl p).eq_of_reads hp
      · rw [hp.rest, List.nil_append, hs.rest]
        exact head?_ne_of_isName hname rfl _
    · rw [Place.skipLiteral?_eq_some_iff.mpr hp, Option.getD_some]
  have hname? : start.name? = some (name, s) := by
    refine Place.name?_eq_some_iff.mpr ⟨hname, hs, ?_⟩
    rw [hu.rest, hcolon.rest]
    cases blanks with
    | nil => rfl
    | cons c blanks => simpa using isNameChar_of_isBlank (hblanks c (by simp))
  have hskip : s.skipBlanks = u := by
    refine Place.skipBlanks_eq_iff.mpr ⟨blanks, hu, hblanks, ?_⟩
    rw [hcolon.rest]
    rfl
  rw [declaration?, hstart, hname?]
  dsimp only
  rw [hskip, Place.skipLiteral?_eq_some_iff.mpr hcolon]

/-! ## The text of a type -/

/-- A place in a text that goes on. -/
def Place.append (p : Place) (e : Text) : Place := ⟨p.index, p.rest ++ e⟩

theorem Place.Reads.append {p q : Place} {t : Text} (h : p.Reads t q) (e : Text) :
    (p.append e).Reads t (q.append e) :=
  ⟨by rw [Place.append, Place.append, h.rest, List.append_assoc], h.index⟩

theorem Place.reads_run (p : Place) (test : Char → Bool) : p.Reads (p.run test) (p.skip test) :=
  ⟨by rw [Place.rest_skip]; exact List.takeWhile_append_dropWhile.symm, rfl⟩

theorem Place.reads_take (p : Place) {n : Nat} (hn : n ≤ p.rest.length) :
    p.Reads (p.rest.take n) (p.drop n) :=
  ⟨(List.take_append_drop n p.rest).symm, by rw [List.length_take_of_le hn]; rfl⟩

theorem Place.drop_append (p : Place) {n : Nat} (hn : n ≤ p.rest.length) (e : Text) :
    (p.append e).drop n = (p.drop n).append e := by
  rw [((p.reads_take hn).append e).eq_drop, List.length_take_of_le hn]

theorem typeText?_of_run {p : Place} (h : p.skipBlanks.run isTypeChar ≠ []) :
    typeText? p = some (p.skipBlanks.run isTypeChar, p.skipBlanks.skip isTypeChar) := by
  rw [typeText?]
  dsimp only
  rw [if_neg (by simpa using h)]
  rfl

theorem typeText?_of_type {p q r : Place} {blanks type : Text} (hp : p.Reads blanks q)
    (hq : q.Reads type r) (hblanks : IsBlank blanks) (hne : type ≠ [])
    (hhead : type.head?.any isBlank = false) (hall : ∀ c ∈ type, isTypeChar c = true)
    (hr : r.rest.head?.any isTypeChar = false) : typeText? p = some (type, r) := by
  have hskip : p.skipBlanks = q := by
    refine Place.skipBlanks_eq_iff.mpr ⟨blanks, hp, hblanks, ?_⟩
    rw [hq.rest, List.head?_append_of_ne_nil _ hne]
    exact hhead
  have hrun : q.run isTypeChar = type := by
    rw [Place.run, hq.rest]
    exact takeWhile_eq_of_append hall hr
  have hbehind : q.skip isTypeChar = r := (Place.skip_eq_iff isTypeChar).mpr ⟨type, hq, hall, hr⟩
  rw [typeText?_of_run (by rwa [hskip, hrun]), hskip, hrun, hbehind]

/-- Where no type stands, the white space in front decides. -/
theorem typeText?_of_blanks {p : Place} (h : p.skipBlanks.run isTypeChar = []) :
    typeText? p = ((p.run isBlank).reverse.dropWhile (· == '\n')).head?.map fun c =>
      ([c], p.drop ((p.run isBlank).reverse.dropWhile (· == '\n')).length) := by
  rw [typeText?]
  dsimp only
  rw [h, if_pos List.isEmpty_nil, drop_takeWhile]
  cases (p.run isBlank).reverse.dropWhile (· == '\n') with
  | nil => rfl
  | cons c before => rfl

theorem length_run_le (p : Place) (test : Char → Bool) : (p.run test).length ≤ p.rest.length :=
  (List.takeWhile_prefix test).length_le

theorem length_spaces_le (p : Place) :
    ((p.run isBlank).reverse.dropWhile (· == '\n')).length ≤ p.rest.length := by
  have h := (List.dropWhile_suffix (· == '\n') (l := (p.run isBlank).reverse)).length_le
  rw [List.length_reverse] at h
  exact Nat.le_trans h (length_run_le p isBlank)

theorem exists_reads_of_typeText? {p q : Place} {type : Text}
    (h : typeText? p = some (type, q)) : ∃ t, p.Reads t q := by
  by_cases hrun : p.skipBlanks.run isTypeChar = []
  · rw [typeText?_of_blanks hrun] at h
    obtain ⟨c, -, heq⟩ := Option.map_eq_some_iff.mp h
    cases heq
    exact ⟨_, p.reads_take (length_spaces_le p)⟩
  · rw [typeText?_of_run hrun] at h
    cases h
    exact ⟨_, (p.reads_run isBlank).trans (p.skipBlanks.reads_run isTypeChar)⟩

/-- A run of characters in a text that goes on, if it ends before the text does. -/
theorem Place.append_skip {p : Place} {test : Char → Bool} (h : (p.skip test).rest ≠ [])
    (e : Text) : (p.append e).skip test = (p.skip test).append e := by
  obtain ⟨t, ht, hall, hstop⟩ := (Place.skip_eq_iff test).mp (rfl : p.skip test = p.skip test)
  refine (Place.skip_eq_iff test).mpr ⟨t, ht.append e, hall, ?_⟩
  rw [Place.append, List.head?_append_of_ne_nil _ h]
  exact hstop

theorem Place.append_run {p : Place} {test : Char → Bool} (h : (p.skip test).rest ≠ [])
    (e : Text) : (p.append e).run test = p.run test := by
  have hlonger := ((p.append e).reads_run test).rest
  rw [Place.append_skip h] at hlonger
  exact List.append_cancel_right (hlonger.symm.trans ((p.reads_run test).append e).rest)

/-- A run of characters that ends with the text goes on behind it. -/
theorem Place.append_run_end {p : Place} {test : Char → Bool} (h : (p.skip test).rest = [])
    (e : Text) : (p.append e).run test = p.run test ++ e.takeWhile test ∧
      ((p.append e).skip test).rest = e.dropWhile test := by
  have hrest : p.rest = p.run test := by
    have hreads := (p.reads_run test).rest
    rwa [h, List.append_nil] at hreads
  have hall : ∀ c ∈ p.run test, test c = true := fun c hc =>
    List.all_eq_true.mp List.all_takeWhile c hc
  have hlonger : (p.append e).rest = p.run test ++ e := by rw [Place.append, hrest]
  constructor
  · rw [Place.run, hlonger, List.takeWhile_append_of_pos hall]
  · rw [Place.rest_skip, hlonger, List.dropWhile_append_of_pos hall]

/-- A type in a text that goes on: it is the same unless it ends with the text. -/
theorem typeText?_append {p : Place} (hp : p.rest.dropWhile isBlank ≠ []) (e : Text) :
    typeText? (p.append e) = (typeText? p).map (fun (type, q) => (type, q.append e)) ∨
    ∃ type q q', typeText? p = some (type, q) ∧ q.rest = [] ∧
      typeText? (p.append e) = some (type ++ e.takeWhile isTypeChar, q') ∧
      q'.rest = e.dropWhile isTypeChar := by
  have hne : (p.skip isBlank).rest ≠ [] := by rwa [Place.rest_skip]
  have hskip : (p.append e).skipBlanks = p.skipBlanks.append e := Place.append_skip hne e
  by_cases hrun : p.skipBlanks.run isTypeChar = []
  · -- no type stands there, and the white space in front is the same
    have hstop : (p.skipBlanks.skip isTypeChar).rest ≠ [] := by
      have hreads := (p.skipBlanks.reads_run isTypeChar).rest
      rw [hrun, List.nil_append] at hreads
      rw [← hreads]
      exact hne
    have hrun' : (p.append e).skipBlanks.run isTypeChar = [] := by
      rw [hskip, Place.append_run hstop, hrun]
    refine .inl ?_
    rw [typeText?_of_blanks hrun, typeText?_of_blanks hrun', Place.append_run hne, Option.map_map,
      Place.drop_append p (length_spaces_le p)]
    rfl
  by_cases hend : (p.skipBlanks.skip isTypeChar).rest = []
  · obtain ⟨hlonger, hrest⟩ := Place.append_run_end hend e
    have hrun' : (p.append e).skipBlanks.run isTypeChar ≠ [] := by
      rw [hskip, hlonger]
      exact List.append_ne_nil_of_left_ne_nil hrun _
    have hfound := typeText?_of_run hrun'
    rw [hskip, hlonger] at hfound
    exact .inr ⟨_, _, _, typeText?_of_run hrun, hend, hfound, hrest⟩
  · have hrun' : (p.append e).skipBlanks.run isTypeChar ≠ [] := by
      rwa [hskip, Place.append_run hend]
    refine .inl ?_
    rw [typeText?_of_run hrun, typeText?_of_run hrun', hskip, Place.append_run hend,
      Place.append_skip hend]
    rfl

/-! ## Texts that stand apart -/

/-- A declaration in a text may end with it: the last character is neither white space nor a
colon. -/
def Closed (t : Text) : Prop := ∀ c ∈ t.getLast?, isBlank c = false ∧ c ≠ ':'

/-- A text ends a declaration in front of it: no type goes on in it, and it does not go on with a
colon. -/
structure Closing (t : Text) : Prop where
  blank : IsBlank (t.takeWhile isTypeChar)
  colon : (t.dropWhile isBlank).head? ≠ some ':'

theorem Closed.of_append {t u : Text} (h : Closed (t ++ u)) : Closed u := by
  intro c hc
  refine h c ?_
  rw [List.getLast?_append, hc, Option.some_or]
  rfl

theorem Closed.not_blank {t u : Text} (h : Closed (t ++ u)) (hu : IsBlank u) : u = [] := by
  cases hlast : u.getLast? with
  | none => exact List.getLast?_eq_none_iff.mp hlast
  | some c =>
    have hc := (h.of_append c hlast).1
    rw [hu c (List.mem_of_getLast? hlast)] at hc
    cases hc

theorem IsOpening.ne_nil {opening name : Text} (h : IsOpening opening name) : opening ≠ [] := by
  obtain ⟨dollar, blanks, -, -, -, rfl⟩ := h
  simp

theorem IsOpening.getLast? {opening name : Text} (h : IsOpening opening name) :
    opening.getLast? = some ':' := by
  obtain ⟨dollar, blanks, -, -, -, rfl⟩ := h
  simp [List.getLast?_append]

theorem Closing.head? {e : Text} (h : Closing e) : e.head?.any isNameChar = false := by
  cases e with
  | nil => rfl
  | cons c t =>
    by_cases htype : isTypeChar c = true
    · have hblank := h.blank
      rw [List.takeWhile_cons, if_pos htype] at hblank
      exact isNameChar_of_isBlank (hblank c (by simp))
    · cases hc : isNameChar c with
      | false => simpa using hc
      | true =>
        refine absurd ?_ htype
        simp only [isTypeChar, Bool.and_eq_true, bne_iff_ne]
        refine ⟨⟨?_, ?_⟩, ?_⟩ <;> rintro rfl <;> cases hc

/-- Where a closed text ends inside an opening, the name goes on or only the colon is missing. -/
theorem IsOpening.cases_of_append {u a name : Text} (ho : IsOpening (u ++ a) name)
    (hu : Closed u) (hne : u ≠ []) :
    a.head?.any isNameChar = true ∨ ∃ blanks, IsBlank blanks ∧ a = blanks ++ [':'] := by
  obtain ⟨dollar, blanks, hdollar, hname, hblanks, h⟩ := ho
  rw [← List.append_assoc] at h
  rcases List.append_eq_append_iff.mp h with ⟨x, hx, rfl⟩ | ⟨x, rfl, hx⟩
  · have hchars : ∀ c ∈ (dollar ++ name).tail, isNameChar c = true := by
      rcases hdollar with rfl | rfl
      · exact fun c hc => hname.isNameChar c (List.mem_of_mem_tail hc)
      · exact hname.isNameChar
    cases x with
    | nil => exact .inr ⟨blanks, hblanks, rfl⟩
    | cons c x =>
      rw [hx, List.tail_append_of_ne_nil hne] at hchars
      exact .inl (hchars c (by simp))
  · rcases List.append_eq_append_iff.mp hx with ⟨y, hy, hcolon⟩ | ⟨y, rfl, rfl⟩
    · cases y with
      | nil => exact .inr ⟨[], isBlank_nil, hcolon.symm⟩
      | cons c y =>
        obtain ⟨rfl, hnil⟩ := List.cons.inj hcolon
        obtain ⟨rfl, -⟩ := List.append_eq_nil_iff.mp hnil.symm
        rw [hy, ← List.append_assoc] at hu
        exact absurd rfl (hu.of_append ':' (by simp)).2
    · have hx : x = [] := hu.not_blank fun c hc => hblanks c (by simp [hc])
      exact .inr ⟨y, fun c hc => hblanks c (by simp [hc]), rfl⟩

/-- No opening begins in a closed text and goes on behind it. -/
theorem IsOpening.isPrefix {opening name u e rest : Text} (ho : IsOpening opening name)
    (hu : Closed u) (hne : u ≠ []) (he : Closing e) (h : u ++ e = opening ++ rest) :
    ∃ inside, u = opening ++ inside ∧ rest = inside ++ e := by
  rcases List.append_eq_append_iff.mp h with ⟨a, rfl, rfl⟩ | hinside
  · rcases ho.cases_of_append hu hne with hname | ⟨blanks, hblanks, rfl⟩
    · have hhead := he.head?
      rw [List.head?_append_of_ne_nil _ (by rintro rfl; cases hname), hname] at hhead
      cases hhead
    · refine absurd ?_ he.colon
      rw [List.append_assoc, hblanks.dropWhile_append]
      rfl
  · exact hinside

/-- A declaration in a closed text that goes on: it is the same, but its type takes white space
with it where it ends with the text. -/
theorem declaration?_append {p : Place} {e : Text} (hp : Closed p.rest) (hne : p.rest ≠ [])
    (he : Closing e) :
    declaration? (p.append e) =
      (declaration? p).map (fun (name, type, q) => (name, type, q.append e)) ∨
    ∃ name type q q', declaration? p = some (name, type, q) ∧ q.rest = [] ∧
      declaration? (p.append e) = some (name, type ++ e.takeWhile isTypeChar, q') ∧
      q'.rest = e.dropWhile isTypeChar := by
  by_cases hopening : ∃ opening name r, IsOpening opening name ∧ p.Reads opening r
  · obtain ⟨opening, name, r, ho, hr⟩ := hopening
    have hrest : r.rest.dropWhile isBlank ≠ [] := by
      intro hnil
      have hblank : IsBlank r.rest := by
        rw [← List.takeWhile_append_dropWhile (p := isBlank) (l := r.rest), hnil, List.append_nil]
        exact isBlank_takeWhile r.rest
      rw [hr.rest] at hp
      rw [hp.not_blank hblank, List.append_nil] at hp
      exact (hp ':' ho.getLast?).2 rfl
    rw [declaration?_of_opening ho hr, declaration?_of_opening ho (hr.append e)]
    rcases typeText?_append hrest e with heq | ⟨type, q, q', hfirst, hq, hlonger, hq'⟩
    · refine .inl ?_
      rw [heq, Option.map_map, Option.map_map]
      rfl
    · refine .inr ⟨name, type, q, q', ?_, hq, ?_, hq'⟩
      · rw [hfirst, Option.map_some]
      · rw [hlonger, Option.map_some]
  · refine .inl ?_
    rw [declaration?_eq_none fun opening name r ho hr => hopening ⟨opening, name, r, ho, hr⟩,
      Option.map_none]
    refine declaration?_eq_none fun opening name r ho hr => ?_
    obtain ⟨inside, hinside, -⟩ := ho.isPrefix hp hne he hr.rest
    exact hopening ⟨opening, name, ⟨_, inside⟩, ho, hinside, rfl⟩

/-! ## Placeholders in a text -/

/-- The names declared in a text with their placeholders, a name as often as it is declared. -/
def placeholders (t : Text) : List (Text × Value) :=
  (declarations t).map fun d => (d.1, defaultValue (trim d.2))

theorem placeholders_nil : placeholders [] = [] := rfl

theorem inferVariables_eq (args : Option Text) (known : Members Value) :
    inferVariables args known = known.addNew (placeholders (args.getD [])) := by
  rw [placeholders, Members.addNew, List.foldl_map]
  rfl

theorem placeholders_of_eq_none {c : Char} {t : Text}
    (h : declaration? (.start (c :: t)) = none) : placeholders (c :: t) = placeholders t := by
  rw [placeholders, declarations_of_eq_none h, placeholders]

theorem exists_reads_of_declaration? {p q : Place} {name type : Text}
    (h : declaration? p = some (name, type, q)) : ∃ t, t ≠ [] ∧ p.Reads t q := by
  obtain ⟨opening, r, ho, hr, htype⟩ := exists_opening_of_declaration? h
  obtain ⟨t, ht⟩ := exists_reads_of_typeText? htype
  exact ⟨opening ++ t, by simp [ho.ne_nil], hr.trans ht⟩

theorem placeholders_of_eq_some {t name type : Text} {q : Place}
    (h : declaration? (.start t) = some (name, type, q)) :
    placeholders t = (name, defaultValue (trim type)) :: placeholders q.rest := by
  obtain ⟨read, hne, hread⟩ := exists_reads_of_declaration? h
  rw [placeholders, declarations_of_eq_some h hread hne, List.map_cons, placeholders]

/-- A character with which nothing is declared. -/
def IsApart (c : Char) : Prop := c ≠ '$' ∧ isNameStart c = false

theorem placeholders_cons {c : Char} (hc : IsApart c) (t : Text) :
    placeholders (c :: t) = placeholders t := by
  refine placeholders_of_eq_none ?_
  cases h : declaration? (.start (c :: t)) with
  | none => rfl
  | some d =>
    obtain ⟨name, type, q⟩ := d
    obtain ⟨_, r, ⟨dollar, blanks, hdollar, hname, -, rfl⟩, hr, -⟩ :=
      exists_opening_of_declaration? h
    rcases hdollar with rfl | rfl
    · refine absurd (congrArg List.head? hr.rest).symm ?_
      rw [List.nil_append, List.append_assoc]
      exact head?_ne_of_isName hname hc.2 _
    · exact absurd (List.cons.inj hr.rest).1 hc.1

theorem placeholders_append_of_apart {t : Text} (ht : ∀ c ∈ t, IsApart c) (u : Text) :
    placeholders (t ++ u) = placeholders u := by
  induction t with
  | nil => rfl
  | cons c t ih =>
    rw [List.forall_mem_cons] at ht
    rw [List.cons_append, placeholders_cons ht.1, ih ht.2]

theorem isApart_of_isBlank {c : Char} (hc : isBlank c = true) : IsApart c := by
  refine ⟨?_, isNameStart_of_isBlank hc⟩
  rintro rfl
  cases hc

/-- What a closed text declares does not depend on what stands behind it, and what stands there
declares the same as without it. -/
theorem placeholders_append {u e : Text} (hu : Closed u) (he : Closing e) :
    placeholders (u ++ e) = placeholders u ++ placeholders e := by
  induction hn : u.length using Nat.strong_induction_on generalizing u with
  | _ n ih =>
    subst hn
    cases u with
    | nil => rfl
    | cons c u =>
      rcases declaration?_append (p := .start (c :: u)) hu (by simp [Place.start]) he with
        heq | ⟨name, type, q, q', hfirst, hq, hlonger, hq'⟩
      · cases hfirst : declaration? (.start (c :: u)) with
        | none =>
          rw [hfirst, Option.map_none] at heq
          have hu' : Closed u := Closed.of_append (t := [c]) hu
          rw [placeholders_of_eq_none hfirst, ← ih _ (by simp) hu' rfl]
          exact placeholders_of_eq_none heq
        | some d =>
          obtain ⟨name, type, q⟩ := d
          obtain ⟨read, hread, hreads⟩ := exists_reads_of_declaration? hfirst
          have hsplit : c :: u = read ++ q.rest := hreads.rest
          have hshort : q.rest.length < (c :: u).length := by
            rw [hsplit, List.length_append]
            have := List.length_pos_iff.mpr hread
            omega
          have hrest : placeholders (q.rest ++ e) = placeholders q.rest ++ placeholders e :=
            ih _ hshort (Closed.of_append (hsplit ▸ hu)) rfl
          rw [hfirst, Option.map_some] at heq
          rw [placeholders_of_eq_some hfirst, List.cons_append, List.cons_append, ← hrest]
          exact placeholders_of_eq_some heq
      · have hrest : placeholders e = placeholders (e.dropWhile isTypeChar) := by
          conv_lhs => rw [← List.takeWhile_append_dropWhile (p := isTypeChar) (l := e)]
          exact placeholders_append_of_apart (fun c hc => isApart_of_isBlank (he.blank c hc)) _
        have hwhole : placeholders (c :: u ++ e) =
            (name, defaultValue (trim (type ++ e.takeWhile isTypeChar))) :: placeholders q'.rest :=
          placeholders_of_eq_some hlonger
        rw [hwhole, placeholders_of_eq_some hfirst, hq, hq', trim_append_blank _ he.blank, hrest]
        rfl

/-! ## Words in the text of a type -/

/-- A character that is not in a literal ends the text in which it can stand. -/
theorem startsWith_append_cons {literal : Text} {c : Char} (hc : c ∉ literal) (t u : Text) :
    startsWith (t ++ c :: u) literal = startsWith t literal := by
  induction literal generalizing t with
  | nil => cases t <;> rfl
  | cons d literal ih =>
    rw [List.mem_cons, not_or] at hc
    cases t with
    | nil =>
      rw [List.nil_append, startsWith, startsWith, afterStart?, afterStart?, if_neg (Ne.symm hc.1)]
    | cons e t =>
      have hrest := ih hc.2 t
      rw [startsWith, startsWith] at hrest
      rw [List.cons_append, startsWith, startsWith, afterStart?, afterStart?]
      split
      · exact hrest
      · rfl

theorem contains_append_cons {literal : Text} {c : Char} (hne : literal ≠ []) (hc : c ∉ literal)
    (t u : Text) : contains literal (t ++ c :: u) = (contains literal t || contains literal u) := by
  obtain ⟨d, rest, rfl⟩ := List.exists_cons_of_ne_nil hne
  have hstart : startsWith (c :: u) (d :: rest) = false :=
    startsWith_append_cons hc [] u
  induction t with
  | nil =>
    change (startsWith (c :: u) (d :: rest) || contains (d :: rest) u) = _
    rw [hstart]
    rfl
  | cons e t ih =>
    have hhead := startsWith_append_cons hc (e :: t) u
    rw [List.cons_append] at hhead ⊢
    rw [contains, contains, ih, hhead, Bool.or_assoc]

/-- The words by which a placeholder is chosen. -/
def typeWords : List Text := ["String", "Int", "Float", "Boolean", "ID", "["].map String.toList

theorem defaultValue_congr {t u : Text} (h : ∀ w ∈ typeWords, contains w t = contains w u) :
    defaultValue t = defaultValue u := by
  simp only [typeWords, List.forall_mem_map, List.forall_mem_cons] at h
  obtain ⟨hstring, hint, hfloat, hboolean, hid, hlist, -⟩ := h
  simp only [defaultValue, hstring, hint, hfloat, hboolean, hid, hlist]

theorem contains_assigned {w : Text} (hw : w ∈ typeWords) (type value : Text) :
    contains w (type ++ (" = ".toList ++ value)) = (contains w type || contains w value) := by
  have hparts : ∀ w ∈ typeWords, w ≠ [] ∧ ' ' ∉ w ∧ '=' ∉ w := by decide
  obtain ⟨hne, hspace, hequals⟩ := hparts w hw
  have hvalue : contains w ([] ++ ' ' :: value) = contains w value := by
    rw [contains_append_cons hne hspace, contains]
    simp [hne]
  have hassigned : contains w ([] ++ '=' :: ([] ++ ' ' :: value)) = contains w value := by
    rw [contains_append_cons hne hequals, contains, hvalue]
    simp [hne]
  rw [← hassigned]
  exact contains_append_cons hne hspace type _

/-! ## Printed declarations -/

/-- A declared variable as it is printed: its name, its type, perhaps a default value, and what
stands behind it. -/
structure Declared where
  name : Text
  type : Text
  default : Option Text
  gap : Text

/-- Commas and white space. -/
def IsSeparator (t : Text) : Prop := ∀ c ∈ t, isBlank c = true ∨ c = ','

instance (t : Text) : Decidable (IsSeparator t) :=
  decidable_of_iff ((t.all fun c => isBlank c || c == ',') = true) (by simp [IsSeparator])

instance (t : Text) : Decidable (Trimmed t) :=
  inferInstanceAs (Decidable (t.head?.any isBlank = false ∧ t.getLast?.any isBlank = false))

instance (t : Text) : Decidable (Closed t) :=
  decidable_of_iff ((t.getLast?.all fun c => !isBlank c && c != ':') = true)
    (by simp [Closed, Option.all_eq_true])

namespace Declared

/-- What stands behind the type. -/
def assigned (d : Declared) : Text :=
  match d.default with
  | none => []
  | some value => " = ".toList ++ value

def text (d : Declared) : Text :=
  '$' :: (d.name ++ (':' :: ' ' :: (d.type ++ d.assigned)))

/-- A declaration with any default value that does not end with a colon or with white space: so do
no number, no string, no name, no list and no object. -/
structure Valid (d : Declared) : Prop where
  name : IsName d.name
  type_ne_nil : d.type ≠ []
  type_chars : ∀ c ∈ d.type, isTypeChar c = true
  type_trimmed : Trimmed d.type
  type_closed : Closed d.type
  default_closed : ∀ value ∈ d.default, value ≠ [] ∧ Closed value
  gap : IsSeparator d.gap

instance (d : Declared) : Decidable d.Valid :=
  decidable_of_iff (IsName d.name ∧ d.type ≠ [] ∧ d.type.all isTypeChar = true ∧
      Trimmed d.type ∧ Closed d.type ∧ (∀ value ∈ d.default, value ≠ [] ∧ Closed value) ∧
      IsSeparator d.gap)
    ⟨fun ⟨hname, hne, hchars, htrimmed, hclosed, hdefault, hgap⟩ =>
        ⟨hname, hne, List.all_eq_true.mp hchars, htrimmed, hclosed, hdefault, hgap⟩,
      fun h => ⟨h.name, h.type_ne_nil, List.all_eq_true.mpr h.type_chars, h.type_trimmed,
        h.type_closed, h.default_closed, h.gap⟩⟩

/-- The name with the placeholder for the declared type. -/
def placeholder (d : Declared) : Text × Value := (d.name, defaultValue d.type)

/-- What is taken for a declaration in a printed one: the variable, its type together with the
default value up to the next comma, line feed or dollar sign, and all that is declared in the
default value from there on. -/
def sightings (d : Declared) : List (Text × Value) :=
  (d.name, defaultValue (trim (d.type ++ d.assigned.takeWhile isTypeChar))) ::
    placeholders (d.assigned.dropWhile isTypeChar)

/-- A default value in one piece that holds none of the words by which a placeholder is chosen. -/
def Plain (d : Declared) : Prop :=
  ∀ value ∈ d.default, (∀ c ∈ value, isTypeChar c = true) ∧
    ∀ w ∈ typeWords, contains w value = false

instance (d : Declared) : Decidable d.Plain :=
  decidable_of_iff (∀ value ∈ d.default, value.all isTypeChar = true ∧
    ∀ w ∈ typeWords, contains w value = false) (by simp only [Plain, List.all_eq_true])

variable {d : Declared}

theorem Valid.closed (hd : d.Valid) : Closed (d.type ++ d.assigned) := by
  intro c hc
  rw [assigned] at hc
  split at hc
  · rw [List.append_nil] at hc
    exact hd.type_closed c hc
  · rename_i value hvalue
    obtain ⟨hne, hclosed⟩ := hd.default_closed value hvalue
    refine hclosed c ?_
    rwa [← List.append_assoc, List.getLast?_append_of_ne_nil _ hne] at hc

theorem Valid.trimmed (hd : d.Valid) : Trimmed (d.type ++ d.assigned) := by
  constructor
  · rw [List.head?_append_of_ne_nil _ hd.type_ne_nil]
    exact hd.type_trimmed.1
  · cases hlast : (d.type ++ d.assigned).getLast? with
    | none => rfl
    | some c => exact (hd.closed c hlast).1

theorem Valid.closed_text (hd : d.Valid) : Closed d.text := by
  intro c hc
  have hne : d.type ++ d.assigned ≠ [] := by simp [hd.type_ne_nil]
  have hsplit : d.text = ('$' :: (d.name ++ [':', ' '])) ++ (d.type ++ d.assigned) := by
    simp [text]
  refine hd.closed c ?_
  rwa [hsplit, List.getLast?_append_of_ne_nil _ hne] at hc

theorem Valid.placeholders_text (hd : d.Valid) : placeholders d.text = d.sightings := by
  have ho : IsOpening ('$' :: (d.name ++ [':'])) d.name :=
    ⟨['$'], [], .inr rfl, hd.name, isBlank_nil, rfl⟩
  have hsplit : d.text = ('$' :: (d.name ++ [':'])) ++ ([' '] ++
      (d.type ++ d.assigned.takeWhile isTypeChar)) ++ d.assigned.dropWhile isTypeChar := by
    simp [text]
  have hread : (Place.start d.text).Reads (('$' :: (d.name ++ [':'])) ++ ([' '] ++
      (d.type ++ d.assigned.takeWhile isTypeChar))) ⟨_, d.assigned.dropWhile isTypeChar⟩ :=
    ⟨hsplit, rfl⟩
  obtain ⟨q, hq, hread⟩ := hread.append_cases
  obtain ⟨r, hr, htype⟩ := hread.append_cases
  have hne : d.type ++ d.assigned.takeWhile isTypeChar ≠ [] := by simp [hd.type_ne_nil]
  have hhead : (d.type ++ d.assigned.takeWhile isTypeChar).head?.any isBlank = false := by
    rw [List.head?_append_of_ne_nil _ hd.type_ne_nil]
    exact hd.type_trimmed.1
  have hall : ∀ c ∈ d.type ++ d.assigned.takeWhile isTypeChar, isTypeChar c = true := by
    intro c hc
    rcases List.mem_append.mp hc with hc | hc
    · exact hd.type_chars c hc
    · exact List.all_eq_true.mp List.all_takeWhile c hc
  have hfound := declaration?_of_opening ho hq
  rw [typeText?_of_type hr htype (isBlank_cons.mpr ⟨isBlank_space, isBlank_nil⟩) hne hhead hall
    (head?_dropWhile isTypeChar _), Option.map_some] at hfound
  exact placeholders_of_eq_some hfound

/-- A plain declaration is seen as it is declared. -/
theorem Valid.sightings_of_plain (hd : d.Valid) (hplain : d.Plain) :
    d.sightings = [d.placeholder] := by
  have hall : ∀ c ∈ d.assigned, isTypeChar c = true := by
    intro c hc
    rw [assigned] at hc
    split at hc
    · cases hc
    · rename_i value hvalue
      rcases List.mem_append.mp hc with hc | hc
      · have hspelled := List.all_eq_true.mp (by decide : " = ".toList.all isTypeChar = true)
        exact hspelled c hc
      · exact (hplain value hvalue).1 c hc
  have hvalue : defaultValue (d.type ++ d.assigned) = defaultValue d.type := by
    rw [assigned]
    split
    · rw [List.append_nil]
    · rename_i value hvalue
      refine defaultValue_congr fun w hw => ?_
      rw [contains_assigned hw, (hplain value hvalue).2 w hw, Bool.or_false]
  have htake : d.assigned.takeWhile isTypeChar = d.assigned := by
    have h := takeWhile_eq_of_append (u := []) hall rfl
    rwa [List.append_nil] at h
  have hdrop : d.assigned.dropWhile isTypeChar = [] := by
    have h := List.takeWhile_append_dropWhile (p := isTypeChar) (l := d.assigned)
    rw [htake] at h
    exact List.append_right_eq_self.mp h
  rw [sightings, htake, hdrop, hd.trimmed.trim_eq, hvalue, placeholders_nil, placeholder]

end Declared

variable {lead gap rest : Text} {ds : List Declared}

theorem isApart_of_isSeparator (h : IsSeparator gap) : ∀ c ∈ gap, IsApart c := by
  intro c hc
  rcases h c hc with hblank | rfl
  · exact isApart_of_isBlank hblank
  · exact ⟨by decide, by decide⟩

/-- A separator ends a declaration if the text is over behind it or another declaration begins. -/
theorem closing_of_isSeparator (h : IsSeparator gap) (hrest : ∀ c ∈ rest.head?, c = '$') :
    Closing (gap ++ rest) := by
  induction gap with
  | nil =>
    cases rest with
    | nil => exact ⟨isBlank_nil, by simp⟩
    | cons c rest =>
      obtain rfl : c = '$' := hrest c rfl
      exact ⟨isBlank_nil, by simp [isBlank]⟩
  | cons c gap ih =>
    obtain ⟨hc, hgap⟩ := List.forall_mem_cons.mp h
    obtain ⟨hblank, hcolon⟩ := ih hgap
    rcases hc with hc | rfl
    · constructor
      · rw [List.cons_append, List.takeWhile_cons]
        split
        · exact isBlank_cons.mpr ⟨hc, hblank⟩
        · exact isBlank_nil
      · rw [List.cons_append, List.dropWhile_cons, if_pos hc]
        exact hcolon
    · exact ⟨isBlank_nil, by simp [isBlank]⟩

/-- Declarations one after the other. -/
def printed (ds : List Declared) : Text := ds.flatMap fun d => d.text ++ d.gap

theorem head?_printed (ds : List Declared) : ∀ c ∈ (printed ds).head?, c = '$' := by
  cases ds with
  | nil => simp [printed]
  | cons d ds => simp [printed, Declared.text]

/-- What is found in printed declarations is what is found in each of them. -/
theorem placeholders_printed (hds : ∀ d ∈ ds, d.Valid) :
    placeholders (printed ds) = ds.flatMap Declared.sightings := by
  induction ds with
  | nil => rfl
  | cons d ds ih =>
    obtain ⟨hd, hds⟩ := List.forall_mem_cons.mp hds
    have hsplit : printed (d :: ds) = d.text ++ (d.gap ++ printed ds) := by simp [printed]
    rw [hsplit, placeholders_append hd.closed_text (closing_of_isSeparator hd.gap (head?_printed ds)),
      hd.placeholders_text, placeholders_append_of_apart (isApart_of_isSeparator hd.gap), ih hds,
      List.flatMap_cons]

/-- The values for printed declarations are what is seen in them, the first sighting of each name
counting. They are the placeholders of the declared variables, in order, exactly if a default value
shows no name before that is declared and no declared type is seen with another placeholder; so it
is with plain default values. -/
theorem inferVariables_printed (hlead : IsSeparator lead) (hds : ∀ d ∈ ds, d.Valid)
    (hnames : (ds.map Declared.name).Nodup) :
    inferVariables (some (lead ++ printed ds)) [] =
      Members.addNew [] (ds.flatMap Declared.sightings) ∧
    (inferVariables (some (lead ++ printed ds)) [] = ds.map Declared.placeholder ↔
      (Members.names (ds.flatMap Declared.sightings)).eraseDups = ds.map Declared.name ∧
      ∀ d ∈ ds, Members.get? (ds.flatMap Declared.sightings) d.name =
        some (defaultValue d.type)) ∧
    ((∀ d ∈ ds, d.Plain) →
      inferVariables (some (lead ++ printed ds)) [] = ds.map Declared.placeholder) := by
  have hseen : inferVariables (some (lead ++ printed ds)) [] =
      Members.addNew [] (ds.flatMap Declared.sightings) := by
    rw [inferVariables_eq, Option.getD_some,
      placeholders_append_of_apart (isApart_of_isSeparator hlead), placeholders_printed hds]
  have hdeclared : Members.names (ds.map Declared.placeholder) = ds.map Declared.name := by
    rw [Members.names, List.map_map]
    rfl
  refine ⟨hseen, ?_, fun hplain => ?_⟩
  · rw [hseen, Members.addNew_nil_eq_iff (hdeclared ▸ hnames), hdeclared, List.forall_mem_map]
    rfl
  · have hsightings : ds.flatMap Declared.sightings = ds.map Declared.placeholder := by
      rw [List.map_eq_flatMap]
      exact List.flatMap_congr fun d hd => (hds d hd).sightings_of_plain (hplain d hd)
    rw [hseen, hsightings, Members.addNew_nil_eq_self (hdeclared ▸ hnames)]

/-- Variables with plain default values, separated by commas and line feeds. -/
def plainArguments : List Declared :=
  [⟨"first".toList, "Int".toList, some "10".toList, ",\n  ".toList⟩,
    ⟨"tags".toList, "[Tag!]!".toList, none, "\n".toList⟩,
    ⟨"on".toList, "Boolean".toList, some "true".toList, ",".toList⟩,
    ⟨"note".toList, "Note".toList, some "\x7bkind: DRAFT\x7d".toList, []⟩]

def plainText : Text :=
  ("\n  $first: Int = 10,\n  $tags: [Tag!]!\n$on: Boolean = true," ++
    "$note: Note = \x7bkind: DRAFT\x7d").toList

theorem inferVariables_printed_plain : inferVariables (some plainText) [] =
    [("first".toList, .int 0), ("tags".toList, .array []), ("on".toList, .bool false),
      ("note".toList, .null)] := by
  have hlead : IsSeparator "\n  ".toList := by decide
  have hds : ∀ d ∈ plainArguments, d.Valid := by decide +kernel
  have hnames : (plainArguments.map Declared.name).Nodup := by decide
  have hplain : ∀ d ∈ plainArguments, d.Plain := by decide +kernel
  have htext : plainText = "\n  ".toList ++ printed plainArguments := by decide +kernel
  rw [htext, (inferVariables_printed hlead hds hnames).2.2 hplain]
  rfl

/-- A filter with two members by default, and a note with the word that is used for strings. -/
def filterArguments : List Declared :=
  [⟨"f".toList, "Filter".toList, some "\x7ba: 1, b: 2\x7d".toList, ", ".toList⟩,
    ⟨"n".toList, "Note".toList, some "\"String\"".toList, []⟩]

/-- A member of a default value is taken for a variable, and a word in a string for the type. -/
theorem not_inferVariables_filterArguments : (∀ d ∈ filterArguments, d.Valid) ∧
    (filterArguments.map Declared.name).Nodup ∧
    printed filterArguments = "$f: Filter = \x7ba: 1, b: 2\x7d, $n: Note = \"String\"".toList ∧
    inferVariables (some (printed filterArguments)) [] = [("f".toList, .null), ("b".toList, .null),
      ("n".toList, .string "sample-string".toList)] ∧
    filterArguments.map Declared.placeholder = [("f".toList, .null), ("n".toList, .null)] ∧
    inferVariables (some (printed filterArguments)) [] ≠
      filterArguments.map Declared.placeholder := by
  refine ⟨by decide +kernel, by decide, by decide +kernel, rfl, rfl, fun h => ?_⟩
  exact absurd (congrArg List.length h) (by decide +kernel)

end OperationScan
