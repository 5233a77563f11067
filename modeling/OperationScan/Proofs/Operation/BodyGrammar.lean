import OperationScan.Proofs.Operation.Body

/-!
# The grammar of bodies

A body is a sequence of items between braces. An item is a body again, a string between double
quotes, a backslash with the character behind it, or a plain character. The scan for the end of a
body knows nothing of items: it counts braces and remembers whether it is inside a string.

* `Body.IsItem`, `Body.IsBody`: the grammar.
* `Body.closes_start_iff`: the texts that the scan closes with their last character.
* `Body.end?_iff_isBody`: where the body ends that begins at an offset, and when it does not end.
-/

namespace OperationScan.Body

open Text

/-- What stands between the quotes of a string. -/
inductive IsStringText : Text → Prop where
  | nil : IsStringText []
  | escape (c : Char) {t : Text} (h : IsStringText t) : IsStringText ('\\' :: c :: t)
  | plain {c : Char} {t : Text} (hslash : c ≠ '\\') (hquote : c ≠ '"') (h : IsStringText t) :
      IsStringText (c :: t)

/-- One item of a body. -/
inductive IsItem : Text → Prop where
  | body {items : List Text} (h : ∀ i ∈ items, IsItem i) :
      IsItem ('\x7b' :: (items.flatten ++ ['\x7d']))
  | string {t : Text} (h : IsStringText t) : IsItem ('"' :: (t ++ ['"']))
  | escape (c : Char) : IsItem ['\\', c]
  | plain {c : Char} (hslash : c ≠ '\\') (hquote : c ≠ '"') (hopen : c ≠ '\x7b')
      (hclose : c ≠ '\x7d') : IsItem [c]

/-- Items between braces. -/
def IsBody (t : Text) : Prop :=
  ∃ items : List Text, (∀ i ∈ items, IsItem i) ∧ t = '\x7b' :: (items.flatten ++ ['\x7d'])

/-- The stretch of a text between two offsets is a body. -/
def IsBodyAt (t : Text) (start stop : Nat) : Prop :=
  start ≤ stop ∧ stop ≤ t.length ∧ IsBody (slice t start stop)

/-- A scan between two items, inside a number of braces. -/
def Scan.between (depth : Int) : Scan := ⟨depth, false, false⟩

/-- A scan inside a string. -/
def Scan.quoted (depth : Int) : Scan := ⟨depth, true, false⟩

variable {d : Int} {c : Char} {t u : Text}

/-! ## Single steps -/

theorem closes_escape {s : Scan} (h : s.escaped = false) :
    Closes s ('\\' :: c :: t) ↔ Closes s t := by
  obtain ⟨depth, inString, escaped⟩ := s
  cases h
  exact Iff.rfl

theorem closes_between_quote : Closes (.between d) ('"' :: t) ↔ Closes (.quoted d) t := Iff.rfl

theorem closes_between_open :
    Closes (.between d) ('\x7b' :: t) ↔ Closes (.between (d + 1)) t := Iff.rfl

theorem closes_between_close (hd : d ≠ 1) :
    Closes (.between d) ('\x7d' :: t) ↔ Closes (.between (d - 1)) t := by
  have hstep : (Scan.between d).step '\x7d' = some (.between (d - 1)) := by
    have hne : (d == 1) = false := beq_eq_false_iff_ne.mpr hd
    simp [Scan.step, Scan.between, hne]
  exact closes_cons_some hstep

theorem closes_between_last : Closes (.between 1) ('\x7d' :: t) ↔ t = [] := Iff.rfl

theorem closes_between_plain (hslash : c ≠ '\\') (hquote : c ≠ '"') (hopen : c ≠ '\x7b')
    (hclose : c ≠ '\x7d') : Closes (.between d) (c :: t) ↔ Closes (.between d) t := by
  have hstep : (Scan.between d).step c = some (.between d) := by
    simp [Scan.step, Scan.between, hslash, hquote, hopen, hclose]
  exact closes_cons_some hstep

theorem closes_quoted_quote : Closes (.quoted d) ('"' :: t) ↔ Closes (.between d) t := Iff.rfl

theorem closes_quoted_plain (hslash : c ≠ '\\') (hquote : c ≠ '"') :
    Closes (.quoted d) (c :: t) ↔ Closes (.quoted d) t := by
  have hstep : (Scan.quoted d).step c = some (.quoted d) := by
    simp [Scan.step, Scan.quoted, hslash, hquote]
  exact closes_cons_some hstep

/-! ## The scan passes over items -/

theorem IsStringText.passes (h : IsStringText t) :
    Closes (.quoted d) (t ++ '"' :: u) ↔ Closes (.between d) u := by
  induction h with
  | nil => exact closes_quoted_quote
  | escape c _ ih => exact (closes_escape rfl).trans ih
  | plain hslash hquote _ ih => exact (closes_quoted_plain hslash hquote).trans ih

theorem passes_flatten {items : List Text}
    (h : ∀ i ∈ items, ∀ u, Closes (.between d) (i ++ u) ↔ Closes (.between d) u) (u : Text) :
    Closes (.between d) (items.flatten ++ u) ↔ Closes (.between d) u := by
  induction items with
  | nil => exact Iff.rfl
  | cons i items ih =>
    rw [List.forall_mem_cons] at h
    rw [List.flatten_cons, List.append_assoc, h.1]
    exact ih h.2

/-- A scan inside at least one brace is behind an item where it was in front of it. -/
theorem IsItem.passes (h : IsItem t) (hd : 1 ≤ d) (u : Text) :
    Closes (.between d) (t ++ u) ↔ Closes (.between d) u := by
  induction h generalizing d u with
  | @body items _ ih =>
    have hinner := passes_flatten (fun i hi => ih i hi (d := d + 1) (by omega))
    rw [List.cons_append, List.append_assoc, closes_between_open, hinner, List.singleton_append,
      closes_between_close (by omega), Int.add_sub_cancel]
  | string h =>
    rw [List.cons_append, List.append_assoc, closes_between_quote, List.singleton_append, h.passes]
  | escape c => exact closes_escape rfl
  | plain hslash hquote hopen hclose => exact closes_between_plain hslash hquote hopen hclose

/-! ## What a scan passes over are items -/

theorem exists_stringText (h : Closes (.quoted d) t) :
    ∃ inner rest, IsStringText inner ∧ t = inner ++ '"' :: rest ∧ Closes (.between d) rest := by
  induction hn : t.length using Nat.strongRecOn generalizing t with
  | ind n ih =>
    cases t with
    | nil => exact h.elim
    | cons c t =>
      by_cases hslash : c = '\\'
      · subst hslash
        cases t with
        | nil => exact h.elim
        | cons c t =>
          rw [closes_escape rfl] at h
          obtain ⟨inner, rest, hinner, rfl, hrest⟩ := ih t.length (by simp at hn; omega) h rfl
          exact ⟨'\\' :: c :: inner, rest, .escape c hinner, rfl, hrest⟩
      by_cases hquote : c = '"'
      · subst hquote
        exact ⟨[], t, .nil, rfl, h⟩
      rw [closes_quoted_plain hslash hquote] at h
      obtain ⟨inner, rest, hinner, rfl, hrest⟩ := ih t.length (by simp at hn; omega) h rfl
      exact ⟨c :: inner, rest, .plain hslash hquote hinner, rfl, hrest⟩

/-- What is left for a scan behind the brace that closes the innermost body. -/
def ClosesOuter (d : Int) (t : Text) : Prop :=
  if d = 1 then t = [] else Closes (.between (d - 1)) t

theorem exists_items (hd : 1 ≤ d) (h : Closes (.between d) t) :
    ∃ (items : List Text) (rest : Text), (∀ i ∈ items, IsItem i) ∧
      t = items.flatten ++ '\x7d' :: rest ∧ ClosesOuter d rest := by
  -- an inner body is followed by more items, so what is left gets shorter but is no tail
  induction hn : t.length using Nat.strongRecOn generalizing d t with
  | ind n ih =>
    have more : ∀ {i u : Text}, IsItem i → u.length < n → Closes (.between d) u →
        ∃ (items : List Text) (rest : Text), (∀ i ∈ items, IsItem i) ∧
          i ++ u = items.flatten ++ '\x7d' :: rest ∧ ClosesOuter d rest := by
      intro i u hi hlength hu
      obtain ⟨items, rest, hitems, rfl, hrest⟩ := ih u.length hlength hd hu rfl
      exact ⟨i :: items, rest, List.forall_mem_cons.mpr ⟨hi, hitems⟩,
        by rw [List.flatten_cons, List.append_assoc], hrest⟩
    cases t with
    | nil => exact h.elim
    | cons c t =>
      have hlength : t.length < n := by
        rw [List.length_cons] at hn
        omega
      by_cases hslash : c = '\\'
      · subst hslash
        cases t with
        | nil => exact h.elim
        | cons c t =>
          rw [closes_escape rfl] at h
          exact more (.escape c) (Nat.lt_of_succ_lt hlength) h
      by_cases hquote : c = '"'
      · subst hquote
        obtain ⟨inner, u, hinner, rfl, hu⟩ := exists_stringText (closes_between_quote.mp h)
        rw [List.length_append, List.length_cons] at hlength
        have hmore := more (.string hinner) (by omega) hu
        rwa [List.cons_append, List.append_assoc, List.singleton_append] at hmore
      by_cases hopen : c = '\x7b'
      · subst hopen
        obtain ⟨items, u, hitems, rfl, hu⟩ :=
          ih t.length hlength (by omega) (closes_between_open.mp h) rfl
        rw [ClosesOuter, if_neg (by omega), Int.add_sub_cancel] at hu
        rw [List.length_append, List.length_cons] at hlength
        have hmore := more (.body hitems) (by omega) hu
        rwa [List.cons_append, List.append_assoc, List.singleton_append] at hmore
      by_cases hclose : c = '\x7d'
      · subst hclose
        refine ⟨[], t, List.forall_mem_nil _, rfl, ?_⟩
        unfold ClosesOuter
        split
        · rename_i hone
          subst hone
          exact closes_between_last.mp h
        · rename_i hone
          exact (closes_between_close hone).mp h
      rw [closes_between_plain hslash hquote hopen hclose] at h
      exact more (.plain hslash hquote hopen hclose) hlength h

/-! ## Bodies -/

theorem IsBody.head? (h : IsBody t) : t.head? = some '\x7b' := by
  obtain ⟨items, -, rfl⟩ := h
  rfl

theorem IsBody.length_pos (h : IsBody t) : 0 < t.length := by
  obtain ⟨items, -, rfl⟩ := h
  exact Nat.zero_lt_succ _

/-- From an opening brace on, the scan closes exactly the bodies of the grammar. -/
theorem closes_start_iff (hopen : t.head? = some '\x7b') : Closes .start t ↔ IsBody t := by
  cases t with
  | nil => cases hopen
  | cons c t =>
    cases hopen
    have hstart : Closes .start ('\x7b' :: t) ↔ Closes (.between 1) t := Iff.rfl
    rw [hstart]
    constructor
    · intro h
      obtain ⟨items, rest, hitems, rfl, hrest⟩ := exists_items (Int.le_refl 1) h
      rw [ClosesOuter, if_pos rfl] at hrest
      exact ⟨items, hitems, by rw [hrest]⟩
    · rintro ⟨items, hitems, ht⟩
      cases ht
      rw [passes_flatten fun i hi => (hitems i hi).passes (Int.le_refl 1)]
      exact closes_between_last.mpr rfl

/-- Of two bodies at the start of one text none goes on where the other ends. -/
theorem IsBody.append_inj {a b : Text} (ha : IsBody a) (hb : IsBody b) (h : a ++ t = b ++ u) :
    a = b := by
  have hmeasure : ∀ {x y : Text}, IsBody x → x.length ≤ a.length + b.length →
      lengthFrom? (a.length + b.length) .start 0 (x ++ y) = some x.length := by
    intro x y hx hlength
    have hclose := (closes_start_iff hx.head?).mpr hx
    exact lengthFrom?_eq_some_iff.mpr ⟨x, y, rfl, hclose, hlength, (Nat.zero_add _).symm⟩
  have hla := hmeasure (y := t) ha (by omega)
  have hlb := hmeasure (y := u) hb (by omega)
  rw [h, hlb] at hla
  exact (List.append_inj h (Option.some.inj hla).symm).1

/-! ## The end of a body -/

variable {start stop : Nat}

theorem isBodyAt_iff : IsBodyAt t start stop ↔ ∃ body rest, t.drop start = body ++ rest ∧
    IsBody body ∧ stop = start + body.length := by
  constructor
  · rintro ⟨hle, hlength, hbody⟩
    refine ⟨slice t start stop, t.drop stop, ?_, hbody, ?_⟩
    · have hstop : t.drop stop = (t.drop start).drop (stop - start) := by
        rw [List.drop_drop, Nat.add_sub_cancel' hle]
      rw [slice, hstop, List.take_append_drop]
    · rw [slice, List.length_take, List.length_drop]
      omega
  · rintro ⟨body, rest, hdrop, hbody, rfl⟩
    have hpos := hbody.length_pos
    have htotal := congrArg List.length hdrop
    rw [List.length_drop, List.length_append] at htotal
    refine ⟨Nat.le_add_right _ _, by omega, ?_⟩
    rw [slice, hdrop, Nat.add_sub_cancel_left, List.take_left]
    exact hbody

theorem end?_eq_some_iff (hopen : t[start]? = some '\x7b') : end? t start = some stop ↔
    IsBodyAt t start stop ∧ stop - start ≤ limit := by
  have hhead : ∀ {body rest : Text}, t.drop start = body ++ rest → body ≠ [] →
      body.head? = some '\x7b' := by
    intro body rest hdrop hne
    obtain ⟨c, body, rfl⟩ := List.exists_cons_of_ne_nil hne
    have hfirst := congrArg List.head? hdrop
    rw [List.head?_drop, hopen] at hfirst
    exact hfirst.symm
  rw [end?, Option.map_eq_some_iff, isBodyAt_iff]
  constructor
  · rintro ⟨n, hn, rfl⟩
    obtain ⟨body, rest, hdrop, hclose, hlimit, rfl⟩ := length?_eq_some_iff.mp hn
    have hne : body ≠ [] := by
      rintro rfl
      exact hclose
    refine ⟨⟨body, rest, hdrop, (closes_start_iff (hhead hdrop hne)).mp hclose, rfl⟩, ?_⟩
    rwa [Nat.add_sub_cancel_left]
  · rintro ⟨⟨body, rest, hdrop, hbody, rfl⟩, hlimit⟩
    rw [Nat.add_sub_cancel_left] at hlimit
    have hclose := (closes_start_iff hbody.head?).mpr hbody
    exact ⟨body.length, length?_eq_some_iff.mpr ⟨body, rest, hdrop, hclose, hlimit, rfl⟩, rfl⟩

theorem IsBodyAt.lt (h : IsBodyAt t start stop) : start < stop := by
  obtain ⟨body, rest, -, hbody, rfl⟩ := isBodyAt_iff.mp h
  exact Nat.lt_add_of_pos_right hbody.length_pos

theorem IsBodyAt.unique {stop' : Nat} (h : IsBodyAt t start stop) (h' : IsBodyAt t start stop') :
    stop = stop' := by
  obtain ⟨a, x, ha, hbody, rfl⟩ := isBodyAt_iff.mp h
  obtain ⟨b, y, hb, hbody', rfl⟩ := isBodyAt_iff.mp h'
  rw [ha] at hb
  rw [hbody.append_inj hbody' hb]

/-- Only what stands from its start to its end matters for a body. -/
theorem IsBodyAt.congr {start' : Nat} {rest : Text} (h : IsBodyAt t start stop)
    (hdrop : u.drop start' = slice t start stop ++ rest) :
    IsBodyAt u start' (start' + (stop - start)) := by
  obtain ⟨hle, hlength, hbody⟩ := h
  refine isBodyAt_iff.mpr ⟨slice t start stop, rest, hdrop, hbody, ?_⟩
  rw [slice, List.length_take, List.length_drop]
  omega

/-- A body ends where the grammar says, unless it is too long. There is at most one such place, and
neither what stands in front of a body nor what follows it matters. -/
theorem end?_iff_isBody (t : Text) (start : Nat) (hopen : t[start]? = some '\x7b') :
    (∀ stop, end? t start = some stop ↔ IsBodyAt t start stop ∧ stop - start ≤ limit) ∧
    (end? t start = none ↔ ¬ ∃ stop, IsBodyAt t start stop ∧ stop - start ≤ limit) ∧
    (∀ stop stop', IsBodyAt t start stop → IsBodyAt t start stop' → stop = stop') ∧
    (∀ before : Text, end? (before ++ t.drop start) before.length =
      (end? t start).map fun stop => before.length + (stop - start)) ∧
    (∀ stop after, end? t start = some stop → end? (t.take stop ++ after) start = some stop) := by
  refine ⟨fun stop => end?_eq_some_iff hopen, ?_, fun stop stop' h h' => h.unique h', ?_, ?_⟩
  · rw [Option.eq_none_iff_forall_ne_some]
    constructor
    · rintro hnone ⟨stop, hstop⟩
      exact hnone stop ((end?_eq_some_iff hopen).mpr hstop)
    · intro hnone stop hstop
      exact hnone ⟨stop, (end?_eq_some_iff hopen).mp hstop⟩
  · intro before
    rw [end?, end?, List.drop_left, Option.map_map]
    congr 1
    funext n
    exact congrArg _ (Nat.add_sub_cancel_left ..).symm
  · intro stop after h
    obtain ⟨hbody, hlimit⟩ := (end?_eq_some_iff hopen).mp h
    have hlt := hbody.lt
    have hlength := hbody.2.1
    have hopen' : (t.take stop ++ after)[start]? = some '\x7b' := by
      rw [List.getElem?_append_left (by rw [List.length_take]; omega), List.getElem?_take_of_lt hlt]
      exact hopen
    have hdrop : (t.take stop ++ after).drop start = slice t start stop ++ after := by
      rw [List.drop_append_of_le_length (by rw [List.length_take]; omega), List.drop_take, slice]
    have hsame := hbody.congr hdrop
    rw [Nat.add_sub_cancel' hbody.1] at hsame
    exact (end?_eq_some_iff hopen').mpr ⟨hsame, hlimit⟩

/-- A body with a string that holds a brace, an escaped brace and a body in it. -/
def mixedText : Text := "q \x7b a(b: \"\x7d\") \\\x7d \x7b c \x7d \x7d rest".toList

/-- The body goes on to the last brace, and it is the only one that begins there. -/
theorem end?_iff_isBody_mixed :
    mixedText[2]? = some '\x7b' ∧ IsBodyAt mixedText 2 24 ∧
    (∀ stop, IsBodyAt mixedText 2 stop → stop = 24) ∧
    (mixedText.take 23)[2]? = some '\x7b' ∧
    ¬ ∃ stop, IsBodyAt (mixedText.take 23) 2 stop ∧ stop - 2 ≤ limit := by
  have hopen : mixedText[2]? = some '\x7b' := by decide +kernel
  have hopen' : (mixedText.take 23)[2]? = some '\x7b' := by decide +kernel
  obtain ⟨hends, -, hunique, -, -⟩ := end?_iff_isBody mixedText 2 hopen
  obtain ⟨-, hnone, -, -, -⟩ := end?_iff_isBody (mixedText.take 23) 2 hopen'
  have hbody := ((hends 24).mp (by decide +kernel)).1
  refine ⟨hopen, hbody, fun stop h => hunique stop 24 h hbody, hopen', ?_⟩
  exact hnone.mp (by decide +kernel)

end OperationScan.Body
