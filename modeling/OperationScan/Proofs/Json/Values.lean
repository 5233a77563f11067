import Mathlib.Data.List.Forall2
import OperationScan.Proofs.Json.Scalars
import OperationScan.Proofs.Value.Members

/-!
# JSON is read as it was written

* `Value.Plain`: the data that JSON carries without loss, with a bound on its nesting.
* `Json.Layout.Spaced`: a layout that adds white space only, such as the two in use.
* `Json.readBrackets_bracket`: what stands between brackets is read item by item.
* `Json.exists_writeAt`: plain data can be written in such a layout, and what is written spells it.
* `Json.read_write`, `Json.read_writeIndented`: plain data survives writing and reading.
-/

namespace OperationScan

/-- Data that JSON carries without loss, nesting at most `depth` deep: integers are not too long,
names are distinct, and there are no floats and no lone halves. -/
def Value.Plain : (depth : Nat) → Value → Prop
  | _, .null => True
  | _, .bool _ => True
  | _, .int n => (Text.ofNat n.natAbs).length ≤ Number.digitLimit
  | _, .float _ => False
  | _, .string _ => True
  | _, .damaged _ _ => False
  | 0, .array _ => False
  | depth + 1, .array items => ∀ v ∈ items, Plain depth v
  | 0, .object _ => False
  | depth + 1, .object members =>
    (Members.names members).Nodup ∧ ∀ m ∈ members, Plain depth m.2

theorem Value.Plain.mono {depth depth' : Nat} {v : Value} (h : v.Plain depth)
    (hle : depth ≤ depth') : v.Plain depth' := by
  induction depth generalizing depth' v with
  | zero => cases v <;> simp_all [Plain]
  | succ depth ih =>
    obtain ⟨k, rfl⟩ : ∃ k, depth' = k + 1 := ⟨depth' - 1, by omega⟩
    have hle : depth ≤ k := Nat.le_of_succ_le_succ hle
    cases v with
    | array items => exact fun v hv => ih (h v hv) hle
    | object members => exact ⟨h.1, fun m hm => ih (h.2 m hm) hle⟩
    | _ => simp_all [Plain]

theorem Value.Plain.nodup_names {depth : Nat} {members : List (Text × Value)}
    (h : (Value.object members).Plain depth) : (Members.names members).Nodup := by
  cases depth with
  | zero => exact h.elim
  | succ depth => exact h.1

@[simp]
theorem Value.plain_string (depth : Nat) (t : Text) : (Value.string t).Plain depth := by
  cases depth <;> trivial

@[simp]
theorem Value.plain_bool (depth : Nat) (b : Bool) : (Value.bool b).Plain depth := by
  cases depth <;> trivial

namespace Json

/-! ## Layouts -/

/-- Apart from one comma between two items, a layout adds nothing but white space. -/
structure Layout.Spaced (layout : Layout) : Prop where
  separator : ∀ level, ∃ u, layout.separator level = ',' :: u ∧ ∀ c ∈ u, isSpace c = true
  opening : ∀ level, ∀ c ∈ layout.opening level, isSpace c = true
  closing : ∀ level, ∀ c ∈ layout.closing level, isSpace c = true

theorem spaced_oneLine : Layout.oneLine.Spaced :=
  ⟨fun _ => ⟨[' '], rfl, List.forall_mem_singleton.mpr rfl⟩, by simp [Layout.oneLine],
    by simp [Layout.oneLine]⟩

theorem isSpace_newline (level : Nat) : ∀ c ∈ Layout.newline level, isSpace c = true := by
  intro c hc
  rcases List.mem_cons.mp hc with rfl | hc
  · rfl
  · rw [List.eq_of_mem_replicate hc]
    rfl

theorem spaced_indented : Layout.indented.Spaced :=
  ⟨fun level => ⟨_, rfl, isSpace_newline (level + 1)⟩, fun level => isSpace_newline (level + 1),
    isSpace_newline⟩

/-! ## Items between brackets -/

theorem skipSpace_of_reads {p q : Place} {t : Text} (h : p.Reads t q)
    (ht : ∀ c ∈ t, isSpace c = true) (hq : q.rest.head?.any isSpace = false) : skipSpace p = q :=
  (Place.skip_eq_iff isSpace).mpr ⟨t, h, ht, hq⟩

theorem skipSpace_eq_self {p : Place} (hp : p.rest.head?.any isSpace = false) : skipSpace p = p :=
  skipSpace_of_reads (.refl p) (by simp) hp

/-- A value ends where a text of such characters stands. -/
theorem ends_of_reads {p q : Place} {t : Text} (h : p.Reads t q) (hne : t ≠ [])
    (ht : ∀ c ∈ t, c ∈ stops) : Ends p.rest := by
  obtain ⟨c, t, rfl⟩ := List.exists_cons_of_ne_nil hne
  rw [h.rest]
  rintro d ⟨⟩
  exact ht c List.mem_cons_self

/-- What follows a bracket or a comma. -/
theorem skipSpace_drop {p q : Place} {c : Char} {t : Text} (h : p.Reads (c :: t) q)
    (ht : ∀ d ∈ t, isSpace d = true) (hq : q.rest.head?.any isSpace = false) :
    skipSpace (p.drop 1) = q := by
  obtain ⟨r, hc, hrest⟩ := Place.Reads.append_cases (t := [c]) h
  rw [show p.drop 1 = r from hc.eq_drop.symm]
  exact skipSpace_of_reads hrest ht hq

theorem Spells.head?_rest {α : Type} {item : Place → Reading α} {a : α} {p q : Place} {t : Text}
    (h : Spells item a t) (hread : p.Reads t q) :
    p.rest.head?.any isSpace = false ∧ p.rest.head? ≠ some ']' ∧ p.rest.head? ≠ some '\x7d' := by
  obtain ⟨c, u, rfl, hspace, hbracket, hbrace, -⟩ := h.first
  rw [hread.rest]
  exact ⟨hspace, by simpa using hbracket, by simpa using hbrace⟩

variable {α : Type} {item : Place → Reading α} {a : α} {t separator closing : Text}
  {items : List α} {pieces : List Text} {layout : Layout} {p q r s : Place}

theorem exists_join_cons (separator t : Text) (pieces : List Text) :
    ∃ u, Text.join separator (t :: pieces) = t ++ u := by
  cases pieces with
  | nil => exact ⟨[], by rw [Text.join, List.intercalate_singleton, List.append_nil]⟩
  | cons t' pieces =>
    exact ⟨_, by rw [Text.join, List.intercalate_cons_cons, List.append_assoc]⟩

/-- How the pieces between brackets begin. -/
theorem Spells.head?_join (h : Spells item a t)
    (hread : p.Reads (Text.join separator (t :: pieces) ++ closing) q) :
    p.rest.head?.any isSpace = false ∧ p.rest.head? ≠ some ']' ∧ p.rest.head? ≠ some '\x7d' := by
  obtain ⟨u, hu⟩ := exists_join_cons separator t pieces
  rw [hu, List.append_assoc] at hread
  obtain ⟨r, ht, -⟩ := hread.append_cases
  exact h.head?_rest ht

/-- Every piece has a character, so that the length of the rest bounds the number of pieces. -/
theorem length_le_join (h : List.Forall₂ (Spells item) items pieces) (separator : Text) :
    items.length ≤ (Text.join separator pieces).length := by
  induction h with
  | nil => exact Nat.zero_le _
  | @cons a t items pieces ha h ih =>
    obtain ⟨c, u, rfl, -⟩ := ha.first
    cases pieces with
    | nil =>
      cases h
      rw [Text.join, List.intercalate_singleton]
      simp
    | cons t' pieces =>
      rw [Text.join] at ih
      rw [Text.join, List.intercalate_cons_cons]
      simp only [List.length_append, List.length_cons]
      omega

theorem bracket_cons (layout : Layout) (level : Nat) (left right : Char) (t : Text)
    (pieces : List Text) :
    bracket layout level left right (t :: pieces) =
      (left :: layout.opening level) ++ (Text.join (layout.separator level) (t :: pieces) ++
        (layout.closing level ++ [right])) := by
  simp [bracket]

/-- A closing bracket. -/
def IsClosing (c : Char) : Prop := c = ']' ∨ c = '\x7d'

theorem IsClosing.isSpace_eq {c : Char} (h : IsClosing c) : isSpace c = false := by
  rcases h with rfl | rfl <;> rfl

theorem IsClosing.ne_comma {c : Char} (h : IsClosing c) : c ≠ ',' := by
  rcases h with rfl | rfl <;> decide

theorem IsClosing.mem_stops {c : Char} (h : IsClosing c) : c ∈ stops := by
  rcases h with rfl | rfl <;> decide

variable {right : Char} {fuel : Nat} {done : List α} {u : Text}

/-- The last item, with white space between it and the closing bracket. -/
theorem readItems_last (hright : IsClosing right) (hitem : item p = .ok (a, r))
    (hr : r.Reads (u ++ [right]) q) (hu : ∀ c ∈ u, isSpace c = true) :
    readItems right item (fuel + 1) p done = .ok ((a :: done).reverse, q) := by
  obtain ⟨s, hblanks, hclose⟩ := hr.append_cases
  have hhead : s.rest.head? = some right := by rw [hclose.rest]; rfl
  have hskip : skipSpace r = s :=
    skipSpace_of_reads hblanks hu (by rw [hhead]; exact hright.isSpace_eq)
  rw [readItems, hitem]
  dsimp only
  rw [hskip, if_pos (beq_iff_eq.mpr hhead), hclose.eq_drop]
  rfl

/-- An item with a comma behind it. -/
theorem readItems_more (hright : IsClosing right) (hitem : item p = .ok (a, r))
    (hr : r.Reads (',' :: u) s) (hu : ∀ c ∈ u, isSpace c = true)
    (hs : s.rest.head?.any isSpace = false) :
    readItems right item (fuel + 1) p done = readItems right item fuel s (a :: done) := by
  have hhead : r.rest.head? = some ',' := by rw [hr.rest]; rfl
  have hskip : skipSpace r = r := skipSpace_eq_self (by rw [hhead]; rfl)
  have hother : ¬ (r.rest.head? == some right) = true := by
    rw [hhead, beq_iff_eq, Option.some.injEq]
    exact hright.ne_comma.symm
  rw [readItems, hitem]
  dsimp only
  rw [hskip, if_neg hother, if_pos (beq_iff_eq.mpr hhead), skipSpace_drop hr hu hs]

/-- Items with commas between them are read in order. -/
theorem readItems_join (hright : IsClosing right)
    (hseparator : ∃ u, separator = ',' :: u ∧ ∀ c ∈ u, isSpace c = true)
    (hclosing : ∀ c ∈ closing, isSpace c = true) (ha : Spells item a t)
    (hitems : List.Forall₂ (Spells item) items pieces)
    (hread : p.Reads (Text.join separator (t :: pieces) ++ (closing ++ [right])) q)
    (hfuel : items.length < fuel) :
    readItems right item fuel p done = .ok (done.reverse ++ a :: items, q) := by
  obtain ⟨fuel, rfl⟩ : ∃ k, fuel = k + 1 := ⟨fuel - 1, by omega⟩
  induction hitems generalizing a t p fuel done with
  | nil =>
    rw [Text.join, List.intercalate_singleton] at hread
    obtain ⟨r, ht, hr⟩ := hread.append_cases
    have hends : Ends r.rest := ends_of_reads hr (by simp) (List.forall_mem_append.mpr
      ⟨fun c hc => mem_stops_of_isSpace (hclosing c hc),
        List.forall_mem_singleton.mpr hright.mem_stops⟩)
    rw [readItems_last hright (ha.read ht hends) hr hclosing, List.reverse_cons]
  | @cons b u items pieces hb _ ih =>
    rw [Text.join, List.intercalate_cons_cons, List.append_assoc, List.append_assoc] at hread
    obtain ⟨r, ht, hrest⟩ := hread.append_cases
    obtain ⟨s, hr, hmore⟩ := hrest.append_cases
    obtain ⟨blanks, hcomma, hblanks⟩ := hseparator
    rw [hcomma] at hr
    have hends : Ends r.rest := ends_of_reads hr (List.cons_ne_nil _ _)
      (List.forall_mem_cons.mpr ⟨by decide, fun c hc => mem_stops_of_isSpace (hblanks c hc)⟩)
    -- one item is taken off the bound for every comma
    obtain ⟨fuel, rfl⟩ : ∃ k, fuel = k + 1 := ⟨fuel - 1, by simp at hfuel; omega⟩
    rw [readItems_more hright (ha.read ht hends) hr hblanks (hb.head?_join hmore).1,
      ih hb hmore fuel (by simpa using hfuel), List.reverse_cons, List.append_assoc]
    rfl

/-- What a layout puts between two brackets is read as the items. -/
theorem readBrackets_bracket (hright : IsClosing right) (hlayout : layout.Spaced)
    (hitems : List.Forall₂ (Spells item) items pieces) {level : Nat} {left : Char}
    (hread : p.Reads (bracket layout level left right pieces) q) :
    readBrackets right item p = .ok (items, q) := by
  unfold readBrackets
  dsimp only
  cases hitems with
  | nil =>
    obtain ⟨r, hopen, hclose⟩ := Place.Reads.append_cases (t := [left]) (u := [right]) hread
    have hhead : r.rest.head? = some right := by rw [hclose.rest]; rfl
    have hskip : skipSpace (p.drop 1) = r :=
      skipSpace_drop hopen (List.forall_mem_nil _) (by rw [hhead]; exact hright.isSpace_eq)
    rw [hskip, if_pos (beq_iff_eq.mpr hhead), hclose.eq_drop]
    rfl
  | @cons a t items pieces ha hitems =>
    rw [bracket_cons] at hread
    obtain ⟨r, hopen, hrest⟩ := hread.append_cases
    obtain ⟨hspace, hbracket, hbrace⟩ := ha.head?_join hrest
    -- an item begins with none of the closing brackets
    have hother : ¬ (r.rest.head? == some right) = true := by
      rw [beq_iff_eq]
      rcases hright with rfl | rfl
      · exact hbracket
      · exact hbrace
    have hfuel : items.length < r.rest.length + 1 := by
      have hlength := length_le_join (.cons ha hitems) (layout.separator level)
      rw [hrest.rest]
      simp only [List.length_append, List.length_cons] at hlength ⊢
      omega
    rw [skipSpace_drop hopen (hlayout.opening level) hspace, if_neg hother,
      readItems_join hright (hlayout.separator level) (hlayout.closing level) ha hitems hrest hfuel]
    rfl

/-! ## Arrays and objects -/

variable {depth : Nat}

/-- What a layout puts between two brackets spells a value, if these are the brackets of such a
value. -/
theorem spells_bracket {left : Char} (make : List α → Value) (hleft : Opens left)
    (hright : IsClosing right)
    (hvalue : ∀ p : Place, p.rest.head? = some left → readValue (depth + 1) p =
      (readBrackets right item p).map fun x => (make x.1, x.2))
    (hlayout : layout.Spaced) (hitems : List.Forall₂ (Spells item) items pieces) (level : Nat) :
    Spells (readValue (depth + 1)) (make items) (bracket layout level left right pieces) := by
  have hfirst : ∃ u, bracket layout level left right pieces = left :: u := by
    cases pieces with
    | nil => exact ⟨[right], rfl⟩
    | cons t pieces => exact ⟨_, bracket_cons layout level left right t pieces⟩
  obtain ⟨u, hu⟩ := hfirst
  refine ⟨⟨left, u, hu, hleft⟩, fun {p q} hread _ => ?_⟩
  have hhead : p.rest.head? = some left := by rw [hread.rest, hu]; rfl
  rw [hvalue p hhead, readBrackets_bracket hright hlayout hitems hread]
  rfl

theorem spells_array {items : List Value} (hlayout : layout.Spaced)
    (hitems : List.Forall₂ (Spells (readValue depth)) items pieces) (level : Nat) :
    Spells (readValue (depth + 1)) (.array items) (bracket layout level '[' ']' pieces) := by
  refine spells_bracket .array (by decide) (.inl rfl) (fun p hp => ?_) hlayout hitems level
  obtain ⟨index, rest⟩ := p
  obtain ⟨u, rfl⟩ := List.head?_eq_some_iff.mp hp
  rw [readValue]
  rfl

theorem spells_member {item : Place → Reading Value} {name : Text} {v : Value}
    (h : Spells item v t) :
    Spells (readMember item) (name, v) (encode name ++ ':' :: ' ' :: t) := by
  refine ⟨⟨'"', _, rfl, by decide⟩, fun {p q} hread hq => ?_⟩
  · obtain ⟨r, hname, hrest⟩ := hread.append_cases
    obtain ⟨s, hcolon, ht⟩ := Place.Reads.append_cases (t := [':', ' ']) hrest
    obtain ⟨rest, hp, hstring⟩ := readString_encode hname
    have hr : skipSpace r = r := skipSpace_eq_self (by rw [hcolon.rest]; rfl)
    have hs : skipSpace (r.drop 1) = s :=
      skipSpace_drop hcolon (List.forall_mem_singleton.mpr rfl) (h.head?_rest ht).1
    unfold readMember
    split
    · rename_i rest' hp'
      rw [hp] at hp'
      cases hp'
      rw [hstring]
      dsimp only
      rw [hr]
      split
      · rw [hs, h.read ht hq]
        dsimp only
        rw [name_foldl_push]
      · rename_i hnot
        exact absurd hcolon.rest (hnot _)
    · rename_i hnot
      exact absurd hp (hnot _)

theorem spells_object {members : List (Text × Value)} (hlayout : layout.Spaced)
    (hmembers : List.Forall₂ (Spells (readMember (readValue depth))) members pieces)
    (hnames : (Members.names members).Nodup) (level : Nat) :
    Spells (readValue (depth + 1)) (.object members)
      (bracket layout level '\x7b' '\x7d' pieces) := by
  have hobject : Value.object members = .object (Members.ofList members) := by
    rw [Members.ofList_eq_self hnames]
  rw [hobject]
  refine spells_bracket (fun ms => .object (Members.ofList ms)) (by decide) (.inr rfl)
    (fun p hp => ?_) hlayout hmembers level
  obtain ⟨index, rest⟩ := p
  obtain ⟨u, rfl⟩ := List.head?_eq_some_iff.mp hp
  rw [readValue]
  rfl

/-! ## Plain data -/

theorem exists_writeItems {items : List Value} (level : Nat)
    (h : ∀ v ∈ items, ∃ t, writeAt layout level v = .ok t ∧ Spells (readValue depth) v t) :
    ∃ pieces, writeItems layout level items = .ok pieces ∧
      List.Forall₂ (Spells (readValue depth)) items pieces := by
  induction items with
  | nil => exact ⟨[], rfl, .nil⟩
  | cons v items ih =>
    obtain ⟨t, ht, hv⟩ := h v (by simp)
    obtain ⟨pieces, hpieces, hitems⟩ := ih fun w hw => h w (by simp [hw])
    refine ⟨t :: pieces, ?_, .cons hv hitems⟩
    rw [writeItems, ht, hpieces]
    rfl

theorem exists_writeMembers {members : List (Text × Value)} (level : Nat)
    (h : ∀ m ∈ members, ∃ t, writeAt layout level m.2 = .ok t ∧
      Spells (readValue depth) m.2 t) :
    ∃ pieces, writeMembers layout level members = .ok pieces ∧
      List.Forall₂ (Spells (readMember (readValue depth))) members pieces := by
  induction members with
  | nil => exact ⟨[], rfl, .nil⟩
  | cons m members ih =>
    obtain ⟨name, v⟩ := m
    obtain ⟨t, ht, hv⟩ := h (name, v) (by simp)
    obtain ⟨pieces, hpieces, hmembers⟩ := ih fun w hw => h w (by simp [hw])
    refine ⟨(encode name ++ ':' :: ' ' :: t) :: pieces, ?_, .cons (spells_member hv) hmembers⟩
    rw [writeMembers]
    dsimp only at ht
    rw [ht, hpieces]
    rfl

theorem exists_writeInt {n : Int} (h : (Text.ofNat n.natAbs).length ≤ Number.digitLimit) :
    ∃ t, writeInt n = .ok t := by
  rw [writeInt, if_neg (Nat.not_lt.mpr h)]
  exact ⟨_, rfl⟩

/-- Plain data can be written, and what is written spells it. -/
theorem exists_writeAt (hlayout : layout.Spaced) {depth : Nat} {v : Value} (hv : v.Plain depth)
    (level : Nat) :
    ∃ t, writeAt layout level v = .ok t ∧ Spells (readValue depth) v t := by
  cases v with
  | null => exact ⟨_, rfl, spells_null⟩
  | bool b => exact ⟨_, rfl, spells_bool b⟩
  | int n =>
    obtain ⟨t, ht⟩ := exists_writeInt (n := n) (by simpa [Value.Plain] using hv)
    exact ⟨t, ht, spells_int ht⟩
  | string t => exact ⟨_, rfl, spells_string t⟩
  | float x => simp [Value.Plain] at hv
  | damaged t halves => simp [Value.Plain] at hv
  | array items =>
    cases depth with
    | zero => simp [Value.Plain] at hv
    | succ depth =>
      obtain ⟨pieces, hpieces, hitems⟩ := exists_writeItems (level + 1) fun v hmem =>
        exists_writeAt hlayout (hv v hmem) (level + 1)
      refine ⟨_, ?_, spells_array hlayout hitems level⟩
      rw [writeAt, hpieces]
      rfl
  | object members =>
    cases depth with
    | zero => simp [Value.Plain] at hv
    | succ depth =>
      obtain ⟨pieces, hpieces, hmembers⟩ := exists_writeMembers (level + 1) fun m hmem =>
        exists_writeAt hlayout (hv.2 m hmem) (level + 1)
      refine ⟨_, ?_, spells_object hlayout hmembers hv.1 level⟩
      rw [writeAt, hpieces]
      rfl
termination_by depth

variable [Nesting]

/-- What spells a value is read as the value, also with white space behind it. -/
theorem read_of_spells {v : Value} {t blanks : Text} (h : Spells (readValue Nesting.limit) v t)
    (hblanks : ∀ c ∈ blanks, isSpace c = true) : read (t ++ blanks) = .ok v := by
  have hread : (Place.start (t ++ blanks)).Reads t ⟨t.length, blanks⟩ :=
    ⟨rfl, (Nat.zero_add _).symm⟩
  have hrest : Place.Reads ⟨t.length, blanks⟩ blanks ⟨t.length + blanks.length, []⟩ :=
    ⟨(List.append_nil blanks).symm, rfl⟩
  have hends : Ends blanks := fun c hc => mem_stops_of_isSpace (hblanks c (List.mem_of_head? hc))
  obtain ⟨c, u, hcons, hopens⟩ := h.first
  have hmark : ¬ (t ++ blanks).head? = some (Char.ofNat 0xfeff) := by
    rw [hcons, List.cons_append, List.head?_cons, Option.some.injEq]
    exact hopens.2.2.2
  have hstart : skipSpace (.start (t ++ blanks)) = .start (t ++ blanks) :=
    skipSpace_eq_self (h.head?_rest hread).1
  have hend : skipSpace ⟨t.length, blanks⟩ = ⟨t.length + blanks.length, []⟩ :=
    skipSpace_of_reads hrest hblanks rfl
  rw [read, if_neg (by simpa using hmark), hstart, h.read hread hends]
  dsimp only
  rw [hend]
  rfl

/-- Plain data survives writing and reading. -/
theorem read_write {v : Value} (hv : v.Plain Nesting.limit) :
    ∃ t, write v = .ok t ∧ read t = .ok v ∧ Spells (readValue Nesting.limit) v t := by
  obtain ⟨t, ht, hspells⟩ := exists_writeAt spaced_oneLine hv 0
  have hread := read_of_spells hspells (List.forall_mem_nil _)
  rw [List.append_nil] at hread
  exact ⟨t, ht, hread, hspells⟩

/-- So it does if it is written over several lines, whatever white space follows. -/
theorem read_writeIndented {v : Value} (hv : v.Plain Nesting.limit) :
    ∃ t, writeIndented v = .ok t ∧
      ∀ blanks : Text, (∀ c ∈ blanks, isSpace c = true) → read (t ++ blanks) = .ok v := by
  obtain ⟨t, ht, hspells⟩ := exists_writeAt spaced_indented hv 0
  exact ⟨t, ht, fun _ hblanks => read_of_spells hspells hblanks⟩

end Json

end OperationScan
