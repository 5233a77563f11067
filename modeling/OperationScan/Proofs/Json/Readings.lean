import OperationScan.Json.Reader
import OperationScan.Proofs.Text.Reads
import OperationScan.Proofs.Value.Members

/-!
# What is read as a value

Every reader goes on through the text that it is given. So each string of a value has been read
somewhere in the text, and a value is put together from such strings, from numbers and from words.

* `Json.IsRead`: one step of reading a value, with the place behind it.
* `Json.ReadIn`: the values that are put together from what is read in a text.
* `Json.ReadsIn.brackets`: what stands between brackets is read item by item.
* `Json.readIn_of_read`: the value of a text is such a value.
-/

namespace OperationScan.Json

variable {item : Place → Reading Value} {p q : Place} {v : Value} {fuel depth index opening : Nat}
  {s s' : Spelled} {t w rest : Text}

/-! ## Places -/

theorem suffix_skipSpace (p : Place) : (skipSpace p).rest <:+ p.rest := by
  rw [skipSpace, Place.rest_skip]
  exact List.dropWhile_suffix _

theorem suffix_drop (p : Place) (n : Nat) : (p.drop n).rest <:+ p.rest := List.drop_suffix n p.rest

theorem suffix_of_readString {skipped : Nat}
    (h : readString opening index skipped t s = .ok (s', q)) : q.rest <:+ t := by
  fun_induction readString opening index skipped t s with
  | case2 index s skipped c rest ih => exact (ih h).trans (List.suffix_cons _ _)
  | case3 index c rest s =>
    cases h
    exact List.suffix_cons _ _
  | case5 index c s _ _ digits n rest length _ ih => exact (ih h).trans (List.suffix_cons _ _)
  | case7 index c s _ _ e more _ x _ ih => exact (ih h).trans (List.suffix_cons _ _)
  | case10 index c rest s _ _ _ ih => exact (ih h).trans (List.suffix_cons _ _)
  | case1 | case4 | case6 | case8 | case9 => cases h

theorem suffix_of_readWord? (h : readWord? p = some (v, q)) : q.rest <:+ p.rest := by
  obtain ⟨w, -, hread⟩ := List.exists_of_findSome?_eq_some h
  obtain ⟨r, hskip, heq⟩ := Option.map_eq_some_iff.mp hread
  cases heq
  exact ⟨w.1, (Place.skipLiteral?_eq_some_iff.mp hskip).rest.symm⟩

/-! ## Numbers and words -/

/-- A value without parts and without text. -/
def IsBare : Value → Prop
  | .null | .bool _ | .int _ | .float _ => True
  | _ => False

theorem isBare_of_readWord? (h : readWord? p = some (v, q)) : IsBare v := by
  have hwords : ∀ w ∈ wordValues, IsBare w.2 := by
    simp [wordValues, IsBare]
  obtain ⟨w, hw, hread⟩ := List.exists_of_findSome?_eq_some h
  obtain ⟨r, -, heq⟩ := Option.map_eq_some_iff.mp hread
  cases heq
  exact hwords w hw

/-- A number is a bare value, and reading goes on behind it. -/
theorem bare_of_readNumber (h : readNumber p = .ok (v, q)) : IsBare v ∧ q.rest <:+ p.rest := by
  unfold readNumber at h
  extract_lets negative body whole behind fraction afterFraction exponent rest place at h
  have hbody : body <:+ p.rest := by
    unfold body
    split
    · exact List.drop_suffix 1 _
    · exact List.suffix_refl _
  have hafter : afterFraction <:+ behind := by
    unfold afterFraction
    split
    · exact List.suffix_refl _
    · exact List.drop_suffix _ _
  have hplace : place.rest <:+ p.rest :=
    ((List.drop_suffix _ _).trans (hafter.trans (List.drop_suffix _ _))).trans hbody
  split at h
  · cases h
  · split at h
    · split at h
      · cases h
      · split at h
        · obtain ⟨rfl, rfl⟩ := Prod.mk.inj (Except.ok.inj h)
          exact ⟨trivial, hplace⟩
        · cases h
    · split at h
      · obtain ⟨rfl, rfl⟩ := Prod.mk.inj (Except.ok.inj h)
        exact ⟨trivial, hplace⟩
      · cases h

/-! ## Values -/

/-- One step of reading a value: what it is, and the place behind it. -/
inductive IsRead (depth : Nat) (p : Place) : Value → Place → Prop
  | string {s : Spelled} {rest : Text} {q : Place} (hrest : p.rest = '"' :: rest)
      (h : readString p.index (p.index + 1) 0 rest .none = .ok (s, q)) : IsRead depth p s.value q
  | bare {v : Value} {q : Place} (hv : IsBare v) (hq : q.rest <:+ p.rest) : IsRead depth p v q
  | array {items : List Value} {d : Nat} {q : Place} (hhead : p.rest.head? = some '[')
      (hdepth : depth = d + 1) (h : readBrackets ']' (readValue d) p = .ok (items, q)) :
      IsRead depth p (.array items) q
  | object {entries : List (Text × Value)} {d : Nat} {q : Place}
      (hhead : p.rest.head? = some '\x7b') (hdepth : depth = d + 1)
      (h : readBrackets '\x7d' (readMember (readValue d)) p = .ok (entries, q)) :
      IsRead depth p (.object (Members.ofList entries)) q

theorem isRead_of_readValue (h : readValue depth p = .ok (v, q)) : IsRead depth p v q := by
  unfold readValue at h
  split at h
  · rename_i hrest
    split at h
    · cases h
    · rename_i hstring
      cases h
      exact .string hrest hstring
  · rename_i hrest
    split at h
    · cases h
    · rename_i d
      cases hitems : readBrackets ']' (readValue d) p with
      | error e =>
        rw [hitems] at h
        cases h
      | ok x =>
        rw [hitems] at h
        cases h
        exact .array (by rw [hrest]; rfl) rfl hitems
  · rename_i hrest
    split at h
    · cases h
    · rename_i d
      cases hentries : readBrackets '\x7d' (readMember (readValue d)) p with
      | error e =>
        rw [hentries] at h
        cases h
      | ok x =>
        rw [hentries] at h
        cases h
        exact .object (by rw [hrest]; rfl) rfl hentries
  · split at h
    · rename_i hword
      cases h
      exact .bare (isBare_of_readWord? hword) (suffix_of_readWord? hword)
    · obtain ⟨hv, hq⟩ := bare_of_readNumber h
      exact .bare hv hq

theorem exists_of_read [Nesting] (h : read t = .ok v) :
    ∃ q, readValue Nesting.limit (skipSpace (.start t)) = .ok (v, q) := by
  unfold read at h
  split at h
  · cases h
  · split at h
    · cases h
    · rename_i hvalue
      dsimp only at h
      split at h
      · cases h
        exact ⟨_, hvalue⟩
      · cases h

/-! ## What is read in a text -/

/-- A value all of whose strings are read somewhere in a text. -/
inductive ReadIn (w : Text) : Value → Prop
  | string {opening index : Nat} {rest : Text} {s : Spelled} {q : Place} (hrest : rest <:+ w)
      (h : readString opening index 0 rest .none = .ok (s, q)) : ReadIn w s.value
  | bare {v : Value} (hv : IsBare v) : ReadIn w v
  | array {items : List Value} (hitems : ∀ v ∈ items, ReadIn w v) : ReadIn w (.array items)
  | object {entries : List (Text × Value)} (hentries : ∀ m ∈ entries, ReadIn w m.2) :
      ReadIn w (.object (Members.ofList entries))

/-- What a reader gives in a text has a property, and it goes on through the text. -/
def ReadsIn {α : Type} (w : Text) (P : α → Prop) (item : Place → Reading α) : Prop :=
  ∀ ⦃p q a⦄, p.rest <:+ w → item p = .ok (a, q) → P a ∧ q.rest <:+ w

section Items

variable {α : Type} {P : α → Prop} {item : Place → Reading α} {right : Char}

theorem ReadsIn.items (hitem : ReadsIn w P item) {done items : List α}
    (hdone : ∀ a ∈ done, P a) (hp : p.rest <:+ w)
    (h : readItems right item fuel p done = .ok (items, q)) :
    (∀ a ∈ items, P a) ∧ q.rest <:+ w := by
  induction fuel generalizing p done with
  | zero => cases h
  | succ fuel ih =>
    rw [readItems] at h
    split at h
    · cases h
    · rename_i a r ha
      obtain ⟨hread, hr⟩ := hitem hp ha
      have hmore : ∀ x ∈ a :: done, P x := List.forall_mem_cons.mpr ⟨hread, hdone⟩
      have hbehind : (skipSpace r).rest <:+ w := (suffix_skipSpace r).trans hr
      dsimp only at h
      split at h
      · cases h
        exact ⟨fun x hx => hmore x (List.mem_reverse.mp hx), (suffix_drop _ _).trans hbehind⟩
      · split at h
        · exact ih hmore ((suffix_skipSpace _).trans ((suffix_drop _ _).trans hbehind)) h
        · cases h

/-- What stands between brackets is read item by item. -/
theorem ReadsIn.brackets (hitem : ReadsIn w P item) :
    ReadsIn w (fun items => ∀ a ∈ items, P a) (readBrackets right item) := by
  intro p q items hp h
  have hinner : (skipSpace (p.drop 1)).rest <:+ w :=
    (suffix_skipSpace _).trans ((suffix_drop p 1).trans hp)
  unfold readBrackets at h
  dsimp only at h
  split at h
  · cases h
    exact ⟨by simp, (suffix_drop _ _).trans hinner⟩
  · exact hitem.items (by simp) hinner h

end Items

theorem ReadsIn.member (hitem : ReadsIn w (ReadIn w) item) :
    ReadsIn w (fun m : Text × Value => ReadIn w m.2) (readMember item) := by
  intro p q m hp h
  unfold readMember at h
  split at h
  · rename_i rest hrest
    have hname : rest <:+ w := (List.suffix_cons _ _).trans (hrest ▸ hp)
    split at h
    · cases h
    · rename_i r hr
      have hbehind : (skipSpace r).rest <:+ w :=
        (suffix_skipSpace r).trans ((suffix_of_readString hr).trans hname)
      dsimp only at h
      split at h
      · split at h
        · cases h
        · rename_i hv
          cases h
          exact hitem ((suffix_skipSpace _).trans ((suffix_drop _ _).trans hbehind)) hv
      · cases h
  · cases h

theorem readsIn_readValue (w : Text) (depth : Nat) : ReadsIn w (ReadIn w) (readValue depth) := by
  induction depth using Nat.strong_induction_on with
  | _ depth ih =>
    intro p q v hp h
    cases isRead_of_readValue h with
    | string hrest hstring =>
      have hbehind := (List.suffix_cons _ _).trans (hrest ▸ hp)
      exact ⟨.string hbehind hstring, (suffix_of_readString hstring).trans hbehind⟩
    | bare hv hq => exact ⟨.bare hv, hq.trans hp⟩
    | array _ hdepth hitems =>
      subst hdepth
      obtain ⟨hread, hq⟩ := (ih _ (Nat.lt_succ_self _)).brackets hp hitems
      exact ⟨.array hread, hq⟩
    | object _ hdepth hentries =>
      subst hdepth
      obtain ⟨hread, hq⟩ := (ih _ (Nat.lt_succ_self _)).member.brackets hp hentries
      exact ⟨.object hread, hq⟩

/-- The value of a text is read in it. -/
theorem readIn_of_read [Nesting] (h : read t = .ok v) : ReadIn t v := by
  obtain ⟨q, hvalue⟩ := exists_of_read h
  exact (readsIn_readValue t Nesting.limit (suffix_skipSpace _) hvalue).1

end OperationScan.Json
