import OperationScan.Proofs.Json.Values
import OperationScan.Proofs.Json.Writable

/-!
# JSON on one line

* `printable_write`: what is written on one line for plain data has printable characters of ASCII
  only. In particular no line ends in it.
-/

namespace OperationScan.Json

variable {pieces : List Text}

theorem printable_join (h : ∀ t ∈ pieces, ∀ c ∈ t, IsPrintableAscii c) :
    ∀ c ∈ Text.join ", ".toList pieces, IsPrintableAscii c := by
  induction pieces with
  | nil => simp [Text.join]
  | cons t pieces ih =>
    obtain ⟨ht, hpieces⟩ := List.forall_mem_cons.mp h
    cases pieces with
    | nil =>
      rw [Text.join, List.intercalate_singleton]
      exact ht
    | cons t' pieces =>
      rw [Text.join, List.intercalate_cons_cons, List.forall_mem_append, List.forall_mem_append]
      exact ⟨⟨ht, printable_of_all rfl⟩, ih hpieces⟩

theorem printable_bracket (h : ∀ t ∈ pieces, ∀ c ∈ t, IsPrintableAscii c) (level : Nat)
    {left right : Char} (hleft : IsPrintableAscii left) (hright : IsPrintableAscii right) :
    ∀ c ∈ bracket .oneLine level left right pieces, IsPrintableAscii c := by
  cases pieces with
  | nil => exact List.forall_mem_cons.mpr ⟨hleft, by simpa using hright⟩
  | cons t pieces =>
    rw [bracket_cons, List.forall_mem_append, List.forall_mem_append]
    refine ⟨List.forall_mem_cons.mpr ⟨hleft, List.forall_mem_nil _⟩, printable_join h, ?_⟩
    exact List.forall_mem_singleton.mpr hright

theorem printable_writeItems {items : List Value} (level : Nat)
    (h : writeItems .oneLine level items = .ok pieces)
    (hitem : ∀ v ∈ items, ∀ t, writeAt .oneLine level v = .ok t → ∀ c ∈ t, IsPrintableAscii c) :
    ∀ t ∈ pieces, ∀ c ∈ t, IsPrintableAscii c := by
  induction items generalizing pieces with
  | nil =>
    cases h
    exact List.forall_mem_nil _
  | cons v items ih =>
    obtain ⟨hv, hitems⟩ := List.forall_mem_cons.mp hitem
    rw [writeItems] at h
    obtain ⟨t, ht, h⟩ := exists_of_bind_eq_ok h
    obtain ⟨more, hmore, h⟩ := exists_of_bind_eq_ok h
    cases h
    exact List.forall_mem_cons.mpr ⟨hv t ht, ih hmore hitems⟩

theorem printable_writeMembers {members : List (Text × Value)} (level : Nat)
    (h : writeMembers .oneLine level members = .ok pieces)
    (hmember : ∀ m ∈ members, ∀ t, writeAt .oneLine level m.2 = .ok t →
      ∀ c ∈ t, IsPrintableAscii c) :
    ∀ t ∈ pieces, ∀ c ∈ t, IsPrintableAscii c := by
  induction members generalizing pieces with
  | nil =>
    cases h
    exact List.forall_mem_nil _
  | cons m members ih =>
    obtain ⟨name, v⟩ := m
    obtain ⟨hv, hmembers⟩ := List.forall_mem_cons.mp hmember
    rw [writeMembers] at h
    obtain ⟨t, ht, h⟩ := exists_of_bind_eq_ok h
    obtain ⟨more, hmore, h⟩ := exists_of_bind_eq_ok h
    cases h
    refine List.forall_mem_cons.mpr ⟨?_, ih hmore hmembers⟩
    rw [List.forall_mem_append, List.forall_mem_cons, List.forall_mem_cons]
    exact ⟨printable_encode name, by decide, by decide, hv t ht⟩

theorem printable_writeAt {depth : Nat} {v : Value} {t : Text} (hv : v.Plain depth)
    (level : Nat) (h : writeAt .oneLine level v = .ok t) : ∀ c ∈ t, IsPrintableAscii c := by
  cases v with
  | null =>
    cases h
    exact printable_of_all rfl
  | bool b =>
    cases h
    cases b <;> exact printable_of_all rfl
  | int n => exact printable_writeInt h
  | string s =>
    cases h
    exact printable_encode s
  | float x => simp [Value.Plain] at hv
  | damaged s halves => simp [Value.Plain] at hv
  | array items =>
    cases depth with
    | zero => simp [Value.Plain] at hv
    | succ depth =>
      rw [writeAt] at h
      obtain ⟨pieces, hpieces, h⟩ := exists_of_bind_eq_ok h
      have hitems := printable_writeItems (level + 1) hpieces fun v hmem _ ht =>
        printable_writeAt (hv v hmem) (level + 1) ht
      cases h
      exact printable_bracket hitems level (by decide) (by decide)
  | object members =>
    cases depth with
    | zero => simp [Value.Plain] at hv
    | succ depth =>
      rw [writeAt] at h
      obtain ⟨pieces, hpieces, h⟩ := exists_of_bind_eq_ok h
      have hmembers := printable_writeMembers (level + 1) hpieces fun m hmem _ ht =>
        printable_writeAt (hv.2 m hmem) (level + 1) ht
      cases h
      exact printable_bracket hmembers level (by decide) (by decide)
termination_by depth

theorem printable_write [Nesting] {v : Value} {t : Text} (hv : v.Plain Nesting.limit)
    (h : write v = .ok t) : ∀ c ∈ t, IsPrintableAscii c :=
  printable_writeAt hv 0 h

end OperationScan.Json
