import Mathlib.Computability.Language
import OperationScan.Pattern.Scan
import OperationScan.Proofs.Pattern.Found

/-!
# Balanced groups of braces

A group is balanced text between braces. The search for groups counts open braces and gives up
where too many are open; the pattern that it stands for is spelled out level by level, each level
being braces around characters and groups of the level below.

* `IsBalanced`, `deepest`: balanced text, and how many braces are open in it at a time.
* `IsGroup`: the balanced groups of bounded nesting.
* `length?_eq_some_iff`: the search at one place finds the group that begins there.
* `mem_nestedBraces_iff`: the texts that the pattern matches are the groups.
* `spans_nestedBraces`: the search in a whole text, from left to right.
-/

namespace OperationScan.Braces

open Computability

/-- Text in which every brace has its partner. -/
inductive IsBalanced : Text → Prop where
  | nil : IsBalanced []
  | plain {c : Char} {t : Text} (hopen : c ≠ '\x7b') (hclose : c ≠ '\x7d') (h : IsBalanced t) :
      IsBalanced (c :: t)
  | group {t u : Text} (h : IsBalanced t) (hrest : IsBalanced u) :
      IsBalanced ('\x7b' :: (t ++ '\x7d' :: u))

/-- The greatest number of braces that are open at a time, counted from those open in front of a
text. -/
def deepest : (open' : Nat) → Text → Nat
  | n, [] => n
  | n, c :: t =>
    if c = '\x7b' then deepest (n + 1) t
    else if c = '\x7d' then max n (deepest (n - 1) t)
    else deepest n t

/-- Balanced text between braces, at most so many levels of groups below the outer one. -/
structure IsGroup (depth : Nat) (t : Text) : Prop where
  balanced : ∃ inner, IsBalanced inner ∧ t = '\x7b' :: (inner ++ ['\x7d'])
  nesting : deepest 0 t ≤ depth + 1

variable {n count m most depth index : Nat} {c : Char} {t u v : Text}

/-! ## Nesting -/

@[simp]
theorem deepest_nil (n : Nat) : deepest n [] = n := rfl

@[simp]
theorem deepest_open (n : Nat) (t : Text) : deepest n ('\x7b' :: t) = deepest (n + 1) t := rfl

@[simp]
theorem deepest_close (n : Nat) (t : Text) :
    deepest n ('\x7d' :: t) = max n (deepest (n - 1) t) := rfl

theorem deepest_plain (hopen : c ≠ '\x7b') (hclose : c ≠ '\x7d') (n : Nat) (t : Text) :
    deepest n (c :: t) = deepest n t := by
  rw [deepest, if_neg hopen, if_neg hclose]

theorem le_deepest (n : Nat) (t : Text) : n ≤ deepest n t := by
  induction t generalizing n with
  | nil => exact Nat.le_refl n
  | cons c t ih =>
    rw [deepest]
    split
    · exact Nat.le_of_succ_le (ih (n + 1))
    · split
      · exact Nat.le_max_left _ _
      · exact ih n

/-- Behind balanced text as many braces are open as in front of it. -/
theorem IsBalanced.deepest_append (h : IsBalanced t) (n : Nat) (u : Text) :
    deepest n (t ++ u) = max (deepest n t) (deepest n u) := by
  induction h generalizing n u with
  | nil => exact (Nat.max_eq_right (le_deepest n u)).symm
  | plain hopen hclose _ ih =>
    rw [List.cons_append, deepest_plain hopen hclose, deepest_plain hopen hclose, ih]
  | @group t v _ _ ih ihrest =>
    rw [List.cons_append, List.append_assoc, List.cons_append, deepest_open, deepest_open, ih, ih,
      deepest_close, deepest_close, Nat.add_sub_cancel, ihrest]
    omega

/-- What is open in front of balanced text stays open. -/
theorem IsBalanced.deepest_eq (h : IsBalanced t) (n : Nat) : deepest n t = n + deepest 0 t := by
  induction h generalizing n with
  | nil => rfl
  | plain hopen hclose _ ih => rw [deepest_plain hopen hclose, deepest_plain hopen hclose, ih]
  | @group t v h _ ih ihrest =>
    rw [deepest_open, deepest_open, h.deepest_append, h.deepest_append, ih, ih (0 + 1),
      deepest_close, deepest_close, Nat.add_sub_cancel, Nat.add_sub_cancel, ihrest]
    omega

theorem IsBalanced.deepest_braced (h : IsBalanced t) :
    deepest 0 ('\x7b' :: (t ++ ['\x7d'])) = deepest 0 t + 1 := by
  rw [deepest_open, h.deepest_append, h.deepest_eq, deepest_close, deepest_nil]
  omega

/-- A group is balanced text between braces with one level less. -/
theorem isGroup_iff : IsGroup depth t ↔
    ∃ inner, IsBalanced inner ∧ deepest 0 inner ≤ depth ∧ t = '\x7b' :: (inner ++ ['\x7d']) := by
  constructor
  · rintro ⟨⟨inner, hinner, rfl⟩, hnesting⟩
    rw [hinner.deepest_braced] at hnesting
    exact ⟨inner, hinner, Nat.le_of_succ_le_succ hnesting, rfl⟩
  · rintro ⟨inner, hinner, hdepth, rfl⟩
    refine ⟨⟨inner, hinner, rfl⟩, ?_⟩
    rw [hinner.deepest_braced]
    exact Nat.succ_le_succ hdepth

theorem IsGroup.ne_nil (h : IsGroup depth t) : t ≠ [] := by
  obtain ⟨⟨inner, -, rfl⟩, -⟩ := h
  exact List.cons_ne_nil _ _

theorem IsBalanced.append (h : IsBalanced t) (hu : IsBalanced u) : IsBalanced (t ++ u) := by
  induction h with
  | nil => exact hu
  | plain hopen hclose _ ih => exact .plain hopen hclose ih
  | @group t v h _ _ ihrest =>
    rw [List.cons_append, List.append_assoc, List.cons_append]
    exact .group h ihrest

/-! ## The search at one place -/

theorem lengthFrom?_open : lengthFrom? most n count ('\x7b' :: t) =
    if n < most then lengthFrom? most (n + 1) (count + 1) t else none := rfl

theorem lengthFrom?_last :
    lengthFrom? most 1 count ('\x7d' :: t) = some (count + 1) := rfl

theorem lengthFrom?_close (hn : 1 ≤ n) :
    lengthFrom? most (n + 1) count ('\x7d' :: t) = lengthFrom? most n (count + 1) t := by
  have hmore : ¬ n + 1 ≤ 1 := by omega
  simp [lengthFrom?, hmore]

theorem lengthFrom?_plain (hopen : c ≠ '\x7b') (hclose : c ≠ '\x7d') (hn : 1 ≤ n) :
    lengthFrom? most n count (c :: t) = lengthFrom? most n (count + 1) t := by
  have hzero : n ≠ 0 := by omega
  simp [lengthFrom?, hopen, hclose, hzero]

/-- Inside a group the search steps over balanced text that does not nest too deep. -/
theorem IsBalanced.lengthFrom?_append (h : IsBalanced t) (hn : 1 ≤ n)
    (hmost : deepest n t ≤ most) (count : Nat) (u : Text) :
    lengthFrom? most n count (t ++ u) = lengthFrom? most n (count + t.length) u := by
  induction h generalizing n count u with
  | nil => rfl
  | plain hopen hclose _ ih =>
    rw [deepest_plain hopen hclose] at hmost
    rw [List.cons_append, lengthFrom?_plain hopen hclose hn, ih hn hmost, List.length_cons]
    congr 1
    omega
  | @group t v h _ ih ihrest =>
    rw [deepest_open, h.deepest_append, deepest_close, Nat.add_sub_cancel] at hmost
    have hlt : n < most := by omega
    rw [List.cons_append, List.append_assoc, List.cons_append, lengthFrom?_open, if_pos hlt,
      ih (by omega) (by omega), lengthFrom?_close hn, ihrest hn (by omega)]
    congr 1
    simp only [List.length_cons, List.length_append]
    omega

/-- What is left for the search behind the brace that closes the innermost group. -/
def ClosesOuter (most n count m : Nat) (t : Text) : Prop :=
  if n = 1 then m = count else lengthFrom? most (n - 1) count t = some m

/-- What the search steps over up to the brace that closes the innermost group is balanced. -/
theorem exists_isBalanced (hn : 1 ≤ n) (hmost : n ≤ most)
    (h : lengthFrom? most n count t = some m) :
    ∃ inner rest, IsBalanced inner ∧ deepest n inner ≤ most ∧ t = inner ++ '\x7d' :: rest ∧
      ClosesOuter most n (count + inner.length + 1) m rest := by
  -- behind an inner group the text goes on, so what is left gets shorter but is no tail
  induction hlength : t.length using Nat.strongRecOn generalizing n count t with
  | ind k ih =>
    cases t with
    | nil => cases h
    | cons c t =>
      rw [List.length_cons] at hlength
      by_cases hopen : c = '\x7b'
      · subst hopen
        rw [lengthFrom?_open] at h
        by_cases hlt : n < most
        · rw [if_pos hlt] at h
          obtain ⟨inner, rest, hinner, hdeep, rfl, houter⟩ :=
            ih t.length (by omega) (n := n + 1) (by omega) hlt h rfl
          rw [ClosesOuter, if_neg (by omega), Nat.add_sub_cancel] at houter
          rw [List.length_append, List.length_cons] at hlength
          obtain ⟨inner', rest', hinner', hdeep', rfl, houter'⟩ :=
            ih rest.length (by omega) hn hmost houter rfl
          refine ⟨'\x7b' :: (inner ++ '\x7d' :: inner'), rest', .group hinner hinner', ?_, ?_, ?_⟩
          · rw [deepest_open, hinner.deepest_append, deepest_close, Nat.add_sub_cancel]
            omega
          · simp
          · convert houter' using 1
            simp only [List.length_cons, List.length_append]
            omega
        · rw [if_neg hlt] at h
          cases h
      by_cases hclose : c = '\x7d'
      · subst hclose
        refine ⟨[], t, .nil, hmost, rfl, ?_⟩
        unfold ClosesOuter
        by_cases hone : n = 1
        · subst hone
          rw [lengthFrom?_last] at h
          rw [if_pos rfl]
          exact (Option.some.inj h).symm
        · obtain ⟨n, rfl⟩ : ∃ k, n = k + 1 := ⟨n - 1, by omega⟩
          rw [lengthFrom?_close (by omega)] at h
          rw [if_neg hone]
          exact h
      · rw [lengthFrom?_plain hopen hclose hn] at h
        obtain ⟨inner, rest, hinner, hdeep, rfl, houter⟩ := ih t.length (by omega) hn hmost h rfl
        refine ⟨c :: inner, rest, .plain hopen hclose hinner, ?_, rfl, ?_⟩
        · rw [deepest_plain hopen hclose]
          exact hdeep
        · convert houter using 1
          rw [List.length_cons]
          omega

/-- The search at a place finds the group that begins there. -/
theorem length?_eq_some_iff : length? depth t = some m ↔
    ∃ u rest, t = u ++ rest ∧ IsGroup depth u ∧ m = u.length := by
  have hbegin : ∀ rest, length? depth ('\x7b' :: rest) = lengthFrom? (depth + 1) 1 1 rest :=
    fun _ => rfl
  constructor
  · intro h
    cases t with
    | nil => cases h
    | cons c t =>
      by_cases hopen : c = '\x7b'
      · subst hopen
        rw [hbegin] at h
        obtain ⟨inner, rest, hinner, hdeep, rfl, houter⟩ :=
          exists_isBalanced (Nat.le_refl 1) (by omega) h
        rw [ClosesOuter, if_pos rfl] at houter
        rw [hinner.deepest_eq] at hdeep
        refine ⟨'\x7b' :: (inner ++ ['\x7d']), rest, by simp, ?_, ?_⟩
        · exact isGroup_iff.mpr ⟨inner, hinner, by omega, rfl⟩
        · simp only [List.length_cons, List.length_append, List.length_nil]
          omega
      · have hnone : length? depth (c :: t) = none := by
          simp [length?, lengthFrom?, hopen]
        rw [hnone] at h
        cases h
  · rintro ⟨u, rest, rfl, hu, rfl⟩
    obtain ⟨inner, hinner, hdepth, rfl⟩ := isGroup_iff.mp hu
    have hdeep : deepest 1 inner ≤ depth + 1 := by
      rw [hinner.deepest_eq]
      omega
    rw [List.cons_append, hbegin, List.append_assoc,
      hinner.lengthFrom?_append (Nat.le_refl 1) hdeep, List.singleton_append, lengthFrom?_last]
    congr 1
    simp only [List.length_cons, List.length_append, List.length_nil]
    omega

/-! ## The pattern, level by level -/

/-- An opening brace. -/
def opening : Language Char := {['\x7b']}

/-- A closing brace. -/
def closing : Language Char := {['\x7d']}

/-- One character that is no brace. -/
def noBrace : Language Char := {t | ∃ c, c ≠ '\x7b' ∧ c ≠ '\x7d' ∧ t = [c]}

/-- The texts that the pattern with some levels below its outer braces matches: braces around
characters and, but for the innermost level, around texts of the level below. -/
def nestedBraces : (depth : Nat) → Language Char
  | 0 => opening * noBrace∗ * closing
  | depth + 1 => opening * (noBrace + nestedBraces depth)∗ * closing

theorem mem_braced_iff {l : Language Char} :
    t ∈ opening * l * closing ↔ ∃ inner ∈ l, t = '\x7b' :: (inner ++ ['\x7d']) := by
  constructor
  · intro h
    obtain ⟨front, hfront, last, hlast, rfl⟩ := Language.mem_mul.mp h
    obtain ⟨first, hfirst, inner, hinner, rfl⟩ := Language.mem_mul.mp hfront
    obtain rfl : first = ['\x7b'] := hfirst
    obtain rfl : last = ['\x7d'] := hlast
    exact ⟨inner, hinner, rfl⟩
  · rintro ⟨inner, hinner, rfl⟩
    have hfirst : ['\x7b'] ∈ opening := rfl
    have hlast : ['\x7d'] ∈ closing := rfl
    exact Language.append_mem_mul (Language.append_mem_mul hfirst hinner) hlast

theorem append_mem_kstar {l : Language Char} (ht : t ∈ l) (hu : u ∈ l∗) : t ++ u ∈ l∗ := by
  obtain ⟨items, rfl, hitems⟩ := Language.mem_kstar.mp hu
  exact Language.mem_kstar.mpr
    ⟨t :: items, rfl, List.forall_mem_cons.mpr ⟨ht, hitems⟩⟩

/-- Characters and groups in any order are balanced text, and no other text is. -/
theorem mem_kstar_iff {l : Language Char} (hl : ∀ u, u ∈ l ↔ ∃ inner, IsBalanced inner ∧
      deepest 0 inner < most ∧ u = '\x7b' :: (inner ++ ['\x7d'])) :
    t ∈ (noBrace + l)∗ ↔ IsBalanced t ∧ deepest 0 t ≤ most := by
  constructor
  · intro h
    obtain ⟨items, rfl, hitems⟩ := Language.mem_kstar.mp h
    clear h
    induction items with
    | nil => exact ⟨.nil, Nat.zero_le most⟩
    | cons item items ih =>
      obtain ⟨hitem, hrest⟩ := List.forall_mem_cons.mp hitems
      obtain ⟨hbalanced, hdeep⟩ := ih hrest
      rw [List.flatten_cons]
      rcases (Language.mem_add _ _ _).mp hitem with ⟨c, hopen, hclose, rfl⟩ | hgroup
      · refine ⟨.plain hopen hclose hbalanced, ?_⟩
        rw [List.singleton_append, deepest_plain hopen hclose]
        exact hdeep
      · obtain ⟨inner, hinner, hlt, rfl⟩ := (hl item).mp hgroup
        have hitem : IsBalanced ('\x7b' :: (inner ++ ['\x7d'])) := .group hinner .nil
        refine ⟨hitem.append hbalanced, ?_⟩
        rw [hitem.deepest_append, hinner.deepest_braced]
        omega
  · rintro ⟨hbalanced, hdeep⟩
    induction hbalanced with
    | nil => exact Language.nil_mem_kstar _
    | @plain c t hopen hclose _ ih =>
      rw [deepest_plain hopen hclose] at hdeep
      exact append_mem_kstar (t := [c]) (.inl ⟨c, hopen, hclose, rfl⟩) (ih hdeep)
    | @group t u h _ _ ih =>
      have hsplit : '\x7b' :: (t ++ '\x7d' :: u) = '\x7b' :: (t ++ ['\x7d']) ++ u := by simp
      have hitem : IsBalanced ('\x7b' :: (t ++ ['\x7d'])) := .group h .nil
      rw [hsplit, hitem.deepest_append, h.deepest_braced] at hdeep
      rw [hsplit]
      refine append_mem_kstar (.inr ((hl _).mpr ⟨t, h, ?_, rfl⟩)) (ih ?_)
      · omega
      · omega

/-- The texts that the pattern matches are the groups that do not nest too deep. -/
theorem mem_nestedBraces_iff : t ∈ nestedBraces depth ↔ IsGroup depth t := by
  induction depth generalizing t with
  | zero =>
    have hnone : ∀ u, u ∈ (0 : Language Char) ↔ ∃ inner, IsBalanced inner ∧
        deepest 0 inner < 0 ∧ u = '\x7b' :: (inner ++ ['\x7d']) := by
      intro u
      constructor
      · intro h
        exact absurd h (Language.notMem_zero u)
      · rintro ⟨inner, -, hlt, -⟩
        omega
    have hinner : ∀ u, u ∈ noBrace∗ ↔ IsBalanced u ∧ deepest 0 u ≤ 0 := by
      intro u
      rw [← mem_kstar_iff hnone, add_zero]
    rw [nestedBraces, mem_braced_iff, isGroup_iff]
    simp only [hinner, and_assoc]
  | succ depth ih =>
    have hbelow : ∀ u, u ∈ nestedBraces depth ↔ ∃ inner, IsBalanced inner ∧
        deepest 0 inner < depth + 1 ∧ u = '\x7b' :: (inner ++ ['\x7d']) := by
      intro u
      rw [ih, isGroup_iff]
      simp only [Nat.lt_succ_iff]
    rw [nestedBraces, mem_braced_iff, isGroup_iff]
    simp only [mem_kstar_iff hbelow, and_assoc]

/-! ## The search in a text -/

/-- The spans that are found from left to right: a stretch that qualifies is taken where it begins,
and the search goes on behind it; where none begins it goes on with the next character. -/
inductive LeftToRight (P : Text → Prop) : (index : Nat) → Text → List Span → Prop where
  | finished {index : Nat} : LeftToRight P index [] []
  | taken {index : Nat} {u rest : Text} {spans : List Span} (hu : P u)
      (hrest : LeftToRight P (index + u.length) rest spans) :
      LeftToRight P index (u ++ rest) (⟨index, index + u.length, u⟩ :: spans)
  | passed {index : Nat} {c : Char} {t : Text} {spans : List Span}
      (hnone : ∀ u, P u → ¬ u <+: c :: t) (hrest : LeftToRight P (index + 1) t spans) :
      LeftToRight P index (c :: t) spans

variable {before : Option Char} {found : List Span}

theorem step_of_isGroup (hu : IsGroup depth u) (rest : Text) :
    step depth before ⟨index, u ++ rest⟩ = .hit ⟨index, index + u.length, u⟩ u.length := by
  have hlength : length? depth (u ++ rest) = some u.length :=
    length?_eq_some_iff.mpr ⟨u, rest, rfl, hu, rfl⟩
  simp only [step, hlength, List.take_left]

theorem step_of_not_isGroup (hnone : ∀ u, IsGroup depth u → ¬ u <+: t) :
    step depth before ⟨index, t⟩ = .miss := by
  cases hlength : length? depth t with
  | none => simp only [step, hlength]
  | some m =>
    obtain ⟨u, rest, rfl, hu, -⟩ := length?_eq_some_iff.mp hlength
    exact absurd (List.prefix_append u rest) (hnone u hu)

/-- The search takes the groups of a text from left to right. -/
theorem leftToRight_findFrom (before : Option Char) (index : Nat) (t : Text) :
    LeftToRight (IsGroup depth) index t (findFrom (step depth) 0 before index t) := by
  induction hlength : t.length using Nat.strongRecOn generalizing before index t with
  | ind n ih =>
    cases t with
    | nil =>
      rw [findFrom_nil]
      exact .finished
    | cons c t =>
      by_cases hgroup : ∃ u, IsGroup depth u ∧ u <+: c :: t
      · obtain ⟨u, hu, rest, hrest⟩ := hgroup
        have hpos := List.length_pos_iff.mpr hu.ne_nil
        rw [← hrest, List.length_append] at hlength
        rw [← hrest, findFrom_append_hit (step_of_isGroup hu rest) hu.ne_nil]
        exact .taken hu (ih rest.length (by omega) _ _ _ rfl)
      · have hnone : ∀ u, IsGroup depth u → ¬ u <+: c :: t := by
          intro u hu hprefix
          exact hgroup ⟨u, hu, hprefix⟩
        rw [List.length_cons] at hlength
        rw [findFrom_miss (step_of_not_isGroup hnone)]
        exact .passed hnone (ih t.length (by omega) _ _ _ rfl)

/-- At most one group begins at a place, so the search leaves nothing open. -/
theorem LeftToRight.eq_findFrom (h : LeftToRight (IsGroup depth) index t found)
    (before : Option Char) : found = findFrom (step depth) 0 before index t := by
  induction h generalizing before with
  | finished => exact findFrom_nil 0 |>.symm
  | taken hu _ ih =>
    rw [findFrom_append_hit (step_of_isGroup hu _) hu.ne_nil]
    exact congrArg _ (ih _)
  | passed hnone _ ih =>
    rw [findFrom_miss (step_of_not_isGroup hnone)]
    exact ih _

theorem leftToRight_iff :
    LeftToRight (IsGroup depth) 0 t found ↔ found = spans depth t := by
  constructor
  · intro h
    exact h.eq_findFrom none
  · rintro rfl
    exact leftToRight_findFrom none 0 t

/-- The groups of bounded nesting are found from left to right, and so are the texts that the
pattern matches, whichever of them it prefers. A whole text is matched exactly if it is one
balanced group that does not nest too deep. -/
theorem spans_nestedBraces (depth : Nat) (t : Text) :
    (∀ found, LeftToRight (IsGroup depth) 0 t found ↔ found = spans depth t) ∧
    (∀ found, LeftToRight (· ∈ nestedBraces depth) 0 t found ↔ found = spans depth t) ∧
    (t ∈ nestedBraces depth ↔
      (∃ inner, IsBalanced inner ∧ t = '\x7b' :: (inner ++ ['\x7d'])) ∧
        deepest 0 t ≤ depth + 1) ∧
    (length? depth t = some t.length ↔ t ∈ nestedBraces depth) := by
  have hsame : (· ∈ nestedBraces depth) = IsGroup depth := by
    funext u
    exact propext mem_nestedBraces_iff
  refine ⟨fun _ => leftToRight_iff, ?_, ?_, ?_⟩
  · intro found
    rw [hsame]
    exact leftToRight_iff
  · rw [mem_nestedBraces_iff]
    exact ⟨fun h => ⟨h.balanced, h.nesting⟩, fun h => ⟨h.1, h.2⟩⟩
  · rw [mem_nestedBraces_iff, length?_eq_some_iff]
    constructor
    · rintro ⟨u, rest, rfl, hu, hlength⟩
      obtain rfl : rest = [] := by simpa using hlength
      rwa [List.append_nil]
    · intro h
      exact ⟨t, [], (List.append_nil t).symm, h, rfl⟩

/-- Of a group that nests too deep the groups inside are found. -/
example : (spans 1 "\x7ba\x7bb\x7bc\x7d\x7d\x7d \x7d\x7b\x7d\x7b".toList).map
    (fun s => (s.start, s.stop)) = [(2, 8), (11, 13)] := by decide +kernel

end OperationScan.Braces
