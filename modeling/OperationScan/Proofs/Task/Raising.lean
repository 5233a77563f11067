import OperationScan.Task.Process

/-!
# Tasks that raise

A task gives a result whatever goes wrong, with one exception: a locator that no file system can
hold is no fault of the file system, so that nothing turns it into an error of the result.

* `FileTree.read_eq_nullByte_iff`: when reading a path raises.
* `Task.Unusable`: the tasks that raise.
* `Task.process_ok_iff`: all other tasks, and only these, give a result.
-/

namespace OperationScan

/-- The character that no path may hold. -/
def nullChar : Char := Char.ofNat 0

/-! ## Characters of paths -/

namespace Text

theorem mem_splitOn {c separator : Char} (hne : c ≠ separator) (t : Text) :
    (∃ piece ∈ splitOn separator t, c ∈ piece) ↔ c ∈ t := by
  induction t with
  | nil => simp [splitOn]
  | cons d t ih =>
    change (∃ piece ∈ consPiece separator d (splitOn separator t), c ∈ piece) ↔ _
    unfold consPiece
    split
    · rename_i hd
      have hcd : c ≠ d := by
        rw [hd]
        exact hne
      simp only [List.mem_cons, hcd, false_or, ← ih]
      simp
    · split
      · rename_i piece more hpieces
        rw [hpieces] at ih
        rw [List.mem_cons, ← ih]
        simp [or_assoc]
      · rename_i hpieces
        rw [hpieces] at ih
        rw [List.mem_cons, ← ih]
        simp

theorem mem_join {c : Char} {separator : Text} (hc : c ∉ separator) (pieces : List Text) :
    c ∈ join separator pieces ↔ ∃ piece ∈ pieces, c ∈ piece := by
  induction pieces with
  | nil => simp [join]
  | cons piece rest ih =>
    cases rest with
    | nil => simp [join]
    | cons next more =>
      have hstep : join separator (piece :: next :: more) =
          piece ++ separator ++ join separator (next :: more) := by
        simp [join, List.intercalate, List.intersperse]
      rw [hstep, List.mem_append, List.mem_append, ih]
      simp [hc]

end Text

namespace Path

theorem mem_rootOf {c : Char} {t : Text} (h : c ∈ rootOf t) : c = '/' := by
  unfold rootOf at h
  split at h
  · cases h
  · simpa using h
  · simpa using h

/-- A path holds the characters of its text that are no slashes and no dots. -/
theorem mem_text_iff {c : Char} (hslash : c ≠ '/') (hdot : c ≠ '.') (t : Text) :
    c ∈ (ofText t).text ↔ c ∈ t := by
  have hparts : (∃ part ∈ (ofText t).parts, c ∈ part) ↔ c ∈ t := by
    rw [← Text.mem_splitOn hslash t]
    constructor
    · rintro ⟨part, hpart, hc⟩
      exact ⟨part, (List.mem_filter.mp hpart).1, hc⟩
    · rintro ⟨part, hpart, hc⟩
      refine ⟨part, List.mem_filter.mpr ⟨hpart, ?_⟩, hc⟩
      rw [isPart, Bool.and_eq_true]
      constructor
      · cases part with
        | nil => cases hc
        | cons => rfl
      · rw [bne_iff_ne]
        rintro rfl
        exact hdot (List.mem_singleton.mp hc)
  rw [← hparts, text]
  split
  · rename_i hempty
    rw [Bool.and_eq_true, List.isEmpty_iff, List.isEmpty_iff] at hempty
    simp [hempty.2, hdot]
  · have hroot : c ∉ (ofText t).root := fun h => hslash (mem_rootOf h)
    rw [List.mem_append, Text.mem_join (by simpa using hslash)]
    simp [hroot]

end Path

/-! ## Reading files -/

namespace FileTree

theorem step_ne_nullByte {stack : Entry × List Entry} {name : Text} :
    step stack name ≠ .error .nullByte := by
  unfold step
  split
  · rintro ⟨⟩
  · split
    · rintro ⟨⟩
    · split
      · split <;> rintro ⟨⟩
      · split
        · rintro ⟨⟩
        · split <;> rintro ⟨⟩

theorem walk_ne_nullByte (names : List Text) (stack : Entry × List Entry) :
    walk names stack ≠ .error .nullByte := by
  induction names generalizing stack with
  | nil => rintro ⟨⟩
  | cons name rest ih =>
    cases hstep : step stack name with
    | error f =>
      rw [walk, hstep]
      rintro ⟨⟩
      exact step_ne_nullByte hstep
    | ok next =>
      rw [walk, hstep]
      exact ih next

theorem locate_eq_nullByte_iff (t : FileTree) (path : Text) :
    t.locate path = .error .nullByte ↔ nullChar ∈ path := by
  unfold locate
  split
  · rename_i h
    simpa [nullChar] using h
  · rename_i h
    have hpath : nullChar ∉ path := by simpa [nullChar] using h
    refine iff_of_false ?_ hpath
    split
    · rintro ⟨⟩
    · split
      · rintro ⟨⟩
      · split
        · exact walk_ne_nullByte _ _
        · cases hhere : walk t.here (t.root, []) with
          | error f =>
            rintro ⟨⟩
            exact walk_ne_nullByte _ _ hhere
          | ok stack => exact walk_ne_nullByte _ _

/-- Refusing to look, to read or to write turns no fault into that of a null character, and that one
into no other. -/
theorem unlessRefused_eq_nullByte_iff {α : Type} (refusal : Option SystemFault)
    (found : Except FileFault α) :
    FileFault.unlessRefused refusal found = .error .nullByte ↔ found = .error .nullByte := by
  unfold FileFault.unlessRefused
  split
  · rfl
  · rfl
  · rename_i hne
    exact iff_of_false nofun hne

/-- Reading a path raises if the path holds a null character. -/
theorem read_eq_nullByte_iff (t : FileTree) (path : Text) :
    t.read path = .error .nullByte ↔ nullChar ∈ path := by
  rw [← t.locate_eq_nullByte_iff path, read, unlessRefused_eq_nullByte_iff]
  cases t.locate path with
  | error f =>
    change (Except.error f : Except FileFault (List UInt8)) = .error .nullByte ↔ _
    rw [Except.error.injEq, Except.error.injEq]
  | ok found =>
    obtain ⟨entry, above⟩ := found
    refine iff_of_false ?_ (by rintro ⟨⟩)
    cases entry with
    | file bytes => rintro ⟨⟩
    | folder entries => rintro ⟨⟩

end FileTree

namespace Task

/-- The text of the task has to be read at a locator that is no path. -/
def Unusable (t : Task) : Prop := t.content = none ∧ nullChar ∈ t.locator

theorem text_eq_nullByte_iff (t : Task) (files : FileTree) (limits : StreamLimits) :
    t.text files limits = .error .nullByte ↔ t.Unusable := by
  have hlocator : nullChar ∈ (Path.ofText t.locator).text ↔ nullChar ∈ t.locator :=
    Path.mem_text_iff (by decide) (by decide) t.locator
  unfold text Unusable
  cases t.content with
  | some content => simp
  | none =>
    simp only [true_and]
    rw [← hlocator, ← files.read_eq_nullByte_iff]
    cases files.read (Path.ofText t.locator).text with
    | error f =>
      change (Except.error f : Except FileFault Text) = .error .nullByte ↔ _
      rw [Except.error.injEq, Except.error.injEq]
    | ok bytes => exact iff_of_false (by rintro ⟨⟩) (by rintro ⟨⟩)

/-- A task raises a null byte fault or none. -/
theorem process_eq_error_iff (t : Task) (s : Surroundings) (settings : Settings) (r : Registry)
    (f : FileFault) :
    (t.process s settings r).1 = .error f ↔ f = .nullByte ∧ t.Unusable := by
  rw [← t.text_eq_nullByte_iff s.files s.limits]
  unfold process
  split
  · rename_i h
    rw [h]
    constructor
    · rintro ⟨⟩
      exact ⟨rfl, rfl⟩
    · rintro ⟨rfl, -⟩
      rfl
  · rename_i g hne h
    rw [h, Except.error.injEq]
    refine iff_of_false (by rintro ⟨⟩) ?_
    rintro ⟨-, rfl⟩
    exact hne rfl
  · rename_i h
    rw [h]
    refine iff_of_false ?_ (by rintro ⟨-, ⟨⟩⟩)
    split <;> rintro ⟨⟩

/-- A task gives a result exactly if it is not unusable. -/
theorem process_ok_iff (t : Task) (s : Surroundings) (settings : Settings) (r : Registry) :
    (∃ result, (t.process s settings r).1 = .ok result) ↔ ¬ t.Unusable := by
  constructor
  · rintro ⟨result, h⟩ hunusable
    rw [(t.process_eq_error_iff s settings r .nullByte).mpr ⟨rfl, hunusable⟩] at h
    cases h
  · intro husable
    cases h : (t.process s settings r).1 with
    | ok result => exact ⟨result, rfl⟩
    | error f => exact absurd ((t.process_eq_error_iff s settings r f).mp h).2 husable

end Task

end OperationScan
