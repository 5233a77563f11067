import OperationScan.Text.Basic

/-!
# The pieces of a text

* `splitOn_append`, `splitOn_of_notMem`: a separating character cuts a text where it stands.
* `join_cons`: pieces put one after the other.
-/

namespace OperationScan.Text

theorem splitOn_ne_nil (separator : Char) (t : Text) : splitOn separator t ≠ [] := by
  cases t with
  | nil => simp [splitOn]
  | cons c t =>
    change consPiece separator c (splitOn separator t) ≠ []
    unfold consPiece
    split
    · simp
    · split <;> simp

theorem splitOn_append (separator : Char) (t u : Text) :
    splitOn separator (t ++ separator :: u) = splitOn separator t ++ splitOn separator u := by
  induction t with
  | nil =>
    change consPiece separator separator (splitOn separator u) = _
    unfold consPiece
    rw [if_pos rfl]
    rfl
  | cons c t ih =>
    change consPiece separator c (splitOn separator (t ++ separator :: u)) =
      consPiece separator c (splitOn separator t) ++ _
    rw [ih]
    unfold consPiece
    split
    · rfl
    · cases hpieces : splitOn separator t with
      | nil => exact absurd hpieces (splitOn_ne_nil separator t)
      | cons piece more => rfl

theorem splitOn_of_notMem {separator : Char} {t : Text} (h : separator ∉ t) :
    splitOn separator t = [t] := by
  induction t with
  | nil => rfl
  | cons c t ih =>
    rw [List.mem_cons, not_or] at h
    change consPiece separator c (splitOn separator t) = _
    rw [ih h.2]
    unfold consPiece
    rw [if_neg (Ne.symm h.1)]

theorem join_cons (separator piece : Text) {pieces : List Text} (h : pieces ≠ []) :
    join separator (piece :: pieces) = piece ++ (separator ++ join separator pieces) := by
  obtain ⟨next, rest, rfl⟩ := List.exists_cons_of_ne_nil h
  rw [join, List.intercalate_cons_cons, List.append_assoc]
  rfl

end OperationScan.Text
