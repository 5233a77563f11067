import OperationScan.Proofs.Text.Utf8
import OperationScan.Task.Content

/-!
# A file read in pieces

Whether a file is read as a whole or in pieces, and in pieces of which size, makes no difference
to its text. At any time the pieces taken and what is left make up the text; a piece is empty only
where nothing is left, so that no piece ends the reading too early.

* `flatten_takePieces`: what the pieces make up, by induction on the number of pieces to come.
* `StreamLimits.decode_eq`: the text of bytes does not depend on the limits.
* `Task.text_of_read`: the text of a task that is read from a file.
-/

namespace OperationScan

variable {piece : Nat}

theorem flatten_takePieces (hpiece : 1 ≤ piece) {fuel : Nat} {t : Text} (hfuel : t.length ≤ fuel)
    (done : List Text) :
    (takePieces piece fuel t done).flatten = done.reverse.flatten ++ t := by
  induction fuel generalizing t done with
  | zero =>
    have ht : t = [] := List.eq_nil_of_length_eq_zero (Nat.le_zero.mp hfuel)
    rw [takePieces, ht, List.append_nil]
  | succ fuel ih =>
    unfold takePieces
    split
    · rename_i hempty
      have ht : t = [] := by
        rcases List.take_eq_nil_iff.mp hempty with hzero | ht
        · omega
        · exact ht
      rw [ht, List.append_nil]
    · rename_i c cs htake
      -- every piece makes the rest shorter, so that the bound goes down by one
      have hshorter : (t.drop piece).length ≤ fuel := by
        have hne : t ≠ [] := by
          rintro rfl
          simp at htake
        have := List.length_pos_iff.mpr hne
        rw [List.length_drop]
        omega
      rw [ih hshorter, ← htake, List.reverse_cons, List.flatten_append, List.flatten_singleton,
        List.append_assoc, List.take_append_drop]

theorem readPieces_eq (hpiece : 1 ≤ piece) (t : Text) : readPieces piece t = t :=
  flatten_takePieces hpiece (Nat.le_refl _) []

theorem StreamLimits.decode_eq {limits : StreamLimits} (hpiece : 1 ≤ limits.piece)
    (bytes : List UInt8) : limits.decode bytes = Text.Utf8.decode bytes := by
  unfold StreamLimits.decode
  dsimp only
  split
  · rfl
  · exact readPieces_eq hpiece _

namespace Task

variable {t : Task} {files : FileTree} {limits : StreamLimits} {bytes : List UInt8}

/-- The text of a task without content is that of the bytes in its file, whatever the limits are, and
also if the file is read in pieces however small it is; bytes that are the encoding of a text give
the text. -/
theorem text_of_read (hcontent : t.content = none)
    (hread : files.read (Path.ofText t.locator).text = .ok bytes) (hpiece : 1 ≤ limits.piece) :
    t.text files limits = .ok (Text.Utf8.decode bytes) ∧
    (∀ others : StreamLimits, 1 ≤ others.piece → t.text files others = t.text files limits) ∧
    readPieces limits.piece (Text.Utf8.decode bytes) = Text.Utf8.decode bytes ∧
    ∀ s, bytes = Text.Utf8.encode s → t.text files limits = .ok s := by
  have hany : ∀ others : StreamLimits, 1 ≤ others.piece →
      t.text files others = .ok (Text.Utf8.decode bytes) := by
    intro others hothers
    rw [text, hcontent]
    dsimp only
    rw [hread]
    exact congrArg Except.ok (StreamLimits.decode_eq hothers bytes)
  refine ⟨hany limits hpiece, fun others hothers => ?_, readPieces_eq hpiece _, ?_⟩
  · rw [hany others hothers, hany limits hpiece]
  · rintro s rfl
    rw [hany limits hpiece, Text.Utf8.decode_encode]

/-- A mark at the start, two kinds of line ends, a null character and characters of every width. It
is what a task finds in its file. -/
def mixedText : Text := "\ufeffa\r\nb\r\u0000é€😀".toList

def mixedTask : Task := ⟨"m.js".toList, "m.js".toList, none⟩

def mixedFiles : FileTree where
  root := .folder [("m.js".toList, .file (Text.Utf8.encode mixedText))]
  here := []

/-- Pieces of three characters come apart between a carriage return and its line feed. -/
theorem text_of_read_mixed :
    mixedFiles.read (Path.ofText mixedTask.locator).text = .ok (Text.Utf8.encode mixedText) ∧
    mixedTask.text mixedFiles ⟨3, 3⟩ = .ok mixedText := by
  have hread : mixedFiles.read (Path.ofText mixedTask.locator).text =
      .ok (Text.Utf8.encode mixedText) := by rfl
  have hpiece : 1 ≤ (StreamLimits.mk 3 3).piece := by decide
  exact ⟨hread, (text_of_read rfl hread hpiece).2.2.2 mixedText rfl⟩

end Task

end OperationScan
