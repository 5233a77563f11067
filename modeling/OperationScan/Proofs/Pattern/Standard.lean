import Mathlib.Data.List.Basic
import OperationScan.Pattern.Basic
import OperationScan.Proofs.Operation.Body
import OperationScan.Proofs.Operation.Keywords

/-!
# What the standard pattern matches

An operation text is a head and a balanced body, and nothing else.

* `isOperation_of_mem_matchesIn`: every match of the standard pattern is an operation text.
* `IsOperation.matchesIn_eq`: an operation text has one match, which is the whole of it.
* `IsOperation.normalize`: the signature of an operation text is one, too.
-/

namespace OperationScan

open Text

/-- A head and a balanced body, and nothing else. -/
def IsOperation (t : Text) : Prop := ∃ m, Head.at? (.start t) = some m ∧
  Body.length? m.brace.rest = some m.brace.rest.length

/-- The match that is a whole text. -/
def wholeMatch (t : Text) : PatternMatch := ⟨t, 1, "standard", 0, t.length, false⟩

variable {p b : Place} {t : Text} {before : Option Char}

theorem Body.Closes.ne_nil {s : Body.Scan} {body : Text} (h : Body.Closes s body) : body ≠ [] := by
  rintro rfl
  exact h

/-- A head and a body that are spelled one after the other are an operation text. -/
theorem isOperation_append {s : Head.Spelling} {body : Text} (hs : s.Valid)
    (hbrace : body.head? = some '\x7b') (hbody : Body.length? body = some body.length) :
    IsOperation (s.text ++ body) := by
  have hread : (Place.start (s.text ++ body)).Reads s.text ⟨0 + s.text.length, body⟩ := ⟨rfl, rfl⟩
  exact ⟨_, Head.at?_of_reads hs hread hbrace, hbody⟩

theorem IsOperation.exists_append (h : IsOperation t) : ∃ (s : Head.Spelling) (body : Text),
    s.Valid ∧ body.head? = some '\x7b' ∧ Body.length? body = some body.length ∧
      t = s.text ++ body := by
  obtain ⟨m, hat, hbody⟩ := h
  obtain ⟨hbrace, s, hs, -, hread⟩ := Head.exists_of_at? hat
  exact ⟨s, m.brace.rest, hs, hbrace, hbody, hread.rest⟩

theorem keyword?_isSome_of_head {m : HeadMatch} (h : Head.at? p = some m)
    (hbefore : wordBegins before = true) : (p.keyword? before).isSome = true := by
  obtain ⟨hbrace, s, hs, -, hread⟩ := Head.exists_of_at? h
  obtain ⟨q, hword, hrest⟩ := hread.append_cases
  exact keyword?_isSome_iff.mpr ⟨hbefore, s.kind, hs.kind, q.rest, hword.rest,
    Head.wordEnds_of_spelling hs hrest hbrace⟩

/-- The step over an operation text does not depend on what follows it. -/
theorem standardStep_of_isOperation (h : IsOperation t) (hbefore : wordBegins before = true)
    (index : Nat) (rest : Text) : standardStep before ⟨index, t ++ rest⟩ =
      .hit ⟨index, index + t.length, t⟩ t.length := by
  obtain ⟨s, body, hs, hbrace, hbody, rfl⟩ := h.exists_append
  have hread : (Place.mk index (s.text ++ body ++ rest)).Reads s.text
      ⟨index + s.text.length, body ++ rest⟩ := ⟨List.append_assoc .., rfl⟩
  have hhead : (body ++ rest).head? = some '\x7b' := by
    rw [List.head?_append, hbrace]
    rfl
  have hat := Head.at?_of_reads hs hread hhead
  have hlength : Body.length? (body ++ rest) = some body.length := by
    obtain ⟨hclose, hlimit⟩ := Body.length?_eq_length_iff.mp hbody
    exact Body.length?_eq_some_iff.mpr ⟨body, rest, rfl, hclose, hlimit, rfl⟩
  obtain ⟨k, hk⟩ := Option.isSome_iff_exists.mp (keyword?_isSome_of_head hat hbefore)
  have hstop : index + s.text.length + body.length - index = (s.text ++ body).length := by
    rw [List.length_append]
    omega
  rw [standardStep, hk]
  dsimp only
  rw [hat]
  dsimp only
  rw [hlength]
  dsimp only
  rw [hstop, List.take_left, List.length_append, Nat.add_assoc]

/-- What a step finds is an operation text. -/
theorem isOperation_of_standardStep {span : Span} {n : Nat}
    (h : standardStep before p = .hit span n) : IsOperation span.text := by
  unfold standardStep at h
  split at h
  · cases h
  split at h
  · cases h
  rename_i m hat
  split at h
  · cases h
  rename_i n hbody
  cases h
  obtain ⟨hbrace, s, hs, -, hread⟩ := Head.exists_of_at? hat
  obtain ⟨body, rest, hsplit, hclose, hlimit, rfl⟩ := Body.length?_eq_some_iff.mp hbody
  have htext : p.rest.take (m.brace.index + body.length - p.index) = s.text ++ body := by
    have hlength : m.brace.index + body.length - p.index = (s.text ++ body).length := by
      rw [hread.index, List.length_append]
      omega
    rw [hlength, hread.rest, hsplit, ← List.append_assoc, List.take_left]
  rw [htext]
  refine isOperation_append hs ?_ (Body.length?_eq_length_iff.mpr ⟨hclose, hlimit⟩)
  rw [hsplit, List.head?_append_of_ne_nil _ hclose.ne_nil] at hbrace
  exact hbrace

/-- Every match of the standard pattern is an operation text. -/
theorem isOperation_of_mem_matchesIn {m : PatternMatch}
    (h : m ∈ Pattern.standard.matchesIn t) : IsOperation m.text := by
  obtain ⟨span, hspan, hm⟩ := List.mem_filterMap.mp h
  obtain ⟨u, v, n, -, hhit⟩ := exists_of_mem_findAll hspan
  cases hm
  exact isOperation_of_standardStep hhit

theorem IsOperation.ne_nil (h : IsOperation t) : t ≠ [] := by
  obtain ⟨s, body, -, hbrace, -, rfl⟩ := h.exists_append
  intro hnil
  rw [(List.append_eq_nil_iff.mp hnil).2] at hbrace
  cases hbrace

/-- An operation text has one match, which is the whole of it. -/
theorem IsOperation.matchesIn_eq (h : IsOperation t) :
    Pattern.standard.matchesIn t = [wholeMatch t] := by
  have hstep : standardStep none ⟨0, t ++ []⟩ = .hit ⟨0, 0 + t.length, t⟩ t.length :=
    standardStep_of_isOperation h rfl 0 []
  rw [List.append_nil, Nat.zero_add] at hstep
  obtain ⟨c, rest, rfl⟩ := List.exists_cons_of_ne_nil h.ne_nil
  rw [Pattern.matchesIn, Pattern.standard, findAll_of_hit hstep]
  rfl

/-! ## Signatures -/

theorem not_isBlank_head?_word : ∀ k ∈ Kind.keywords, k.word.head?.any isBlank = false := by
  decide

theorem IsOperation.trimmed (h : IsOperation t) : Trimmed t := by
  obtain ⟨s, body, hs, -, hbody, rfl⟩ := h.exists_append
  obtain ⟨hclose, -⟩ := Body.length?_eq_length_iff.mp hbody
  constructor
  · have hword := not_isBlank_head?_word s.kind hs.kind
    rw [Head.Spelling.text, List.append_assoc,
      List.head?_append_of_ne_nil _ (Head.word_ne_nil s.kind hs.kind)]
    exact hword
  · rw [List.getLast?_append_of_ne_nil _ hclose.ne_nil, hclose.getLast?]
    decide

/-- How white space is spelled does not matter, as long as the body is not longer. -/
theorem IsOperation.collapse (h : IsOperation t) : IsOperation (collapse t) := by
  obtain ⟨m, hat, hbody⟩ := h
  have hstart : (Place.start t).Respaced (.start (OperationScan.collapse t)) := respaced_collapse t
  rcases rel_cases (Head.respaced_at? hstart) with ⟨hnone, -⟩ | ⟨x, y, hx, hy, hxy⟩
  · rw [hat] at hnone
    cases hnone
  · rw [hat] at hx
    cases hx
    obtain ⟨hclose, hlimit⟩ := Body.length?_eq_length_iff.mp hbody
    obtain ⟨-, s, -, -, hread⟩ := Head.exists_of_at? hy
    have hcollapsed : OperationScan.collapse y.brace.rest = y.brace.rest := by
      refine collapse_append_right (a := s.text) ?_
      rw [← hread.rest]
      exact collapse_collapse t
    refine ⟨y, hy, Body.length?_eq_length_iff.mpr ⟨hclose.respaced hxy.2, ?_⟩⟩
    exact Nat.le_trans (length_le_of_respaced hxy.2 hcollapsed) hlimit

/-- The signature of an operation text is an operation text. -/
theorem IsOperation.normalize (h : IsOperation t) : IsOperation (normalize t) := by
  rw [normalize_eq_collapse h.trimmed]
  exact h.collapse

end OperationScan
