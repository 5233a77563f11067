import OperationScan.Operation.Body
import OperationScan.Proofs.Text.Respaced

/-!
# Balanced bodies

`Body.Closes s t` says that the last character of a text closes the body that a scan is in, and
none before it does.

* `Body.length?_eq_some_iff`: a body is measured exactly where it stands, whatever follows.
* `Body.Closes.respaced`: how white space is spelled in a body does not matter.
* `Body.length_le_of_respaced`: a body with collapsed white space is not longer.
-/

namespace OperationScan

open Text

namespace Body

/-- The scan in front of a body. -/
def Scan.start : Scan := ⟨0, false, false⟩

/-- The last character closes the body, and none before it. -/
def Closes : Scan → Text → Prop
  | _, [] => False
  | s, c :: rest =>
    match s.step c with
    | none => rest = []
    | some s => Closes s rest

variable {s : Scan} {c : Char} {t u : Text}

theorem closes_cons_none (h : s.step c = none) : Closes s (c :: t) ↔ t = [] := by
  rw [Closes, h]

theorem closes_cons_some {s' : Scan} (h : s.step c = some s') :
    Closes s (c :: t) ↔ Closes s' t := by
  rw [Closes, h]

theorem lengthFrom?_eq_some_iff {budget count n : Nat} :
    lengthFrom? budget s count t = some n ↔ ∃ body rest, t = body ++ rest ∧ Closes s body ∧
      body.length ≤ budget ∧ n = count + body.length := by
  -- one character of the text is one of the budget and one more that is counted
  induction t generalizing budget s count with
  | nil =>
    constructor
    · intro h
      cases budget <;> cases h
    · rintro ⟨body, rest, ht, hclose, -⟩
      obtain ⟨rfl, rfl⟩ := List.append_eq_nil_iff.mp ht.symm
      exact hclose.elim
  | cons c t ih =>
    cases budget with
    | zero =>
      constructor
      · intro h
        cases h
      · rintro ⟨body, rest, -, hclose, hlength, -⟩
        rw [List.length_eq_zero_iff.mp (Nat.le_zero.mp hlength)] at hclose
        exact hclose.elim
    | succ budget =>
      rw [lengthFrom?]
      cases hstep : s.step c with
      | none =>
        constructor
        · rintro ⟨⟩
          exact ⟨[c], t, rfl, (closes_cons_none hstep).mpr rfl, by simp, by simp⟩
        · rintro ⟨body, rest, ht, hclose, -, rfl⟩
          cases body with
          | nil => exact hclose.elim
          | cons d body =>
            cases ht
            rw [(closes_cons_none hstep).mp hclose]
            rfl
      | some s' =>
        dsimp only
        rw [ih]
        constructor
        · rintro ⟨body, rest, rfl, hclose, hlength, rfl⟩
          refine ⟨c :: body, rest, rfl, (closes_cons_some hstep).mpr hclose, ?_, ?_⟩
          · exact Nat.succ_le_succ hlength
          · rw [List.length_cons]
            omega
        · rintro ⟨body, rest, ht, hclose, hlength, rfl⟩
          cases body with
          | nil => exact hclose.elim
          | cons d body =>
            cases ht
            refine ⟨body, rest, rfl, (closes_cons_some hstep).mp hclose, ?_, ?_⟩
            · exact Nat.le_of_succ_le_succ hlength
            · rw [List.length_cons]
              omega

/-- The body at the start of a text. -/
theorem length?_eq_some_iff {n : Nat} : length? t = some n ↔ ∃ body rest, t = body ++ rest ∧
    Closes .start body ∧ body.length ≤ limit ∧ n = body.length := by
  have h : length? t = some n ↔ ∃ body rest, t = body ++ rest ∧ Closes .start body ∧
      body.length ≤ limit ∧ n = 0 + body.length := lengthFrom?_eq_some_iff
  simpa only [Nat.zero_add] using h

/-- A text that is one body and nothing else. -/
theorem length?_eq_length_iff :
    length? t = some t.length ↔ Closes .start t ∧ t.length ≤ limit := by
  rw [length?_eq_some_iff]
  constructor
  · rintro ⟨body, rest, ht, hclose, hlimit, hlength⟩
    have hrest : rest = [] := by
      have htotal := congrArg List.length ht
      rw [List.length_append, hlength] at htotal
      exact List.length_eq_zero_iff.mp (by omega)
    rw [ht, hrest, List.append_nil]
    exact ⟨hclose, hlimit⟩
  · rintro ⟨hclose, hlimit⟩
    exact ⟨t, [], (List.append_nil t).symm, hclose, hlimit, rfl⟩

theorem eq_brace_of_step (h : s.step c = none) : c = '\x7d' := by
  unfold Scan.step at h
  split at h
  · cases h
  split at h
  · cases h
  split at h
  · cases h
  split at h
  · cases h
  split at h
  · cases h
  split at h
  · rename_i hc
    exact beq_iff_eq.mp hc
  · cases h

theorem Closes.getLast? (h : Closes s t) : t.getLast? = some '\x7d' := by
  induction t generalizing s with
  | nil => exact h.elim
  | cons c t ih =>
    cases hstep : s.step c with
    | none =>
      rw [(closes_cons_none hstep).mp h, eq_brace_of_step hstep]
      rfl
    | some s' =>
      have hlast := ih ((closes_cons_some hstep).mp h)
      cases t with
      | nil => cases hlast
      | cons d t => rw [List.getLast?_cons_cons, hlast]

/-! ## White space in bodies -/

/-- White space only ends an escape. -/
theorem step_of_isBlank (hc : isBlank c = true) :
    s.step c = some { s with escaped := false } := by
  have hne : ∀ d : Char, isBlank d = false → (c == d) = false := by
    intro d hd
    rw [beq_eq_false_iff_ne]
    rintro rfl
    rw [hc] at hd
    cases hd
  have hquote : (c != '"') = true := by rw [bne, hne '"' (by decide), Bool.not_false]
  obtain ⟨depth, inString, escaped⟩ := s
  cases escaped with
  | true => rfl
  | false =>
    rw [Scan.step, hne '\\' (by decide), hne '"' (by decide), hne '\x7b' (by decide),
      hne '\x7d' (by decide), hquote]
    cases inString <;> rfl

theorem closes_blanks {g : Text} (hg : IsBlank g) (h : s.escaped = false) :
    Closes s (g ++ t) ↔ Closes s t := by
  induction g with
  | nil => rfl
  | cons c g ih =>
    rw [isBlank_cons] at hg
    have hsame : ({ s with escaped := false } : Scan) = s := by rw [← h]
    rw [List.cons_append, closes_cons_some (step_of_isBlank hg.1), hsame]
    exact ih hg.2

theorem closes_gap {g : Text} (hg : IsGap g) :
    Closes s (g ++ t) ↔ Closes { s with escaped := false } t := by
  obtain ⟨c, rest, rfl, hc⟩ := hg.exists_cons
  rw [List.cons_append, closes_cons_some (step_of_isBlank hc)]
  exact closes_blanks (fun d hd => hg.2 d (by simp [hd])) rfl

/-- How white space is spelled in a body does not matter. -/
theorem Closes.respaced (hs : Closes s t) (h : Respaced t u) : Closes s u := by
  induction h generalizing s with
  | nil => exact hs
  | @cons c t u hc h ih =>
    cases hstep : s.step c with
    | none =>
      rw [closes_cons_none hstep] at hs ⊢
      subst hs
      exact h.eq_nil
    | some s' =>
      rw [closes_cons_some hstep] at hs ⊢
      exact ih hs
  | gap ha hb _ ih =>
    rw [closes_gap ha] at hs
    rw [closes_gap hb]
    exact ih hs

end Body

namespace Text

variable {t u : Text}

theorem length_consCollapsed_le (c : Char) (t : Text) :
    (consCollapsed c t).length ≤ t.length + 1 := by
  rw [consCollapsed_eq]
  split
  · split
    · exact Nat.le_succ _
    · exact Nat.le_refl _
  · exact Nat.le_refl _

theorem length_collapse_le (t : Text) : (collapse t).length ≤ t.length := by
  induction t with
  | nil => exact Nat.le_refl _
  | cons c t ih =>
    rw [collapse_cons]
    exact Nat.le_trans (length_consCollapsed_le c _) (Nat.succ_le_succ ih)

theorem head?_consCollapsed {c : Char} (hc : isBlank c = true) (t : Text) :
    (consCollapsed c t).head? = some ' ' := by
  rw [consCollapsed_eq, if_pos hc]
  split
  · assumption
  · rfl

theorem collapse_consCollapsed (c : Char) (h : collapse t = t) :
    collapse (consCollapsed c t) = consCollapsed c t := by
  rw [consCollapsed_eq]
  split
  · split
    · exact h
    · rename_i hspace
      rw [collapse_cons, h, consCollapsed_eq, if_pos isBlank_space, if_neg hspace]
  · rename_i hc
    rw [collapse_cons, h, consCollapsed_eq, if_neg hc]

/-- Collapsing white space twice is collapsing it once. -/
theorem collapse_collapse (t : Text) : collapse (collapse t) = collapse t := by
  induction t with
  | nil => rfl
  | cons c t ih =>
    rw [collapse_cons]
    exact collapse_consCollapsed c ih

theorem collapse_tail {c : Char} (h : collapse (c :: t) = c :: t) : collapse t = t := by
  rw [collapse_cons, consCollapsed_eq] at h
  split at h
  · split at h
    · have hlength := length_collapse_le t
      rw [h] at hlength
      exact absurd hlength (Nat.not_succ_le_self _)
    · exact (List.cons.inj h).2
  · exact (List.cons.inj h).2

theorem collapse_append_right {a : Text} (h : collapse (a ++ t) = a ++ t) : collapse t = t := by
  induction a with
  | nil => exact h
  | cons c a ih => exact ih (collapse_tail h)

/-- A collapsed text has gaps of one blank. -/
theorem IsGap.length_of_collapse {g : Text} (hg : IsGap g) (h : collapse (g ++ t) = g ++ t) :
    g.length = 1 := by
  obtain ⟨c, rest, rfl, hc⟩ := hg.exists_cons
  cases rest with
  | nil => rfl
  | cons d rest =>
    have hd : isBlank d = true := hg.2 d (by simp)
    have htail : collapse (d :: (rest ++ t)) = d :: (rest ++ t) := collapse_tail h
    have hspace := head?_consCollapsed hd (collapse (rest ++ t))
    rw [← collapse_cons, htail] at hspace
    rw [List.cons_append, List.cons_append, collapse_cons, htail, consCollapsed_eq, if_pos hc,
      if_pos hspace] at h
    exact absurd (congrArg List.length h) (Nat.ne_of_lt (Nat.lt_succ_self _))

/-- A text with collapsed white space is not longer than one with other white space. -/
theorem length_le_of_respaced (h : Respaced t u) (hu : collapse u = u) : u.length ≤ t.length := by
  induction h with
  | nil => exact Nat.le_refl _
  | cons _ _ ih => exact Nat.succ_le_succ (ih (collapse_tail hu))
  | @gap a b t u ha hb _ ih =>
    have hone := hb.length_of_collapse hu
    have hpos : 1 ≤ a.length := List.length_pos_iff.mpr ha.1
    rw [List.length_append, List.length_append, hone]
    have := ih (collapse_append_right hu)
    omega

end Text

end OperationScan
