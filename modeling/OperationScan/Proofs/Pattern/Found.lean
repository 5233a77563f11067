import OperationScan.Pattern.Scan

/-!
# What a scan from left to right finds

`findFrom` is the scan from some place on, with what it finds in order. It obeys one equation for
each answer of the stepper.

* `findAll_eq`: the scan of a whole text.
* `findFrom_append`: what has been stepped over does not matter for what is found behind it.
* `exists_of_mem_findAll`: whatever is found has been hit at some place of the text.
* `findFrom_congr`: steppers that agree at every place of a text find the same in it.
* `findAll_interleaved`: in a text made of stretches that are hit as a whole, with gaps in which
  the stepper misses, the stretches are found.
-/

namespace OperationScan

variable {α : Type} {step : Stepper α} {before : Option Char} {index : Nat} {c : Char}
  {t u : Text}

/-- What a stepper finds behind the first `skipped` characters, in order. -/
def findFrom (step : Stepper α) (skipped : Nat) (before : Option Char) (index : Nat) (t : Text) :
    List α :=
  (foundFrom step [] skipped before index t).reverse

theorem findAll_eq (step : Stepper α) (t : Text) : findAll step t = findFrom step 0 none 0 t := rfl

theorem foundFrom_eq (found : List α) (skipped : Nat) :
    foundFrom step found skipped before index t =
    foundFrom step [] skipped before index t ++ found := by
  induction t generalizing found skipped before index with
  | nil => cases skipped <;> rfl
  | cons c t ih =>
    cases skipped with
    | succ skipped => exact ih found skipped
    | zero =>
      simp only [foundFrom]
      cases step before ⟨index, c :: t⟩ with
      | miss => exact ih found 0
      | pass n => exact ih found (n - 1)
      | hit a n =>
        dsimp only
        rw [ih (a :: found), ih [a], List.append_assoc]
        rfl

@[simp]
theorem findFrom_nil (skipped : Nat) : findFrom step skipped before index [] = [] := by
  cases skipped <;> rfl

theorem findFrom_skip (skipped : Nat) : findFrom step (skipped + 1) before index (c :: t) =
    findFrom step skipped (some c) (index + 1) t := rfl

theorem findFrom_miss (h : step before ⟨index, c :: t⟩ = .miss) :
    findFrom step 0 before index (c :: t) = findFrom step 0 (some c) (index + 1) t := by
  simp only [findFrom, foundFrom, h]

theorem findFrom_pass {n : Nat} (h : step before ⟨index, c :: t⟩ = .pass n) :
    findFrom step 0 before index (c :: t) = findFrom step (n - 1) (some c) (index + 1) t := by
  simp only [findFrom, foundFrom, h]

theorem findFrom_hit {a : α} {n : Nat} (h : step before ⟨index, c :: t⟩ = .hit a n) :
    findFrom step 0 before index (c :: t) = a :: findFrom step (n - 1) (some c) (index + 1) t := by
  simp only [findFrom, foundFrom, h]
  rw [foundFrom_eq, List.reverse_append]
  rfl

/-- The character in front of what follows a text. -/
def lastOr (before : Option Char) (t : Text) : Option Char := t.getLast?.or before

@[simp]
theorem lastOr_nil : lastOr before [] = before := rfl

@[simp]
theorem lastOr_cons : lastOr before (c :: t) = lastOr (some c) t := by
  cases t with
  | nil => rfl
  | cons d t => simp [lastOr, List.getLast?_cons]

/-- Nothing is found in what is stepped over. -/
theorem findFrom_append : findFrom step t.length before index (t ++ u) =
    findFrom step 0 (lastOr before t) (index + t.length) u := by
  induction t generalizing before index with
  | nil => rfl
  | cons c t ih =>
    rw [List.length_cons, List.cons_append, findFrom_skip, ih, lastOr_cons, Nat.add_assoc,
      Nat.add_comm 1]

/-- A hit takes a whole text off. -/
theorem findFrom_append_hit {a : α} (h : step before ⟨index, t ++ u⟩ = .hit a t.length)
    (ht : t ≠ []) : findFrom step 0 before index (t ++ u) =
      a :: findFrom step 0 (lastOr before t) (index + t.length) u := by
  obtain ⟨c, t, rfl⟩ := List.exists_cons_of_ne_nil ht
  rw [List.cons_append] at h ⊢
  rw [findFrom_hit h, List.length_cons, Nat.add_sub_cancel, findFrom_append, lastOr_cons,
    Nat.add_assoc, Nat.add_comm 1]

/-- A text at none of whose characters the stepper hits is stepped over. -/
theorem findFrom_append_miss
    (h : ∀ c ∈ t, ∀ before index rest, step before ⟨index, c :: rest⟩ = .miss) :
    findFrom step 0 before index (t ++ u) =
      findFrom step 0 (lastOr before t) (index + t.length) u := by
  induction t generalizing before index with
  | nil => rfl
  | cons c t ih =>
    rw [List.forall_mem_cons] at h
    rw [List.cons_append, findFrom_miss (h.1 _ _ _), ih h.2, lastOr_cons, List.length_cons,
      Nat.add_assoc, Nat.add_comm 1]

theorem findFrom_eq_nil {skipped : Nat} (h : t.length ≤ skipped) :
    findFrom step skipped before index t = [] := by
  induction t generalizing skipped before index with
  | nil => exact findFrom_nil skipped
  | cons c t ih =>
    obtain ⟨k, rfl⟩ : ∃ k, skipped = k + 1 := ⟨skipped - 1, by simp at h; omega⟩
    exact ih (Nat.le_of_succ_le_succ h)

/-- A hit at the very start that takes a whole text is all that is found. -/
theorem findAll_of_hit {a : α} (h : step none (.start (c :: t)) = .hit a (c :: t).length) :
    findAll step (c :: t) = [a] := by
  rw [findAll_eq, findFrom_hit h, findFrom_eq_nil (by simp)]

/-- Something is found only where the stepper hits. -/
theorem exists_of_mem_findFrom {a : α} {skipped : Nat}
    (h : a ∈ findFrom step skipped before index t) :
    ∃ u v n, t = u ++ v ∧ step (lastOr before u) ⟨index + u.length, v⟩ = .hit a n := by
  induction t generalizing skipped before index with
  | nil =>
    rw [findFrom_nil] at h
    cases h
  | cons c t ih =>
    have hlater : ∀ {k : Nat}, a ∈ findFrom step k (some c) (index + 1) t →
        ∃ u v n, c :: t = u ++ v ∧ step (lastOr before u) ⟨index + u.length, v⟩ = .hit a n := by
      intro k hk
      obtain ⟨u, v, n, ht, hhit⟩ := ih hk
      refine ⟨c :: u, v, n, by rw [ht, List.cons_append], ?_⟩
      rw [lastOr_cons, List.length_cons, Nat.add_comm u.length, ← Nat.add_assoc]
      exact hhit
    cases skipped with
    | succ skipped => exact hlater h
    | zero =>
      cases hstep : step before ⟨index, c :: t⟩ with
      | miss =>
        rw [findFrom_miss hstep] at h
        exact hlater h
      | pass n =>
        rw [findFrom_pass hstep] at h
        exact hlater h
      | hit b n =>
        rw [findFrom_hit hstep] at h
        rcases List.mem_cons.mp h with rfl | h
        · exact ⟨[], c :: t, n, rfl, hstep⟩
        · exact hlater h

theorem exists_of_mem_findAll {a : α} (h : a ∈ findAll step t) :
    ∃ u v n, t = u ++ v ∧ step u.getLast? ⟨u.length, v⟩ = .hit a n := by
  rw [findAll_eq] at h
  obtain ⟨u, v, n, ht, hhit⟩ := exists_of_mem_findFrom h
  rw [lastOr, Option.or_none, Nat.zero_add] at hhit
  exact ⟨u, v, n, ht, hhit⟩

/-- Steppers that agree at every place of a text find the same in it. -/
theorem findFrom_congr {step' : Stepper α} {skipped : Nat}
    (h : ∀ before index u, u <:+ t → step before ⟨index, u⟩ = step' before ⟨index, u⟩) :
    findFrom step skipped before index t = findFrom step' skipped before index t := by
  induction t generalizing skipped before index with
  | nil => rw [findFrom_nil, findFrom_nil]
  | cons c t ih =>
    have hlater : ∀ k, findFrom step k (some c) (index + 1) t =
        findFrom step' k (some c) (index + 1) t := fun k =>
      ih fun before index u hu => h before index u (hu.trans (List.suffix_cons c t))
    cases skipped with
    | succ skipped => exact hlater skipped
    | zero =>
      have hhere := h before index (c :: t) List.suffix_rfl
      cases hstep : step' before ⟨index, c :: t⟩ with
      | miss =>
        rw [hstep] at hhere
        rw [findFrom_miss hhere, findFrom_miss hstep, hlater]
      | pass n =>
        rw [hstep] at hhere
        rw [findFrom_pass hhere, findFrom_pass hstep, hlater]
      | hit a n =>
        rw [hstep] at hhere
        rw [findFrom_hit hhere, findFrom_hit hstep, hlater]

/-! ## Stretches with gaps between them -/

/-- A stretch of a text and what follows it up to the next one. -/
structure Stretch where
  text : Text
  gap : Text

/-- Stretches one after the other, with text in front. -/
def interleaved (first : Text) : List Stretch → Text
  | [] => first
  | s :: rest => first ++ (s.text ++ interleaved s.gap rest)

/-- What is found of stretches, the first of which begins at an offset. -/
def foundOf (found : Nat → Text → α) (index : Nat) : List Stretch → List α
  | [] => []
  | s :: rest =>
    found index s.text :: foundOf found (index + s.text.length + s.gap.length) rest

theorem foundOf_text (index : Nat) (l : List Stretch) :
    foundOf (fun _ t => t) index l = l.map Stretch.text := by
  induction l generalizing index with
  | nil => rfl
  | cons s l ih => rw [foundOf, ih, List.map_cons]

/-- A stepper misses at every character of a text. -/
def MissesIn (step : Stepper α) (t : Text) : Prop :=
  ∀ c ∈ t, ∀ before index rest, step before ⟨index, c :: rest⟩ = .miss

/-- A stepper hits a stretch as a whole, wherever it stands, and nothing behind it. -/
structure Stretch.IsFound (step : Stepper α) (found : Nat → Text → α) (s : Stretch) : Prop where
  ne_nil : s.text ≠ []
  hit : ∀ before index rest,
    step before ⟨index, s.text ++ rest⟩ = .hit (found index s.text) s.text.length
  gap : MissesIn step s.gap

theorem findFrom_interleaved {found : Nat → Text → α} {first : Text} {l : List Stretch}
    (hfirst : MissesIn step first) (hl : ∀ s ∈ l, s.IsFound step found)
    (before : Option Char) (index : Nat) :
    findFrom step 0 before index (interleaved first l) =
      foundOf found (index + first.length) l := by
  induction l generalizing first before index with
  | nil =>
    have hnone : findFrom step 0 before index (first ++ []) =
        findFrom step 0 (lastOr before first) (index + first.length) [] :=
      findFrom_append_miss hfirst
    rw [List.append_nil, findFrom_nil] at hnone
    exact hnone
  | cons s l ih =>
    obtain ⟨hs, hrest⟩ := List.forall_mem_cons.mp hl
    rw [interleaved, findFrom_append_miss hfirst, findFrom_append_hit (hs.hit _ _ _) hs.ne_nil,
      ih hs.gap hrest, foundOf]

/-- Of a text made of stretches and gaps the stretches are found. -/
theorem findAll_interleaved {found : Nat → Text → α} {first : Text} {l : List Stretch}
    (hfirst : MissesIn step first) (hl : ∀ s ∈ l, s.IsFound step found) :
    findAll step (interleaved first l) = foundOf found first.length l := by
  rw [findAll_eq, findFrom_interleaved hfirst hl, Nat.zero_add]

end OperationScan
