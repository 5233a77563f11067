/-!
# What a pool hands back

* `Schedule`: the positions of the pending jobs that are handed back at a turn.
* `Schedule.positions`: those positions, of which there is at least one.
* `Schedule.taken`, `Schedule.left`: the items that are handed back, and the others.
-/

namespace OperationScan

/-- The positions of the pending jobs that are handed back, given the turn and the number of
pending jobs. -/
abbrev Schedule := (turn count : Nat) → List Nat

namespace Schedule

/-- The oldest pending job is handed back. -/
def oldest : Schedule := fun _ _ => [0]

/-- The newest pending job is handed back. -/
def newest : Schedule := fun _ count => [count - 1]

/-- All pending jobs are handed back. -/
def everything : Schedule := fun _ count => List.range count

/-- The positions at a turn, of which there is at least one. -/
def positions (s : Schedule) (turn count : Nat) : List Nat :=
  match ((s turn count).filter (· < count)).eraseDups with
  | [] => [0]
  | ps => ps

/-- The items at some positions, in the order of the positions. -/
def taken {α : Type} (positions : List Nat) (items : List α) : List α :=
  positions.filterMap fun i => items[i]?

/-- The items at all other positions. -/
def left {α : Type} (positions : List Nat) (items : List α) : List α :=
  (items.zipIdx.filter fun p => !positions.contains p.2).map Prod.fst

/-! ## Nothing is lost -/

theorem nodup_eraseDups (l : List Nat) : l.eraseDups.Nodup := by
  generalize hn : l.length = n
  induction n using Nat.strongRecOn generalizing l with
  | ind n ih =>
    cases l with
    | nil => simp
    | cons a rest =>
      have hlt : (rest.filter fun b => !b == a).length < n := by
        have := List.length_filter_le (fun b => !b == a) rest
        simp only [List.length_cons] at hn
        omega
      rw [List.eraseDups_cons, List.nodup_cons]
      refine ⟨?_, ih _ hlt _ rfl⟩
      intro h
      simp [List.mem_eraseDups] at h

/-- The positions at a turn are some of those there are, each once. -/
theorem positions_fit (s : Schedule) (turn : Nat) {count : Nat} (h : 0 < count) :
    s.positions turn count ≠ [] ∧ (s.positions turn count).Nodup ∧
      ∀ i ∈ s.positions turn count, i < count := by
  unfold positions
  split
  · exact ⟨by simp, by simp, by simpa using h⟩
  · rename_i ps hne
    refine ⟨hne, nodup_eraseDups _, ?_⟩
    intro i hi
    rw [List.mem_eraseDups, List.mem_filter] at hi
    simpa using hi.2

theorem nodup_zipIdx {α : Type} (items : List α) : items.zipIdx.Nodup := by
  have h : (items.zipIdx.map Prod.snd).Nodup := by
    rw [List.zipIdx_map_snd]
    exact List.nodup_range'
  exact (List.pairwise_map.mp h).imp fun hne he => hne (congrArg Prod.snd he)

theorem map_getElem?_zipIdx {α : Type} (items : List α) (i : Nat) :
    (items.zipIdx[i]?).map Prod.fst = items[i]? := by
  rw [← List.getElem?_map, List.zipIdx_map_fst]

/-- What is handed back and what is left are all there is. -/
theorem taken_append_left_perm {α : Type} {positions : List Nat} (items : List α)
    (hnodup : positions.Nodup) :
    (taken positions items ++ left positions items).Perm items := by
  have htaken : (positions.filterMap fun i => items.zipIdx[i]?).Perm
      (items.zipIdx.filter fun p => positions.contains p.2) := by
    rw [List.perm_ext_iff_of_nodup]
    · rintro ⟨a, i⟩
      simp only [List.mem_filterMap, List.mem_filter, List.contains_iff_mem,
        List.mk_mem_zipIdx_iff_getElem?, List.getElem?_zipIdx, Option.map_eq_some_iff,
        Prod.mk.injEq, Nat.zero_add]
      constructor
      · rintro ⟨j, hj, b, hb, rfl, rfl⟩
        exact ⟨hb, hj⟩
      · rintro ⟨ha, hi⟩
        exact ⟨i, hi, a, ha, rfl, rfl⟩
    · refine List.pairwise_filterMap.mpr (hnodup.imp ?_)
      intro i j hij p hp q hq hpq
      simp only [List.getElem?_zipIdx, Option.map_eq_some_iff, Nat.zero_add] at hp hq
      obtain ⟨_, -, rfl⟩ := hp
      obtain ⟨_, -, rfl⟩ := hq
      exact hij (congrArg Prod.snd hpq)
    · exact (nodup_zipIdx items).filter _
  have hmap : taken positions items =
      (positions.filterMap fun i => items.zipIdx[i]?).map Prod.fst := by
    rw [List.map_filterMap]
    simp only [taken, map_getElem?_zipIdx]
  have hsplit := List.filter_append_perm (fun p : α × Nat => positions.contains p.2) items.zipIdx
  rw [hmap, left, ← List.map_append]
  refine ((htaken.append_right _).trans hsplit |>.map Prod.fst).trans ?_
  rw [List.zipIdx_map_fst]

theorem length_taken_add_left {α : Type} {positions : List Nat} (items : List α)
    (hnodup : positions.Nodup) :
    (taken positions items).length + (left positions items).length = items.length := by
  rw [← List.length_append]
  exact (taken_append_left_perm items hnodup).length_eq

theorem taken_ne_nil {α : Type} {positions : List Nat} {items : List α}
    (hne : positions ≠ []) (hlt : ∀ i ∈ positions, i < items.length) :
    taken positions items ≠ [] := by
  obtain ⟨i, rest, rfl⟩ := List.exists_cons_of_ne_nil hne
  have hi := hlt i (by simp)
  simp [taken, List.getElem?_eq_getElem hi]

end Schedule

end OperationScan
