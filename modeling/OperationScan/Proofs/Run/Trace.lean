import OperationScan.Run.Pool

/-!
# Runs of a pool, move by move

* `Pool.trace`: the pools that a run passes through, each with the move that it makes.
* `Pool.trace_induction`: what every move keeps holds at the end of a run; it may speak about the
  moments that have passed.
* `Pool.done_run`: at the end nothing is queued or in flight.
* `Absorption`: a job with the result that has been absorbed for it.
-/

namespace OperationScan

/-- A pool and the move that it makes. -/
structure Moment where
  pool : Pool
  move : Move

namespace Pool

/-- The moments of a run in order. -/
def trace (plan : PoolPlan) (s : Pool) : List Moment :=
  match _h : s.next? plan with
  | none => []
  | some m => ⟨s, m⟩ :: trace plan (s.perform plan m)
termination_by s.load
decreasing_by exact load_perform_lt (enabled_of_next? _h)

section Runs

variable {plan : PoolPlan} {s : Pool}

theorem run_of_none (h : s.next? plan = none) : s.run plan = s := by
  rw [run]
  split
  · rfl
  · rename_i hm
    rw [h] at hm
    cases hm

theorem run_of_some {m : Move} (h : s.next? plan = some m) :
    s.run plan = (s.perform plan m).run plan := by
  rw [run]
  split
  · rename_i hm
    rw [h] at hm
    cases hm
  · rename_i hm
    rw [h] at hm
    cases hm
    rfl

theorem trace_of_none (h : s.next? plan = none) : s.trace plan = [] := by
  rw [trace]
  split
  · rfl
  · rename_i hm
    rw [h] at hm
    cases hm

theorem trace_of_some {m : Move} (h : s.next? plan = some m) :
    s.trace plan = ⟨s, m⟩ :: (s.perform plan m).trace plan := by
  rw [trace]
  split
  · rename_i hm
    rw [h] at hm
    cases hm
  · rename_i hm
    rw [h] at hm
    cases hm
    rfl

/-- What every move keeps holds at the end of a run. -/
theorem trace_induction {I : List Moment → Pool → Prop}
    (hstep : ∀ past s m, I past s → Enabled plan s m → I (past ++ [⟨s, m⟩]) (s.perform plan m))
    {past : List Moment} (h : I past s) : I (past ++ s.trace plan) (s.run plan) := by
  generalize hn : s.load = n
  induction n using Nat.strongRecOn generalizing past s with
  | ind n ih =>
    cases hnext : s.next? plan with
    | none =>
      rw [run_of_none hnext, trace_of_none hnext, List.append_nil]
      exact h
    | some m =>
      have henabled := enabled_of_next? hnext
      rw [run_of_some hnext, trace_of_some hnext, List.append_cons]
      exact ih _ (hn ▸ load_perform_lt henabled) (hstep past s m h henabled) rfl

/-- What every move keeps holds at every moment of a run and at its end. -/
theorem forall_trace {P : Pool → Prop}
    (hstep : ∀ s m, P s → Enabled plan s m → P (s.perform plan m)) (h : P s) :
    (∀ m ∈ s.trace plan, P m.pool) ∧ P (s.run plan) := by
  suffices hall : (∀ m ∈ [] ++ s.trace plan, P m.pool) ∧ P (s.run plan) from hall
  refine trace_induction (I := fun past s => (∀ m ∈ past, P m.pool) ∧ P s) ?_ ⟨by simp, h⟩
  rintro past s m ⟨hpast, hs⟩ henabled
  refine ⟨?_, hstep s m hs henabled⟩
  intro m' hm'
  rcases List.mem_append.mp hm' with hm' | hm'
  · exact hpast m' hm'
  · rw [List.mem_singleton] at hm'
    rw [hm']
    exact hs

theorem next?_run (plan : PoolPlan) (s : Pool) : (s.run plan).next? plan = none := by
  generalize hn : s.load = n
  induction n using Nat.strongRecOn generalizing s with
  | ind n ih =>
    cases hnext : s.next? plan with
    | none => rw [run_of_none hnext, hnext]
    | some m =>
      rw [run_of_some hnext]
      exact ih _ (hn ▸ load_perform_lt (enabled_of_next? hnext)) _ rfl

/-- A pool that has a worker stops only when all has been done. -/
theorem done_of_next? (hsize : 0 < plan.size) (h : s.next? plan = none) :
    s.queue = [] ∧ s.inFlight = [] := by
  unfold next? at h
  split at h
  · cases h
  · rename_i hreturned hqueue
    split at h
    · cases h
    · rename_i hfull
      split at h
      · cases h
      · rename_i hpending
        split at h
        · rename_i hready
          rw [Bool.not_eq_true, Bool.not_eq_false', List.isEmpty_iff] at hpending
          rw [hready, hpending] at hfull
          exact absurd hsize (by simpa using hfull)
        · cases h
  · rename_i hreturned hqueue
    split at h
    · rename_i hpending
      rw [List.isEmpty_iff] at hpending
      exact ⟨hqueue, by rw [inFlight, hreturned, hpending]; rfl⟩
    · cases h

theorem done_run (hsize : 0 < plan.size) (s : Pool) :
    (s.run plan).queue = [] ∧ (s.run plan).inFlight = [] :=
  done_of_next? hsize (next?_run plan s)

end Runs

/-! ## What moves change -/

section Moves

variable {plan : PoolPlan} (s : Pool) (j : Job)

@[simp]
theorem queue_drained : s.drained.queue = s.queue := by
  unfold drained
  split <;> rfl

@[simp]
theorem inFlight_drained : s.drained.inFlight = s.inFlight := by
  simp [inFlight]

@[simp]
theorem executor_drained : s.drained.executor = s.executor := by
  unfold drained
  split <;> rfl

@[simp]
theorem executors_drained : s.drained.executors = s.executors := by
  unfold drained
  split <;> rfl

@[simp]
theorem tally_drained : s.drained.tally = s.tally := by
  unfold drained
  split <;> rfl

@[simp]
theorem registry_drained : s.drained.registry = s.registry := by
  unfold drained
  split <;> rfl

@[simp]
theorem queue_submit : (s.perform plan (.submit j)).queue = s.queue.tail := by
  simp [perform]

@[simp]
theorem queue_refuse : (s.perform plan (.refuse j)).queue = s.queue.tail := by
  simp [perform]

@[simp]
theorem queue_wait : (s.perform plan .wait).queue = s.queue := queue_drained s

@[simp]
theorem queue_absorb : (s.perform plan (.absorb j)).queue = s.queue := rfl

@[simp]
theorem inFlight_submit : (s.perform plan (.submit j)).inFlight = s.inFlight ++ [j] := by
  rw [perform, inFlight_drained, inFlight, inFlight, List.append_assoc]

@[simp]
theorem inFlight_refuse : (s.perform plan (.refuse j)).inFlight = s.inFlight := by
  rw [perform, inFlight_drained, inFlight, inFlight]

/-- Jobs change places when some are handed back, but stay in flight. -/
theorem inFlight_wait_perm {s : Pool} (hreturned : s.returned = []) (hpending : s.pending ≠ []) :
    (s.perform plan .wait).inFlight.Perm s.inFlight := by
  have hpos : 0 < s.pending.length := List.length_pos_iff.2 hpending
  obtain ⟨-, hnodup, -⟩ := plan.schedule.positions_fit s.drained.turn hpos
  have hperm := Schedule.taken_append_left_perm s.pending hnodup
  simpa only [perform, inFlight, await, pending_drained, hreturned, List.nil_append] using hperm

theorem inFlight_absorb (plan : PoolPlan) {s : Pool} {j : Job} {rest : List Job}
    (hreturned : s.returned = j :: rest) :
    s.inFlight = j :: (s.perform plan (.absorb j)).inFlight := by
  simp only [perform, Pool.absorb, inFlight, hreturned, List.tail_cons, List.cons_append]

end Moves

end Pool

/-! ## Absorbed results -/

/-- A job with the result that has been absorbed for it. -/
structure Absorption where
  job : Job
  result : TaskResult

/-- What is absorbed at a moment. -/
def Moment.absorption? (plan : PoolPlan) (m : Moment) : Option Absorption :=
  match m.move with
  | .absorb j => some ⟨j, (m.pool.collected plan j).result⟩
  | .refuse j => some ⟨j, j.failure PoolFault.refused.line.toList⟩
  | _ => none

/-- What is absorbed in the course of moments. -/
def absorptions (plan : PoolPlan) (moments : List Moment) : List Absorption :=
  moments.filterMap (Moment.absorption? plan)

@[simp]
theorem absorptions_nil (plan : PoolPlan) : absorptions plan [] = [] := rfl

theorem absorptions_append (plan : PoolPlan) (past more : List Moment) :
    absorptions plan (past ++ more) = absorptions plan past ++ absorptions plan more :=
  List.filterMap_append

section Moves

variable (plan : PoolPlan) (s : Pool) (j : Job)

@[simp]
theorem absorptions_submit : absorptions plan [⟨s, .submit j⟩] = [] := rfl

@[simp]
theorem absorptions_refuse :
    absorptions plan [⟨s, .refuse j⟩] = [⟨j, j.failure PoolFault.refused.line.toList⟩] := rfl

@[simp]
theorem absorptions_wait : absorptions plan [⟨s, .wait⟩] = [] := rfl

@[simp]
theorem absorptions_absorb :
    absorptions plan [⟨s, .absorb j⟩] = [⟨j, (s.collected plan j).result⟩] := rfl

@[simp]
theorem absorptions_restart : absorptions plan [⟨s, .restart⟩] = [] := rfl

end Moves

end OperationScan
