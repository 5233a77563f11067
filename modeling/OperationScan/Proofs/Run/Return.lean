import OperationScan.Proofs.Run.Recovery

/-!
# When a run returns

A pool turns whatever a task raises into an error. A run with one worker does not: a task without
content whose locator is no path ends it.

* `Pipeline.run_returns_iff`: the tasks that give results, and the runs that return with all tasks
  done.
* `Pipeline.not_returns_nullByte`: a task that ends a run.
-/

namespace OperationScan.Pipeline

variable {p : Pipeline} {tasks : List Task}

/-- A run returns, and all tasks are done. -/
def Returns (outcome : RunOutcome) : Prop :=
  outcome.fault = none ∧ outcome.pipeline.phase = .done ∧
    outcome.pipeline.tally.completed = outcome.pipeline.taskCount

theorem taskCount_run (s : Surroundings) (conditions : PoolConditions) (p : Pipeline)
    (tasks : List Task) (r : Registry) :
    (p.run s conditions tasks r).pipeline.taskCount = tasks.length := by
  unfold run
  dsimp only
  split
  · unfold runAlone
    split <;> rfl
  · split <;> rfl

/-- A run with a pool returns whatever the tasks are. -/
theorem returns_pooled (s : Surroundings) (conditions : PoolConditions)
    (hplugins : p.settings.plugins = []) (hpool : 2 ≤ min p.settings.concurrency tasks.length) :
    Returns (p.run s conditions tasks (.empty [])) := by
  obtain ⟨hfault, hadds⟩ := run_adds s conditions hplugins hpool
  have hjobs := (recovers_pool s conditions hpool).once.length_eq
  rw [List.length_map, Job.length_ofTasks] at hjobs
  refine ⟨hfault, ?_, ?_⟩
  · rw [run_pooled s conditions hplugins hpool]
    rfl
  · rw [hadds.completed, taskCount_run, List.length_map, hjobs]
    exact Nat.zero_add _

/-- A run with one worker returns exactly if all tasks give results. -/
theorem returns_alone_iff (s : Surroundings) (conditions : PoolConditions)
    (hplugins : p.settings.plugins = []) (halone : min p.settings.concurrency tasks.length ≤ 1) :
    Returns (p.run s conditions tasks (.empty [])) ↔ ∀ t ∈ tasks, ¬ t.Unusable := by
  constructor
  · intro hreturns t ht hunusable
    refine run_alone_raises s conditions hplugins halone ⟨t, ht, .nullByte, ?_⟩ hreturns.1
    exact (t.process_eq_error_iff s p.settings _ _).mpr ⟨rfl, hunusable⟩
  · intro husable
    obtain ⟨hfault, hphase, hadds⟩ := run_alone_given s conditions hplugins halone
      fun t ht => (t.process_ok_iff s p.settings _).mpr (husable t ht)
    refine ⟨hfault, hphase, ?_⟩
    rw [hadds.completed, taskCount_run, List.length_map]
    exact Nat.zero_add _

/-- A task gives a result exactly if it is not unusable, and a run returns exactly if it has a pool
or no unusable task. -/
theorem run_returns_iff (s : Surroundings) (conditions : PoolConditions) (p : Pipeline)
    (tasks : List Task) (hplugins : p.settings.plugins = []) :
    (∀ t : Task, (∃ result, (t.process s p.settings (.empty [])).1 = .ok result) ↔
      ¬ t.Unusable) ∧
    (Returns (p.run s conditions tasks (.empty [])) ↔
      2 ≤ min p.settings.concurrency tasks.length ∨ ∀ t ∈ tasks, ¬ t.Unusable) := by
  refine ⟨fun t => t.process_ok_iff s p.settings _, ?_⟩
  by_cases halone : min p.settings.concurrency tasks.length ≤ 1
  · rw [returns_alone_iff s conditions hplugins halone]
    constructor
    · exact Or.inr
    · rintro (hpool | husable)
      · omega
      · exact husable
  · have hpool : 2 ≤ min p.settings.concurrency tasks.length := by omega
    exact iff_of_true (returns_pooled s conditions hplugins hpool) (.inl hpool)

/-- A task without content whose locator holds a null character. -/
def nullTask : Task := ⟨['a', nullChar, 'b'], ['a', nullChar, 'b'], none⟩

/-- Two workers finish what one worker does not. -/
theorem run_returns_iff_null :
    (¬ ∃ result, (nullTask.process .bare { concurrency := 1 } (.empty [])).1 = .ok result) ∧
    ¬ Returns ((Pipeline.new { concurrency := 1 }).run .bare {} [nullTask, nullTask] (.empty [])) ∧
    Returns ((Pipeline.new { concurrency := 2 }).run .bare {} [nullTask, nullTask] (.empty [])) := by
  have hunusable : nullTask.Unusable := ⟨rfl, by decide⟩
  obtain ⟨hprocess, hone⟩ := run_returns_iff .bare {} (Pipeline.new { concurrency := 1 })
    [nullTask, nullTask] rfl
  obtain ⟨-, htwo⟩ := run_returns_iff .bare {} (Pipeline.new { concurrency := 2 })
    [nullTask, nullTask] rfl
  refine ⟨?_, ?_, htwo.mpr (.inl (by decide))⟩
  · exact fun h => (hprocess nullTask).mp h hunusable
  · intro hreturns
    rcases hone.mp hreturns with hpool | husable
    · revert hpool
      decide
    · exact husable nullTask (by simp) hunusable

/-- A task that cannot be read is not turned into a result, and it ends the run. -/
theorem not_returns_nullByte :
    (nullTask.process .bare { concurrency := 1 } (.empty [])).1 = .error .nullByte ∧
    ((Pipeline.new { concurrency := 1 }).run .bare {} [nullTask] (.empty [])).fault =
      some (.unusablePath .nullByte) := by
  exact ⟨rfl, rfl⟩

end OperationScan.Pipeline
