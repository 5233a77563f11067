import OperationScan.Proofs.Run.Accounting

/-!
# Runs of one pipeline, one after the other

A pipeline keeps its phase between runs. A run sets it as soon as it begins, but the figures are
reset before that, and plugins that no worker can rebuild end a run in between. What the phase says
is then left over from an earlier run.

* `RunCall`, `Pipeline.after`: a history of runs, with anything registered for each of them.
* `RunCall.Rebuilds`: no plugin stands in the way of the workers.
* `Pipeline.done_accounted_iff`: when a pipeline that is done has done the tasks of its last run.
* `Pipeline.not_accounted_unbuilt`: a pipeline that is done and has done nothing.
-/

namespace OperationScan

/-- What a run is given: what surrounds it, what happens in its pool, its tasks and the plugins
that are registered at the time. -/
structure RunCall where
  surroundings : Surroundings
  conditions : PoolConditions
  tasks : List Task
  registry : Registry

/-- The run needs no workers, or the registered plugins can be rebuilt in them. -/
def RunCall.Rebuilds (settings : Settings) (c : RunCall) : Prop :=
  min settings.concurrency c.tasks.length ≤ 1 ∨
    ∃ specs, Pipeline.workerSpecs settings c.registry = .ok specs

namespace Pipeline

variable {settings : Settings} {calls past : List RunCall} {c : RunCall} {p : Pipeline}

/-- The outcome of one more run. -/
def outcomeOf (p : Pipeline) (c : RunCall) : RunOutcome :=
  p.run c.surroundings c.conditions c.tasks c.registry

/-- What one more run takes in. -/
def intakesOf (p : Pipeline) (c : RunCall) : List Intake :=
  p.intakes c.surroundings c.conditions c.tasks c.registry

/-- A pipeline after runs in order, whether they have returned or not. -/
def after (settings : Settings) (calls : List RunCall) : Pipeline :=
  calls.foldl (fun p c => (p.outcomeOf c).pipeline) (new settings)

theorem after_append_singleton (settings : Settings) (past : List RunCall) (c : RunCall) :
    after settings (past ++ [c]) = ((after settings past).outcomeOf c).pipeline :=
  List.foldl_concat _ _ _ _

/-! ## One run -/

theorem settings_run (s : Surroundings) (conditions : PoolConditions) (tasks : List Task)
    (p : Pipeline) (r : Registry) :
    (p.run s conditions tasks r).pipeline.settings = p.settings := by
  have hgoes := run_goes s conditions tasks p r
  generalize p.intakes s conditions tasks r = xs at hgoes
  generalize p.run s conditions tasks r = outcome at hgoes ⊢
  cases hgoes <;> rfl

/-- Between the beginning and the end of a run nothing is done. -/
theorem phase_runInOrder (s : Surroundings) (settings : Settings) (tasks : List Task)
    {phase : Phase} (tally : Tally) (r : Registry) (h : phase ≠ .done) :
    (runInOrder s settings tasks (phase, tally, r)).2.1 ≠ .done := by
  induction tasks generalizing phase tally r with
  | nil => exact h
  | cons t rest ih =>
    have hphase : (if rest.isEmpty then Phase.draining else phase) ≠ .done := by
      split
      · simp
      · exact h
    rw [runInOrder]
    split
    · exact hphase
    · exact ih _ _ hphase

/-- A run leaves a pipeline done if it returns, or if plugins end it and the pipeline was done
before; in the second case it has taken in nothing. -/
theorem done_cases (h : (p.outcomeOf c).pipeline.phase = .done) :
    (c.Rebuilds p.settings ∧ (p.outcomeOf c).fault = none) ∨
      (¬ c.Rebuilds p.settings ∧ p.phase = .done ∧ 2 ≤ c.tasks.length ∧
        (p.outcomeOf c).pipeline = p.prepared c.tasks) := by
  have hgoes := run_goes c.surroundings c.conditions c.tasks p c.registry
  rw [outcomeOf] at h ⊢
  generalize p.intakes c.surroundings c.conditions c.tasks c.registry = xs at hgoes
  generalize p.run c.surroundings c.conditions c.tasks c.registry = outcome at hgoes h ⊢
  cases hgoes with
  | through halone => exact .inl ⟨.inl halone, rfl⟩
  | stopped halone hrun =>
    have hbegin : (p.prepared c.tasks).begin.phase ≠ .done := by simp [begin]
    have hphase := phase_runInOrder c.surroundings p.settings c.tasks
      (p.prepared c.tasks).begin.tally c.registry hbegin
    rw [hrun] at hphase
    exact absurd h hphase
  | unbuilt hpool hspecs =>
    -- the phase has not been touched, so it is that of an earlier run
    refine .inr ⟨?_, h, Nat.le_trans hpool (Nat.min_le_right _ _), rfl⟩
    rintro (halone | ⟨specs, hbuilt⟩)
    · omega
    · rw [hspecs] at hbuilt
      cases hbuilt
  | pooled hpool hspecs => exact .inl ⟨.inr ⟨_, hspecs⟩, rfl⟩

/-! ## Histories -/

theorem settings_after (settings : Settings) (calls : List RunCall) :
    (after settings calls).settings = settings := by
  refine List.foldlRecOn (motive := fun p : Pipeline => p.settings = settings) _ _ rfl ?_
  exact fun p hp c _ => (settings_run _ _ _ p _).trans hp

/-- A pipeline that is done after some runs has done the tasks of the last one, and its figures and
its report are those of their results, exactly if the plugins registered for that run did not keep
it from its workers. If they did, the pipeline had been done before, and nothing has been done. -/
theorem done_accounted_iff (settings : Settings) (calls : List RunCall)
    (h : (after settings calls).phase = .done) :
    ∃ past c, calls = past ++ [c] ∧
      let p := after settings calls
      ((p.tally.completed = p.taskCount ∧
          Accounted c.tasks ((after settings past).intakesOf c) p) ↔ c.Rebuilds settings) ∧
      (¬ c.Rebuilds settings → (after settings past).phase = .done ∧
        p.tally.completed = 0 ∧ p.taskCount = c.tasks.length ∧ 2 ≤ c.tasks.length) := by
  rcases List.eq_nil_or_concat calls with rfl | ⟨past, c, rfl⟩
  · cases h
  · rw [List.concat_eq_append] at h ⊢
    refine ⟨past, c, rfl, ?_⟩
    have hsettings := settings_after settings past
    rw [after_append_singleton] at h ⊢
    rcases done_cases h with ⟨hrebuilds, hfault⟩ | ⟨hstuck, hdone, hmany, hpipeline⟩
    · rw [hsettings] at hrebuilds
      have haccounted := accounted_run hfault
      refine ⟨iff_of_true ⟨?_, haccounted⟩ hrebuilds, fun hstuck => absurd hrebuilds hstuck⟩
      exact haccounted.completed.trans haccounted.taskCount.symm
    · rw [hsettings] at hstuck
      rw [hpipeline]
      refine ⟨iff_of_false ?_ hstuck, fun _ => ⟨hdone, rfl, rfl, hmany⟩⟩
      rintro ⟨hcompleted, -⟩
      have hzero : 0 = c.tasks.length := hcompleted
      omega

/-- A run in a process where a plugin is registered that no worker can find. -/
def localCall (tasks : List Task) : RunCall where
  surroundings := .bare
  conditions := {}
  tasks := tasks
  registry := ⟨[("local".toList, ⟨⟨"local".toList, "Local".toList, fun _ _ => pure ()⟩, none⟩)], []⟩

/-- One task needs no workers, but two tasks do. -/
theorem done_accounted_iff_local :
    let one := after { concurrency := 2 } [localCall (spacedTasks.take 1)]
    let two := after { concurrency := 2 } [localCall (spacedTasks.take 1), localCall spacedTasks]
    one.phase = .done ∧ two.phase = .done ∧
      (one.tally.completed = one.taskCount ∧ ∃ xs, Accounted (spacedTasks.take 1) xs one) ∧
      ¬ (two.tally.completed = two.taskCount ∧ ∃ xs, Accounted spacedTasks xs two) := by
  dsimp only
  have hone : (after { concurrency := 2 } [localCall (spacedTasks.take 1)]).phase = .done := by
    decide +kernel
  have htwo : (after { concurrency := 2 } [localCall (spacedTasks.take 1),
      localCall spacedTasks]).phase = .done := by
    decide +kernel
  refine ⟨hone, htwo, ?_, ?_⟩
  · obtain ⟨past, c, hcalls, hiff, -⟩ := done_accounted_iff { concurrency := 2 } _ hone
    have hlast : ([] : List RunCall) ++ [localCall (spacedTasks.take 1)] = past ++ [c] := hcalls
    obtain ⟨rfl, hc⟩ := List.append_inj' hlast rfl
    cases hc
    obtain ⟨hcompleted, haccounted⟩ := hiff.mpr (.inl (by decide))
    exact ⟨hcompleted, _, haccounted⟩
  · obtain ⟨past, c, hcalls, -, hstuck⟩ := done_accounted_iff { concurrency := 2 } _ htwo
    have hlast : [localCall (spacedTasks.take 1)] ++ [localCall spacedTasks] = past ++ [c] := hcalls
    obtain ⟨rfl, hc⟩ := List.append_inj' hlast rfl
    cases hc
    have hnone : ¬ (localCall spacedTasks).Rebuilds { concurrency := 2 } := by
      rintro (halone | ⟨specs, hspecs⟩)
      · revert halone
        decide
      · cases hspecs
    obtain ⟨-, hzero, hcount, hmany⟩ := hstuck hnone
    rintro ⟨hcompleted, -⟩
    have hnothing : 0 = spacedTasks.length := hzero.symm.trans (hcompleted.trans hcount)
    revert hnothing
    decide

/-- A pipeline that is done, with two tasks of which none has been completed. -/
theorem not_accounted_unbuilt :
    let p := after { concurrency := 2 } [localCall (spacedTasks.take 1), localCall spacedTasks]
    p.phase = .done ∧ p.taskCount = 2 ∧ p.tally.completed = 0 := by
  decide +kernel

end Pipeline

end OperationScan
