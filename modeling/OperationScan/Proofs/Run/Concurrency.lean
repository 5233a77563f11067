import OperationScan.Proofs.Run.Recovery

/-!
# The number of workers does not matter

If every task gives a result and nothing happens to the pool, then a run takes in the results of
all tasks, in an order of its own. Its figures do not depend on that order, and neither do
signature, kind and name of the operations that stay.

* `Pipeline.pool_results_perm`: the results that a pool takes in.
* `Pipeline.Figures`: what all these runs have in common.
* `Pipeline.run_concurrency`: a run with any number of workers and a run with one.
-/

namespace OperationScan

namespace Pipeline

variable {p : Pipeline} {tasks : List Task}

/-! ## What a pool takes in -/

theorem map_toTask_ofTasks (tasks : List Task) : (Job.ofTasks tasks).map Job.toTask = tasks := by
  rw [Job.ofTasks, List.map_map]
  exact List.zipIdx_map_fst 0 tasks

/-- Without faults only results of tasks are absorbed. -/
theorem result_eq_given (s : Surroundings) (conditions : PoolConditions)
    (hplugins : p.settings.plugins = []) (hfaultless : ∀ j, conditions.fault j = none)
    {moments : List Moment} {a : Absorption}
    (hresult : ∃ result, (a.job.toTask.process s p.settings (.empty [])).1 = .ok result)
    (ha : (p.barePlan s conditions tasks).Explained (.empty []) moments a) :
    a.result = (a.job.toTask.given s p.settings).transferred := by
  have hwork : (p.barePlan s conditions tasks).work a.job.toTask (.empty []) =
      (.ok (a.job.toTask.given s p.settings), .empty []) := by
    have hsettings : { p.settings with plugins := [] } = p.settings := by rw [← hplugins]
    rw [← Task.process_eq_given hplugins hresult]
    change a.job.toTask.process s { p.settings with plugins := [] } (.empty []) = _
    rw [hsettings]
  rcases ha with ⟨result, hown, heq⟩ | ⟨-, (hfault | ⟨f, hf⟩) | ⟨m, -, d, -, hfault, -⟩⟩
  · rw [hwork] at hown
    cases hown
    exact heq
  · exact absurd (hfaultless a.job) hfault
  · rw [hwork] at hf
    cases hf
  · have hnone : conditions.fault d = some .died := hfault
    rw [hfaultless d] at hnone
    cases hnone

/-- A pool without faults takes in the results of all tasks. -/
theorem pool_results_perm (s : Surroundings) (conditions : PoolConditions)
    (hplugins : p.settings.plugins = []) (hfaultless : ∀ j, conditions.fault j = none)
    (hresults : ∀ t ∈ tasks, ∃ result, (t.process s p.settings (.empty [])).1 = .ok result)
    (hpool : 2 ≤ min p.settings.concurrency tasks.length) :
    ((absorptions (p.barePlan s conditions tasks) (p.moments s conditions tasks)).map
      Absorption.result).Perm
      (tasks.map fun t => (t.given s p.settings).transferred) := by
  have hrecovers := recovers_pool s conditions hpool
  have hjobs := hrecovers.once.map Job.toTask
  rw [map_toTask_ofTasks, List.map_map] at hjobs
  have hgiven : (absorptions (p.barePlan s conditions tasks) (p.moments s conditions tasks)).map
      Absorption.result =
      ((absorptions (p.barePlan s conditions tasks) (p.moments s conditions tasks)).map
        (Job.toTask ∘ Absorption.job)).map fun t => (t.given s p.settings).transferred := by
    rw [List.map_map]
    refine List.map_congr_left fun a ha => ?_
    have hmem : a.job.toTask ∈ tasks :=
      hjobs.subset (List.mem_map.mpr ⟨a, ha, rfl⟩)
    exact result_eq_given s conditions hplugins hfaultless (hresults _ hmem)
      (hrecovers.explained a ha)
  rw [hgiven]
  exact hjobs.map _

/-! ## Figures of a run -/

/-- The figures of a run that has taken in the results of all tasks. -/
structure Figures (s : Surroundings) (settings : Settings) (tasks : List Task)
    (outcome : RunOutcome) : Prop where
  fault : outcome.fault = none
  completed : outcome.pipeline.tally.completed = tasks.length
  failed : outcome.pipeline.tally.failed =
    (tasks.map (Task.given s settings)).countP TaskResult.failed
  errors : outcome.pipeline.tally.errors.Perm
    ((tasks.map (Task.given s settings)).flatMap TaskResult.errors)
  identities : (outcome.pipeline.operations.map Operation.identity).Perm
    ((Tally.firsts [] ((tasks.map (Task.given s settings)).flatMap TaskResult.operations)).map
      Operation.identity)

theorem regular_given {s : Surroundings} {settings : Settings} (hplugins : settings.plugins = [])
    (t : Task) : (t.given s settings).Regular := by
  unfold Task.given
  split
  · rename_i h
    exact Task.regular_process hplugins t h
  · exact TaskResult.regular_ofError t _ _

theorem regular_flatMap {results : List TaskResult} (h : ∀ r ∈ results, r.Regular) :
    ∀ o ∈ results.flatMap TaskResult.operations, o.Regular := by
  intro o ho
  obtain ⟨r, hr, ho⟩ := List.mem_flatMap.mp ho
  exact h r hr o ho

/-- Neither the way in which results are handed over nor their order changes a figure. -/
theorem figures_of_adds {s : Surroundings} {settings : Settings} (hplugins : settings.plugins = [])
    {outcome : RunOutcome} {results : List TaskResult} {deliver : TaskResult → TaskResult}
    (hdeliver : TaskResult.IsDelivery deliver) (hfault : outcome.fault = none)
    (hadds : Tally.Adds .empty outcome.pipeline.tally results)
    (hperm : results.Perm (tasks.map fun t => deliver (t.given s settings))) :
    Figures s settings tasks outcome := by
  have hregular : ∀ r ∈ tasks.map (Task.given s settings), r.Regular := by
    intro r hr
    obtain ⟨t, -, rfl⟩ := List.mem_map.mp hr
    exact regular_given hplugins t
  have hregular' : ∀ r ∈ results, r.Regular := by
    intro r hr
    obtain ⟨t, -, rfl⟩ := List.mem_map.mp (hperm.subset hr)
    exact hdeliver.regular _ (regular_given hplugins t)
  have hfailed : results.countP TaskResult.failed =
      (tasks.map (Task.given s settings)).countP TaskResult.failed := by
    have hsame : TaskResult.failed ∘ (fun t => deliver (Task.given s settings t)) =
        TaskResult.failed ∘ Task.given s settings := funext fun t => hdeliver.failed _
    rw [hperm.countP_eq, List.countP_map, List.countP_map, hsame]
  have herrors : (results.flatMap TaskResult.errors).Perm
      ((tasks.map (Task.given s settings)).flatMap TaskResult.errors) := by
    refine (hperm.flatMap_right _).trans ?_
    simp only [List.flatMap_map, hdeliver.errors]
    exact List.Perm.refl _
  have hsignatures : ((results.flatMap TaskResult.operations).map Operation.signature).Perm
      (((tasks.map (Task.given s settings)).flatMap TaskResult.operations).map
        Operation.signature) := by
    rw [List.map_flatMap, List.map_flatMap]
    refine (hperm.flatMap_right _).trans ?_
    simp only [List.flatMap_map, hdeliver.signatures]
    exact List.Perm.refl _
  refine ⟨hfault, ?_, ?_, ?_, ?_⟩
  · rw [hadds.completed, hperm.length_eq, List.length_map]
    exact Nat.zero_add _
  · rw [hadds.failed, hfailed]
    exact Nat.zero_add _
  · rw [hadds.errors]
    exact herrors
  · rw [Pipeline.operations, hadds.operations]
    exact Tally.identities_perm (regular_flatMap hregular') (regular_flatMap hregular)
      fun t => hsignatures.mem_iff

/-- A run without faults has the figures of its tasks. -/
theorem run_figures (s : Surroundings) (conditions : PoolConditions)
    (hplugins : p.settings.plugins = []) (hfaultless : ∀ j, conditions.fault j = none)
    (hresults : ∀ t ∈ tasks, ∃ result, (t.process s p.settings (.empty [])).1 = .ok result) :
    Figures s p.settings tasks (p.run s conditions tasks (.empty [])) := by
  by_cases halone : min p.settings.concurrency tasks.length ≤ 1
  · obtain ⟨hfault, -, hadds⟩ := run_alone_given s conditions hplugins halone hresults
    exact figures_of_adds hplugins TaskResult.isDelivery_id hfault hadds (List.Perm.refl _)
  · have hpool : 2 ≤ min p.settings.concurrency tasks.length := by omega
    obtain ⟨hfault, hadds⟩ := run_adds s conditions hplugins hpool
    exact figures_of_adds hplugins TaskResult.isDelivery_transferred hfault hadds
      (pool_results_perm s conditions hplugins hfaultless hresults hpool)

/-- A pipeline with another number of workers. -/
def withConcurrency (p : Pipeline) (k : Nat) : Pipeline :=
  { p with settings := { p.settings with concurrency := k } }

/-- The figures of the tasks do not depend on the number of workers. -/
theorem figures_withConcurrency (s : Surroundings) (conditions : PoolConditions) (k : Nat)
    (hplugins : p.settings.plugins = []) (hfaultless : ∀ j, conditions.fault j = none)
    (hresults : ∀ t ∈ tasks, ∃ result, (t.process s p.settings (.empty [])).1 = .ok result) :
    Figures s p.settings tasks ((p.withConcurrency k).run s conditions tasks (.empty [])) := by
  have h := run_figures (p := p.withConcurrency k) s conditions hplugins hfaultless hresults
  exact ⟨h.fault, h.completed, h.failed, h.errors, h.identities⟩

/-- A run without faults finds the same operations with any number of workers as with one, and its
figures are the same. -/
theorem run_concurrency (s : Surroundings) (conditions : PoolConditions) (p : Pipeline)
    (tasks : List Task) (k : Nat) (hplugins : p.settings.plugins = [])
    (hfaultless : ∀ j, conditions.fault j = none)
    (hresults : ∀ t ∈ tasks, ∃ result, (t.process s p.settings (.empty [])).1 = .ok result) :
    let many := (p.withConcurrency k).run s conditions tasks (.empty [])
    let one := (p.withConcurrency 1).run s {} tasks (.empty [])
    many.fault = none ∧ one.fault = none ∧
      (many.pipeline.operations.map Operation.identity).Perm
        (one.pipeline.operations.map Operation.identity) ∧
      many.pipeline.tally.completed = one.pipeline.tally.completed ∧
      many.pipeline.tally.failed = one.pipeline.tally.failed ∧
      many.pipeline.tally.errors.Perm one.pipeline.tally.errors := by
  have hmany := figures_withConcurrency s conditions k hplugins hfaultless hresults
  have hone := figures_withConcurrency s {} 1 hplugins (fun _ => rfl) hresults
  exact ⟨hmany.fault, hone.fault, hmany.identities.trans hone.identities.symm,
    hmany.completed.trans hone.completed.symm, hmany.failed.trans hone.failed.symm,
    hmany.errors.trans hone.errors.symm⟩

theorem run_concurrency_spaced :
    let many := ((Pipeline.new {}).withConcurrency 2).run .bare { schedule := Schedule.newest }
      spacedTasks (.empty [])
    let one := ((Pipeline.new {}).withConcurrency 1).run .bare {} spacedTasks (.empty [])
    (∀ t ∈ spacedTasks, ∃ result, (t.process .bare {} (.empty [])).1 = .ok result) ∧
      (many.pipeline.operations.map Operation.identity).Perm
        (one.pipeline.operations.map Operation.identity) := by
  have hresults : ∀ t ∈ spacedTasks, ∃ result, (t.process .bare {} (.empty [])).1 = .ok result := by
    intro t ht
    rw [t.process_ok_iff]
    rintro ⟨hcontent, -⟩
    revert hcontent
    revert t
    decide
  obtain ⟨-, -, hidentities, -⟩ := run_concurrency .bare { schedule := Schedule.newest }
    (Pipeline.new {}) spacedTasks 2 rfl (fun _ => rfl) hresults
  exact ⟨hresults, hidentities⟩

end Pipeline

end OperationScan
