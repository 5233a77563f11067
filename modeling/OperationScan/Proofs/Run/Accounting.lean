import Mathlib.Data.List.Nodup
import OperationScan.Proofs.Run.Concurrency
import OperationScan.Proofs.Run.Intakes

/-!
# The accounts of a run

A run that returns has taken in one result for each task, and its figures and its report are those
of the results. A task that fails leaves one error and nothing else, so that the other tasks give
what they give without it.

* `Pipeline.Accounted`, `Pipeline.accounted_run`: the accounts of a run that returns.
* `survivors`, `mem_survivors_iff`: the tasks that have not failed.
* `Pipeline.run_accounts`: the accounts of every run that returns, and a run without the tasks that
  have failed in it.
-/

namespace OperationScan

/-! ## Results and errors -/

/-- Isolated results have an error for each of them that has failed. -/
theorem length_errors_eq_countP {xs : List Intake}
    (h : ∀ x ∈ xs, x.result.Isolated x.job.toTask) :
    ((resultsOf xs).flatMap TaskResult.errors).length =
      (resultsOf xs).countP TaskResult.failed := by
  induction xs with
  | nil => rfl
  | cons x xs ih =>
    obtain ⟨hx, hxs⟩ := List.forall_mem_cons.mp h
    have hone : x.result.errors.length = if x.result.failed then 1 else 0 := by
      rcases hx with herrors | ⟨⟨e, herrors, -⟩, -⟩
      · simp [TaskResult.failed, herrors]
      · simp [TaskResult.failed, herrors]
    rw [resultsOf, List.map_cons, List.flatMap_cons, List.length_append, List.countP_cons,
      ← resultsOf, ih hxs, hone, Nat.add_comm]

theorem mem_signatures_results {xs : List Intake} (t : Text) :
    t ∈ (Tally.firsts [] ((resultsOf xs).flatMap TaskResult.operations)).map
        Operation.signature ↔
      ∃ x ∈ xs, t ∈ x.result.operations.map Operation.signature := by
  rw [Tally.mem_signatures_firsts, List.map_flatMap, List.mem_flatMap]
  simp [resultsOf]

/-! ## Accounts -/

namespace Pipeline

/-- The report about tasks for which results have been taken in. -/
def reportOn (settings : Settings) (tasks : List Task) (xs : List Intake) (now : Timestamp) :
    Report where
  operations := Tally.firsts [] ((resultsOf xs).flatMap TaskResult.operations)
  metadata :=
    { version := version
      generatedAt := now
      taskCount := tasks.length
      completedCount := tasks.length
      failedCount := (resultsOf xs).countP TaskResult.failed
      concurrency := (min settings.concurrency tasks.length : Nat)
      aggressive := settings.aggressive }
  errors := ((resultsOf xs).flatMap TaskResult.errors).map ErrorRecord.members

/-- The accounts of a run that has done all tasks: there is one result for each, and the figures
and the report are those of the results, at the end and after each of them. -/
structure Accounted (tasks : List Task) (xs : List Intake) (p : Pipeline) : Prop where
  once : (xs.map fun x => x.job).Perm (Job.ofTasks tasks)
  taskCount : p.taskCount = tasks.length
  completed : p.tally.completed = tasks.length
  failed : p.tally.failed = (resultsOf xs).countP TaskResult.failed
  errors : p.tally.errors.length = p.tally.failed
  isolated : ∀ x ∈ xs, x.result.failed = true →
    (∃ e, x.result.errors = [e] ∧ e.origin = x.job.origin) ∧ x.result.operations = []
  stepwise : ∀ past x rest, xs = past ++ x :: rest →
    x.tally.completed = past.length + 1 ∧ x.tally.errors.length = x.tally.failed ∧
      x.tally.failed = (resultsOf (past ++ [x])).countP TaskResult.failed
  operations : p.operations =
    Tally.firsts [] ((resultsOf xs).flatMap TaskResult.operations)
  report : ∀ now, p.report now = reportOn p.settings tasks xs now

variable {s : Surroundings} {conditions : PoolConditions} {p : Pipeline} {tasks : List Task}
  {r : Registry}

/-- The figures after isolated results. -/
theorem counts_of_adds {ys : List Intake} {now : Tally}
    (hadds : Tally.Adds .empty now (resultsOf ys))
    (hisolated : ∀ y ∈ ys, y.result.Isolated y.job.toTask) :
    now.completed = ys.length ∧ now.failed = (resultsOf ys).countP TaskResult.failed ∧
      now.errors.length = now.failed := by
  have hfailed : now.failed = (resultsOf ys).countP TaskResult.failed :=
    hadds.failed.trans (Nat.zero_add _)
  refine ⟨?_, hfailed, ?_⟩
  · rw [hadds.completed, resultsOf, List.length_map]
    exact Nat.zero_add _
  · rw [hadds.errors, hfailed, ← length_errors_eq_countP hisolated]
    rfl

theorem Accounted.of_takes {xs : List Intake} {q : Pipeline} (htakes : Takes .empty xs q.tally)
    (once : (xs.map fun x => x.job).Perm (Job.ofTasks tasks))
    (hcount : q.taskCount = tasks.length)
    (hsize : q.poolSize = min q.settings.concurrency tasks.length) : Accounted tasks xs q := by
  have hlength : xs.length = tasks.length := by
    rw [← Job.length_ofTasks tasks, ← once.length_eq, List.length_map]
  obtain ⟨hcompleted, hfailed, herrors⟩ := counts_of_adds htakes.adds htakes.isolated
  refine ⟨once, hcount, hcompleted.trans hlength, hfailed, herrors, ?_, ?_,
    htakes.adds.operations, ?_⟩
  · intro x hx hx'
    rcases htakes.isolated x hx with hnone | hone
    · simp [TaskResult.failed, hnone] at hx'
    · exact hone
  · rintro past x rest rfl
    have hpast : ∀ y ∈ past ++ [x], y.result.Isolated y.job.toTask := by
      intro y hy
      refine htakes.isolated y ?_
      rw [List.append_cons]
      exact List.mem_append_left rest hy
    obtain ⟨hcompleted', hfailed', herrors'⟩ :=
      counts_of_adds (htakes.stepwise past x rest rfl) hpast
    exact ⟨by simpa using hcompleted', herrors', hfailed'⟩
  · intro now
    unfold Pipeline.report Pipeline.operations Pipeline.metadata
    rw [htakes.adds.operations, htakes.adds.errors, hcount, hsize, hcompleted, hlength, hfailed]
    rfl

theorem takes_finish {t : Tally} {xs : List Intake} (q : Pipeline) (h : Takes t xs q.tally) :
    Takes t xs q.finish.tally :=
  ⟨adds_finish q h.adds, h.stepwise, h.isolated⟩

/-- A run that returns is accounted for. -/
theorem accounted_run (h : (p.run s conditions tasks r).fault = none) :
    Accounted tasks (p.intakes s conditions tasks r) (p.run s conditions tasks r).pipeline := by
  have hstart := adds_prepared p tasks
  have hgoes := run_goes s conditions tasks p r
  generalize p.intakes s conditions tasks r = xs at hgoes ⊢
  generalize p.run s conditions tasks r = outcome at hgoes h ⊢
  cases hgoes with
  | @through phase tally r' _ hrun =>
    have hjobs : runInOrder s p.settings ((Job.ofTasks tasks).map Job.toTask)
        ((p.prepared tasks).begin.phase, (p.prepared tasks).begin.tally, r) =
          (none, phase, tally, r') := by
      rw [map_toTask_ofTasks]
      exact hrun
    obtain ⟨htakes, honce⟩ := takes_inOrder (.nil hstart) hjobs
    exact .of_takes (takes_finish _ htakes) (List.Perm.of_eq honce) rfl rfl
  | stopped => cases h
  | unbuilt => cases h
  | @pooled specs hpool =>
    have hsize : 0 < ((p.prepared tasks).begin.poolPlan s conditions specs).size :=
      Nat.zero_lt_of_lt hpool
    obtain ⟨htakes, honce⟩ := Pool.takes_run hsize (fun _ _ _ => Task.isolated_process)
      (Job.ofTasks tasks) r hstart
    exact .of_takes (takes_finish _ htakes) honce rfl rfl

end Pipeline

/-! ## Without the tasks that have failed -/

/-- The tasks of a list without those for which a failed result has been taken in. -/
def survivors (tasks : List Task) (xs : List Intake) : List Task :=
  ((Job.ofTasks tasks).filter fun j =>
    !xs.any fun x => x.job.position == j.position && x.result.failed).map Job.toTask

theorem nodup_position_ofTasks (tasks : List Task) :
    ((Job.ofTasks tasks).map Job.position).Nodup := by
  rw [Job.ofTasks, List.map_map]
  change (tasks.zipIdx.map Prod.snd).Nodup
  rw [List.zipIdx_map_snd]
  exact List.nodup_range'

/-- The survivors are the tasks whose results have not failed. -/
theorem mem_survivors_iff {tasks : List Task} {xs : List Intake}
    (honce : (xs.map fun x => x.job).Perm (Job.ofTasks tasks)) (t : Task) :
    t ∈ survivors tasks xs ↔ ∃ x ∈ xs, x.result.failed = false ∧ x.job.toTask = t := by
  have hpositions : (xs.map fun x => x.job.position).Nodup := by
    have hperm := honce.map Job.position
    rw [List.map_map] at hperm
    exact hperm.nodup_iff.mpr (nodup_position_ofTasks tasks)
  -- positions tell intakes apart, so no other task is left out together with one that has failed
  have hsame : ∀ x ∈ xs, ∀ y ∈ xs, x.job.position = y.job.position → x = y :=
    fun x hx y hy => List.inj_on_of_nodup_map hpositions hx hy
  have hfailed : ∀ x ∈ xs, (xs.any fun y => y.job.position == x.job.position && y.result.failed) =
      x.result.failed := by
    intro x hx
    rw [Bool.eq_iff_iff, List.any_eq_true]
    constructor
    · rintro ⟨y, hy, hboth⟩
      rw [Bool.and_eq_true, beq_iff_eq] at hboth
      rw [← hsame y hy x hx hboth.1]
      exact hboth.2
    · intro hx'
      exact ⟨x, hx, by simp [hx']⟩
  simp only [survivors, List.mem_map, List.mem_filter]
  constructor
  · rintro ⟨j, ⟨hj, hnone⟩, rfl⟩
    obtain ⟨x, hx, rfl⟩ := List.mem_map.mp (honce.symm.subset hj)
    rw [hfailed x hx] at hnone
    exact ⟨x, hx, by simpa using hnone, rfl⟩
  · rintro ⟨x, hx, hx', rfl⟩
    refine ⟨x.job, ⟨honce.subset (List.mem_map_of_mem hx), ?_⟩, rfl⟩
    rw [hfailed x hx, hx']
    rfl

/-- A result is what the task itself gives without plugins, perhaps as it arrives from another
process. -/
def Intake.IsOwn (s : Surroundings) (settings : Settings) (x : Intake) : Prop :=
  ∃ deliver, TaskResult.IsDelivery deliver ∧
    (x.job.toTask.process s settings (.empty [])).1 = .ok (x.job.toTask.given s settings) ∧
    x.result = deliver (x.job.toTask.given s settings)

theorem isOwn_of_mem_inOrder {s : Surroundings} {settings : Settings}
    (hplugins : settings.plugins = []) {jobs : List Job} {tally : Tally} {x : Intake}
    (h : x ∈ intakesInOrder s settings jobs tally (.empty [])) : x.IsOwn s settings := by
  induction jobs generalizing tally with
  | nil => cases h
  | cons j rest ih =>
    rw [intakesInOrder] at h
    cases hprocess : j.toTask.process s settings (.empty []) with
    | mk result r =>
      have hregistry : r = .empty [] := by
        rw [← Task.process_bare (s := s) hplugins j.toTask, hprocess]
      rw [hprocess, hregistry] at h
      cases result with
      | error f => cases h
      | ok result =>
        rcases List.mem_cons.mp h with rfl | h
        · have hresult := congrArg Prod.fst hprocess
          have hgiven := Task.given_eq hresult
          exact ⟨id, TaskResult.isDelivery_id, hgiven ▸ hresult, hgiven.symm⟩
        · exact ih h

namespace Pipeline

variable {s : Surroundings} {conditions : PoolConditions} {p : Pipeline} {tasks : List Task}

/-- A result that has not failed is the task's own. -/
theorem isOwn_of_mem_intakes (hplugins : p.settings.plugins = []) {x : Intake}
    (h : x ∈ p.intakes s conditions tasks (.empty [])) (hx : x.result.failed = false) :
    x.IsOwn s p.settings := by
  have hgoes := run_goes s conditions tasks p (.empty [])
  generalize p.intakes s conditions tasks (.empty []) = xs at hgoes h
  generalize p.run s conditions tasks (.empty []) = outcome at hgoes
  cases hgoes with
  | through => exact isOwn_of_mem_inOrder hplugins h
  | stopped => exact isOwn_of_mem_inOrder hplugins h
  | unbuilt => cases h
  | pooled hpool hspecs =>
    rw [workerSpecs_bare hplugins] at hspecs
    cases hspecs
    rcases (recovers_pool s conditions hpool).explained _ (Pool.exists_absorption_of_mem_intakes h)
      with ⟨result, hown, hresult⟩ | ⟨⟨line, hresult⟩, -⟩
    · have hsettings : { p.settings with plugins := [] } = p.settings := by rw [← hplugins]
      have hprocess : (x.job.toTask.process s p.settings (.empty [])).1 = .ok result := by
        rw [← hsettings]
        exact hown
      have hgiven := Task.given_eq hprocess
      exact ⟨_, TaskResult.isDelivery_transferred, hgiven ▸ hprocess, hgiven ▸ hresult⟩
    · -- a failure that the pool puts in place of a result has an error
      have hfailed : x.result.failed = true := congrArg TaskResult.failed hresult
      rw [hx] at hfailed
      cases hfailed

/-- One worker that is given the survivors of a run finds the signatures that the run has found. -/
theorem signatures_survivors (hplugins : p.settings.plugins = []) {xs : List Intake}
    {q : Pipeline} (haccounted : Accounted tasks xs q)
    (hown : ∀ x ∈ xs, x.result.failed = false → x.IsOwn s p.settings) :
    let again := (p.withConcurrency 1).run s {} (survivors tasks xs) (.empty [])
    again.fault = none ∧ ∀ t, t ∈ again.pipeline.operations.map Operation.signature ↔
      ∃ x ∈ xs, t ∈ x.result.operations.map Operation.signature := by
  intro again
  have hresults : ∀ t ∈ survivors tasks xs,
      ∃ result, (t.process s (p.withConcurrency 1).settings (.empty [])).1 = .ok result := by
    intro t ht
    obtain ⟨x, hx, hx', rfl⟩ := (mem_survivors_iff haccounted.once t).mp ht
    obtain ⟨-, -, hprocess, -⟩ := hown x hx hx'
    exact ⟨_, hprocess⟩
  obtain ⟨hfault, -, hadds⟩ := run_alone_given s {} (p := p.withConcurrency 1) hplugins
    (Nat.min_le_left 1 _) hresults
  refine ⟨hfault, fun t => ?_⟩
  rw [operations, hadds.operations, List.map_append, List.mem_append, Tally.mem_signatures_firsts,
    List.map_flatMap]
  simp only [Tally.empty, List.map_nil, List.not_mem_nil, false_or, not_false_eq_true, and_true,
    List.mem_flatMap]
  constructor
  · rintro ⟨result, hresult, ht⟩
    obtain ⟨u, hu, rfl⟩ := List.mem_map.mp hresult
    obtain ⟨x, hx, hx', rfl⟩ := (mem_survivors_iff haccounted.once u).mp hu
    obtain ⟨deliver, hdeliver, -, hgives⟩ := hown x hx hx'
    exact ⟨x, hx, by rwa [hgives, hdeliver.signatures]⟩
  · rintro ⟨x, hx, ht⟩
    have hx' : x.result.failed = false := by
      rw [← Bool.not_eq_true]
      intro hfailed
      rw [(haccounted.isolated x hx hfailed).2] at ht
      cases ht
    obtain ⟨deliver, hdeliver, -, hgives⟩ := hown x hx hx'
    rw [hgives, hdeliver.signatures] at ht
    exact ⟨_, List.mem_map_of_mem ((mem_survivors_iff haccounted.once _).mpr ⟨x, hx, hx', rfl⟩), ht⟩

/-- A run that returns is accounted for, with any plugins and whatever happens in its pool. Without
plugins one worker that is given the tasks that have not failed finds the same signatures. -/
theorem run_accounts (s : Surroundings) (conditions : PoolConditions) (p : Pipeline)
    (tasks : List Task) (r : Registry) (h : (p.run s conditions tasks r).fault = none) :
    let outcome := p.run s conditions tasks r
    let xs := p.intakes s conditions tasks r
    Accounted tasks xs outcome.pipeline ∧
      (p.settings.plugins = [] → r = .empty [] →
        let again := (p.withConcurrency 1).run s {} (survivors tasks xs) (.empty [])
        again.fault = none ∧ ∀ t, t ∈ again.pipeline.operations.map Operation.signature ↔
          t ∈ outcome.pipeline.operations.map Operation.signature) := by
  intro outcome xs
  have haccounted := accounted_run h
  refine ⟨haccounted, ?_⟩
  rintro hplugins rfl
  obtain ⟨hfault, hsignatures⟩ := signatures_survivors hplugins haccounted
    fun x hx hx' => isOwn_of_mem_intakes hplugins hx hx'
  refine ⟨hfault, fun t => ?_⟩
  rw [hsignatures, haccounted.operations, mem_signatures_results]

/-- The first of two jobs dies in the pool, and the other one is done. -/
theorem run_accounts_firstDies :
    let p := Pipeline.new { concurrency := 2 }
    let outcome := p.run .bare firstDies spacedTasks (.empty [])
    let xs := p.intakes .bare firstDies spacedTasks (.empty [])
    let again := (p.withConcurrency 1).run .bare {} (survivors spacedTasks xs) (.empty [])
    outcome.fault = none ∧ outcome.pipeline.tally.completed = 2 ∧
      Accounted spacedTasks xs outcome.pipeline ∧ again.fault = none ∧
      ∀ t, t ∈ again.pipeline.operations.map Operation.signature ↔
        t ∈ outcome.pipeline.operations.map Operation.signature := by
  intro p outcome xs again
  have hfault : outcome.fault = none := (run_adds .bare firstDies rfl (by decide)).1
  obtain ⟨haccounted, hagain⟩ := run_accounts .bare firstDies p spacedTasks (.empty []) hfault
  obtain ⟨hfault', hsignatures⟩ := hagain rfl rfl
  exact ⟨hfault, haccounted.completed, haccounted, hfault', hsignatures⟩

end Pipeline

end OperationScan
