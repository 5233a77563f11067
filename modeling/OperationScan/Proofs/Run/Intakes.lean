import OperationScan.Proofs.Run.Recovery

/-!
# What a run takes in

With one worker and with a pool alike, a run takes in one result after the other, and after each of
them its tally is that of the results so far.

* `Intake`, `Pipeline.intakes`: the results that a run takes in, each with the tally after it.
* `Takes`: what a tally says about the intakes before it; `Takes.absorb` adds one more.
* `takes_inOrder`, `Pool.takes_run`: the intakes of one worker and of a pool.
* `Pipeline.Goes`, `Pipeline.run_goes`: the ways a run may go.
-/

namespace OperationScan

/-- A result that has been taken in for a job, with the tally after that. -/
structure Intake extends Absorption where
  tally : Tally

/-- The results of intakes. -/
def resultsOf (xs : List Intake) : List TaskResult := xs.map fun x => x.result

@[simp]
theorem resultsOf_append (xs ys : List Intake) :
    resultsOf (xs ++ ys) = resultsOf xs ++ resultsOf ys := List.map_append

/-- The tally after every intake is that of an earlier one and of the results up to there. -/
def Stepwise (t : Tally) (xs : List Intake) : Prop :=
  ∀ past x rest, xs = past ++ x :: rest → Tally.Adds t x.tally (resultsOf (past ++ [x]))

theorem Stepwise.append_singleton {t : Tally} {xs : List Intake} {x : Intake} (h : Stepwise t xs)
    (hx : Tally.Adds t x.tally (resultsOf (xs ++ [x]))) : Stepwise t (xs ++ [x]) := by
  intro past y rest heq
  rcases List.eq_nil_or_concat rest with rfl | ⟨rest, z, rfl⟩
  · obtain ⟨rfl, hlast⟩ := List.append_inj' heq rfl
    cases hlast
    exact hx
  · rw [List.concat_eq_append, ← List.cons_append, ← List.append_assoc] at heq
    exact h past y rest (List.append_inj' heq rfl).1

/-- A tally is that of an earlier one and of intakes, and so it was after each of them. -/
structure Takes (t : Tally) (xs : List Intake) (now : Tally) : Prop where
  adds : Tally.Adds t now (resultsOf xs)
  stepwise : Stepwise t xs
  isolated : ∀ x ∈ xs, x.result.Isolated x.job.toTask

namespace Takes

variable {t now : Tally} {xs : List Intake}

theorem nil (h : Tally.Adds t now []) : Takes t [] now :=
  ⟨h, by simp [Stepwise], by simp⟩

/-- One more result is taken in. -/
theorem absorb (h : Takes t xs now) (verbose : Bool) {a : Absorption}
    (ha : a.result.Isolated a.job.toTask) :
    Takes t (xs ++ [⟨a, now.absorb verbose a.result⟩]) (now.absorb verbose a.result) := by
  have hadds : Tally.Adds t (now.absorb verbose a.result)
      (resultsOf (xs ++ [⟨a, now.absorb verbose a.result⟩])) := by
    rw [resultsOf_append]
    exact h.adds.absorb verbose a.result
  refine ⟨hadds, h.stepwise.append_singleton hadds, ?_⟩
  intro x hx
  rcases List.mem_append.mp hx with hx | hx
  · exact h.isolated x hx
  · rw [List.mem_singleton.mp hx]
    exact ha

theorem note (h : Takes t xs now) (l : LogLine) : Takes t xs (now.note l) :=
  ⟨h.adds.note l, h.stepwise, h.isolated⟩

end Takes

/-! ## One worker -/

/-- What one worker takes in, up to the first task that raises. -/
def intakesInOrder (s : Surroundings) (settings : Settings) :
    List Job → Tally → Registry → List Intake
  | [], _, _ => []
  | j :: rest, tally, r =>
    match j.toTask.process s settings r with
    | (.error _, _) => []
    | (.ok result, r) =>
      ⟨⟨j, result⟩, tally.absorb settings.verbose result⟩ ::
        intakesInOrder s settings rest (tally.absorb settings.verbose result) r

/-- One worker that gets through takes in one result for each job. -/
theorem takes_inOrder {s : Surroundings} {settings : Settings} {jobs : List Job}
    {phase phase' : Phase} {t tally tally' : Tally} {r r' : Registry} {past : List Intake}
    (h : Takes t past tally)
    (hrun : Pipeline.runInOrder s settings (jobs.map Job.toTask) (phase, tally, r) =
      (none, phase', tally', r')) :
    Takes t (past ++ intakesInOrder s settings jobs tally r) tally' ∧
      (intakesInOrder s settings jobs tally r).map (fun x => x.job) = jobs := by
  induction jobs generalizing phase tally r past with
  | nil =>
    cases hrun
    exact ⟨(List.append_nil past).symm ▸ h, rfl⟩
  | cons j rest ih =>
    rw [List.map_cons, Pipeline.runInOrder] at hrun
    rw [intakesInOrder]
    cases hprocess : j.toTask.process s settings r with
    | mk result r₁ =>
      rw [hprocess] at hrun
      cases result with
      | error f => cases hrun
      | ok result =>
        have hisolated : result.Isolated j.toTask :=
          Task.isolated_process (congrArg Prod.fst hprocess)
        obtain ⟨htakes, hjobs⟩ := ih (h.absorb settings.verbose (a := ⟨j, result⟩) hisolated) hrun
        rw [List.append_assoc] at htakes
        exact ⟨htakes, congrArg (j :: ·) hjobs⟩

/-! ## Pools -/

/-- What is taken in at a moment. -/
def Moment.intake? (plan : PoolPlan) (m : Moment) : Option Intake :=
  (m.absorption? plan).map fun a => ⟨a, (m.pool.perform plan m.move).tally⟩

namespace Pool

variable {plan : PoolPlan} {s : Pool} {m : Move} {t : Tally} {past : List Moment}

/-- What a pool takes in in the course of moments. -/
def intakes (plan : PoolPlan) (moments : List Moment) : List Intake :=
  moments.filterMap (Moment.intake? plan)

theorem map_job_intakes (plan : PoolPlan) (moments : List Moment) :
    (intakes plan moments).map (fun x => x.job) =
      (absorptions plan moments).map Absorption.job := by
  induction moments with
  | nil => rfl
  | cons m moments ih =>
    rw [intakes, absorptions, List.filterMap_cons, List.filterMap_cons, Moment.intake?]
    cases m.absorption? plan with
    | none => exact ih
    | some a => exact congrArg (a.job :: ·) ih

theorem exists_absorption_of_mem_intakes {moments : List Moment} {x : Intake}
    (h : x ∈ intakes plan moments) : x.toAbsorption ∈ absorptions plan moments := by
  obtain ⟨m, hm, hintake⟩ := List.mem_filterMap.mp h
  obtain ⟨a, ha, rfl⟩ := Option.map_eq_some_iff.mp hintake
  exact List.mem_filterMap.mpr ⟨m, hm, ha⟩

/-- What is collected for a job is isolated if results of the work are. -/
theorem isolated_collected
    (hwork : ∀ t r result, (plan.work t r).1 = .ok result → result.Isolated t) (s : Pool)
    (j : Job) : (s.collected plan j).result.Isolated j.toTask := by
  have hcollects := collects plan s j
  generalize s.collected plan j = c at hcollects
  cases hcollects with
  | afterBreak => exact TaskResult.isolated_ofError _ _ _
  | died => exact TaskResult.isolated_ofError _ _ _
  | raised => exact TaskResult.isolated_ofError _ _ _
  | own hown => exact (hwork _ _ _ (congrArg Prod.fst hown)).transferred
  | failed => exact TaskResult.isolated_ofError _ _ _

/-- Every move takes in a result, or leaves the tally as it is but for its log. -/
theorem takes_perform
    (hwork : ∀ t r result, (plan.work t r).1 = .ok result → result.Isolated t)
    (h : Takes t (intakes plan past) s.tally) :
    Takes t (intakes plan (past ++ [⟨s, m⟩])) (s.perform plan m).tally := by
  have hsplit : intakes plan (past ++ [⟨s, m⟩]) =
      intakes plan past ++ intakes plan [⟨s, m⟩] := List.filterMap_append
  rw [hsplit]
  cases m with
  | submit j =>
    have htally : (s.perform plan (.submit j)).tally = s.tally := tally_drained _
    rw [htally]
    exact (List.append_nil (intakes plan past)).symm ▸ h
  | refuse j =>
    have htally : (s.perform plan (.refuse j)).tally =
        s.tally.absorb plan.verbose (j.failure PoolFault.refused.line.toList) := tally_drained _
    have hintake : intakes plan [⟨s, .refuse j⟩] =
        [⟨⟨j, j.failure PoolFault.refused.line.toList⟩, (s.perform plan (.refuse j)).tally⟩] := rfl
    -- whether the pool drains now does not change its tally
    rw [hintake, htally]
    exact h.absorb plan.verbose (TaskResult.isolated_ofError _ _ _)
  | wait =>
    have htally : (s.perform plan .wait).tally = s.tally := tally_drained s
    rw [htally]
    exact (List.append_nil (intakes plan past)).symm ▸ h
  | absorb j => exact h.absorb plan.verbose (isolated_collected hwork s j)
  | restart =>
    refine (List.append_nil (intakes plan past)).symm ▸ ?_
    rw [perform, Pool.restart]
    dsimp only
    split
    · exact h.note _
    · exact h

/-- A pool takes in one result for each job, whatever happens to them. -/
theorem takes_run (hsize : 0 < plan.size)
    (hwork : ∀ t r result, (plan.work t r).1 = .ok result → result.Isolated t)
    (jobs : List Job) {now : Tally} (r : Registry) (h : Tally.Adds t now []) :
    Takes t (intakes plan ((start jobs now r).trace plan)) ((start jobs now r).run plan).tally ∧
      ((intakes plan ((start jobs now r).trace plan)).map fun x => x.job).Perm jobs := by
  have htakes : Takes t (intakes plan ([] ++ (start jobs now r).trace plan))
      ((start jobs now r).run plan).tally :=
    trace_induction (I := fun past s => Takes t (intakes plan past) s.tally)
      (fun _ _ _ hpast _ => takes_perform hwork hpast) (.nil h)
  refine ⟨htakes, ?_⟩
  rw [map_job_intakes]
  exact once_run hsize jobs now r

end Pool

/-! ## Runs -/

namespace Pipeline

variable {s : Surroundings} {conditions : PoolConditions} {p : Pipeline} {tasks : List Task}
  {r : Registry}

/-- What a run takes in, result by result. -/
def intakes (s : Surroundings) (conditions : PoolConditions) (tasks : List Task) (p : Pipeline)
    (r : Registry) : List Intake :=
  let p := p.prepared tasks
  if p.poolSize ≤ 1 then intakesInOrder s p.settings (Job.ofTasks tasks) p.begin.tally r
  else
    match workerSpecs p.settings r with
    | .error _ => []
    | .ok specs =>
      let plan := p.begin.poolPlan s conditions specs
      Pool.intakes plan ((Pool.start (Job.ofTasks tasks) p.begin.tally r).trace plan)

/-- How a run goes: one worker gets through or is stopped by a task, a plugin cannot be rebuilt in
the workers of a pool, or a pool does the work. -/
inductive Goes (s : Surroundings) (conditions : PoolConditions) (tasks : List Task) (p : Pipeline)
    (r : Registry) : List Intake → RunOutcome → Prop where
  | through {phase : Phase} {tally : Tally} {r' : Registry}
      (halone : min p.settings.concurrency tasks.length ≤ 1)
      (hrun : runInOrder s p.settings tasks
        ((p.prepared tasks).begin.phase, (p.prepared tasks).begin.tally, r) =
          (none, phase, tally, r')) :
      Goes s conditions tasks p r
        (intakesInOrder s p.settings (Job.ofTasks tasks) (p.prepared tasks).begin.tally r)
        ⟨none, { (p.prepared tasks).begin with phase, tally }.finish, r', 0⟩
  | stopped {fault : FileFault} {phase : Phase} {tally : Tally} {r' : Registry}
      (halone : min p.settings.concurrency tasks.length ≤ 1)
      (hrun : runInOrder s p.settings tasks
        ((p.prepared tasks).begin.phase, (p.prepared tasks).begin.tally, r) =
          (some fault, phase, tally, r')) :
      Goes s conditions tasks p r
        (intakesInOrder s p.settings (Job.ofTasks tasks) (p.prepared tasks).begin.tally r)
        ⟨some (.unusablePath fault),
          { (p.prepared tasks).begin with phase, tally }.failWith (.unusablePath fault), r', 0⟩
  | unbuilt {fault : PluginFault} (hpool : 2 ≤ min p.settings.concurrency tasks.length)
      (hspecs : workerSpecs p.settings r = .error fault) :
      Goes s conditions tasks p r [] ⟨some (.plugin fault), p.prepared tasks, r, 0⟩
  | pooled {specs : List Text} (hpool : 2 ≤ min p.settings.concurrency tasks.length)
      (hspecs : workerSpecs p.settings r = .ok specs) :
      Goes s conditions tasks p r
        (Pool.intakes ((p.prepared tasks).begin.poolPlan s conditions specs)
          ((Pool.start (Job.ofTasks tasks) (p.prepared tasks).begin.tally r).trace
            ((p.prepared tasks).begin.poolPlan s conditions specs)))
        ((p.prepared tasks).begin.runPooled s conditions specs tasks r)

theorem run_goes (s : Surroundings) (conditions : PoolConditions) (tasks : List Task) (p : Pipeline)
    (r : Registry) :
    Goes s conditions tasks p r (p.intakes s conditions tasks r) (p.run s conditions tasks r) := by
  unfold intakes run
  dsimp only
  split
  · rename_i halone
    rw [runAlone]
    split
    · rename_i hrun
      exact .stopped halone hrun
    · rename_i hrun
      exact .through halone hrun
  · rename_i hpool
    have hsize : 2 ≤ min p.settings.concurrency tasks.length := Nat.lt_of_not_le hpool
    have hsettings : (p.prepared tasks).settings = p.settings := rfl
    rw [hsettings]
    cases hspecs : workerSpecs p.settings r with
    | error fault => exact .unbuilt hsize hspecs
    | ok specs => exact .pooled hsize hspecs

end Pipeline

end OperationScan
