import OperationScan.Proofs.Run.InOrder
import OperationScan.Proofs.Run.Trace

/-!
# Broken pools lose no job

Whatever happens to the jobs of a pool and in whatever order they are handed back, each of them is
absorbed once. A move only changes a few things, so that every fact about a run is an invariant
of its own.

* `Pool.Accounts`, `Pool.Roomy`, `Pool.Drains`: every job is absorbed, in flight or queued; there
  is a worker for each job in flight; a pool drains only when nothing is queued.
* `Pool.Breaks`: an executor is broken by a job that died on it.
* `Pool.Explains`: what is absorbed for a job is its own result, or the job is at fault or in
  flight on an executor that breaks.
* `Pool.Replaces`: every new executor takes a job that was refused or died.
* `Pool.Recovers`, `Pipeline.run_recovers`: all of this about a run from its start.
-/

namespace OperationScan

namespace PoolPlan

/-- The job ends an executor: it is refused, or its worker dies. -/
def endsExecutor (plan : PoolPlan) (j : Job) : Bool :=
  plan.fault j == some .refused || plan.fault j == some .died

/-- The job is at fault itself: a fault is in store for it, or its work raises. -/
def Faulty (plan : PoolPlan) (r : Registry) (j : Job) : Prop :=
  plan.fault j ≠ none ∨ ∃ f, (plan.work j.toTask r).1 = .error f

/-- The job was in flight on an executor when a job died there and broke it. -/
def Struck (plan : PoolPlan) (moments : List Moment) (j : Job) : Prop :=
  ∃ m ∈ moments, ∃ d, m.move = .absorb d ∧ plan.fault d = some .died ∧
    m.pool.executor ≠ .broken ∧ j ∈ m.pool.inFlight

/-- What is absorbed is the result of the job as it arrives from its worker, or a failure of a
job that is at fault or struck. -/
def Explained (plan : PoolPlan) (r : Registry) (moments : List Moment) (a : Absorption) : Prop :=
  (∃ result, (plan.work a.job.toTask r).1 = .ok result ∧ a.result = result.transferred) ∨
    ((∃ line, a.result = a.job.failure line) ∧
      (plan.Faulty r a.job ∨ plan.Struck moments a.job))

theorem Struck.mono {plan : PoolPlan} {past : List Moment} {j : Job} (h : plan.Struck past j)
    (more : List Moment) : plan.Struck (past ++ more) j := by
  obtain ⟨m, hm, d, hd⟩ := h
  exact ⟨m, List.mem_append_left more hm, d, hd⟩

theorem Explained.mono {plan : PoolPlan} {r : Registry} {past : List Moment} {a : Absorption}
    (h : plan.Explained r past a) (more : List Moment) : plan.Explained r (past ++ more) a := by
  rcases h with hown | ⟨hline, hfaulty | hstruck⟩
  · exact .inl hown
  · exact .inr ⟨hline, .inl hfaulty⟩
  · exact .inr ⟨hline, .inr (hstruck.mono more)⟩

end PoolPlan

namespace Pool

variable {plan : PoolPlan} {s : Pool} {m : Move} {past : List Moment} {jobs : List Job}

/-! ## Collected results -/

/-- What can be collected for a job. -/
inductive Collects (plan : PoolPlan) (s : Pool) (j : Job) : Collected → Prop where
  | afterBreak (hbroken : s.executor = .broken) :
      Collects plan s j ⟨j.failure PoolFault.died.line.toList, .broken, s.registry⟩
  | died (hintact : s.executor ≠ .broken) (hfault : plan.fault j = some .died) :
      Collects plan s j ⟨j.failure PoolFault.died.line.toList, .broken, s.registry⟩
  | raised (hfault : plan.fault j = some .raised) :
      Collects plan s j ⟨j.failure PoolFault.raised.line.toList, s.executor, s.registry⟩
  | own {result : TaskResult} {r : Registry}
      (hwork : plan.work j.toTask s.registry = (.ok result, r)) :
      Collects plan s j ⟨result.transferred, s.executor, r⟩
  | failed {f : FileFault} {r : Registry}
      (hwork : plan.work j.toTask s.registry = (.error f, r)) :
      Collects plan s j
        ⟨j.failure (f.kindName.toList ++ ": ".toList ++ f.reason.toList), s.executor, r⟩

theorem collects (plan : PoolPlan) (s : Pool) (j : Job) :
    Collects plan s j (s.collected plan j) := by
  unfold collected
  split
  · rename_i hbroken
    rw [beq_iff_eq] at hbroken
    rw [hbroken]
    exact .afterBreak hbroken
  · rename_i hintact
    rw [beq_iff_eq] at hintact
    split
    · rename_i hfault
      exact .died hintact hfault
    · rename_i hfault
      exact .raised hfault
    · split
      · rename_i hwork
        exact .own hwork
      · rename_i hwork
        exact .failed hwork

/-! ## Every job is somewhere -/

/-- Every job is absorbed, in flight or queued. -/
def Accounts (plan : PoolPlan) (jobs : List Job) (past : List Moment) (s : Pool) : Prop :=
  ((absorptions plan past).map Absorption.job ++ (s.inFlight ++ s.queue)).Perm jobs

theorem Accounts.perform (h : Accounts plan jobs past s) (hm : Enabled plan s m) :
    Accounts plan jobs (past ++ [⟨s, m⟩]) (s.perform plan m) := by
  refine List.Perm.trans ?_ h
  rw [absorptions_append, List.map_append, List.append_assoc]
  apply List.Perm.append_left
  cases hm with
  | submit hreturned hqueue =>
    simp [hqueue]
  | refuse hreturned hqueue =>
    simp only [absorptions_refuse, inFlight_refuse, queue_refuse, hqueue, List.map_cons,
      List.map_nil, List.tail_cons, List.singleton_append]
    exact List.perm_middle.symm
  | wait hreturned hpending =>
    rw [absorptions_wait, queue_wait]
    exact (inFlight_wait_perm hreturned hpending).append_right s.queue
  | absorb hreturned =>
    rw [absorptions_absorb, queue_absorb, inFlight_absorb plan hreturned]
    exact List.Perm.refl _
  | restart =>
    exact List.Perm.refl _

/-! ## There is room for jobs in flight -/

/-- There is a worker for every job in flight. -/
def Roomy (plan : PoolPlan) (s : Pool) : Prop := s.inFlight.length ≤ plan.size

theorem Roomy.perform (h : Roomy plan s) (hm : Enabled plan s m) :
    Roomy plan (s.perform plan m) := by
  unfold Roomy at h ⊢
  cases hm with
  | submit hreturned hqueue hready hroom =>
    rw [inFlight_submit, List.length_append, inFlight, hreturned]
    exact hroom
  | refuse =>
    rw [inFlight_refuse]
    exact h
  | wait hreturned hpending =>
    rw [(inFlight_wait_perm hreturned hpending).length_eq]
    exact h
  | absorb hreturned =>
    rw [inFlight_absorb plan hreturned, List.length_cons] at h
    omega
  | restart => exact h

/-! ## When a pool drains -/

/-- A pool drains only when nothing is queued. -/
def Drains (s : Pool) : Prop := s.phase = .draining → s.queue = []

theorem drains_drained {s : Pool} (h : s.phase = .draining → s.queue = []) : s.drained.Drains := by
  intro hphase
  rw [queue_drained]
  unfold drained at hphase
  split at hphase
  · rename_i hempty
    exact List.isEmpty_iff.mp hempty
  · exact h hphase

theorem Drains.perform (h : s.Drains) (hm : Enabled plan s m) : (s.perform plan m).Drains := by
  cases hm with
  | submit hreturned hqueue =>
    refine drains_drained fun hphase => ?_
    have := h hphase
    rw [hqueue] at this
    cases this
  | refuse hreturned hqueue =>
    refine drains_drained fun hphase => ?_
    have := h hphase
    rw [hqueue] at this
    cases this
  | wait => exact drains_drained h
  | absorb => exact h
  | restart => exact h

/-! ## Who breaks an executor -/

/-- A broken executor has been broken by a job that died there, at a moment at which all that is
in flight was in flight already. -/
def Breaks (plan : PoolPlan) (past : List Moment) (s : Pool) : Prop :=
  s.executor = .broken → ∃ m ∈ past, ∃ d, m.move = .absorb d ∧ plan.fault d = some .died ∧
    m.pool.executor ≠ .broken ∧ s.inFlight ⊆ m.pool.inFlight

theorem Breaks.mono {s' : Pool} (h : Breaks plan past s)
    (hbroken : s'.executor = .broken → s.executor = .broken) (hsub : s'.inFlight ⊆ s.inFlight)
    (more : List Moment) : Breaks plan (past ++ more) s' := by
  intro hs'
  obtain ⟨m, hm, d, hmove, hfault, hintact, hall⟩ := h (hbroken hs')
  exact ⟨m, List.mem_append_left more hm, d, hmove, hfault, hintact, fun j hj => hall (hsub hj)⟩

theorem Breaks.perform (h : Breaks plan past s) (hm : Enabled plan s m) :
    Breaks plan (past ++ [⟨s, m⟩]) (s.perform plan m) := by
  cases hm with
  | submit hreturned hqueue hready =>
    intro hbroken
    rw [perform, executor_drained, hready] at hbroken
    cases hbroken
  | refuse =>
    intro hbroken
    rw [perform, executor_drained] at hbroken
    cases hbroken
  | wait hreturned hpending =>
    refine h.mono ?_ (inFlight_wait_perm hreturned hpending).subset _
    intro hbroken
    exact (executor_drained s).symm.trans hbroken
  | @absorb j rest hreturned =>
    have hsub : (s.perform plan (.absorb j)).inFlight ⊆ s.inFlight := by
      rw [inFlight_absorb plan hreturned]
      exact List.subset_cons_self j _
    have hexecutor : (s.perform plan (.absorb j)).executor = (s.collected plan j).executor := rfl
    have hcollects := collects plan s j
    generalize s.collected plan j = c at hcollects hexecutor
    cases hcollects with
    | afterBreak hbroken => exact h.mono (fun _ => hbroken) hsub _
    | died hintact hfault =>
      -- this is the moment; what is in flight now was in flight before
      intro _
      exact ⟨⟨s, .absorb j⟩, by simp, j, rfl, hfault, hintact, hsub⟩
    | raised => exact h.mono (fun hbroken => hexecutor.symm.trans hbroken) hsub _
    | own => exact h.mono (fun hbroken => hexecutor.symm.trans hbroken) hsub _
    | failed => exact h.mono (fun hbroken => hexecutor.symm.trans hbroken) hsub _
  | restart =>
    rintro ⟨⟩

/-! ## Whose result is absorbed -/

/-- The registry does not change, and everything that has been absorbed is explained. -/
structure Explains (plan : PoolPlan) (r : Registry) (past : List Moment) (s : Pool) : Prop where
  breaks : Breaks plan past s
  registry : s.registry = r
  explained : ∀ a ∈ absorptions plan past, plan.Explained r past a

/-- The jobs in flight on a broken executor have been struck. -/
theorem Breaks.struck (h : Breaks plan past s) (hbroken : s.executor = .broken) {j : Job}
    (hj : j ∈ s.inFlight) : plan.Struck past j := by
  obtain ⟨m, hm, d, hmove, hfault, hintact, hall⟩ := h hbroken
  exact ⟨m, hm, d, hmove, hfault, hintact, hall hj⟩

theorem Explains.explained_collected {r : Registry} (h : Explains plan r past s) {j : Job}
    (hj : j ∈ s.inFlight) : plan.Explained r past ⟨j, (s.collected plan j).result⟩ := by
  have hcollects := collects plan s j
  generalize s.collected plan j = c at hcollects
  cases hcollects with
  | afterBreak hbroken => exact .inr ⟨⟨_, rfl⟩, .inr (h.breaks.struck hbroken hj)⟩
  | died _ hfault => exact .inr ⟨⟨_, rfl⟩, .inl (.inl (by simp [hfault]))⟩
  | raised hfault => exact .inr ⟨⟨_, rfl⟩, .inl (.inl (by simp [hfault]))⟩
  | @own result r' hwork =>
    rw [h.registry] at hwork
    exact .inl ⟨result, by rw [hwork], rfl⟩
  | @failed f r' hwork =>
    rw [h.registry] at hwork
    exact .inr ⟨⟨_, rfl⟩, .inl (.inr ⟨f, by rw [hwork]⟩)⟩

theorem Explains.perform {r : Registry} (hwork : ∀ t, (plan.work t r).2 = r)
    (h : Explains plan r past s) (hm : Enabled plan s m) :
    Explains plan r (past ++ [⟨s, m⟩]) (s.perform plan m) := by
  refine ⟨h.breaks.perform hm, ?_, ?_⟩
  · cases hm with
    | submit => exact (registry_drained _).trans h.registry
    | refuse => exact (registry_drained _).trans h.registry
    | wait => exact (registry_drained s).trans h.registry
    | @absorb j =>
      change (s.collected plan j).registry = r
      have hcollects := collects plan s j
      generalize s.collected plan j = c at hcollects
      cases hcollects with
      | afterBreak => exact h.registry
      | died => exact h.registry
      | raised => exact h.registry
      | @own result r' hown =>
        have := hwork j.toTask
        rw [h.registry] at hown
        rw [hown] at this
        exact this
      | @failed f r' hfailed =>
        have := hwork j.toTask
        rw [h.registry] at hfailed
        rw [hfailed] at this
        exact this
    | restart => exact h.registry
  · intro a ha
    rw [absorptions_append, List.mem_append] at ha
    rcases ha with ha | ha
    · exact (h.explained a ha).mono _
    · refine PoolPlan.Explained.mono ?_ _
      cases hm with
      | submit => cases ha
      | refuse hreturned hqueue hready hroom hfault =>
        rw [absorptions_refuse, List.mem_singleton] at ha
        rw [ha]
        exact .inr ⟨⟨_, rfl⟩, .inl (.inl (by simp [hfault]))⟩
      | wait => cases ha
      | absorb hreturned =>
        rw [absorptions_absorb, List.mem_singleton] at ha
        rw [ha]
        exact h.explained_collected (by simp [inFlight, hreturned])
      | restart => cases ha

/-! ## How many executors there are -/

/-- Every new executor, and every executor that takes no more jobs, is due to a job of its
own. -/
def Replaces (plan : PoolPlan) (past : List Moment) (s : Pool) : Prop :=
  s.executors + Executor.load s.executor ≤
    1 + ((absorptions plan past).map Absorption.job).countP plan.endsExecutor

theorem Replaces.perform (h : Replaces plan past s) (hm : Enabled plan s m) :
    Replaces plan (past ++ [⟨s, m⟩]) (s.perform plan m) := by
  unfold Replaces at h ⊢
  rw [absorptions_append, List.map_append, List.countP_append]
  cases hm with
  | submit =>
    rw [perform, executor_drained, executors_drained]
    exact Nat.le_trans h (by omega)
  | @refuse j rest hreturned hqueue hready hroom hfault =>
    have hends : plan.endsExecutor j = true := by simp [PoolPlan.endsExecutor, hfault]
    rw [hready] at h
    rw [perform, executor_drained, executors_drained]
    simp only [Executor.load, absorptions_refuse, List.map_cons, List.map_nil, List.countP_singleton,
      hends, if_true] at h ⊢
    omega
  | wait =>
    have hexecutor : (s.perform plan .wait).executor = s.executor := executor_drained s
    have hexecutors : (s.perform plan .wait).executors = s.executors := executors_drained s
    rw [hexecutor, hexecutors]
    exact Nat.le_trans h (by omega)
  | @absorb j rest hreturned =>
    have hexecutor : (s.perform plan (.absorb j)).executor = (s.collected plan j).executor := rfl
    have hexecutors : (s.perform plan (.absorb j)).executors = s.executors := rfl
    rw [hexecutor, hexecutors]
    rw [absorptions_absorb]
    have hcollects := collects plan s j
    generalize s.collected plan j = c at hcollects
    cases hcollects with
    | afterBreak hbroken =>
      rw [hbroken] at h
      exact Nat.le_trans h (by omega)
    | died hintact hfault =>
      have hends : plan.endsExecutor j = true := by simp [PoolPlan.endsExecutor, hfault]
      simp only [Executor.load, List.map_cons, List.map_nil, List.countP_singleton, hends, if_true]
      omega
    | raised => exact Nat.le_trans h (by omega)
    | own => exact Nat.le_trans h (by omega)
    | failed => exact Nat.le_trans h (by omega)
  | restart hreturned hpending hqueue hready =>
    have hload : Executor.load s.executor = 1 := by
      cases e : s.executor with
      | ready => exact absurd e hready
      | closed => rfl
      | broken => rfl
    rw [hload] at h
    simp only [perform, Pool.restart, Executor.load, absorptions_restart, List.map_nil,
      List.countP_nil]
    omega

/-! ## The figures -/

/-- The tally is that of the results that have been absorbed. -/
def Tallies (plan : PoolPlan) (t : Tally) (past : List Moment) (s : Pool) : Prop :=
  Tally.Adds t s.tally ((absorptions plan past).map Absorption.result)

theorem Tallies.perform {t : Tally} (h : Tallies plan t past s) (hm : Enabled plan s m) :
    Tallies plan t (past ++ [⟨s, m⟩]) (s.perform plan m) := by
  unfold Tallies at h ⊢
  rw [absorptions_append, List.map_append]
  cases hm with
  | submit =>
    rw [perform, tally_drained, absorptions_submit, List.map_nil, List.append_nil]
    exact h
  | refuse =>
    rw [perform, tally_drained]
    exact h.absorb _ _
  | wait =>
    have htally : (s.perform plan .wait).tally = s.tally := tally_drained s
    rw [htally, absorptions_wait, List.map_nil, List.append_nil]
    exact h
  | absorb => exact h.absorb _ _
  | restart =>
    rw [absorptions_restart, List.map_nil, List.append_nil, perform, Pool.restart]
    dsimp only
    split
    · exact h.note _
    · exact h

/-! ## A run from its start -/

/-- What has come of jobs after the moments of a run. -/
structure Recovers (plan : PoolPlan) (jobs : List Job) (t : Tally) (r : Registry)
    (moments : List Moment) (s : Pool) : Prop where
  once : ((absorptions plan moments).map Absorption.job).Perm jobs
  explained : ∀ a ∈ absorptions plan moments, plan.Explained r moments a
  roomy : ∀ m ∈ moments, m.pool.inFlight.length ≤ plan.size
  drains : ∀ m ∈ moments, m.pool.phase = .draining → m.pool.queue = []
  executors : s.executors ≤ 1 + jobs.countP plan.endsExecutor
  tally : Tally.Adds t s.tally ((absorptions plan moments).map Absorption.result)
  registry : s.registry = r

/-- A run absorbs every job once. -/
theorem once_run (hsize : 0 < plan.size) (jobs : List Job) (t : Tally) (r : Registry) :
    ((absorptions plan ((start jobs t r).trace plan)).map Absorption.job).Perm jobs := by
  generalize hs : start jobs t r = s
  have haccounts : Accounts plan jobs ([] ++ s.trace plan) (s.run plan) := by
    refine trace_induction (fun _ _ _ h hm => Accounts.perform h hm) ?_
    rw [← hs]
    exact List.Perm.refl jobs
  obtain ⟨hqueue, hflight⟩ := done_run hsize s
  unfold Accounts at haccounts
  rw [hqueue, hflight, List.append_nil, List.append_nil] at haccounts
  exact haccounts

theorem recovers_run {r : Registry} (hsize : 0 < plan.size) (hwork : ∀ t, (plan.work t r).2 = r)
    (jobs : List Job) (t : Tally) :
    Recovers plan jobs t r ((start jobs t r).trace plan) ((start jobs t r).run plan) := by
  have honce := once_run hsize jobs t r
  generalize hs : start jobs t r = s at honce ⊢
  -- one induction over the run for each invariant
  have hexplains : Explains plan r ([] ++ s.trace plan) (s.run plan) := by
    refine trace_induction (fun _ _ _ h hm => Explains.perform hwork h hm) ?_
    rw [← hs]
    exact ⟨by rintro ⟨⟩, rfl, by simp⟩
  have hreplaces : Replaces plan ([] ++ s.trace plan) (s.run plan) := by
    refine trace_induction (fun _ _ _ h hm => Replaces.perform h hm) ?_
    rw [← hs]
    exact Nat.le_refl 1
  have htallies : Tallies plan t ([] ++ s.trace plan) (s.run plan) := by
    refine trace_induction (fun _ _ _ h hm => Tallies.perform h hm) ?_
    rw [← hs]
    exact Tally.Adds.refl t
  have hroomy : ∀ m ∈ s.trace plan, Roomy plan m.pool := by
    refine (forall_trace (fun _ _ h hm => Roomy.perform h hm) ?_).1
    rw [← hs]
    exact Nat.zero_le _
  have hdrains : ∀ m ∈ s.trace plan, Drains m.pool := by
    refine (forall_trace (fun _ _ h hm => Drains.perform h hm) ?_).1
    rw [← hs]
    rintro ⟨⟩
  rw [List.nil_append] at hexplains hreplaces htallies
  refine ⟨honce, hexplains.explained, hroomy, hdrains, ?_, htallies, hexplains.registry⟩
  unfold Replaces at hreplaces
  rw [honce.countP_eq] at hreplaces
  omega

end Pool

/-! ## The pool of a pipeline -/

theorem Job.length_ofTasks (tasks : List Task) : (Job.ofTasks tasks).length = tasks.length := by
  rw [ofTasks, List.length_map, List.length_zipIdx]

namespace Pipeline

variable {p : Pipeline} {tasks : List Task}

theorem workerSpecs_bare {settings : Settings} (hplugins : settings.plugins = []) :
    workerSpecs settings (.empty []) = .ok [] := by
  rw [workerSpecs, hplugins]
  rfl

/-- The plan of the pool in a run without plugins. -/
def barePlan (s : Surroundings) (conditions : PoolConditions) (p : Pipeline)
    (tasks : List Task) : PoolPlan :=
  (p.prepared tasks).poolPlan s conditions []

/-- The moments of the pool in a run without plugins. -/
def moments (s : Surroundings) (conditions : PoolConditions) (p : Pipeline) (tasks : List Task) :
    List Moment :=
  (Pool.start (Job.ofTasks tasks) (p.prepared tasks).begin.tally (.empty [])).trace
    (p.barePlan s conditions tasks)

/-- The pool of a pipeline after a run without plugins. -/
def pool (s : Surroundings) (conditions : PoolConditions) (p : Pipeline) (tasks : List Task) :
    Pool :=
  (Pool.start (Job.ofTasks tasks) (p.prepared tasks).begin.tally (.empty [])).run
    (p.barePlan s conditions tasks)

theorem run_pooled (s : Surroundings) (conditions : PoolConditions)
    (hplugins : p.settings.plugins = []) (hpool : 2 ≤ min p.settings.concurrency tasks.length) :
    p.run s conditions tasks (.empty []) =
      ⟨none, { (p.prepared tasks).begin with
        phase := (p.pool s conditions tasks).phase
        tally := (p.pool s conditions tasks).tally }.finish, (p.pool s conditions tasks).registry,
        (p.pool s conditions tasks).executors⟩ := by
  have hsize : ¬ (p.prepared tasks).poolSize ≤ 1 := by
    change ¬ min p.settings.concurrency tasks.length ≤ 1
    omega
  unfold run
  dsimp only
  rw [if_neg hsize]
  have hspecs : workerSpecs (p.prepared tasks).settings (.empty []) = .ok [] :=
    workerSpecs_bare hplugins
  rw [hspecs]
  rfl

/-- Nothing is lost and nothing is counted twice in a pool that breaks. -/
theorem recovers_pool (s : Surroundings) (conditions : PoolConditions)
    (hpool : 2 ≤ min p.settings.concurrency tasks.length) :
    Pool.Recovers (p.barePlan s conditions tasks) (Job.ofTasks tasks)
      (p.prepared tasks).begin.tally (.empty []) (p.moments s conditions tasks)
      (p.pool s conditions tasks) := by
  refine Pool.recovers_run ?_ ?_ _ _
  · change 0 < min p.settings.concurrency tasks.length
    omega
  · intro t
    have hbare : (t.process s { p.settings with plugins := [] } (.empty [])).2 = .empty [] :=
      Task.process_bare rfl t
    exact hbare

/-- A run with a pool takes in what its pool has absorbed. -/
theorem run_adds (s : Surroundings) (conditions : PoolConditions)
    (hplugins : p.settings.plugins = []) (hpool : 2 ≤ min p.settings.concurrency tasks.length) :
    (p.run s conditions tasks (.empty [])).fault = none ∧
      Tally.Adds .empty (p.run s conditions tasks (.empty [])).pipeline.tally
        ((absorptions (p.barePlan s conditions tasks) (p.moments s conditions tasks)).map
          Absorption.result) := by
  rw [run_pooled s conditions hplugins hpool]
  exact ⟨rfl, adds_finish _ ((adds_prepared p tasks).trans (recovers_pool s conditions hpool).tally)⟩

/-- A run with a pool ends with all tasks done, whatever happens to them in the pool. -/
theorem run_recovers (s : Surroundings) (conditions : PoolConditions)
    (hplugins : p.settings.plugins = []) (hpool : 2 ≤ min p.settings.concurrency tasks.length) :
    let outcome := p.run s conditions tasks (.empty [])
    let plan := p.barePlan s conditions tasks
    let moments := p.moments s conditions tasks
    outcome.fault = none ∧ outcome.pipeline.phase = .done ∧
      outcome.pipeline.tally.completed = tasks.length ∧
      ((absorptions plan moments).map Absorption.job).Perm (Job.ofTasks tasks) ∧
      Tally.Adds .empty outcome.pipeline.tally
        ((absorptions plan moments).map Absorption.result) ∧
      (∀ a ∈ absorptions plan moments, plan.Explained (.empty []) moments a) ∧
      (∀ m ∈ moments, m.pool.inFlight.length ≤ min p.settings.concurrency tasks.length) ∧
      (∀ m ∈ moments, m.pool.phase = .draining → m.pool.queue = []) ∧
      outcome.executors ≤ 1 + (Job.ofTasks tasks).countP plan.endsExecutor := by
  have hrecovers := recovers_pool s conditions hpool
  obtain ⟨hfault, hadds⟩ := run_adds s conditions hplugins hpool
  have hcompleted : (p.run s conditions tasks (.empty [])).pipeline.tally.completed =
      tasks.length := by
    have hjobs := hrecovers.once.length_eq
    rw [List.length_map, Job.ofTasks, List.length_map, List.length_zipIdx] at hjobs
    rw [hadds.completed, List.length_map, hjobs]
    exact Nat.zero_add _
  refine ⟨hfault, ?_, hcompleted, hrecovers.once, hadds, hrecovers.explained, hrecovers.roomy,
    hrecovers.drains, ?_⟩
  · rw [run_pooled s conditions hplugins hpool]
    rfl
  · rw [run_pooled s conditions hplugins hpool]
    exact hrecovers.executors

/-- Two texts with one operation, spaced in two ways. -/
def spacedTasks : List Task :=
  [⟨"a.js".toList, "a.js".toList, some "// query A \x7b a \x7d".toList⟩,
    ⟨"b.js".toList, "b.js".toList, some "//  query  A  \x7b a \x7d".toList⟩]

/-- The first job dies, and the job that is submitted last is handed back first. -/
def firstDies : PoolConditions where
  fault j := if j.position = 0 then some .died else none
  schedule := Schedule.newest

theorem run_recovers_firstDies :
    let outcome := (Pipeline.new { concurrency := 2 }).run .bare firstDies spacedTasks (.empty [])
    2 ≤ min 2 spacedTasks.length ∧ outcome.fault = none ∧
      outcome.pipeline.tally.completed = spacedTasks.length ∧ outcome.executors ≤ 2 := by
  have hpool : 2 ≤ min 2 spacedTasks.length := by decide
  obtain ⟨hfault, -, hcompleted, -, -, -, -, -, hexecutors⟩ :=
    run_recovers (p := Pipeline.new { concurrency := 2 }) .bare firstDies rfl hpool
  exact ⟨hpool, hfault, hcompleted, hexecutors⟩

end Pipeline

end OperationScan
