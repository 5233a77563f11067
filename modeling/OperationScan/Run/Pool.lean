import OperationScan.Plugin.Registry
import OperationScan.Files.Tree
import OperationScan.Run.Schedule
import OperationScan.Run.Tally

/-!
# Pools of workers

An executor takes jobs in until as many are in flight as it has workers, and hands them back in
an order of its own. When a worker dies its executor is broken: everything in flight on it fails,
and a new executor takes over what is still queued.

* `Job`: a task with its position in the list of a run.
* `Pool.next?`, `Pool.perform`: the next move of a pool, and what a move does: a job is submitted
  or refused, jobs are handed back, the result of one is absorbed, or a new executor starts.
* `Pool.run`: moves until nothing is queued or in flight.
-/

namespace OperationScan

/-- The stages of a run. -/
inductive Phase where
  | idle
  | dispatching
  | draining
  | done
  deriving Repr, DecidableEq

namespace Phase

/-- The name of a stage. -/
def name : Phase → String
  | idle => "idle"
  | dispatching => "dispatching"
  | draining => "draining"
  | done => "done"

end Phase

/-- What happens to a job in a pool in place of its work: it is refused, its worker dies, or its
worker fails. -/
inductive PoolFault where
  | refused
  | died
  | raised
  deriving Repr, DecidableEq

namespace PoolFault

/-- A fault as one line: its kind and its wording. -/
def line : PoolFault → String
  | refused | died => "BrokenProcessPool: worker process died"
  | raised => "RuntimeError: worker raised"

end PoolFault

/-- A task with its position in the list of a run. -/
structure Job extends Task where
  position : Nat

namespace Job

/-- The jobs of a list of tasks. -/
def ofTasks (tasks : List Task) : List Job := tasks.zipIdx.map fun p => ⟨p.1, p.2⟩

/-- The result of a job that fails in the pool. -/
def failure (j : Job) (line : Text) : TaskResult := .ofError j.toTask .workerFault line

end Job

/-- The work on a task, which may change the registry of plugins. -/
abbrev Work := Task → Registry → Except FileFault TaskResult × Registry

/-- What stays the same while a pool runs. -/
structure PoolPlan where
  size : Nat
  verbose : Bool
  fault : Job → Option PoolFault
  schedule : Schedule
  work : Work

/-- An executor is ready for jobs, closed because it refused one, or broken. -/
inductive Executor where
  | ready
  | closed
  | broken
  deriving Repr, DecidableEq

/-- What a job that has been handed back gives, and what it leaves of the executor and of the
registry. -/
structure Collected where
  result : TaskResult
  executor : Executor
  registry : Registry

/-- A pool at work. The jobs in flight are those pending and those that have been handed back and
whose results have not been absorbed. -/
structure Pool where
  queue : List Job
  pending : List Job
  returned : List Job
  executor : Executor
  executors : Nat
  turn : Nat
  phase : Phase
  tally : Tally
  registry : Registry

/-- A move of a pool. -/
inductive Move where
  | submit (j : Job)
  | refuse (j : Job)
  | wait
  | absorb (j : Job)
  | restart

namespace Pool

/-- A pool at the start. -/
def start (jobs : List Job) (tally : Tally) (r : Registry) : Pool :=
  ⟨jobs, [], [], .ready, 1, 0, .dispatching, tally, r⟩

/-- The jobs in flight. -/
def inFlight (s : Pool) : List Job := s.returned ++ s.pending

/-- Collects a job that has been handed back. This is the fault model of pools: an executor breaks
at the moment when the job of a dead worker is collected. Every job that is collected from it later
fails, even if a worker had done it, and no job that is collected earlier does. Which jobs these are
is up to the schedule. -/
def collected (plan : PoolPlan) (s : Pool) (j : Job) : Collected :=
  if s.executor == .broken then ⟨j.failure PoolFault.died.line.toList, s.executor, s.registry⟩
  else
    match plan.fault j with
    | some .died => ⟨j.failure PoolFault.died.line.toList, .broken, s.registry⟩
    | some .raised => ⟨j.failure PoolFault.raised.line.toList, s.executor, s.registry⟩
    | _ =>
      match plan.work j.toTask s.registry with
      | (.ok result, r) => ⟨result.transferred, s.executor, r⟩
      | (.error f, r) =>
        ⟨j.failure (f.kindName.toList ++ ": ".toList ++ f.reason.toList), s.executor, r⟩

/-- The stage of a pool: it drains as soon as nothing is queued. -/
def drained (s : Pool) : Pool := if s.queue.isEmpty then { s with phase := .draining } else s

/-- Waits until some of the pending jobs are handed back. -/
def await (plan : PoolPlan) (s : Pool) : Pool :=
  let positions := plan.schedule.positions s.turn s.pending.length
  { s with
    pending := Schedule.left positions s.pending
    returned := Schedule.taken positions s.pending
    turn := s.turn + 1 }

/-- Absorbs the result of a job that has been handed back. -/
def absorb (plan : PoolPlan) (s : Pool) (j : Job) : Pool :=
  let c := s.collected plan j
  { s with
    returned := s.returned.tail
    executor := c.executor
    tally := s.tally.absorb plan.verbose c.result
    registry := c.registry }

/-- Starts a new executor. -/
def restart (plan : PoolPlan) (s : Pool) : Pool :=
  let line := "  worker pool broke; restarting for ".toList ++ Text.ofNat s.queue.length ++
    " queued tasks".toList
  { s with
    executor := .ready
    executors := s.executors + 1
    tally := if plan.verbose then s.tally.note (.warning line) else s.tally }

/-- The next move, unless nothing is left to do. -/
def next? (plan : PoolPlan) (s : Pool) : Option Move :=
  match s.returned, s.queue with
  | j :: _, _ => some (.absorb j)
  | [], j :: _ =>
    if s.executor == .ready && s.pending.length < plan.size then
      some (if plan.fault j == some .refused then .refuse j else .submit j)
    else if !s.pending.isEmpty then some .wait
    else if s.executor == .ready then none
    else some .restart
  | [], [] => if s.pending.isEmpty then none else some .wait

/-- What a move does. -/
def perform (plan : PoolPlan) (s : Pool) : Move → Pool
  | .submit j => { s with queue := s.queue.tail, pending := s.pending ++ [j] }.drained
  | .refuse j =>
    { s with
      queue := s.queue.tail
      executor := .closed
      tally := s.tally.absorb plan.verbose (j.failure PoolFault.refused.line.toList) }.drained
  | .wait => s.drained.await plan
  | .absorb j => s.absorb plan j
  | .restart => s.restart plan

/-! ## Termination -/

/-- When each move is made. -/
inductive Enabled (plan : PoolPlan) (s : Pool) : Move → Prop where
  | submit {j : Job} {rest : List Job} (hreturned : s.returned = []) (hqueue : s.queue = j :: rest)
      (hready : s.executor = .ready) (hroom : s.pending.length < plan.size)
      (hfault : plan.fault j ≠ some .refused) : Enabled plan s (.submit j)
  | refuse {j : Job} {rest : List Job} (hreturned : s.returned = []) (hqueue : s.queue = j :: rest)
      (hready : s.executor = .ready) (hroom : s.pending.length < plan.size)
      (hfault : plan.fault j = some .refused) : Enabled plan s (.refuse j)
  | wait (hreturned : s.returned = []) (hpending : s.pending ≠ []) : Enabled plan s .wait
  | absorb {j : Job} {rest : List Job} (hreturned : s.returned = j :: rest) :
      Enabled plan s (.absorb j)
  | restart (hreturned : s.returned = []) (hpending : s.pending = []) (hqueue : s.queue ≠ [])
      (hready : s.executor ≠ .ready) : Enabled plan s .restart

theorem enabled_of_next? {plan : PoolPlan} {s : Pool} {m : Move} (h : s.next? plan = some m) :
    Enabled plan s m := by
  unfold next? at h
  split at h
  · rename_i hreturned
    cases h
    exact .absorb hreturned
  · rename_i j rest hreturned hqueue
    split at h
    · rename_i hopen
      simp only [Bool.and_eq_true, beq_iff_eq, decide_eq_true_eq] at hopen
      split at h
      · rename_i hfault
        cases h
        exact .refuse hreturned hqueue hopen.1 hopen.2 (by simpa using hfault)
      · rename_i hfault
        cases h
        exact .submit hreturned hqueue hopen.1 hopen.2 (by simpa using hfault)
    · split at h
      · rename_i hpending
        cases h
        exact .wait hreturned (by simpa using hpending)
      · rename_i hpending
        split at h
        · cases h
        · rename_i hready
          cases h
          exact .restart hreturned (by simpa using hpending) (by simp [hqueue])
            (by simpa using hready)
  · rename_i hreturned hqueue
    split at h
    · cases h
    · rename_i hpending
      cases h
      exact .wait hreturned (by simpa using hpending)

/-- An executor that takes no more jobs counts for one. -/
def Executor.load : Executor → Nat
  | .ready => 0
  | _ => 1

theorem Executor.load_le (e : Executor) : Executor.load e ≤ 1 := by
  cases e <;> decide

/-- What is left to do: a queued job has to be submitted, handed back and absorbed. -/
def load (s : Pool) : Nat :=
  4 * s.queue.length + 3 * s.pending.length + 2 * s.returned.length + Executor.load s.executor

@[simp]
theorem load_drained (s : Pool) : s.drained.load = s.load := by
  unfold drained
  split <;> rfl

@[simp]
theorem pending_drained (s : Pool) : s.drained.pending = s.pending := by
  unfold drained
  split <;> rfl

@[simp]
theorem returned_drained (s : Pool) : s.drained.returned = s.returned := by
  unfold drained
  split <;> rfl

theorem load_await_lt (plan : PoolPlan) (s : Pool) (hreturned : s.returned = [])
    (hpending : s.pending ≠ []) : (s.await plan).load < s.load := by
  have hpos : 0 < s.pending.length := List.length_pos_iff.2 hpending
  obtain ⟨hne, hnodup, hlt⟩ := plan.schedule.positions_fit s.turn hpos
  have hsum := Schedule.length_taken_add_left s.pending hnodup
  have htaken := List.length_pos_iff.2 (Schedule.taken_ne_nil hne hlt)
  simp only [load, await, hreturned, List.length_nil]
  omega

theorem load_absorb_lt (plan : PoolPlan) (s : Pool) (j : Job) (hreturned : s.returned ≠ []) :
    (s.absorb plan j).load < s.load := by
  have hle := Executor.load_le (s.collected plan j).executor
  have hpos := List.length_pos_iff.2 hreturned
  simp only [load, absorb, List.length_tail]
  omega

/-- Every move leaves less to do. -/
theorem load_perform_lt {plan : PoolPlan} {s : Pool} {m : Move} (h : Enabled plan s m) :
    (s.perform plan m).load < s.load := by
  cases h with
  | submit hreturned hqueue hready =>
    simp only [perform, load_drained]
    simp [load, hqueue]
    omega
  | refuse hreturned hqueue hready =>
    simp only [perform, load_drained]
    simp [load, hqueue, hready, Executor.load]
    omega
  | wait hreturned hpending =>
    have hlt := load_await_lt plan s.drained (by simpa using hreturned) (by simpa using hpending)
    simpa [perform] using hlt
  | absorb hreturned => exact load_absorb_lt plan s _ (by simp [hreturned])
  | restart hreturned hpending hqueue hready =>
    have hone : Executor.load s.executor = 1 := by
      cases e : s.executor with
      | ready => exact absurd e hready
      | closed => rfl
      | broken => rfl
    simp only [perform, restart, load, hone]
    simp [Executor.load]

/-- Moves until nothing is left to do. -/
def run (plan : PoolPlan) (s : Pool) : Pool :=
  match _h : s.next? plan with
  | none => s
  | some m => run plan (s.perform plan m)
termination_by s.load
decreasing_by exact load_perform_lt (enabled_of_next? _h)

end Pool

end OperationScan
