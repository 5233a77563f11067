import OperationScan.Report.Basic
import OperationScan.Run.Pool
import OperationScan.Task.Process

/-!
# Running many tasks

A pipeline processes tasks, one after the other or with a pool of workers, and merges what they
find. It can run again; each run starts from nothing.

* `Pipeline.run`: a run. It ends early only when a task has no path at all or a plugin cannot be
  rebuilt in a worker.
* `Pipeline.metadata`, `Pipeline.report`: the figures of the last run, and all about it.
-/

namespace OperationScan

/-- Why a run ended early. -/
inductive RunFault where
  | unusablePath (fault : FileFault)
  | plugin (fault : PluginFault)
  deriving Repr, DecidableEq

namespace RunFault

/-- The name of the kind of fault. -/
def kindName : RunFault → String
  | unusablePath f => f.kindName
  | plugin f => f.kindName

/-- The wording of a fault. -/
def message : RunFault → Text
  | unusablePath f => f.reason.toList
  | plugin f => f.message

end RunFault

/-- The state of a pipeline: the stage and the figures of its last run. -/
structure Pipeline where
  settings : Settings
  phase : Phase
  taskCount : Nat
  poolSize : Nat
  tally : Tally

/-- What a run leaves behind, beside the state of its pipeline. -/
structure RunOutcome where
  fault : Option RunFault
  pipeline : Pipeline
  registry : Registry
  executors : Nat

/-- The faults and the order of hand-backs in pools. -/
structure PoolConditions where
  fault : Job → Option PoolFault := fun _ => none
  schedule : Schedule := Schedule.oldest

namespace Pipeline

/-- A pipeline that has not run. -/
def new (settings : Settings) : Pipeline := ⟨settings, .idle, 0, 0, .empty⟩

/-- The operations of the last run. -/
def operations (p : Pipeline) : List Operation := p.tally.operations

/-- The details in the first line of a run. -/
def details (p : Pipeline) : Members Value :=
  [("tasks".toList, .int p.taskCount), ("workers".toList, .int p.poolSize),
    ("aggressive".toList, .bool p.settings.aggressive)]

/-- The name of the stage in the log. -/
def stageName : Text := "extraction".toList

/-- The progress lines of a run. -/
def progress (p : Pipeline) : Progress :=
  ⟨p.taskCount, "Extracting".toList, "files".toList, p.settings.progress⟩

/-- The state before the first task. -/
def prepared (p : Pipeline) (tasks : List Task) : Pipeline :=
  { p with
    taskCount := tasks.length
    poolSize := min p.settings.concurrency tasks.length
    tally := .empty }

/-- The last line of a run. -/
def summary (p : Pipeline) : LogLine :=
  let line := "  extraction: ".toList ++ Text.ofNat p.operations.length ++
    " operations from ".toList ++ Text.ofNat p.tally.completed ++ '/' :: Text.ofNat p.taskCount ++
    " tasks".toList
  let failures := if p.settings.verbose then
    " (".toList ++ Text.ofNat p.tally.failed ++ " failed)".toList else []
  .info (line ++ failures)

/-- Processes tasks one after the other. -/
def runInOrder (s : Surroundings) (settings : Settings) :
    List Task → Phase × Tally × Registry → Option FileFault × Phase × Tally × Registry
  | [], state => (none, state)
  | t :: rest, (phase, tally, r) =>
    let phase := if rest.isEmpty then .draining else phase
    match t.process s settings r with
    | (.error f, r) => (some f, phase, tally, r)
    | (.ok result, r) =>
      runInOrder s settings rest (phase, tally.absorb settings.verbose result, r)

/-- The specs for workers: those of the settings and then those of registered plugins, each
once. -/
def workerSpecs (settings : Settings) (r : Registry) : Except PluginFault (List Text) := do
  return (settings.plugins ++ (← r.specs)).eraseDups

/-- The work of a pool. -/
def work (s : Surroundings) (settings : Settings) : Work := fun t r => t.process s settings r

/-- Closes the log of a run that was ended by a fault. -/
def failWith (p : Pipeline) (fault : RunFault) : Pipeline :=
  { p with
    tally := (p.progress.closing p.tally.completed).foldl Tally.note p.tally |>.note
      (.failed stageName fault.message) }

/-- Closes the log of a run that has done all tasks. -/
def finish (p : Pipeline) : Pipeline :=
  let p := { p with
    phase := .done
    tally := (p.progress.closing p.tally.completed).foldl Tally.note p.tally |>.note
      (.completed stageName) }
  { p with tally := p.tally.note p.summary }

/-- Opens the log of a run. -/
def begin (p : Pipeline) : Pipeline :=
  { p with
    phase := .dispatching
    tally := p.progress.opening.foldl Tally.note
      (p.tally.note (.started stageName p.details)) }

/-- A run with one worker. -/
def runAlone (s : Surroundings) (tasks : List Task) (p : Pipeline) (r : Registry) : RunOutcome :=
  match runInOrder s p.settings tasks (p.phase, p.tally, r) with
  | (some f, phase, tally, r) =>
    ⟨some (.unusablePath f), { p with phase, tally }.failWith (.unusablePath f), r, 0⟩
  | (none, phase, tally, r) => ⟨none, { p with phase, tally }.finish, r, 0⟩

/-- The plan of a pool whose workers load plugins by specs. -/
def poolPlan (s : Surroundings) (conditions : PoolConditions) (specs : List Text) (p : Pipeline) :
    PoolPlan :=
  ⟨p.poolSize, p.settings.verbose, conditions.fault, conditions.schedule,
    work s { p.settings with plugins := specs }⟩

/-- A run with a pool of workers. -/
def runPooled (s : Surroundings) (conditions : PoolConditions) (specs : List Text)
    (tasks : List Task) (p : Pipeline) (r : Registry) : RunOutcome :=
  let pool := Pool.run (p.poolPlan s conditions specs) (.start (Job.ofTasks tasks) p.tally r)
  ⟨none, { p with phase := pool.phase, tally := pool.tally }.finish, pool.registry,
    pool.executors⟩

/-- A run. -/
def run (s : Surroundings) (conditions : PoolConditions) (tasks : List Task) (p : Pipeline)
    (r : Registry) : RunOutcome :=
  let p := p.prepared tasks
  if p.poolSize ≤ 1 then p.begin.runAlone s tasks r
  else
    match workerSpecs p.settings r with
    | .error f => ⟨some (.plugin f), p, r, 0⟩
    | .ok specs => p.begin.runPooled s conditions specs tasks r

/-- The version of the figures. -/
def version : Text := "0.3.0".toList

/-- The figures of the last run. -/
def metadata (p : Pipeline) (now : Timestamp) : Metadata where
  version := version
  generatedAt := now
  taskCount := p.taskCount
  completedCount := p.tally.completed
  failedCount := p.tally.failed
  concurrency := p.poolSize
  aggressive := p.settings.aggressive

/-- The report about the last run. -/
def report (p : Pipeline) (now : Timestamp) : Report :=
  ⟨p.operations, p.metadata now, p.tally.errors.map ErrorRecord.members⟩

end Pipeline

/-- The operations that a run with given settings finds. -/
def scanTasks (s : Surroundings) (settings : Settings) (tasks : List Task) (r : Registry) :
    Except RunFault (List Operation) :=
  let outcome := (Pipeline.new settings).run s {} tasks r
  match outcome.fault with
  | some f => .error f
  | none => .ok outcome.pipeline.operations

end OperationScan
