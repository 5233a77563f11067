import OperationScan.Proofs.Run.Tally
import OperationScan.Proofs.Task.Raising
import OperationScan.Run.Basic

/-!
# Runs with one worker

* `Task.given`: the result that a task gives.
* `Pipeline.runInOrder_given`: tasks that give results are taken in one after the other.
* `Pipeline.runInOrder_raises`: the first task that raises ends the run.
* `Pipeline.run_alone_given`, `Pipeline.run_alone_raises`: a run with one worker.
-/

namespace OperationScan

/-- The result of a task without plugins in a registry, if the task gives one. -/
def Task.given (s : Surroundings) (settings : Settings) (t : Task) : TaskResult :=
  match (t.process s settings (.empty [])).1 with
  | .ok result => result
  | .error _ => .ofError t .workerFault []

theorem Task.given_eq {s : Surroundings} {settings : Settings} {t : Task} {result : TaskResult}
    (h : (t.process s settings (.empty [])).1 = .ok result) : t.given s settings = result := by
  rw [given, h]

theorem Task.process_eq_given {s : Surroundings} {settings : Settings} {t : Task}
    (hplugins : settings.plugins = [])
    (h : ∃ result, (t.process s settings (.empty [])).1 = .ok result) :
    t.process s settings (.empty []) = (.ok (t.given s settings), .empty []) := by
  obtain ⟨result, hresult⟩ := h
  have hregistry := Task.process_bare (s := s) hplugins t
  rw [given_eq hresult]
  exact Prod.ext hresult hregistry

namespace Pipeline

variable {s : Surroundings} {settings : Settings} {tasks : List Task}

/-- Tasks that give results are taken in one after the other. -/
theorem runInOrder_given (hplugins : settings.plugins = [])
    (hresults : ∀ t ∈ tasks, ∃ result, (t.process s settings (.empty [])).1 = .ok result)
    (phase : Phase) (tally : Tally) :
    ∃ phase' tally', runInOrder s settings tasks (phase, tally, .empty []) =
      (none, phase', tally', .empty []) ∧
      Tally.Adds tally tally' (tasks.map (Task.given s settings)) := by
  induction tasks generalizing phase tally with
  | nil => exact ⟨phase, tally, rfl, .refl tally⟩
  | cons t rest ih =>
    have hprocess := Task.process_eq_given hplugins (hresults t (by simp))
    obtain ⟨phase', tally', hrun, hadds⟩ := ih (fun u hu => hresults u (by simp [hu]))
      (if rest.isEmpty then .draining else phase)
      (tally.absorb settings.verbose (t.given s settings))
    refine ⟨phase', tally', ?_, ?_⟩
    · simp only [runInOrder, hprocess]
      exact hrun
    · exact ((Tally.Adds.refl tally).absorb _ _).trans hadds

/-- The first task that raises ends the run. -/
theorem runInOrder_raises (hplugins : settings.plugins = [])
    (hraises : ∃ t ∈ tasks, ∃ f, (t.process s settings (.empty [])).1 = .error f)
    (phase : Phase) (tally : Tally) :
    ∃ f, (runInOrder s settings tasks (phase, tally, .empty [])).1 = some f := by
  induction tasks generalizing phase tally with
  | nil =>
    obtain ⟨t, ht, -⟩ := hraises
    cases ht
  | cons t rest ih =>
    cases hprocess : (t.process s settings (.empty [])).1 with
    | error f =>
      have heq : t.process s settings (.empty []) =
          (.error f, (t.process s settings (.empty [])).2) := Prod.ext hprocess rfl
      refine ⟨f, ?_⟩
      rw [runInOrder, heq]
    | ok result =>
      have heq : t.process s settings (.empty []) = (.ok result, .empty []) :=
        Prod.ext hprocess (Task.process_bare hplugins t)
      obtain ⟨u, hu, f, hf⟩ := hraises
      rcases List.mem_cons.mp hu with rfl | hu
      · rw [hprocess] at hf
        cases hf
      · obtain ⟨g, hg⟩ := ih ⟨u, hu, f, hf⟩ (if rest.isEmpty then .draining else phase)
          (tally.absorb settings.verbose result)
        refine ⟨g, ?_⟩
        simp only [runInOrder, heq]
        exact hg

/-! ## A run with one worker -/

variable {p : Pipeline}

theorem adds_prepared (p : Pipeline) (tasks : List Task) :
    Tally.Adds .empty (p.prepared tasks).begin.tally [] :=
  ((Tally.Adds.refl .empty).note _).notes _

theorem adds_finish {t : Tally} {results : List TaskResult} (p : Pipeline)
    (h : Tally.Adds t p.tally results) : Tally.Adds t p.finish.tally results :=
  ((h.notes _).note _).note _

theorem run_alone (s : Surroundings) (conditions : PoolConditions) (r : Registry)
    (halone : min p.settings.concurrency tasks.length ≤ 1) :
    p.run s conditions tasks r = (p.prepared tasks).begin.runAlone s tasks r := by
  unfold run
  exact if_pos halone

/-- A run with one worker ends with all tasks done, if every task gives a result. -/
theorem run_alone_given (s : Surroundings) (conditions : PoolConditions)
    (hplugins : p.settings.plugins = []) (halone : min p.settings.concurrency tasks.length ≤ 1)
    (hresults : ∀ t ∈ tasks, ∃ result, (t.process s p.settings (.empty [])).1 = .ok result) :
    let outcome := p.run s conditions tasks (.empty [])
    outcome.fault = none ∧ outcome.pipeline.phase = .done ∧
      Tally.Adds .empty outcome.pipeline.tally (tasks.map (Task.given s p.settings)) := by
  obtain ⟨phase, tally, hrun, hadds⟩ := runInOrder_given hplugins hresults
    (p.prepared tasks).begin.phase (p.prepared tasks).begin.tally
  have houtcome : (p.prepared tasks).begin.runAlone s tasks (.empty []) =
      ⟨none, { (p.prepared tasks).begin with phase, tally }.finish, .empty [], 0⟩ := by
    have hsettings : (p.prepared tasks).begin.settings = p.settings := rfl
    rw [runAlone, hsettings, hrun]
    rfl
  dsimp only
  rw [run_alone s conditions _ halone, houtcome]
  exact ⟨rfl, rfl, adds_finish _ ((adds_prepared p tasks).trans hadds)⟩

/-- A run with one worker ends with a fault, if a task raises. -/
theorem run_alone_raises (s : Surroundings) (conditions : PoolConditions)
    (hplugins : p.settings.plugins = []) (halone : min p.settings.concurrency tasks.length ≤ 1)
    (hraises : ∃ t ∈ tasks, ∃ f, (t.process s p.settings (.empty [])).1 = .error f) :
    (p.run s conditions tasks (.empty [])).fault ≠ none := by
  obtain ⟨f, hf⟩ := runInOrder_raises hplugins hraises
    (p.prepared tasks).begin.phase (p.prepared tasks).begin.tally
  rw [run_alone s conditions _ halone, runAlone]
  have hsettings : (p.prepared tasks).begin.settings = p.settings := rfl
  rw [hsettings]
  generalize runInOrder s p.settings tasks _ = outcome at hf
  obtain ⟨fault, phase, tally, r⟩ := outcome
  cases hf
  simp

end Pipeline

end OperationScan
