import OperationScan.Proofs.Operation.Identity
import OperationScan.Proofs.Scan.Stages
import OperationScan.Task.Process

/-!
# Results of tasks

Without plugins a task leaves the registry as it is, and its result holds what its text gives.

* `TaskResult.Isolated`: a result that has failed holds one error and no operation.
* `Task.result_cases`: the results of tasks, with any plugins; `Task.isolated_process`: they are
  isolated.
* `extract_bare`: the registry and the operations of a scan.
* `Task.process_bare`: the registry stays without plugins.
* `Task.regular_process`: kind and name of every operation come from its signature.
-/

namespace OperationScan

/-- All operations of a result are regular. -/
def TaskResult.Regular (r : TaskResult) : Prop := ∀ o ∈ r.operations, o.Regular

namespace TaskResult

/-- A way of handing results over that keeps errors and signatures, and with them what regular
operations are. -/
structure IsDelivery (deliver : TaskResult → TaskResult) : Prop where
  errors : ∀ r, (deliver r).errors = r.errors
  signatures : ∀ r, (deliver r).operations.map Operation.signature =
    r.operations.map Operation.signature
  regular : ∀ r, r.Regular → (deliver r).Regular

theorem isDelivery_id : IsDelivery id :=
  ⟨fun _ => rfl, fun _ => rfl, fun _ h => h⟩

/-- The way from another process is one. -/
theorem isDelivery_transferred : IsDelivery TaskResult.transferred := by
  refine ⟨fun _ => rfl, ?_, ?_⟩
  · intro r
    simp only [TaskResult.transferred, List.map_map]
    rfl
  · intro r h o ho
    obtain ⟨o', ho', rfl⟩ := List.mem_map.mp ho
    exact ⟨(h o' ho').kind, (h o' ho').name⟩

theorem IsDelivery.failed {deliver : TaskResult → TaskResult} (h : IsDelivery deliver)
    (r : TaskResult) : (deliver r).failed = r.failed := by
  rw [TaskResult.failed, TaskResult.failed, h.errors]

theorem regular_ofError (t : Task) (kind : ErrorKind) (error : Text) :
    (TaskResult.ofError t kind error).Regular := by
  intro o ho
  cases ho

end TaskResult

/-! ## Failures -/

/-- The result of a task has no errors, or it has one, which names the origin of the task, and no
operations. -/
def TaskResult.Isolated (t : Task) (r : TaskResult) : Prop :=
  r.errors = [] ∨ (∃ e, r.errors = [e] ∧ e.origin = t.origin) ∧ r.operations = []

theorem TaskResult.isolated_ofError (t : Task) (kind : ErrorKind) (error : Text) :
    (TaskResult.ofError t kind error).Isolated t :=
  .inr ⟨⟨_, rfl, rfl⟩, rfl⟩

theorem TaskResult.Isolated.transferred {t : Task} {r : TaskResult} (h : r.Isolated t) :
    r.transferred.Isolated t := by
  rcases h with herrors | ⟨herror, hoperations⟩
  · exact .inl herrors
  · exact .inr ⟨herror, by rw [TaskResult.transferred, hoperations, List.map_nil]⟩

/-- A scan that is not stopped has no errors. -/
theorem errors_extract [Script.Parser] [Json.Nesting] {cat : Catalogue} {settings : Settings}
    {text source origin : Text} {r : Registry} {result : TaskResult}
    (h : (extract cat settings text source origin r).1 = .ok result) : result.errors = [] := by
  unfold extract at h
  dsimp only at h
  split at h
  · cases h
  · cases h
    rfl

/-- The result of a task is made of an error, or it is what the scan of a text gives. -/
theorem Task.result_cases {s : Surroundings} {settings : Settings} {t : Task} {r : Registry}
    {result : TaskResult} (h : (t.process s settings r).1 = .ok result) :
    (∃ kind error, result = .ofError t kind error) ∨
      ∃ text, (@extract s.parser s.nesting s.catalogue settings text t.locator t.origin r).1 =
        .ok result := by
  unfold process at h
  split at h
  · cases h
  · cases h
    exact .inl ⟨_, _, rfl⟩
  · split at h
    · rename_i hfound
      cases h
      exact .inr ⟨_, congrArg Prod.fst hfound⟩
    · cases h
      exact .inl ⟨_, _, rfl⟩

theorem Task.isolated_process {s : Surroundings} {settings : Settings} {t : Task} {r : Registry}
    {result : TaskResult} (h : (t.process s settings r).1 = .ok result) : result.Isolated t := by
  rcases result_cases h with ⟨kind, error, rfl⟩ | ⟨text, hfound⟩
  · exact TaskResult.isolated_ofError t kind error
  · exact .inl (@errors_extract s.parser s.nesting _ _ _ _ _ _ _ hfound)

/-! ## Without plugins -/

/-- Surroundings without files and modules. -/
def Surroundings.bare : Surroundings where
  files := ⟨.folder [], []⟩
  catalogue := []

section Bare

variable {s : Surroundings} {settings : Settings}

theorem runPlugins_bare (cat : Catalogue) (tree : Option Script.Node) (text : Text)
    (c : Collector) : runPlugins cat [] tree text (.empty []) c = ([], .empty [], c) := rfl

/-- A scan leaves the registry as it is, and what it finds has been sighted. -/
theorem extract_bare [Script.Parser] [Json.Nesting] (cat : Catalogue)
    (hplugins : settings.plugins = []) (text source origin : Text) :
    (extract cat settings text source origin (.empty [])).2 = .empty [] ∧
      ∃ l : TextSightings settings.aggressive (Language.ofLocator source) text,
        ∀ result, (extract cat settings text source origin (.empty [])).1 = .ok result →
          result.operations = ((Collector.empty source origin).record l.all).operations := by
  obtain ⟨hits, l₁, h₁, hsort₁⟩ := exists_scanComments text
  obtain ⟨found, l₂, h₂, hfailed, hunparsed, hsort₂⟩ :=
    exists_scan text (Language.ofLocator source) settings.aggressive
  obtain ⟨r, h₃, hwanted⟩ := exists_scanText text settings.aggressive found.parseFailed
  rw [hfailed] at hwanted
  let l : TextSightings settings.aggressive (Language.ofLocator source) text :=
    ⟨l₁, l₂, r, hsort₁, hsort₂, hunparsed, hwanted⟩
  unfold extract
  simp only [h₁, h₂, hplugins, runPlugins_bare]
  generalize hc : ((Collector.empty source origin).record l₁).record l₂ = c
  have hrest := h₃ c
  have hall : (Collector.empty source origin).record l.all = c.record r.all := by
    rw [l.all_eq, Collector.record_append, Collector.record_append, hc]
  generalize (scanText text settings.aggressive found.parseFailed).outcome c = outcome at hrest
  obtain ⟨lines | lines, c'⟩ := outcome
  · refine ⟨rfl, l, ?_⟩
    rintro result ⟨⟩
  · refine ⟨rfl, l, ?_⟩
    rintro result ⟨⟩
    rw [hall, ← hrest]

namespace Task

/-- A task leaves the registry as it is. -/
theorem process_bare (hplugins : settings.plugins = []) (t : Task) :
    (t.process s settings (.empty [])).2 = .empty [] := by
  unfold process
  split
  · rfl
  · rfl
  · rename_i text _
    have hbare := (@extract_bare settings s.parser s.nesting s.catalogue hplugins text
      t.locator t.origin).1
    split
    · rename_i h
      rw [h] at hbare
      exact hbare
    · rename_i h
      rw [h] at hbare
      exact hbare

/-- Kind and name of what a task gives are those of the signatures. -/
theorem regular_process (hplugins : settings.plugins = []) (t : Task) {result : TaskResult}
    (h : (t.process s settings (.empty [])).1 = .ok result) : result.Regular := by
  rcases result_cases h with ⟨kind, error, rfl⟩ | ⟨text, hfound⟩
  · exact TaskResult.regular_ofError t kind error
  · obtain ⟨-, l, hl⟩ := @extract_bare settings s.parser s.nesting s.catalogue hplugins text
      t.locator t.origin
    intro o ho
    rw [hl result hfound] at ho
    exact (Collector.regular_empty t.locator t.origin).record _ o ho

/-- Operations name the task that gives them. -/
theorem attributed_process (hplugins : settings.plugins = []) (t : Task) {result : TaskResult}
    (h : (t.process s settings (.empty [])).1 = .ok result) :
    ∀ o ∈ result.operations, o.source = t.locator ∧ o.origin = t.origin := by
  rcases result_cases h with ⟨kind, error, rfl⟩ | ⟨text, hfound⟩
  · simp [TaskResult.ofError]
  · obtain ⟨-, l, hl⟩ := @extract_bare settings s.parser s.nesting s.catalogue hplugins text
      t.locator t.origin
    intro o ho
    rw [hl result hfound] at ho
    obtain ⟨x, -, rfl⟩ := (Collector.exists_of_mem_record ho).resolve_left List.not_mem_nil
    exact ⟨rfl, rfl⟩

end Task

end Bare

end OperationScan
