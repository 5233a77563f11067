import OperationScan.Proofs.Run.Recovery

/-!
# Runs with one worker compose

A run over two lists of tasks finds what a run over the first one finds, and behind it what a run
over the second one finds in addition. An operation is that of the first task that yields its
signature.

* `Pipeline.run_alone_operations`: a run with one worker, in terms of the results of its tasks.
* `Pipeline.run_append`: a run over two lists of tasks.
-/

namespace OperationScan

/-- An operation is the task's own, and no task before it yields the signature. -/
structure FirstYields (s : Surroundings) (settings : Settings) (before : List Task) (t : Task)
    (o : Operation) : Prop where
  yields : ∃ result, (t.process s settings (.empty [])).1 = .ok result ∧ o ∈ result.operations
  source : o.source = t.locator
  origin : o.origin = t.origin
  first : ∀ u ∈ before, ∀ result, (u.process s settings (.empty [])).1 = .ok result →
    o.signature ∉ result.operations.map Operation.signature

namespace Pipeline

variable {s : Surroundings} {settings : Settings} {p : Pipeline}

/-- One worker puts on record what the results of the tasks hold, one after the other. Of its
pipeline only the settings count. -/
theorem run_alone_operations (s : Surroundings) (conditions : PoolConditions)
    (hplugins : settings.plugins = []) (halone : settings.concurrency ≤ 1)
    (hp : p.settings = settings) {tasks : List Task}
    (hresults : ∀ t ∈ tasks, ∃ result, (t.process s settings (.empty [])).1 = .ok result) :
    (p.run s conditions tasks (.empty [])).fault = none ∧
      (p.run s conditions tasks (.empty [])).pipeline.operations =
        Tally.firsts [] (tasks.flatMap fun t => (t.given s settings).operations) := by
  subst hp
  obtain ⟨hfault, -, hadds⟩ := run_alone_given s conditions hplugins
    (Nat.le_trans (Nat.min_le_left _ tasks.length) halone) hresults
  refine ⟨hfault, ?_⟩
  rw [operations, hadds.operations, List.flatMap_map]
  rfl

theorem firstYields_of_mem (hplugins : settings.plugins = []) {tasks : List Task}
    (hresults : ∀ t ∈ tasks, ∃ result, (t.process s settings (.empty [])).1 = .ok result)
    {o : Operation}
    (h : o ∈ Tally.firsts [] (tasks.flatMap fun t => (t.given s settings).operations)) :
    ∃ before t after, tasks = before ++ t :: after ∧ FirstYields s settings before t o := by
  obtain ⟨before, t, after, rfl, ho, hbefore⟩ := Tally.exists_first_of_mem_firsts h
  have hprocess := Task.process_eq_given hplugins (hresults t (by simp))
  obtain ⟨hsource, horigin⟩ :=
    Task.attributed_process hplugins t (congrArg Prod.fst hprocess) o ho
  refine ⟨before, t, after, rfl, ⟨_, congrArg Prod.fst hprocess, ho⟩, hsource, horigin, ?_⟩
  intro u hu result hresult
  exact Task.given_eq hresult ▸ hbefore u hu

/-- A run over two lists of tasks finds what the first list gives, followed by what is new in the
second list; every operation comes from the first task that yields its signature. The three runs
may be those of any pipelines with the same settings. -/
theorem run_append (s : Surroundings) (conditions : PoolConditions) {settings : Settings}
    (hplugins : settings.plugins = []) (halone : settings.concurrency ≤ 1)
    {p q u : Pipeline} (hp : p.settings = settings) (hq : q.settings = settings)
    (hu : u.settings = settings) {tasks more : List Task}
    (hresults : ∀ t ∈ tasks ++ more,
      ∃ result, (t.process s settings (.empty [])).1 = .ok result) :
    let first := p.run s conditions tasks (.empty [])
    let second := q.run s conditions more (.empty [])
    let both := u.run s conditions (tasks ++ more) (.empty [])
    (first.fault = none ∧ second.fault = none ∧ both.fault = none) ∧
      both.pipeline.operations = first.pipeline.operations ++
        second.pipeline.operations.filter (fun o =>
          o.signature ∉ first.pipeline.operations.map Operation.signature) ∧
      first.pipeline.operations <+: both.pipeline.operations ∧
      ∀ o ∈ both.pipeline.operations, ∃ before t after, tasks ++ more = before ++ t :: after ∧
        FirstYields s settings before t o := by
  intro first second both
  obtain ⟨hresults₁, hresults₂⟩ := List.forall_mem_append.mp hresults
  obtain ⟨hfirst, hops₁⟩ := run_alone_operations s conditions hplugins halone hp hresults₁
  obtain ⟨hsecond, hops₂⟩ := run_alone_operations s conditions hplugins halone hq hresults₂
  obtain ⟨hboth, hops₃⟩ := run_alone_operations s conditions hplugins halone hu hresults
  have happend : both.pipeline.operations = first.pipeline.operations ++
      second.pipeline.operations.filter fun o =>
        o.signature ∉ first.pipeline.operations.map Operation.signature := by
    have hknown : ∀ t, t ∈ [] ++ (tasks.flatMap fun t => (t.given s settings).operations).map
        Operation.signature ↔ t ∈ first.pipeline.operations.map Operation.signature := by
      intro t
      rw [hops₁, Tally.mem_signatures_firsts]
      simp
    have hbehind := Tally.firsts_eq_filter (first.pipeline.operations.map Operation.signature)
      (more.flatMap fun t => (t.given s settings).operations)
    rw [hops₃, List.flatMap_append, Tally.firsts_append, Tally.firsts_congr hknown, hbehind,
      ← hops₁, ← hops₂]
  refine ⟨⟨hfirst, hsecond, hboth⟩, happend, ⟨_, happend.symm⟩, ?_⟩
  intro o ho
  rw [hops₃] at ho
  exact firstYields_of_mem hplugins hresults ho

/-- A text that holds an operation of its own beside the one of `spacedTasks`. -/
def furtherTask : Task :=
  ⟨"c.js".toList, "c.js".toList, some "// query  A \x7b a \x7d query B \x7b b \x7d".toList⟩

theorem run_append_spaced :
    let p := Pipeline.new { concurrency := 1 }
    let first := p.run .bare {} spacedTasks (.empty [])
    let second := p.run .bare {} [furtherTask] (.empty [])
    let both := p.run .bare {} (spacedTasks ++ [furtherTask]) (.empty [])
    (∀ t ∈ spacedTasks ++ [furtherTask],
        ∃ result, (t.process .bare { concurrency := 1 } (.empty [])).1 = .ok result) ∧
      both.pipeline.operations.map Operation.origin = ["a.js".toList, "c.js".toList] ∧
      both.pipeline.operations = first.pipeline.operations ++
        second.pipeline.operations.filter (fun o =>
          o.signature ∉ first.pipeline.operations.map Operation.signature) := by
  have hresults : ∀ t ∈ spacedTasks ++ [furtherTask],
      ∃ result, (t.process .bare { concurrency := 1 } (.empty [])).1 = .ok result := by
    intro t ht
    rw [t.process_ok_iff]
    rintro ⟨hcontent, -⟩
    revert hcontent
    revert t
    decide
  have happend := run_append (p := .new { concurrency := 1 }) (q := .new { concurrency := 1 })
    (u := .new { concurrency := 1 }) .bare {} rfl (Nat.le_refl 1) rfl rfl rfl hresults
  dsimp only at happend ⊢
  exact ⟨hresults, by decide +kernel, happend.2.1⟩

end Pipeline

end OperationScan
