import OperationScan.Plugin.Registry
import OperationScan.Proofs.Collector.Consistent

/-!
# Plugins do not disturb each other

A plugin is free to decide after every operation text that it has added what it does next, and it may
raise at any point. Whatever the plugins do, the others run, what has been added stays, and the lines
tell exactly which plugins raised and how many operations each other one recorded.

* `Visit`: what a plugin does with a collector, as a tree; `Visit.scan` runs it.
* `Visit.course`: the calls it makes, the operations they record, and the fault it ends with.
* `outcome_scan`: a run makes the calls of its course, by induction on the tree.
* `Visitor.run_plugin`: the line about one plugin and what it leaves behind.
* `runPlugins_isolated`: all plugins of a registry, by induction on the list of them.
-/

namespace OperationScan

open Collecting

/-! ## One plugin -/

/-- What a plugin does: it is done, it raises, or it adds operation text. What it does after that may
depend on the answer and on all that is on record. -/
inductive Visit where
  | done
  | raise (fault : Fault)
  | add (text context : Text) (known : Members Value)
      (next : Option Operation → Collector → Visit)

/-- The calls of a plugin, the operations that are new with them, and the fault it ends with. -/
structure Course where
  calls : List Sighting
  recorded : List Operation
  fault : Option Fault

namespace Visit

def scan : Visit → Collecting Unit
  | done => pure ()
  | raise fault => throw fault
  | add text context known next => do
    let (answer, c) ← Collecting.ofFun fun c =>
      (c.add text context known, (c.add text context known).2)
    (next answer c).scan

/-- The course that a visit takes with a collector. -/
def course : Visit → Collector → Course
  | done, _ => ⟨[], [], none⟩
  | raise fault, _ => ⟨[], [], some fault⟩
  | add text context known next, c =>
    let (answer, after) := c.add text context known
    let rest := (next answer after).course after
    ⟨⟨text, context, known⟩ :: rest.calls, answer.toList ++ rest.recorded, rest.fault⟩

end Visit

def Course.result (course : Course) : Except Fault Unit :=
  match course.fault with
  | some fault => .error fault
  | none => .ok ()

variable {c : Collector}

theorem outcome_scan (v : Visit) (c : Collector) :
    v.scan.outcome c = ((v.course c).result, c.record (v.course c).calls) := by
  induction v generalizing c with
  | done => rfl
  | raise fault => rfl
  | add text context known next ih =>
    -- what comes next is known for every answer, in particular for the one of this collector
    rw [Visit.scan, outcome_bind_ok (outcome_ofFun _), ih]
    rfl

/-- The operations that a course records come behind those on record. -/
theorem operations_course (v : Visit) (c : Collector) :
    (c.record (v.course c).calls).operations = c.operations ++ (v.course c).recorded := by
  induction v generalizing c with
  | done => exact (List.append_nil _).symm
  | raise fault => exact (List.append_nil _).symm
  | add text context known next ih =>
    have hadd := c.operations_add text context known
    rw [Visit.course]
    dsimp only
    rw [Collector.record_cons, Collector.see, ih, hadd, List.append_assoc]

/-- A plugin with what it does, which may depend on the syntax tree, the text and the collector. -/
structure Visitor where
  name : Text
  className : Text
  visit : Option Script.Node → Text → Collector → Visit

namespace Visitor

def plugin (v : Visitor) : Plugin where
  name := v.name
  className := v.className
  visit tree text := do
    let c ← Collecting.ofFun fun c => (c, c)
    (v.visit tree text c).scan

/-- The line about a plugin with a course: one if it raised, else one if it recorded operations. -/
def line? (v : Visitor) (course : Course) : Option Text :=
  match course.fault with
  | some fault => some (v.plugin.failureLine fault)
  | none =>
    if course.recorded.isEmpty then none else some (v.plugin.gainLine course.recorded.length)

theorem run_plugin (v : Visitor) (tree : Option Script.Node) (text : Text) (c : Collector) :
    let course := (v.visit tree text c).course c
    v.plugin.run tree text c = ((v.line? course).toList, c.record course.calls) := by
  intro course
  have houtcome : (v.plugin.visit tree text).outcome c = (course.result, c.record course.calls) :=
    (outcome_bind_ok (outcome_ofFun _)).trans (outcome_scan _ c)
  have hsize : (c.record course.calls).size = c.size + course.recorded.length := by
    rw [Collector.size, operations_course, List.length_append]
    rfl
  rw [Plugin.run, houtcome, line?, Course.result]
  cases hfault : course.fault with
  | some fault => rfl
  | none =>
    dsimp only
    rw [hsize, Nat.add_sub_cancel_left]
    by_cases hrecorded : course.recorded = []
    · rw [hrecorded]
      simp
    · have hpos := List.length_pos_iff.mpr hrecorded
      rw [if_pos (by omega), if_neg (by simpa using hrecorded)]
      rfl

/-- The courses that visitors take one after the other. -/
def courses (tree : Option Script.Node) (text : Text) :
    List Visitor → Collector → List (Visitor × Course)
  | [], _ => []
  | v :: rest, c =>
    let course := (v.visit tree text c).course c
    (v, course) :: courses tree text rest (c.record course.calls)

variable {tree : Option Script.Node} {text : Text} {visitors : List Visitor}

theorem map_fst_courses (c : Collector) :
    (courses tree text visitors c).map Prod.fst = visitors := by
  induction visitors generalizing c with
  | nil => rfl
  | cons v rest ih => exact congrArg (v :: ·) (ih _)

theorem runAll_plugins (c : Collector) :
    Plugin.runAll tree text (visitors.map plugin) c =
      ((courses tree text visitors c).filterMap fun x => x.1.line? x.2,
        c.record ((courses tree text visitors c).flatMap fun x => x.2.calls)) := by
  induction visitors generalizing c with
  | nil => rfl
  | cons v rest ih =>
    rw [List.map_cons, Plugin.runAll, run_plugin]
    dsimp only
    rw [ih, courses, List.flatMap_cons, Collector.record_append, List.filterMap_cons]
    dsimp only
    cases v.line? ((v.visit tree text c).course c) <;> rfl

theorem operations_courses (c : Collector) :
    (c.record ((courses tree text visitors c).flatMap fun x => x.2.calls)).operations =
      c.operations ++ (courses tree text visitors c).flatMap fun x => x.2.recorded := by
  induction visitors generalizing c with
  | nil => exact (List.append_nil _).symm
  | cons v rest ih =>
    rw [courses, List.flatMap_cons, List.flatMap_cons, Collector.record_append, ih,
      operations_course, List.append_assoc]

end Visitor

open Visitor

/-! ## All plugins -/

/-- Once the plugins are loaded, running them gives a result: every plugin takes its course in order,
the collector is the one after all their calls, with the new operations behind those that were on
record, and the lines are those about the courses. -/
theorem runPlugins_isolated {cat : Catalogue} {specs : List Text} {r loaded : Registry}
    {visitors : List Visitor} (hload : r.activate cat specs = (.ok (), loaded))
    (hplugins : loaded.plugins = visitors.map plugin) (tree : Option Script.Node) (text : Text)
    (c : Collector) :
    let taken := courses tree text visitors c
    let after := c.record (taken.flatMap fun x => x.2.calls)
    runPlugins cat specs tree text r c = (taken.filterMap fun x => x.1.line? x.2, loaded, after) ∧
    taken.map Prod.fst = visitors ∧
    after.operations = c.operations ++ taken.flatMap fun x => x.2.recorded := by
  intro taken after
  refine ⟨?_, map_fst_courses c, operations_courses c⟩
  rw [runPlugins, hload]
  dsimp only
  rw [hplugins, runAll_plugins]

/-- Adds an operation and raises. -/
def crashing (name : Text) : Visitor where
  name := name
  className := "Crashing".toList
  visit _ _ _ := .add "query A \x7b a \x7d".toList name [] fun _ _ =>
    .raise (.raised "ValueError" "cannot go on")

/-- Adds the same operation in another spelling, and a new one only if the first is known. -/
def careful : Visitor where
  name := "careful".toList
  className := "Careful".toList
  visit _ _ _ := .add "query  A \x7b a \x7d".toList "careful".toList [] fun answer c =>
    if answer.isNone && c.size == 1 then
      .add "query B \x7b b \x7d".toList "careful".toList [] fun _ _ => .done
    else .done

/-- One that raises, one that does not, and one that raises. -/
def mixedVisitors : List Visitor := [crashing "first".toList, careful, crashing "last".toList]

def mixedRegistry : Registry := ⟨mixedVisitors.map fun v => (v.name, ⟨v.plugin, none⟩), []⟩

theorem runPlugins_isolated_mixed :
    mixedRegistry.activate [] [] = (.ok (), mixedRegistry) ∧
    mixedRegistry.plugins = mixedVisitors.map plugin ∧
    (runPlugins [] [] none [] mixedRegistry (.empty [] [])).1 = [
      "plugin first failed: ValueError: cannot go on".toList,
      "plugin careful: 1 operation(s)".toList,
      "plugin last failed: ValueError: cannot go on".toList] ∧
    (runPlugins [] [] none [] mixedRegistry (.empty [] [])).2.2.operations.map Operation.rawText =
      ["query A \x7b a \x7d".toList, "query B \x7b b \x7d".toList] := by
  have hload : mixedRegistry.activate [] [] = (.ok (), mixedRegistry) := rfl
  have hplugins : mixedRegistry.plugins = mixedVisitors.map plugin := rfl
  obtain ⟨hrun, -, hoperations⟩ := runPlugins_isolated hload hplugins none [] (.empty [] [])
  refine ⟨hload, hplugins, ?_, ?_⟩
  · rw [hrun]
    decide +kernel
  · rw [hrun, hoperations]
    decide +kernel

end OperationScan
