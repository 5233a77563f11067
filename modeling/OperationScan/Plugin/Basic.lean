import OperationScan.Collector
import OperationScan.Script.Tree.Basic

/-!
# Plugins

A plugin is a named visitor: it looks at the text of an input and at its syntax tree, if the text
has one, and records operations of its own.

* `Plugin.run`: one plugin. What it has recorded stays when it is stopped by a fault.
* `Plugin.runAll`: plugins one after the other, with a line for each that recorded something new
  or was stopped.
-/

namespace OperationScan

/-- A named visitor; `className` is what its kind is called. -/
structure Plugin where
  name : Text
  className : Text
  visit : Option Script.Node → Text → Collecting Unit

namespace Plugin

/-- The line about a plugin that was stopped. -/
def failureLine (p : Plugin) (fault : Fault) : Text :=
  "plugin ".toList ++ p.name ++ " failed: ".toList ++ fault.line.toList

/-- The line about a plugin that recorded operations. -/
def gainLine (p : Plugin) (count : Nat) : Text :=
  "plugin ".toList ++ p.name ++ ": ".toList ++ Text.ofNat count ++ " operation(s)".toList

/-- Runs a plugin. -/
def run (tree : Option Script.Node) (text : Text) (p : Plugin) (c : Collector) :
    List Text × Collector :=
  match (p.visit tree text).outcome c with
  | (.error fault, after) => ([p.failureLine fault], after)
  | (.ok (), after) =>
    if c.size < after.size then ([p.gainLine (after.size - c.size)], after) else ([], after)

/-- Runs plugins in order. -/
def runAll (tree : Option Script.Node) (text : Text) :
    List Plugin → Collector → List Text × Collector
  | [], c => ([], c)
  | p :: rest, c =>
    let (lines, c) := p.run tree text c
    let (more, c) := runAll tree text rest c
    (lines ++ more, c)

end Plugin

end OperationScan
