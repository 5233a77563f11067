import OperationScan.Plugin.Catalogue

/-!
# Registered plugins

A registry holds plugins by name, in the order in which the names were first given; a plugin
registered under a name that is taken replaces the earlier one. Beside each plugin stands the spec
under which another process finds it, if there is one.

* `Registry.register`, `Registry.unregister`, `Registry.load`: changing a registry.
* `Registry.specs`: the specs that rebuild the registry elsewhere.
* `Registry.activate`: loads what is advertised, once, and what the settings ask for.
-/

namespace OperationScan

/-- A plugin with the spec that leads to it. -/
structure Registration where
  plugin : Plugin
  spec : Option Text

/-- Plugins by name, and the specs of plugins that are advertised and have not been loaded. -/
structure Registry where
  entries : Members Registration
  advertised : List Text

namespace Registry

/-- No plugins; some may be advertised. -/
def empty (advertised : List Text) : Registry := ⟨[], advertised⟩

/-- The plugins, in order. -/
def plugins (r : Registry) : List Plugin := r.entries.map fun e => e.2.plugin

/-- Adds a plugin under its name. -/
def add (r : Registry) (p : Plugin) (spec : Option Text) : Registry :=
  { r with entries := r.entries.put p.name ⟨p, spec⟩ }

/-- Registers what an offer is or makes. Without a spec the one of its class counts. -/
def register (r : Registry) (o : Offer) (spec : Option Text) :
    Except PluginFault (Plugin × Registry) := do
  let p ← o.plugin
  return (p, r.add p (spec.or o.spec))

/-- Removes a plugin and tells whether it was there. -/
def unregister (r : Registry) (name : Text) : Bool × Registry :=
  (r.entries.has name, { r with entries := r.entries.erase name })

/-- Registers what a spec leads to. -/
def load (r : Registry) (cat : Catalogue) (spec : Text) :
    Except PluginFault (Plugin × Registry) := do
  r.register (← cat.offer spec) (some spec)

/-- Registers what specs lead to, in order, up to the first that fails. -/
def loadAll (cat : Catalogue) : List Text → Registry → Except PluginFault Unit × Registry
  | [], r => (.ok (), r)
  | spec :: rest, r =>
    match r.load cat spec with
    | .ok (_, r) => loadAll cat rest r
    | .error fault => (.error fault, r)

/-- Loads the advertised plugins, unless that has been tried before, and then those of specs. -/
def activate (cat : Catalogue) (specs : List Text) (r : Registry) :
    Except PluginFault Unit × Registry :=
  match loadAll cat r.advertised { r with advertised := [] } with
  | (.ok (), r) => loadAll cat specs r
  | (.error fault, r) => (.error fault, r)

/-- The specs of registered plugins, unless one has none. -/
def specsOf : List (Text × Registration) → Except PluginFault (List Text)
  | [] => .ok []
  | (name, e) :: rest =>
    match e.spec with
    | some spec => do return spec :: (← specsOf rest)
    | none => .error (.noSpec name)

/-- The specs that rebuild a registry in another process. -/
def specs (r : Registry) : Except PluginFault (List Text) := specsOf r.entries

end Registry

/-- Activates plugins and runs them; lines tell what went wrong and what was recorded. -/
def runPlugins (cat : Catalogue) (specs : List Text) (tree : Option Script.Node) (text : Text)
    (r : Registry) (c : Collector) : List Text × Registry × Collector :=
  match r.activate cat specs with
  | (.error fault, r) => (["plugin loading failed: ".toList ++ fault.line], r, c)
  | (.ok (), r) =>
    let (lines, c) := Plugin.runAll tree text r.plugins c
    (lines, r, c)

end OperationScan
