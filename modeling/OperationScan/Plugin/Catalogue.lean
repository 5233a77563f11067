import OperationScan.Plugin.Basic
import OperationScan.Text.Printable

/-!
# Where plugins come from

A catalogue holds modules, and a module offers things under names: classes, which make an object,
and objects. A spec such as `package.module:Outer.Inner` leads to one of them.

* `Catalogue.offer`: what a spec leads to.
* `PluginFault`: why a plugin cannot be had.
-/

namespace OperationScan

/-- Why a plugin cannot be had. -/
inductive PluginFault where
  | badSpec (spec : Text)
  | relativeModule (name : Text)
  | noModule (name : Text)
  | noPackage (name parent : Text)
  | moduleLacks (module name : Text)
  | classLacks (className name : Text)
  | objectLacks (className name : Text)
  | noPlugin (shown : Text)
  | unmade (fault : Fault)
  | noSpec (name : Text)
  deriving Repr, DecidableEq

namespace PluginFault

/-- The name of the kind of fault. -/
def kindName : PluginFault → String
  | .badSpec _ | .noSpec _ => "ValueError"
  | .relativeModule _ | .noPlugin _ => "TypeError"
  | .noModule _ | .noPackage .. => "ModuleNotFoundError"
  | .moduleLacks .. | .classLacks .. | .objectLacks .. => "AttributeError"
  | .unmade fault => fault.kindName

/-- A text between single quotes. -/
def named (t : Text) : Text := '\'' :: (t ++ ['\''])

/-- The wording of a fault. -/
def message : PluginFault → Text
  | .badSpec spec =>
    "Plugin spec must look like 'module:attribute', got ".toList ++ Text.quoted spec
  | .relativeModule name =>
    "the 'package' argument is required to perform a relative import for ".toList ++
      Text.quoted name
  | .noModule name => "No module named ".toList ++ Text.quoted name
  | .noPackage name parent =>
    "No module named ".toList ++ Text.quoted name ++ "; ".toList ++ Text.quoted parent ++
      " is not a package".toList
  | .moduleLacks module name =>
    "module ".toList ++ named module ++ " has no attribute ".toList ++ named name
  | .classLacks className name =>
    "type object ".toList ++ named className ++ " has no attribute ".toList ++ named name
  | .objectLacks className name =>
    named className ++ " object has no attribute ".toList ++ named name
  | .noPlugin shown => shown ++ " does not implement ExtractorPlugin".toList
  | .unmade fault => fault.message.toList
  | .noSpec name =>
    "Plugin ".toList ++ Text.quoted name ++
      (" has no importable spec; register it with spec='module:attribute' " ++
        "or run with concurrency 1").toList

/-- A fault as one line: its kind and its wording. -/
def line (f : PluginFault) : Text := f.kindName.toList ++ ": ".toList ++ f.message

/-- Faults of the spec or of what it leads to, as opposed to faults of a plugin that starts. -/
def isSpecFault (f : PluginFault) : Bool :=
  ["ImportError", "ModuleNotFoundError", "AttributeError", "TypeError", "ValueError",
    "UnicodeEncodeError"].contains f.kindName

end PluginFault

/-- A thing that may be a plugin. -/
inductive Candidate where
  | plugin (p : Plugin)
  | other (shown : Text)

/-- What a module offers under a name. The spec is one under which a class can be found again. -/
inductive Offer where
  | classOf (name : Text) (spec : Option Text) (make : Except Fault Candidate)
      (members : List (Text × Offer))
  | object (className : Text) (spec : Option Text) (candidate : Candidate)
      (members : List (Text × Offer))

namespace Offer

/-- The spec under which the class of an offer can be found again. -/
def spec : Offer → Option Text
  | .classOf _ spec _ _ => spec
  | .object _ spec _ _ => spec

/-- The plugin that an offer is or makes. -/
def plugin : Offer → Except PluginFault Plugin
  | .object _ _ (.plugin p) _ => .ok p
  | .object _ _ (.other shown) _ => .error (.noPlugin shown)
  | .classOf _ _ make _ =>
    match make with
    | .ok (.plugin p) => .ok p
    | .ok (.other shown) => .error (.noPlugin shown)
    | .error fault => .error (.unmade fault)

/-- The member of an offer. -/
def member (name : Text) : Offer → Except PluginFault Offer
  | .classOf className _ _ members =>
    match members.lookup name with
    | some o => .ok o
    | none => .error (.classLacks className name)
  | .object className _ _ members =>
    match members.lookup name with
    | some o => .ok o
    | none => .error (.objectLacks className name)

/-- The offer at the end of a chain of members. -/
def follow (o : Offer) : List Text → Except PluginFault Offer
  | [] => .ok o
  | name :: rest => do (← o.member name).follow rest

end Offer

/-- Modules by name, with their offers by name. -/
abbrev Catalogue := List (Text × List (Text × Offer))

namespace Catalogue

/-- The offers of a module. Modules have no modules below them. -/
def module (cat : Catalogue) (name : Text) : Except PluginFault (List (Text × Offer)) :=
  match Text.splitOn '.' name with
  | [] :: _ => .error (.relativeModule name)
  | top :: below =>
    match cat.lookup top, below with
    | none, _ => .error (.noModule top)
    | some offers, [] => .ok offers
    | some _, next :: _ => .error (.noPackage (top ++ '.' :: next) top)
  | [] => .error (.noModule name)

/-- What a spec leads to: a module name and a chain of members with a colon between them. -/
def offer (cat : Catalogue) (spec : Text) : Except PluginFault Offer :=
  let name := spec.takeWhile (· != ':')
  let chain := spec.drop (name.length + 1)
  if name.isEmpty || chain.isEmpty then .error (.badSpec spec)
  else do
    let offers ← cat.module name
    match Text.splitOn '.' chain with
    | first :: rest =>
      match offers.lookup first with
      | some o => o.follow rest
      | none => throw (.moduleLacks name first)
    | [] => throw (.badSpec spec)

end Catalogue

end OperationScan
