import CuckooEcho.Lib.Dict
import CuckooEcho.Lib.Python
import CuckooEcho.Lib.Run

namespace CuckooEcho.Shared.PluginSystem
open Lib

structure PluginManifest where
  name : String
  version : String := ""
  pluginType : String := ""
  description : String := ""
  entry : String := ""
  permissions : List String := []
  author : Option String := none
  tenantId : Option String := none
  deriving DecidableEq, Repr

/-- What the functions of a module do to the maps that they are called with, `none` for a function that it does not
have: the tools are assigned under their names, the handlers appended to the lists of their events. -/
structure PluginModule (Callable : Type*) where
  registerTools : Option (List (String × Callable)) := none
  registerTriggers : Option (List (String × Callable)) := none

structure RegisteredPlugin (Callable : Type*) where
  manifest : PluginManifest
  module : PluginModule Callable
  enabled : Bool := true

structure PluginRegistry (Callable : Type*) where
  plugins : Dict String (RegisteredPlugin Callable) := .empty
  tools : Dict String Callable := .empty
  triggers : Dict String (List Callable) := .empty

structure ValueError where
  message : String
  deriving DecidableEq, Repr

structure HTTPException where
  statusCode : Nat
  detail : String
  deriving DecidableEq, Repr

section
variable {Callable : Type*}

/-- `triggers.setdefault(event_type, []).append(handler)` -/
def appendHandler (triggers : Dict String (List Callable)) (item : String × Callable) : Dict String (List Callable) :=
  triggers.set item.1 ((triggers.get item.1).getD [] ++ [item.2])

namespace PluginRegistry
variable (r : PluginRegistry Callable)

def register (manifest : PluginManifest) (module : PluginModule Callable) : PluginRegistry Callable :=
  { r with
    plugins := r.plugins.set manifest.name { manifest, module }
    tools := match module.registerTools with
      | some tools => r.tools.setAll tools
      | none => r.tools
    triggers := match module.registerTriggers with
      | some handlers => handlers.foldl appendHandler r.triggers
      | none => r.triggers }

def getTool (name : String) : Option Callable := r.tools.get name

def getTriggerHandlers (eventType : String) : List Callable := (r.triggers.get eventType).getD []

def listPlugins : List PluginManifest := r.plugins.values.map (·.manifest)

def setEnabled (name : String) (enabled : Bool) : PluginRegistry Callable × Bool :=
  match r.plugins.get name with
  | some plugin => ({ r with plugins := r.plugins.set name { plugin with enabled } }, true)
  | none => (r, false)

def enable (name : String) : PluginRegistry Callable × Bool := r.setEnabled name true

def disable (name : String) : PluginRegistry Callable × Bool := r.setEnabled name false

/-! ### The routes -/

def togglePlugin (pluginName : String) (enabled : Bool) : PluginRegistry Callable × Option HTTPException :=
  let (r, success) := if enabled then r.enable pluginName else r.disable pluginName
  (r, if success then none else some ⟨404, "Plugin not found"⟩)

def uninstallPlugin (pluginName : String) : PluginRegistry Callable × Option HTTPException :=
  if pluginName ∈ r.listPlugins.map (·.name) then
    let (r, _) := r.disable pluginName
    ({ r with plugins := r.plugins.erase pluginName }, none)
  else (r, some ⟨404, "Plugin not found"⟩)

/-! ### Tools and events -/

/-- The tool that is called. -/
def executeTool (toolName : String) : Except ValueError Callable :=
  match r.getTool toolName with
  | some tool => .ok tool
  | none => .error ⟨"Tool not found: " ++ toolName⟩

end PluginRegistry

/-- The handlers that are called, and the results, `none` if an exception gets out: the log call for an exception
passes `event` twice, as its message and by name, so that it raises a `TypeError` of its own. -/
def runHandlers (run : Callable → Except String PyValue) : List Callable → List Callable × Option (List PyValue)
  | [] => ([], some [])
  | handler :: handlers =>
      match run handler with
      | .ok result =>
          let (calls, results) := runHandlers run handlers
          (handler :: calls, results.map (result :: ·))
      | .error _ => ([handler], none)

def PluginRegistry.triggerEvent (r : PluginRegistry Callable) (run : Callable → Except String PyValue)
    (eventType : String) : List Callable × Option (List PyValue) :=
  runHandlers run (r.getTriggerHandlers eventType)

inductive Op (Callable : Type*)
  | register (manifest : PluginManifest) (module : PluginModule Callable)
  | enable (name : String)
  | disable (name : String)
  | uninstall (name : String)

def step (r : PluginRegistry Callable) : Op Callable → Option (PluginRegistry Callable)
  | .register manifest module => some (r.register manifest module)
  | .enable name => some (r.togglePlugin name true).1
  | .disable name => some (r.togglePlugin name false).1
  | .uninstall name => some (r.uninstallPlugin name).1

end

end CuckooEcho.Shared.PluginSystem
