import CuckooEcho.Lib.Dict

namespace CuckooEcho.Agent
open Lib

/-! ## The registry of tools -/

inductive ToolType
  | api
  | function
  | prompt
  | mcp
  deriving DecidableEq, Repr

/-- The parameters are a dictionary of any values `α`. -/
structure ToolDefinition (η α : Type*) where
  name : String
  description : String
  toolType : ToolType := .function
  parameters : Dict String α := .empty
  handler : Option η := none
  mcpServer : Option String := none
  enabled : Bool := true

/-- Definitions and handlers are kept apart. -/
structure ToolRegistry (η α : Type*) where
  tools : Dict String (ToolDefinition η α) := .empty
  toolHandlers : Dict String η := .empty

/-- The arguments of `register_tool`. -/
structure Registration (η α : Type*) where
  name : String
  description : String
  toolType : ToolType := .function
  parameters : Option (Dict String α) := none
  handler : Option η := none
  mcpServer : Option String := none

variable {η α : Type*}

def Registration.definition (args : Registration η α) : ToolDefinition η α where
  name := args.name
  description := args.description
  toolType := args.toolType
  parameters := args.parameters.getD .empty
  handler := args.handler
  mcpServer := args.mcpServer

namespace ToolRegistry

def empty : ToolRegistry η α := {}

variable (r : ToolRegistry η α)

def registerTool (args : Registration η α) : ToolRegistry η α :=
  { r with
    tools := r.tools.set args.name args.definition
    toolHandlers := match args.handler with
      | some handler => r.toolHandlers.set args.name handler
      | none => r.toolHandlers }

def getTool (name : String) : Option (ToolDefinition η α) := r.tools.get name

def setEnabled (name : String) (enabled : Bool) : ToolRegistry η α × Bool :=
  match r.tools.get name with
  | some tool => ({ r with tools := r.tools.set name { tool with enabled } }, true)
  | none => (r, false)

def enableTool (name : String) : ToolRegistry η α × Bool := r.setEnabled name true

def disableTool (name : String) : ToolRegistry η α × Bool := r.setEnabled name false

def unregisterTool (name : String) : ToolRegistry η α × Bool :=
  match r.tools.get name with
  | some _ => ({ r with tools := r.tools.erase name, toolHandlers := r.toolHandlers.erase name }, true)
  | none => (r, false)

/-! ### What the operations do to the two maps -/

variable {r : ToolRegistry η α}

theorem tools_registerTool (args : Registration η α) (name : String) :
    (r.registerTool args).tools.get name = if name = args.name then some args.definition else r.tools.get name :=
  Dict.get_set r.tools args.name name args.definition

/-- A registration without a handler leaves the one that there is. -/
theorem toolHandlers_registerTool (args : Registration η α) (name : String) :
    (r.registerTool args).toolHandlers.get name =
      if name = args.name then args.handler.or (r.toolHandlers.get name) else r.toolHandlers.get name := by
  unfold registerTool
  cases args.handler with
  | none => simp
  | some handler => simp

theorem tools_setEnabled (name other : String) (enabled : Bool) :
    (r.setEnabled name enabled).1.tools.get other =
      if other = name then (r.tools.get name).map fun tool => { tool with enabled } else r.tools.get other := by
  unfold setEnabled
  cases known : r.tools.get name with
  | some tool => exact Dict.get_set r.tools name other _
  | none =>
      by_cases same : other = name
      · simp [same, known]
      · simp [same]

theorem toolHandlers_setEnabled (name : String) (enabled : Bool) :
    (r.setEnabled name enabled).1.toolHandlers = r.toolHandlers := by
  unfold setEnabled
  split <;> rfl

theorem tools_unregisterTool (name other : String) :
    (r.unregisterTool name).1.tools.get other = if other = name then none else r.tools.get other := by
  unfold unregisterTool
  cases known : r.tools.get name with
  | some tool => exact Dict.get_erase r.tools name other
  | none =>
      by_cases same : other = name
      · simp [same, known]
      · simp [same]

theorem toolHandlers_unregisterTool (name other : String) :
    (r.unregisterTool name).1.toolHandlers.get other =
      if other = name ∧ r.tools.get name ≠ none then none else r.toolHandlers.get other := by
  unfold unregisterTool
  cases known : r.tools.get name with
  | some tool => simp
  | none => simp

end ToolRegistry

end CuckooEcho.Agent
