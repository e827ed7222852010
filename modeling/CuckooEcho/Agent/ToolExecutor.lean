import CuckooEcho.Agent.ToolRegistry

namespace CuckooEcho.Agent
open Lib

/-! ## The executor -/

/-- What calling a handler comes to. An exception has its text, and only a coroutine can time out. -/
inductive Outcome (ρ : Type*)
  | returned (result : ρ)
  | raised (text : String)
  | timedOut
  deriving DecidableEq, Repr

namespace Outcome
variable {ρ : Type*}

def failed : Outcome ρ → Bool
  | returned _ => false
  | raised _ | timedOut => true

/-- The result, or `str(e)`, which is empty for a timeout. -/
def toExcept : Outcome ρ → Except String ρ
  | returned result => .ok result
  | raised text => .error text
  | timedOut => .error ""

/-- A failure of which the text says nothing. -/
def silent : Outcome ρ → Bool
  | returned _ => false
  | raised text => text = ""
  | timedOut => true

end Outcome

/-- The handlers, which read and change the world, and the clock; a duration is computed in floating point. -/
structure Environment (η α ρ ω : Type*) where
  invoke : η → Dict String α → Nat → ω → Outcome ρ × ω
  now : ω → Int
  durationMs : Int → Int → Int

structure ToolExecution (α ρ : Type*) where
  toolName : String
  parameters : Dict String α
  result : Option ρ := none
  error : Option String := none
  startedAt : Int
  completedAt : Option Int := none
  durationMs : Option Int := none

/-- `if exec_record.error:` -/
def ToolExecution.hasError {α ρ : Type*} (e : ToolExecution α ρ) : Bool := e.error.any (· ≠ "")

structure ToolExecutor (η α ρ : Type*) where
  registry : Option (ToolRegistry η α) := none
  executionHistory : List (ToolExecution α ρ) := []

/-- What a call of `execute_tool` leaves, with the handler that it has called and what came of that. -/
structure Executed (η α ρ ω : Type*) where
  record : ToolExecution α ρ
  invoked : Option (η × Outcome ρ)
  executor : ToolExecutor η α ρ
  world : ω

section
variable {η α ρ ω : Type*}

namespace ToolExecutor
variable (x : ToolExecutor η α ρ)

def getHandler (name : String) : Option η := x.registry.bind fun registry => registry.toolHandlers.get name

/-- The handler that is called, or the text of the `ValueError`. -/
def dispatch (name : String) : Except String η :=
  match x.registry with
  | none => .error "No registry configured"
  | some registry =>
      match registry.getTool name with
      | none => .error ("Tool not found: " ++ name)
      | some _ =>
          match x.getHandler name with
          | some handler => .ok handler
          | none => .error ("No handler for tool: " ++ name)

/-- Only the registry says which handler is called. -/
theorem dispatch_congr {x y : ToolExecutor η α ρ} (same : y.registry = x.registry) (name : String) :
    y.dispatch name = x.dispatch name := by
  rw [dispatch, dispatch, getHandler, getHandler, same]

/-- The `try` block. -/
def attempt (env : Environment η α ρ ω) (name : String) (parameters : Dict String α) (timeout : Nat) (world : ω) :
    Except String ρ × Option (η × Outcome ρ) × ω :=
  match x.dispatch name with
  | .error message => (.error message, none, world)
  | .ok handler =>
      let (outcome, world) := env.invoke handler parameters timeout world
      (outcome.toExcept, some (handler, outcome), world)

def executeTool (env : Environment η α ρ ω) (name : String) (parameters : Dict String α) (world : ω)
    (timeout : Nat := 30000) : Executed η α ρ ω :=
  let startedAt := env.now world
  let (result, invoked, world) := x.attempt env name parameters timeout world
  let completedAt := env.now world
  let record : ToolExecution α ρ :=
    { toolName := name
      parameters
      result := result.toOption
      error := match result with
        | .ok _ => none
        | .error text => some text
      startedAt
      completedAt := some completedAt
      durationMs := some (env.durationMs startedAt completedAt) }
  { record, invoked, executor := { x with executionHistory := x.executionHistory ++ [record] }, world }

def executeSequence (env : Environment η α ρ ω) (stopOnError : Bool) :
    ToolExecutor η α ρ → List (String × Dict String α) → ω → List (Executed η α ρ ω)
  | _, [], _ => []
  | x, (name, params) :: tools, world =>
      let run := x.executeTool env name params world
      if stopOnError && run.record.hasError then [run]
      else run :: executeSequence env stopOnError run.executor tools run.world

end ToolExecutor

/-! ## The gateway's calls -/

/-- The answer of `call_tool_service`, or the text of the `RuntimeError` that it raises to its circuit breaker. -/
structure ServiceCall (η α ρ ω : Type*) where
  run : Executed η α ρ ω
  reply : Except String (Option ρ × Option Int)

def callToolService (env : Environment η α ρ ω) (x : ToolExecutor η α ρ) (name : String) (args : Dict String α)
    (world : ω) : ServiceCall η α ρ ω :=
  let run := x.executeTool env name args world
  { run
    reply :=
      if run.record.hasError then .error (run.record.error.getD "")
      else .ok (run.record.result, run.record.durationMs) }

def ServiceCall.raises (call : ServiceCall η α ρ ω) : Bool := !call.reply.isOk

/-- The executor of the gateway's module. -/
def gatewayExecutor : ToolExecutor η α ρ := {}

end

end CuckooEcho.Agent
