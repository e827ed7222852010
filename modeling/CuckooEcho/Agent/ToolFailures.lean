import CuckooEcho.Agent.ToolExecutor

namespace CuckooEcho.Agent
open Lib

/-! ## Failures of tools and who sees them -/

variable {η α ρ ω : Type*}

def Executed.failed (run : Executed η α ρ ω) : Bool := run.invoked.any (·.2.failed)

def Executed.silent (run : Executed η α ρ ω) : Bool := run.invoked.any (·.2.silent)

/-- Each of the tools has a handler. -/
def ToolExecutor.Serves (x : ToolExecutor η α ρ) (tools : List (String × Dict String α)) : Prop :=
  ∀ tool ∈ tools, ∃ handler, x.dispatch tool.1 = .ok handler

variable {env : Environment η α ρ ω} {x : ToolExecutor η α ρ} {world : ω}

/-- The executor of the gateway has no registry, so that each of its calls raises. -/
theorem callToolService_gateway (name : String) (args : Dict String α) :
    (callToolService env gatewayExecutor name args world).reply = .error "No registry configured" := rfl

end CuckooEcho.Agent
