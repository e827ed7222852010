import CuckooEcho.Agent.State

namespace CuckooEcho.Agent

/-! ## `guardrails_node` and `guardrails_decision` -/

def correctionText : String := "⚠️ 抱歉，刚才的回答可能有误，已为您转接人工客服核实。"

def entailmentThreshold : Rat := 1 / 2

def hallucinates : Scored (Rat × Rat × Rat) → Bool
  -- `max` raises for no scores
  | .scores [] | .timeout | .raises => false
  | .scores (s :: ss) => (s :: ss).all fun s => s.2.1 < entailmentThreshold

def rejects (services : Services) (state : AgentState) : Bool :=
  state.ragContext ≠ [] && state.llmResponse ≠ "" &&
    match services.nliModel with
    | none => false
    | some predict => hallucinates (predict (state.ragContext.map fun context => (context, state.llmResponse)))

def guardrailsNode (services : Services) (state : AgentState) : AgentState :=
  if rejects services state then
    { state with guardrailsPassed := false, correctionMessage := some correctionText, hitlRequested := true }
  else { state with guardrailsPassed := true }

inductive Verdict
  | pass | hitl
  deriving DecidableEq, Repr

def guardrailsDecision (state : AgentState) : Verdict := if state.hitlRequested then .hitl else .pass

/-! ## `postprocess_node` and `hitl_node` -/

def postprocessNode (state : AgentState) : AgentState :=
  if state.guardrailsPassed then state else { state with unresolvedTurns := state.unresolvedTurns + 1 }

def transferText : String := "正在为您转接人工客服，请稍候…"

def hitlReason (state : AgentState) : String :=
  if state.userIntent = some "hitl" then "explicit_request" else "guardrails_triggered"

def hitlNode (services : Services) (state : AgentState) : AgentState × List Effect :=
  -- A hand-off that fails is logged and answered like one that succeeds
  ({ state with llmResponse := transferText },
    if services.hitlPool ∧ state.tenantId.getD "" ≠ "" then
      [.notifyHitlRequest (state.tenantId.getD "") (state.threadId.getD "") (hitlReason state)]
    else [])

end CuckooEcho.Agent
