import CuckooEcho.Agent.Tools
import CuckooEcho.Agent.Retrieval
import CuckooEcho.Agent.Generate
import CuckooEcho.Agent.Guardrails
import CuckooEcho.Lib.StateGraph

namespace CuckooEcho.Agent
open Lib StateGraph

/-! ## The compiled graph -/

inductive Node
  | preprocess | router | ragEngine | toolExecutor | llmGenerate | guardrails | postprocess | hitl
  deriving DecidableEq, Repr

def runNode (services : Services) : Node → AgentState → Option (AgentState × List Effect)
  | .preprocess, s => (preprocessNode services s).map (·, [])
  | .router, s => some (routerNode services s, [])
  | .ragEngine, s => (ragEngineNode services s).map (·, [])
  | .toolExecutor, s => some (toolExecutorNode services s, [])
  | .llmGenerate, s => some (llmGenerateNode services s)
  | .guardrails, s => some (guardrailsNode services s, [])
  | .postprocess, s => some (postprocessNode s, [])
  | .hitl, s => some (hitlNode services s)

def edge : Node → AgentState → Option Node
  | .preprocess, _ => some .router
  | .router, s =>
      match routeDecision s with
      | .tool => some .toolExecutor
      | .rag => some .ragEngine
      | .hitl => some .hitl
  | .toolExecutor, _ | .ragEngine, _ => some .llmGenerate
  | .llmGenerate, _ => some .guardrails
  | .guardrails, s =>
      match guardrailsDecision s with
      | .pass => some .postprocess
      | .hitl => some .hitl
  | .postprocess, _ | .hitl, _ => none

def agentGraph (services : Services) : StateGraph Node AgentState Effect where
  entry := .preprocess
  node := runNode services
  next := edge

abbrev AgentRun := StateGraph.Run Node AgentState Effect

abbrev AgentUpdate := StateGraph.Update Node AgentState Effect

/-- The limit that a compiled graph has unless it is configured. -/
def recursionLimit : Nat := 25

def turn (services : Services) (s : AgentState) : AgentRun := (agentGraph services).run recursionLimit s

/-- How many nodes a turn has ahead of it at most. -/
def ahead : Node → Nat
  | .preprocess => 5
  | .router => 4
  | .ragEngine | .toolExecutor => 3
  | .llmGenerate => 2
  | .guardrails => 1
  | .postprocess | .hitl => 0

theorem ahead_edge {n m : Node} {s : AgentState} (next : edge n s = some m) : ahead m < ahead n := by
  cases n with
  | preprocess | toolExecutor | ragEngine | llmGenerate =>
      obtain rfl := Option.some.inj next
      decide
  | router =>
      simp only [edge] at next
      split at next <;> obtain rfl := Option.some.inj next <;> decide
  | guardrails =>
      simp only [edge] at next
      split at next <;> obtain rfl := Option.some.inj next <;> decide
  | postprocess | hitl => cases next

/-- The graph has no cycle, so a turn never meets the limit. -/
theorem turn_ends (services : Services) (s : AgentState) : (turn services s).outcome ≠ .recursionLimit :=
  StateGraph.runFrom_ends (fun _ _ _ next => ahead_edge next) (show ahead .preprocess < recursionLimit by decide)

theorem tokenEffects_hitl (services : Services) (s : AgentState) : tokenEffects (hitlNode services s).2 = [] := by
  unfold hitlNode
  dsimp only
  split <;> rfl

theorem tokenEffects_of_ne {services : Services} {s : AgentState} {u : AgentUpdate} (here : u ∈ (turn services s).updates)
    (other : u.node ≠ .llmGenerate) : tokenEffects u.effects = [] := by
  have returned : ∀ n s t effects, (agentGraph services).node n s = some (t, effects) →
      n ≠ .llmGenerate → tokenEffects effects = [] := by
    intro n s t effects eq different
    cases n with
    | llmGenerate => exact absurd rfl different
    | hitl =>
        obtain rfl : (hitlNode services s).2 = effects := congrArg Prod.snd (Option.some.inj eq)
        exact tokenEffects_hitl services s
    | router | toolExecutor | guardrails | postprocess =>
        obtain rfl : [] = effects := congrArg Prod.snd (Option.some.inj eq)
        rfl
    | preprocess | ragEngine =>
        obtain ⟨t', -, same⟩ := Option.map_eq_some_iff.mp eq
        obtain rfl : [] = effects := congrArg Prod.snd same
        rfl
  exact StateGraph.runFrom_returned (Q := fun u => u.node ≠ .llmGenerate → tokenEffects u.effects = [])
    returned u here other

/-! ## The paths of a turn -/

section
variable (services : Services)

def answer (s : AgentState) : AgentRun :=
  let generated := llmGenerateNode services s
  let checked := guardrailsNode services generated.1
  let updates : List AgentUpdate := [⟨.llmGenerate, generated.1, generated.2⟩, ⟨.guardrails, checked, []⟩]
  match guardrailsDecision checked with
  | .pass => ⟨updates ++ [⟨.postprocess, postprocessNode checked, []⟩], postprocessNode checked, .finished⟩
  | .hitl =>
      ⟨updates ++ [⟨.hitl, (hitlNode services checked).1, (hitlNode services checked).2⟩],
        (hitlNode services checked).1, .finished⟩

theorem runFrom_answer (limit : Nat) (s : AgentState) :
    (agentGraph services).runFrom (limit + 3) .llmGenerate s = answer services s := by
  let generated := llmGenerateNode services s
  let checked := guardrailsNode services generated.1
  have first : (agentGraph services).node .llmGenerate s = some (generated.1, generated.2) := rfl
  have second : (agentGraph services).node .guardrails generated.1 = some (checked, []) := rfl
  cases decision : guardrailsDecision checked with
  | pass =>
      have next : (agentGraph services).next .guardrails checked = some .postprocess := by
        simp [agentGraph, edge, decision]
      have third : (agentGraph services).node .postprocess checked = some (postprocessNode checked, []) := rfl
      rw [runFrom_next first rfl, runFrom_next second next, runFrom_last third rfl]
      simp [answer, generated, checked, decision]
  | hitl =>
      have next : (agentGraph services).next .guardrails checked = some .hitl := by
        simp [agentGraph, edge, decision]
      have third : (agentGraph services).node .hitl checked =
          some ((hitlNode services checked).1, (hitlNode services checked).2) := rfl
      rw [runFrom_next first rfl, runFrom_next second next, runFrom_last third rfl]
      simp [answer, generated, checked, decision]

inductive Path (s : AgentState) : AgentRun → Prop
  | preprocessRaised (raises : preprocessNode services s = none) : Path s ⟨[], s, .raised⟩
  | handedOff {s₁ : AgentState} (preprocessed : preprocessNode services s = some s₁)
      (route : routeDecision (routerNode services s₁) = .hitl) :
      Path s ⟨[⟨.preprocess, s₁, []⟩, ⟨.router, routerNode services s₁, []⟩,
          ⟨.hitl, (hitlNode services (routerNode services s₁)).1, (hitlNode services (routerNode services s₁)).2⟩],
        (hitlNode services (routerNode services s₁)).1, .finished⟩
  | toolAnswered {s₁ s₃ : AgentState} (preprocessed : preprocessNode services s = some s₁)
      (route : routeDecision (routerNode services s₁) = .tool)
      (executed : toolExecutorNode services (routerNode services s₁) = s₃) :
      Path s ⟨⟨.preprocess, s₁, []⟩ :: ⟨.router, routerNode services s₁, []⟩ :: ⟨.toolExecutor, s₃, []⟩ ::
          (answer services s₃).updates, (answer services s₃).state, (answer services s₃).outcome⟩
  | retrievalRaised {s₁ : AgentState} (preprocessed : preprocessNode services s = some s₁)
      (route : routeDecision (routerNode services s₁) = .rag)
      (raises : ragEngineNode services (routerNode services s₁) = none) :
      Path s ⟨[⟨.preprocess, s₁, []⟩, ⟨.router, routerNode services s₁, []⟩], routerNode services s₁, .raised⟩
  | ragAnswered {s₁ s₃ : AgentState} (preprocessed : preprocessNode services s = some s₁)
      (route : routeDecision (routerNode services s₁) = .rag)
      (retrieved : ragEngineNode services (routerNode services s₁) = some s₃) :
      Path s ⟨⟨.preprocess, s₁, []⟩ :: ⟨.router, routerNode services s₁, []⟩ :: ⟨.ragEngine, s₃, []⟩ ::
          (answer services s₃).updates, (answer services s₃).state, (answer services s₃).outcome⟩

theorem turn_path (s : AgentState) : Path services s (turn services s) := by
  unfold turn StateGraph.run recursionLimit
  cases preprocessed : preprocessNode services s with
  | none =>
      have raises : (agentGraph services).node .preprocess s = none := by
        simp [agentGraph, runNode, preprocessed]
      have ended : (agentGraph services).runFrom 25 .preprocess s = ⟨[], s, .raised⟩ := runFrom_raised raises
      exact ended ▸ Path.preprocessRaised preprocessed
  | some s₁ =>
      have first : (agentGraph services).node .preprocess s = some (s₁, []) := by
        simp [agentGraph, runNode, preprocessed]
      have second : (agentGraph services).node .router s₁ = some (routerNode services s₁, []) := rfl
      have start : (agentGraph services).runFrom 25 .preprocess s =
          ⟨⟨.preprocess, s₁, []⟩ :: ((agentGraph services).runFrom 24 .router s₁).updates,
            ((agentGraph services).runFrom 24 .router s₁).state,
            ((agentGraph services).runFrom 24 .router s₁).outcome⟩ := runFrom_next first rfl
      have routed {n : Node} (next : (agentGraph services).next .router (routerNode services s₁) = some n) :
          (agentGraph services).runFrom 24 .router s₁ =
          ⟨⟨.router, routerNode services s₁, []⟩ ::
              ((agentGraph services).runFrom 23 n (routerNode services s₁)).updates,
            ((agentGraph services).runFrom 23 n (routerNode services s₁)).state,
            ((agentGraph services).runFrom 23 n (routerNode services s₁)).outcome⟩ := runFrom_next second next
      show Path services s ((agentGraph services).runFrom 25 .preprocess s)
      cases route : routeDecision (routerNode services s₁) with
      | hitl =>
          have next : (agentGraph services).next .router (routerNode services s₁) = some .hitl := by
            simp [agentGraph, edge, route]
          have third : (agentGraph services).node .hitl (routerNode services s₁) =
              some ((hitlNode services (routerNode services s₁)).1,
                (hitlNode services (routerNode services s₁)).2) := rfl
          rw [start, routed next, runFrom_last third rfl]
          exact Path.handedOff preprocessed route
      | tool =>
          have next : (agentGraph services).next .router (routerNode services s₁) = some .toolExecutor := by
            simp [agentGraph, edge, route]
          have third : (agentGraph services).node .toolExecutor (routerNode services s₁) =
              some (toolExecutorNode services (routerNode services s₁), []) := rfl
          rw [start, routed next, runFrom_next third rfl, runFrom_answer services 19]
          exact Path.toolAnswered preprocessed route rfl
      | rag =>
          have next : (agentGraph services).next .router (routerNode services s₁) = some .ragEngine := by
            simp [agentGraph, edge, route]
          cases retrieved : ragEngineNode services (routerNode services s₁) with
          | none =>
              have raises : (agentGraph services).node .ragEngine (routerNode services s₁) = none := by
                simp [agentGraph, runNode, retrieved]
              rw [start, routed next, runFrom_raised raises]
              exact Path.retrievalRaised preprocessed route retrieved
          | some s₃ =>
              have third : (agentGraph services).node .ragEngine (routerNode services s₁) = some (s₃, []) := by
                simp [agentGraph, runNode, retrieved]
              rw [start, routed next, runFrom_next third rfl, runFrom_answer services 19]
              exact Path.ragAnswered preprocessed route retrieved

end

end CuckooEcho.Agent
