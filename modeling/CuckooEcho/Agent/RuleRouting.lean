import CuckooEcho.Agent.Router
import CuckooEcho.Lib.PatternSearch

namespace CuckooEcho.Agent
open Lib Pattern

/-! ## The calls of the router -/

/-- The prompts that `router_node` sends to the classifier. -/
def classifierPrompts (state : AgentState) : List (List LlmMessage) :=
  let text := lastText state.messages
  if state.messages = [] ∨ (ruleHit text).isSome ∨ humanTransferPattern.found text ∨ detectNegativeSentiment state then []
  else [[⟨"user", classifyPrompt text⟩]]

/-- The answers to these prompts are all that the router takes from the services. -/
theorem routerNode_eq_of_classifier {services services' : Services} {state : AgentState}
    (same : ∀ prompt ∈ classifierPrompts state, services.classifier prompt = services'.classifier prompt) :
    routerNode services state = routerNode services' state := by
  unfold routerNode
  by_cases empty : state.messages = []
  · simp only [empty, ↓reduceIte]
  · simp only [empty, ↓reduceIte]
    cases rule : ruleHit (lastText state.messages) with
    | some tool => rfl
    | none =>
        dsimp only
        split
        · rfl
        · rename_i notAsked
          split
          · rfl
          · rename_i calm
            have asks : classifierPrompts state = [[⟨"user", classifyPrompt (lastText state.messages)⟩]] := by
              simp [classifierPrompts, empty, rule, notAsked, calm]
            rw [asks, List.forall_mem_singleton] at same
            have classified : llmClassifyIntent services (lastText state.messages) =
                llmClassifyIntent services' (lastText state.messages) := by
              simp only [llmClassifyIntent, same]
            rw [classified]

structure RoutesTo (services : Services) (state : AgentState) (tool : String) : Prop where
  intent : (routerNode services state).userIntent = some ("tool:" ++ tool)
  decision : routeDecision (routerNode services state) = .tool
  quiet : classifierPrompts state = []

theorem append_tool_inj {tool other : String} (same : "tool:" ++ tool = "tool:" ++ other) : tool = other := by
  have letters := congrArg String.toList same
  rw [String.toList_append, String.toList_append, List.append_cancel_left_eq] at letters
  exact String.toList_inj.mp letters

theorem routesTo_iff (services : Services) {state : AgentState} (nonempty : state.messages ≠ []) (tool : String) :
    RoutesTo services state tool ↔ ruleHit (lastText state.messages) = some tool := by
  have unfolded := routerNode.eq_def services state
  rw [if_neg nonempty] at unfolded
  constructor
  · rintro ⟨intent, -, quiet⟩
    cases rule : ruleHit (lastText state.messages) with
    | some other =>
        simp only [rule] at unfolded
        rw [unfolded] at intent
        rw [append_tool_inj (Option.some.inj intent)]
    | none =>
        simp only [rule] at unfolded
        rw [unfolded] at intent
        split at intent
        · exact absurd (Option.some.inj intent).symm (tool_ne_hitl tool)
        · rename_i notAsked
          split at intent
          · exact absurd (Option.some.inj intent).symm (tool_ne_hitl tool)
          · rename_i calm
            simp [classifierPrompts, nonempty, rule, notAsked, calm] at quiet
  · intro rule
    simp only [rule] at unfolded
    refine ⟨by rw [unfolded], ?_, by simp [classifierPrompts, rule]⟩
    rw [unfolded]
    simp [routeDecision, isToolIntent, String.toList_append]

/-! ## Commands and what follows them -/

def rulesFor (tool : String) : List Pattern := (rulePatterns.lookup tool).getD []

theorem ruleHit_eq (text : String) :
    ruleHit text =
      if (rulesFor "get_order_status").any fun p => p.found text then some "get_order_status"
      else if (rulesFor "update_shipping_address").any fun p => p.found text then some "update_shipping_address"
      else none := by
  show (rulePatterns.find? _).map _ = _
  have listed : rulePatterns = [("get_order_status", rulesFor "get_order_status"),
      ("update_shipping_address", rulesFor "update_shipping_address")] := rfl
  rw [listed, List.find?_cons, List.find?_cons]
  cases (rulesFor "get_order_status").any fun p => p.found text with
  | true => rfl
  | false => cases (rulesFor "update_shipping_address").any fun p => p.found text <;> rfl

inductive Command
  | checkOrder | changeAddress
  deriving DecidableEq, Repr

namespace Command

def text : Command → String
  | .checkOrder => "查订单 "
  | .changeAddress => "改地址 "

def tool : Command → String
  | .checkOrder => "get_order_status"
  | .changeAddress => "update_shipping_address"

theorem found_append (command : Command) (s : String) :
    ((rulesFor command.tool).any fun p => p.found (command.text ++ s)) = true := by
  have words (a b : String) (text : List Char) :
      Matches (sequence [literal a, upTo 5, literal b]) (a.toList ++ (b.toList ++ text)) text :=
    .seq (.literal a _) (.seq (.skip dot _ _) (.seq (.literal b _) .empty))
  rw [List.any_eq_true]
  cases command with
  | checkOrder =>
      refine ⟨sequence [literal "查", upTo 5, literal "订单"], List.mem_cons_self, ?_⟩
      rw [found, String.toList_append]
      exact search_isSome_of_matches (words "查" "订单" (" ".toList ++ s.toList))
  | changeAddress =>
      refine ⟨sequence [literal "改", upTo 5, literal "地址"], List.mem_cons_self, ?_⟩
      rw [found, String.toList_append]
      exact search_isSome_of_matches (words "改" "地址" (" ".toList ++ s.toList))

/-- No rule for orders matches from within the command for addresses. -/
theorem found_changeAddress {p : Pattern} (rule : p ∈ rulesFor "get_order_status") (s : String) :
    p.found (changeAddress.text ++ s) = p.found s := by
  have outside : ((rulesFor "get_order_status").all fun p =>
      changeAddress.text.toList.all fun c => !p.mayStart c) = true := by decide
  have refused : ∀ c ∈ changeAddress.text.toList, p.mayStart c = false := by
    intro c here
    have all := List.all_eq_true.mp (List.all_eq_true.mp outside p rule) c here
    rwa [Bool.not_eq_true'] at all
  rw [found, String.toList_append, search_append refused]
  rfl

end Command

theorem routesTo_iff_noOrderRule (command : Command) (services : Services) {state : AgentState} {s : String}
    (last : lastText state.messages = command.text ++ s) :
    RoutesTo services state command.tool ↔
      (command = .changeAddress → ∀ p ∈ rulesFor "get_order_status", p.found s = false) := by
  have nonempty : state.messages ≠ [] := by
    intro empty
    rw [empty] at last
    have letters := congrArg String.toList last
    rw [String.toList_append] at letters
    cases command <;> cases letters
  have hit := command.found_append s
  rw [routesTo_iff services nonempty, ruleHit_eq, last]
  cases command with
  | checkOrder =>
      have orders : ((rulesFor "get_order_status").any fun p => p.found (Command.checkOrder.text ++ s)) = true := hit
      rw [if_pos orders]
      simp [Command.tool]
  | changeAddress =>
      have order : ((rulesFor "get_order_status").any fun p => p.found (Command.changeAddress.text ++ s)) = false ↔
          ∀ p ∈ rulesFor "get_order_status", p.found s = false := by
        rw [List.any_eq_false]
        refine forall₂_congr fun p rule => ?_
        rw [Command.found_changeAddress rule, Bool.not_eq_true]
      have address : ((rulesFor "update_shipping_address").any fun p =>
          p.found (Command.changeAddress.text ++ s)) = true := hit
      rw [if_pos address, ← order]
      cases (rulesFor "get_order_status").any fun p => p.found (Command.changeAddress.text ++ s) <;> decide

def asks (text : String) : AgentState := { messages := [userMessage text] }

/-- The new address mentions the order. -/
theorem changeAddress_routed_elsewhere :
    ¬ ∀ (command : Command) (services : Services) (state : AgentState) (s : String),
      lastText state.messages = command.text ++ s → RoutesTo services state command.tool := by
  intro claim
  have routed := claim .changeAddress offline (asks "改地址 我的订单") "我的订单" (by decide)
  have order := (routesTo_iff_noOrderRule .changeAddress offline (s := "我的订单") (by decide)).mp routed rfl
  exact absurd order (by decide)

theorem routesTo_iff_noOrderRule_road :
    RoutesTo offline (asks "改地址 人民路1号") "update_shipping_address" ↔
      (Command.changeAddress = .changeAddress →
        ∀ p ∈ rulesFor "get_order_status", p.found "人民路1号" = false) :=
  routesTo_iff_noOrderRule .changeAddress offline (by decide)

end CuckooEcho.Agent
