import CuckooEcho.Agent.Preprocess

namespace CuckooEcho.Agent
open Lib Pattern

/-! ## The rule engine -/

def upTo (n : Nat) : Pattern := .many dot 0 (some n)

def anything : Pattern := .many dot 0 none

def spaces : Pattern := .many Pattern.isSpace 0 none

def rulePatterns : List (String × List Pattern) :=
  [("get_order_status",
    [sequence [literal "查", upTo 5, literal "订单"],
      sequence [literal "订单", upTo 5, literal "状态"],
      literal "我的订单",
      sequence [literal "order", spaces, literal "status"],
      sequence [literal "track", upTo 5, literal "order"],
      sequence [literal "where", upTo 5, .group (anyOf ["is", "my"]), spaces, literal "order"]]),
   ("update_shipping_address",
    [sequence [literal "改", upTo 5, literal "地址"],
      sequence [literal "修改", upTo 5, literal "收货"],
      sequence [literal "更换", upTo 5, literal "地址"],
      sequence [literal "change", anything, literal "address"],
      sequence [literal "update", anything, literal "address"],
      sequence [literal "modify", anything, literal "shipping"]])]

def negativeKeywords : List String :=
  ["投诉", "差评", "垃圾", "骗子", "退款", "太慢", "不满", "生气", "愤怒",
    "恶心", "失望", "无语", "坑", "烂", "废物", "举报",
    "complaint", "terrible", "awful", "angry", "furious", "disgusting",
    "scam", "fraud", "worst", "horrible", "unacceptable"]

def humanTransferKeywords : List String :=
  ["转人工", "人工客服", "人工服务", "找人工", "真人客服", "真人服务",
    "human agent", "talk to human", "real person", "speak to agent"]

def humanTransferPattern : Pattern := anyOf humanTransferKeywords

def negativePattern : Pattern := anyOf negativeKeywords

def unresolvedThreshold : Nat := 3

def ruleHit (text : String) : Option String :=
  (rulePatterns.find? fun rule => rule.2.any fun p => p.found text).map (·.1)

def lastText (messages : List Message) : String := (messages.getLast?.map Message.text).getD ""

def detectNegativeSentiment (state : AgentState) : Bool :=
  state.unresolvedTurns ≥ unresolvedThreshold ||
    (state.messages ≠ [] && negativePattern.found (lastText state.messages))

/-! ## The classifier -/

def classifyPrompt (text : String) : String :=
  "You are an intent classifier for a customer service system.\n" ++
  "Classify the user message into exactly one of these categories:\n" ++
  "- tool:get_order_status (user wants to check order status)\n" ++
  "- tool:update_shipping_address (user wants to change shipping address)\n" ++
  "- rag (user is asking a knowledge/FAQ question)\n" ++
  "- hitl (user explicitly requests human agent)\n" ++
  "- chitchat (casual conversation, greetings)\n\n" ++
  "User message: " ++ text ++ "\n\n" ++
  "Respond with ONLY the category label, nothing else."

def validIntents : List String :=
  ["tool:get_order_status", "tool:update_shipping_address", "rag", "hitl", "chitchat"]

def llmClassifyIntent (services : Services) (text : String) : String :=
  match collect (services.classifier [⟨"user", classifyPrompt text⟩]) with
  | none => "rag"
  | some reply =>
      let label := (strip reply).toLower
      if label ∈ validIntents then label else "rag"

/-! ## `router_node` and `route_decision` -/

def requestHitl (state : AgentState) : AgentState :=
  { state with userIntent := some "hitl", hitlRequested := true }

def routerNode (services : Services) (state : AgentState) : AgentState :=
  if state.messages = [] then { state with userIntent := some "rag" }
  else
    let text := lastText state.messages
    match ruleHit text with
    | some tool => { state with userIntent := some ("tool:" ++ tool) }
    | none =>
        if humanTransferPattern.found text then requestHitl state
        else if detectNegativeSentiment state then requestHitl state
        else
          let intent := llmClassifyIntent services text
          if intent = "hitl" then requestHitl state else { state with userIntent := some intent }

inductive Route
  | tool | rag | hitl
  deriving DecidableEq, Repr

def isToolIntent (intent : String) : Bool := "tool:".toList.isPrefixOf intent.toList

def routeDecision (state : AgentState) : Route :=
  let intent := state.userIntent.getD "rag"
  if isToolIntent intent then .tool
  else if state.hitlRequested || intent = "hitl" then .hitl
  else .rag

/-! ## What the router decides -/

/-- The intent that the router writes, which the saved flag has no part in. -/
def intentOf (services : Services) (state : AgentState) : String :=
  (routerNode services { state with hitlRequested := false }).userIntent.getD "rag"

theorem tool_ne_hitl (tool : String) : "tool:" ++ tool ≠ "hitl" := by
  intro h
  have letters := congrArg String.toList h
  rw [String.toList_append] at letters
  exact absurd (List.cons.inj letters).1 (by decide)

theorem routerNode_eq (services : Services) (state : AgentState) :
    routerNode services state =
      { state with
        userIntent := some (intentOf services state)
        hitlRequested := state.hitlRequested || intentOf services state = "hitl" } := by
  unfold intentOf routerNode
  have sentiment : detectNegativeSentiment { state with hitlRequested := false } =
      detectNegativeSentiment state := rfl
  by_cases empty : state.messages = []
  · simp [empty]
  · cases rule : ruleHit (lastText state.messages) with
    | some tool => simp [empty, rule, tool_ne_hitl]
    | none =>
        by_cases asked : humanTransferPattern.found (lastText state.messages) = true
        · simp [empty, rule, asked, requestHitl]
        · by_cases upset : detectNegativeSentiment state = true
          · simp [empty, rule, asked, sentiment, upset, requestHitl]
          · by_cases label : llmClassifyIntent services (lastText state.messages) = "hitl"
            · simp [empty, rule, asked, sentiment, upset, label, requestHitl]
            · simp [empty, rule, asked, sentiment, upset, label]

theorem routeDecision_routerNode (services : Services) (state : AgentState) :
    routeDecision (routerNode services state) =
      if isToolIntent (intentOf services state) then .tool
      else if state.hitlRequested || intentOf services state = "hitl" then .hitl
      else .rag := by
  rw [routerNode_eq]
  simp [routeDecision]

end CuckooEcho.Agent
