import CuckooEcho.Agent.Router

namespace CuckooEcho.Agent
open Lib Pattern

/-! ## The tools -/

def toolTimeoutError : List (String × PyValue) :=
  [("error", .str "TOOL_TIMEOUT"), ("message", .str "查询超时，请稍后重试")]

def toolError : List (String × PyValue) :=
  [("error", .str "TOOL_ERROR"), ("message", .str "工具调用失败")]

def unknownTool (name : String) : List (String × PyValue) :=
  [("error", .str "UNKNOWN_TOOL"), ("message", .str ("Unknown tool: " ++ name))]

def argument (key : String) (args : List (String × String)) : String :=
  ((args.find? fun a => a.1 = key).map (·.2)).getD ""

def mockOrderStatus (args : List (String × String)) (tenantId : String) : List (String × PyValue) :=
  [("order_id", .str (argument "order_id" args)), ("tenant_id", .str tenantId), ("status", .str "shipped"),
    ("tracking_number", .str "SF1234567890"), ("estimated_delivery", .str "2026-04-05")]

def mockUpdateAddress (args : List (String × String)) (tenantId : String) : List (String × PyValue) :=
  [("order_id", .str (argument "order_id" args)), ("tenant_id", .str tenantId),
    ("new_address", .str (argument "address" args)), ("updated", .bool true)]

def callTool (services : Services) (name : String) (args : List (String × String)) (tenantId : String) :
    ToolOutcome :=
  match services.orderService with
  | some request => request name args tenantId
  | none =>
      if name = "get_order_status" then .result (mockOrderStatus args tenantId)
      else .result (mockUpdateAddress args tenantId)

def registeredTools : List String := ["get_order_status", "update_shipping_address"]

def safeToolCall (services : Services) (name : String) (args : List (String × String)) (tenantId : String) :
    List (String × PyValue) :=
  if name ∉ registeredTools then unknownTool name
  else match callTool services name args tenantId with
    | .result dict => dict
    | .timeout => toolTimeoutError
    | .raises => toolError

/-! ## `tool_executor_node` -/

def digitsPattern : Pattern := .group (.many isDecimal 4 none)

def addressPattern : Pattern :=
  sequence [anyOf ["地址", "address"], .many (fun c => c = '：' || c = ':' || Pattern.isSpace c) 0 none,
    .group (.many dot 1 none)]

def captured (pattern : Pattern) (text : String) : Option String :=
  (pattern.search text.toList).bind fun group => group.map String.ofList

def parseToolIntent (userIntent lastMessage : String) : String × List (String × String) :=
  let name := if isToolIntent userIntent then String.ofList (userIntent.toList.drop 5) else userIntent
  if name = "get_order_status" then
    match captured digitsPattern lastMessage with
    | some number => (name, [("order_id", number)])
    | none => (name, [("order_id", "unknown")])
  else if name = "update_shipping_address" then
    match captured addressPattern lastMessage with
    | some address => (name, [("address", strip address), ("order_id", "latest")])
    | none => (name, [("address", lastMessage), ("order_id", "latest")])
  else (name, [])

def toolExecutorNode (services : Services) (state : AgentState) : AgentState :=
  let (name, args) := parseToolIntent (state.userIntent.getD "") (lastText state.messages)
  let result := safeToolCall services name args (state.tenantId.getD "")
  { state with
    toolCalls := state.toolCalls ++ [{ name, args, result }]
    llmResponse := PyValue.strDict services.isPrintable result }

/-- A tool turn shows the customer the tool's raw result. -/
theorem toolExecutorNode_writes (services : Services) (state : AgentState) :
    ∃ toolCalls llmResponse, toolExecutorNode services state = { state with toolCalls, llmResponse } ∧
      llmResponse ≠ "" :=
  ⟨_, _, rfl, PyValue.strDict_ne_empty _ _⟩

end CuckooEcho.Agent
