import CuckooEcho.Agent.Router

namespace CuckooEcho.Agent
open Lib

/-! ## The prompt -/

def systemPrompt : String := "You are a helpful customer service assistant."

def formatInlineCitations (sources : List Source) : String :=
  " ".intercalate ((List.range sources.length).map fun i => "[" ++ toString (i + 1) ++ "]")

def contextMessage (state : AgentState) : LlmMessage :=
  if state.ragContext = [] then ⟨"system", systemPrompt⟩
  else
    let context := "Reference information:\n" ++ "\n\n".intercalate state.ragContext
    let citations := formatInlineCitations state.sources
    ⟨"system", if citations = "" then context else context ++ "\n\nSources: " ++ citations⟩

def toolMessage (services : Services) (state : AgentState) : List LlmMessage :=
  match state.toolCalls.getLast? with
  | none => []
  | some call => [⟨"system", "Tool result: " ++ PyValue.strDict services.isPrintable call.result⟩]

def historyMessage (m : Message) : LlmMessage := ⟨m.role.getD "user", m.text⟩

def llmMessages (services : Services) (state : AgentState) : List LlmMessage :=
  contextMessage state :: toolMessage services state ++
    (state.messages.drop (state.messages.length - 10)).map historyMessage

/-! ## `llm_generate_node` -/

def deltaContent (delta : Delta) : String :=
  let content := delta.content.getD ""
  if content = "" then delta.reasoningContent.getD "" else content

def chunkToken (chunk : Chunk) : Option String :=
  match chunk.choices with
  | some delta :: _ => if deltaContent delta = "" then none else some (deltaContent delta)
  | none :: _ | [] => none

/-- The tokens of a completion, each of them put on the token queue as it arrives. -/
def tokensOf (completion : Completion) : List String := completion.chunks.filterMap chunkToken

def fullResponse (completion : Completion) : String := String.join (tokensOf completion)

def tokensUsedOf (completion : Completion) : Nat := ((completion.chunks.filterMap (·.totalTokens)).getLast?).getD 0

def apology : String := "抱歉，系统暂时无法处理您的请求，请稍后重试。"

/-- `create_source_card` adds up the confidences, which raises when one is missing. -/
def sourceCardRaises (sources : List Source) : Bool := sources.any fun s => s.confidence.isNone

def replyOf (services : Services) (state : AgentState) : Completion :=
  services.llm (llmMessages services state) state.threadId

def generationFails (services : Services) (state : AgentState) : Bool :=
  (replyOf services state).raises || sourceCardRaises state.sources

def cacheStore (state : AgentState) (response : String) : List Effect :=
  if state.ragContext ≠ [] ∧ response ≠ "" ∧ lastText state.messages ≠ "" then
    [.cacheStore (lastText state.messages) response (state.tenantId.getD "")]
  else []

def llmGenerateNode (services : Services) (state : AgentState) : AgentState × List Effect :=
  let reply := replyOf services state
  let streamed := .completion (llmMessages services state) :: (tokensOf reply).map .token
  if reply.raises then
    ({ state with llmResponse := apology, guardrailsPassed := true, citations := [] }, streamed)
  else
    let effects := streamed ++ cacheStore state (fullResponse reply)
    if sourceCardRaises state.sources then
      ({ state with llmResponse := apology, guardrailsPassed := true, citations := [] }, effects)
    else
      ({ state with
        llmResponse := fullResponse reply
        tokensUsed := tokensUsedOf reply
        guardrailsPassed := true
        citations := state.sources }, effects)

def tokenEffects (effects : List Effect) : List String :=
  effects.filterMap fun | .token t => some t | _ => none

theorem tokenEffects_tokens (tokens : List String) : tokenEffects (tokens.map .token) = tokens := by
  simp [tokenEffects, List.filterMap_map]

theorem tokenEffects_cacheStore (state : AgentState) (response : String) :
    tokenEffects (cacheStore state response) = [] := by
  unfold cacheStore
  split <;> rfl

theorem tokenEffects_append (as bs : List Effect) :
    tokenEffects (as ++ bs) = tokenEffects as ++ tokenEffects bs := List.filterMap_append

section
variable (services : Services) (state : AgentState)

theorem tokenEffects_generate :
    tokenEffects (llmGenerateNode services state).2 = tokensOf (replyOf services state) := by
  have streamed : tokenEffects (.completion (llmMessages services state) ::
      (tokensOf (replyOf services state)).map .token) = tokensOf (replyOf services state) :=
    tokenEffects_tokens _
  unfold llmGenerateNode
  dsimp only
  split
  · exact streamed
  · split
    · rw [tokenEffects_append, streamed, tokenEffects_cacheStore, List.append_nil]
    · rw [tokenEffects_append, streamed, tokenEffects_cacheStore, List.append_nil]

theorem llmGenerateNode_response :
    (llmGenerateNode services state).1.llmResponse =
      if generationFails services state then apology else fullResponse (replyOf services state) := by
  unfold llmGenerateNode generationFails
  dsimp only
  cases raises : (replyOf services state).raises with
  | true => simp
  | false => cases card : sourceCardRaises state.sources <;> simp

theorem llmGenerateNode_writes : ∃ llmResponse tokensUsed citations, (llmGenerateNode services state).1 =
    { state with llmResponse, tokensUsed, citations, guardrailsPassed := true } := by
  unfold llmGenerateNode
  dsimp only
  split
  · exact ⟨_, _, _, rfl⟩
  · split
    · exact ⟨_, _, _, rfl⟩
    · exact ⟨_, _, _, rfl⟩

end

end CuckooEcho.Agent
