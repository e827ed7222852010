import CuckooEcho.Lib.Python
import Mathlib.Data.Rat.Defs

namespace CuckooEcho.Agent
open Lib

/-! ## The channels of the graph -/

structure Media where
  type : String
  ossUrl : Option String
  deriving DecidableEq, Repr

structure Message where
  role : Option String
  content : Option String
  media : List Media
  deriving DecidableEq, Repr

def Message.text (m : Message) : String := m.content.getD ""

structure MediaUrl where
  type : String
  url : String
  deriving DecidableEq, Repr

structure Source where
  id : Option String
  title : Option String
  url : Option String
  excerpt : Option String
  confidence : Option Rat
  deriving DecidableEq, Repr

structure ToolCall where
  name : String
  args : List (String × String)
  result : List (String × PyValue)

/-- One value per channel, the last one written. A channel that was never written has the default its
readers give it. -/
structure AgentState where
  threadId : Option String := none
  tenantId : Option String := none
  messages : List Message := []
  summary : Option String := none
  userIntent : Option String := none
  ragContext : List String := []
  sources : List Source := []
  toolCalls : List ToolCall := []
  mediaUrls : List MediaUrl := []
  hitlRequested : Bool := false
  tokensUsed : Nat := 0
  llmResponse : String := ""
  guardrailsPassed : Bool := true
  correctionMessage : Option String := none
  unresolvedTurns : Nat := 0
  citations : List Source := []

/-- What a request merges into the saved state: the WebSocket endpoint sends `messages` only. -/
structure Payload where
  messages : List Message
  tenantId : Option String
  threadId : Option String

def Payload.merge (payload : Payload) (saved : AgentState) : AgentState :=
  { saved with
    messages := payload.messages
    tenantId := payload.tenantId <|> saved.tenantId
    threadId := payload.threadId <|> saved.threadId }

/-! ## The services that nodes call -/

structure Delta where
  content : Option String
  reasoningContent : Option String
  deriving DecidableEq, Repr

structure Chunk where
  choices : List (Option Delta)
  totalTokens : Option Nat
  deriving DecidableEq, Repr

/-- The chunks that arrive, and whether the call or the stream raises after them. -/
structure Completion where
  chunks : List Chunk
  raises : Bool
  deriving DecidableEq, Repr

structure LlmMessage where
  role : String
  content : String
  deriving DecidableEq, Repr

structure Entity where
  docId : Option String
  chunkText : Option String
  deriving DecidableEq, Repr

/-- A search hit; `none` for an absent title or score, `some none` for an explicit `None`. -/
structure Hit where
  docId : Option String
  chunkText : Option String
  docTitle : Option (Option String)
  docUrl : Option String
  score : Option (Option Rat)
  entity : Entity
  deriving DecidableEq, Repr

inductive Scored (α : Type)
  | scores (values : List α)
  | timeout
  | raises

inductive ToolOutcome
  | result (dict : List (String × PyValue))
  | timeout
  | raises

/-- What the outside answers in one turn, each answer a function of what it is asked. An answer of
`none` is an exception; a service that is itself `none` is not wired. -/
structure Services where
  isPrintable : Char → Bool
  llmSummarizer : Option (List LlmMessage → Completion)
  asrClient : Option (String → Option String)
  ossClient : Option (String → Option String)
  visionClient : Option (String → String → Option String)
  classifier : List LlmMessage → Completion
  orderService : Option (String → List (String × String) → String → ToolOutcome)
  cacheLookup : String → String → Option String
  embeddingService : Option (String → Option (List Rat))
  circuitOpen : Bool
  search : List Rat → String → Nat → Option (List (List Hit))
  dbPool : Option (List (Option String) → String → Option (List String))
  reranker : Option (String → List String → Scored Rat)
  llm : List LlmMessage → Option String → Completion
  nliModel : Option (List (String × String) → Scored (Rat × Rat × Rat))
  hitlPool : Bool

def offline : Services where
  isPrintable _ := true
  llmSummarizer := none
  asrClient := none
  ossClient := none
  visionClient := none
  classifier _ := ⟨[], false⟩
  orderService := none
  cacheLookup _ _ := none
  embeddingService := none
  circuitOpen := false
  search _ _ _ := none
  dbPool := none
  reranker := none
  llm _ _ := ⟨[], false⟩
  nliModel := none
  hitlPool := true

def Chunk.ofText (text : String) : Chunk :=
  { choices := [some { content := some text, reasoningContent := none }], totalTokens := none }

def userMessage (text : String) : Message := { role := some "user", content := some text, media := [] }

/-- What a node does besides returning an update, in order. -/
inductive Effect
  | completion (messages : List LlmMessage)
  | token (text : String)
  | cacheStore (query response tenantId : String)
  | notifyHitlRequest (tenantId threadId reason : String)
  deriving DecidableEq, Repr

end CuckooEcho.Agent
