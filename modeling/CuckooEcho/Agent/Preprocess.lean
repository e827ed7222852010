import CuckooEcho.Agent.State
import CuckooEcho.Lib.Pattern

namespace CuckooEcho.Agent
open Lib

/-! ## Collecting a completion that is not streamed on -/

def collectChunks : List Chunk → Option String
  -- `chunk.choices[0].delta` raises for a chunk without choices
  | [] => some ""
  | chunk :: chunks =>
      match chunk.choices with
      | [] => none
      | delta :: _ =>
          (collectChunks chunks).map ((delta.bind (·.content)).getD "" ++ ·)

def collect (completion : Completion) : Option String :=
  if completion.raises then none else collectChunks completion.chunks

/-! ## `LLMSummarizer` -/

def summarizeSystemPrompt : String :=
  "请将以下对话历史压缩为简洁的摘要，保留关键信息和用户意图。" ++
  "摘要应包含：用户的核心问题、已解决的事项、待处理的事项、重要的上下文信息。" ++
  "用中文输出，不超过 500 字。"

def conversationLine (m : Message) : String := m.role.getD "user" ++ ": " ++ m.text

def summaryPrompt (messages : List Message) : List LlmMessage :=
  let spoken := messages.filter fun m => m.text ≠ ""
  [⟨"system", summarizeSystemPrompt⟩, ⟨"user", "\n".intercalate (spoken.map conversationLine)⟩]

def summarize (complete : List LlmMessage → Completion) (messages : List Message) : String :=
  match collect (complete (summaryPrompt messages)) with
  | some text => strip text
  | none => ""

/-! ## `preprocess_node` -/

def summarizeThreshold : Nat := 50

/-- The last message, the media urls and the image descriptions while the media items are handled. -/
structure MediaPass where
  lastMsg : Message
  mediaUrls : List MediaUrl
  descriptions : List String
  deriving DecidableEq, Repr

def describeImage (services : Services) (url text : String) : Option String :=
  match services.visionClient with
  | none => none
  | some client => (client url text).filter (· ≠ "")

def handleMedia (services : Services) (pass : MediaPass) (item : Media) : Option MediaPass :=
  if item.type = "audio" ∧ services.asrClient.isSome then
    match services.asrClient, item.ossUrl with
    | some transcribe, some url =>
        match transcribe url with
        | some text => some { pass with
            lastMsg := { pass.lastMsg with content := some text }
            mediaUrls := pass.mediaUrls ++ [⟨"audio", url⟩] }
        -- an audio item that fails is skipped, an image item that fails raises
        | none => some pass
    | _, _ => some pass
  else if item.type = "image" then
    match item.ossUrl with
    | none => none
    | some url =>
        match (services.ossClient.elim (some url) fun sign => sign url) with
        | none => none
        | some signed => some { pass with
            mediaUrls := pass.mediaUrls ++ [⟨"image", signed⟩]
            descriptions := pass.descriptions ++ (describeImage services signed pass.lastMsg.text).toList }
  else some pass

def handleMediaItems (services : Services) (pass : MediaPass) : List Media → Option MediaPass
  | [] => some pass
  | item :: items => (handleMedia services pass item).bind fun pass => handleMediaItems services pass items

def describe (text : String) (descriptions : List String) : String :=
  descriptions.foldl (fun augmented d => augmented ++ "\n[图片内容: " ++ d ++ "]") text

def augment (pass : MediaPass) : Message :=
  if pass.descriptions = [] then pass.lastMsg
  else { pass.lastMsg with content := some (describe pass.lastMsg.text pass.descriptions) }

def compressed (services : Services) (state : AgentState) : AgentState :=
  match services.llmSummarizer with
  | some complete =>
      if state.messages.length ≥ summarizeThreshold then
        { state with messages := [], summary := some (summarize complete state.messages) }
      else state
  | none => state

def preprocessNode (services : Services) (state : AgentState) : Option AgentState :=
  let state := compressed services state
  match state.messages.getLast? with
  | none => some state
  | some lastMsg =>
      (handleMediaItems services ⟨lastMsg, state.mediaUrls, []⟩ lastMsg.media).map fun pass =>
        { state with
          messages := if lastMsg.media = [] then state.messages
            else state.messages.dropLast ++ [augment pass]
          mediaUrls := pass.mediaUrls }

theorem preprocessNode_writes {services : Services} {state after : AgentState}
    (h : preprocessNode services state = some after) :
    ∃ messages summary mediaUrls, after = { state with messages, summary, mediaUrls } := by
  have first : ∃ messages summary, compressed services state = { state with messages, summary } := by
    unfold compressed
    split
    · split
      · exact ⟨_, _, rfl⟩
      · exact ⟨_, _, rfl⟩
    · exact ⟨_, _, rfl⟩
  obtain ⟨messages, summary, eq⟩ := first
  unfold preprocessNode at h
  rw [eq] at h
  cases last : messages.getLast? with
  | none =>
      simp only [last, Option.some.injEq] at h
      exact ⟨_, _, _, h.symm⟩
  | some lastMsg =>
      simp only [last] at h
      obtain ⟨pass, -, rfl⟩ := Option.map_eq_some_iff.mp h
      exact ⟨_, _, _, rfl⟩

end CuckooEcho.Agent
