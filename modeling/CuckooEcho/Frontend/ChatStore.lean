import CuckooEcho.Lib.Run
import Mathlib.Data.List.Nodup

namespace CuckooEcho.Frontend
open Lib

/-! ## Messages -/

inductive MessageRole
  | user
  | assistant
  | humanAgent
  deriving DecidableEq, Repr

inductive MediaType
  | image
  | audio
  deriving DecidableEq, Repr

structure MediaAttachment where
  type : MediaType
  url : String
  thumbnailUrl : Option String := none
  mimeType : String
  sizeKb : Nat
  deriving DecidableEq, Repr

structure ToolCall where
  id : String
  name : String
  arguments : String
  deriving DecidableEq, Repr

structure Message where
  id : String
  threadId : String
  role : MessageRole
  content : String
  mediaAttachments : Option (List MediaAttachment) := none
  toolCalls : Option (List ToolCall) := none
  createdAt : String
  isOptimistic : Bool := false
  deriving DecidableEq, Repr

inductive LangGraphType
  | human
  | ai
  | tool
  deriving DecidableEq, Repr

/-- With the id that the conversion draws for a message without one, and the arguments of tool calls as text. -/
structure LangGraphMessage where
  type : LangGraphType
  content : String
  id : Option String := none
  randomUUID : String
  toolCalls : Option (List ToolCall) := none
  deriving DecidableEq, Repr

def roleMap : LangGraphType → Option MessageRole
  | .human => some .user
  | .ai => some .assistant
  | .tool => none

def convertLangGraphMessage (threadId now : String) (msg : LangGraphMessage) : Message where
  id := msg.id.getD msg.randomUUID
  threadId := threadId
  role := (roleMap msg.type).getD .assistant
  content := msg.content
  toolCalls := msg.toolCalls
  createdAt := now

def convertLangGraphMessages (threadId now : String) (msgs : List LangGraphMessage) : List Message :=
  (msgs.filter (·.type ≠ .tool)).map (convertLangGraphMessage threadId now)

/-- A thread as the server sends it, in the format that its first message shows. -/
inductive Reply
  | messages (rawMessages : List Message)
  | langGraph (rawMessages : List LangGraphMessage)
  deriving DecidableEq, Repr

def Reply.serverMessages (threadId now : String) : Reply → List Message
  | .messages rawMessages => rawMessages
  | .langGraph rawMessages => convertLangGraphMessages threadId now rawMessages

/-! ## The chat store -/

structure ChatState where
  messages : List Message := []
  activeThreadId : Option String := none
  isStreaming : Bool := false
  streamingContent : String := ""
  deriving DecidableEq, Repr

namespace ChatState
variable (store : ChatState)

def activeThread : String := store.activeThreadId.getD ""

def optimisticMessage (content : String) (media : Option (List MediaAttachment)) (uuid now : String) : Message where
  id := "temp_" ++ uuid
  threadId := store.activeThread
  role := .user
  content := content
  mediaAttachments := media
  createdAt := now
  isOptimistic := true

def sendMessage (content : String) (media : Option (List MediaAttachment)) (uuid now : String) : ChatState :=
  { store with
    messages := store.messages ++ [store.optimisticMessage content media uuid now]
    isStreaming := true }

def appendToken (token : String) : ChatState := { store with streamingContent := store.streamingContent ++ token }

def assistantMessage (messageId uuid now : String) : Message where
  id := if messageId = "" then "assistant_" ++ uuid else messageId
  threadId := store.activeThread
  role := .assistant
  content := store.streamingContent
  createdAt := now

def finishStreaming (messageId uuid now : String) : ChatState :=
  let ended := { store with isStreaming := false, streamingContent := "" }
  if store.messages.any (·.id = messageId) then
    { ended with
      messages := store.messages.map fun msg =>
        if msg.id = messageId then
          { msg with content := if store.streamingContent = "" then msg.content else store.streamingContent }
        else msg }
  else if store.streamingContent = "" then ended
  else { ended with messages := store.messages ++ [store.assistantMessage messageId uuid now] }

/-- What `loadThread` sets, from the cache and again from the server. -/
def display (threadId : String) (messages : List Message) : ChatState :=
  { store with messages, activeThreadId := some threadId }

/-- The messages that `finishStreaming` appends. -/
def added (messageId uuid now : String) : List Message :=
  (store.finishStreaming messageId uuid now).messages.drop store.messages.length

variable {store}

@[simp] theorem finishStreaming_activeThreadId {messageId uuid now : String} :
    (store.finishStreaming messageId uuid now).activeThreadId = store.activeThreadId := by
  unfold finishStreaming
  dsimp only
  split
  · rfl
  · split <;> rfl

@[simp] theorem finishStreaming_streamingContent {messageId uuid now : String} :
    (store.finishStreaming messageId uuid now).streamingContent = "" := by
  unfold finishStreaming
  dsimp only
  split
  · rfl
  · split <;> rfl

/-- A reply with text that is no message yet is appended as one. -/
def Appends (store : ChatState) (messageId : String) : Prop :=
  store.messages.any (·.id = messageId) = false ∧ store.streamingContent ≠ ""

theorem added_of_appends {messageId uuid now : String} (appends : store.Appends messageId) :
    store.added messageId uuid now = [store.assistantMessage messageId uuid now] := by
  unfold added finishStreaming
  dsimp only
  rw [if_neg (Bool.eq_false_iff.mp appends.1), if_neg appends.2]
  exact List.drop_left

theorem mem_added {messageId uuid now : String} {msg : Message} (mem : msg ∈ store.added messageId uuid now) :
    store.Appends messageId ∧ msg = store.assistantMessage messageId uuid now := by
  unfold added finishStreaming at mem
  dsimp only at mem
  split at mem
  · rw [List.drop_of_length_le (Nat.le_of_eq (List.length_map ..))] at mem
    cases mem
  · rename_i unknown
    split at mem
    · rw [List.drop_length] at mem
      cases mem
    · rename_i text
      rw [List.drop_left, List.mem_singleton] at mem
      exact ⟨⟨Bool.eq_false_iff.mpr unknown, text⟩, mem⟩

theorem finishStreaming_threadId {messageId uuid now : String} {P : String → Prop}
    (every : ∀ msg ∈ store.messages, P msg.threadId) (active : P store.activeThread) :
    ∀ msg ∈ (store.finishStreaming messageId uuid now).messages, P msg.threadId := by
  unfold finishStreaming
  dsimp only
  split
  · intro msg mem
    obtain ⟨old, known, rfl⟩ := List.mem_map.mp mem
    split <;> exact every old known
  · split
    · exact every
    · intro msg mem
      obtain mem | mem := List.mem_append.mp mem
      · exact every msg mem
      · exact List.mem_singleton.mp mem ▸ active

end ChatState

theorem convertLangGraphMessages_threadId {threadId now : String} {msgs : List LangGraphMessage} {msg : Message}
    (mem : msg ∈ convertLangGraphMessages threadId now msgs) : msg.threadId = threadId := by
  obtain ⟨_, _, rfl⟩ := List.mem_map.mp mem
  rfl

/-! ## Calls of `loadThread` on their way -/

inductive LoadStage
  | reading
  | fetching
  deriving DecidableEq, Repr

structure Load where
  id : Nat
  threadId : String
  stage : LoadStage
  deriving DecidableEq, Repr

/-- The store and the loads that wait for the cache or for the server. `served` has the server's replies in the order
of their arrival, the last one first. -/
structure Loads where
  store : ChatState
  pending : List Load
  calls : Nat
  lastCall : Option (Nat × String)
  served : List (Nat × String × List Message)
  failures : Nat

namespace Loads

def initial (store : ChatState) : Loads := ⟨store, [], 0, none, [], 0⟩

variable (m : Loads)

def find (id : Nat) (stage : LoadStage) : Option Load := m.pending.find? fun l => l.id = id ∧ l.stage = stage

def without (id : Nat) : List Load := m.pending.filter (·.id ≠ id)

def loadThread (threadId : String) : Loads :=
  { m with
    pending := ⟨m.calls, threadId, .reading⟩ :: m.pending
    calls := m.calls + 1
    lastCall := some (m.calls, threadId) }

def cacheRead (l : Load) (cached : Option (List Message)) : Loads :=
  { m with
    store := cached.elim m.store (m.store.display l.threadId)
    pending := { l with stage := .fetching } :: m.without l.id }

def serverReply (l : Load) (reply : Reply) (now : String) : Loads :=
  { m with
    store := m.store.display l.threadId (reply.serverMessages l.threadId now)
    pending := m.without l.id
    served := (l.id, l.threadId, reply.serverMessages l.threadId now) :: m.served }

/-- The cache cannot be read, or the request fails: the call rejects and has set nothing more. -/
def fail (l : Load) : Loads := { m with pending := m.without l.id, failures := m.failures + 1 }

inductive Act
  | loadThread (threadId : String)
  | cacheRead (id : Nat) (cached : Option (List Message))
  | serverReply (id : Nat) (reply : Reply) (now : String)
  | fail (id : Nat) (stage : LoadStage)
  deriving DecidableEq, Repr

def step : Act → Option Loads
  | .loadThread threadId => some (m.loadThread threadId)
  | .cacheRead id cached => (m.find id .reading).map fun l => m.cacheRead l cached
  | .serverReply id reply now => (m.find id .fetching).map fun l => m.serverReply l reply now
  | .fail id stage => (m.find id stage).map m.fail

end Loads

end CuckooEcho.Frontend
