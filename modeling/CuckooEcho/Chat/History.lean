import CuckooEcho.Chat.Stream
import CuckooEcho.Lib.Run

namespace CuckooEcho.Chat
open Lib Agent

/-! ## The thread history -/

/-- What `GET /v1/threads/{id}` returns for a caller that is no signed-in user; `none` where nothing was
saved for the thread yet. -/
def getThreadHistory (checkpoint : Option AgentState) : List Message :=
  match checkpoint with
  | none => []
  | some state => state.messages

def nextCheckpoint (checkpoint : Option AgentState) (t : ChatTurn) : Option AgentState :=
  nextTurn (checkpoint.getD emptyThread) t

def checkpointAfter : Option AgentState → List ChatTurn → Option AgentState
  | checkpoint, [] => checkpoint
  | checkpoint, t :: turns => checkpointAfter (nextCheckpoint checkpoint t) turns

def replyMessage (text : String) : Message := { role := some "assistant", content := some text, media := [] }

/-- What was said in the turns: the messages submitted and the reply that the state ends with. -/
def transcript : Option AgentState → List ChatTurn → List Message
  | _, [] => []
  | checkpoint, t :: turns =>
      t.payload.messages ++ [replyMessage (t.run (checkpoint.getD emptyThread)).state.llmResponse] ++
        transcript (nextCheckpoint checkpoint t) turns

def Completed : Option AgentState → List ChatTurn → Prop
  | _, [] => True
  | checkpoint, t :: turns =>
      (t.run (checkpoint.getD emptyThread)).outcome = .finished ∧ Completed (nextCheckpoint checkpoint t) turns

/-! ## No node adds a message -/

theorem preprocessNode_length {services : Services} {s t : AgentState} (h : preprocessNode services s = some t) :
    t.messages.length ≤ s.messages.length := by
  have short : (compressed services s).messages.length ≤ s.messages.length := by
    unfold compressed
    split
    · split
      · exact Nat.zero_le _
      · exact Nat.le_refl _
    · exact Nat.le_refl _
  unfold preprocessNode at h
  cases last : (compressed services s).messages.getLast? with
  | none =>
      simp only [last, Option.some.injEq] at h
      exact h ▸ short
  | some lastMsg =>
      simp only [last] at h
      obtain ⟨pass, -, rfl⟩ := Option.map_eq_some_iff.mp h
      have nonempty : (compressed services s).messages ≠ [] := by
        intro empty
        simp [empty] at last
      have positive := List.length_pos_iff.mpr nonempty
      by_cases media : lastMsg.media = []
      · simpa [media] using short
      · simp only [media, ↓reduceIte, List.length_append, List.length_dropLast, List.length_singleton]
        omega

theorem runNode_length {services : Services} {node : Node} {s t : AgentState} {effects : List Effect}
    (h : runNode services node s = some (t, effects)) : t.messages.length ≤ s.messages.length := by
  cases node with
  | preprocess =>
      obtain ⟨after, preprocessed, eq⟩ := Option.map_eq_some_iff.mp h
      rw [← (Prod.mk.inj eq).1]
      exact preprocessNode_length preprocessed
  | router =>
      rw [← (Prod.mk.inj (Option.some.inj h)).1, routerNode_eq]
  | ragEngine =>
      obtain ⟨after, retrieved, eq⟩ := Option.map_eq_some_iff.mp h
      obtain ⟨ragContext, sources, userIntent, written⟩ := ragEngineNode_writes retrieved
      rw [← (Prod.mk.inj eq).1, written]
  | toolExecutor =>
      obtain ⟨toolCalls, llmResponse, written, -⟩ := toolExecutorNode_writes services s
      rw [← (Prod.mk.inj (Option.some.inj h)).1, written]
  | llmGenerate =>
      obtain ⟨llmResponse, tokensUsed, citations, written⟩ := llmGenerateNode_writes services s
      rw [← show (llmGenerateNode services s).1 = t from (congrArg Prod.fst (Option.some.inj h)), written]
  | guardrails =>
      rw [← (Prod.mk.inj (Option.some.inj h)).1, guardrailsNode]
      split <;> exact Nat.le_refl _
  | postprocess =>
      rw [← (Prod.mk.inj (Option.some.inj h)).1, postprocessNode]
      split <;> exact Nat.le_refl _
  | hitl =>
      rw [← (Prod.mk.inj (Option.some.inj h)).1]

theorem turn_length (services : Services) (s : AgentState) :
    (turn services s).state.messages.length ≤ s.messages.length := by
  have keep (node : Node) (s' t : AgentState) (effects : List Effect)
      (bound : s'.messages.length ≤ s.messages.length)
      (h : (agentGraph services).node node s' = some (t, effects)) : t.messages.length ≤ s.messages.length :=
    (runNode_length h).trans bound
  exact (StateGraph.runFrom_invariant (P := fun t : AgentState => t.messages.length ≤ s.messages.length)
    keep (Nat.le_refl _)).2

/-! ## The history is complete for a thread without turns only -/

theorem history_length_le (checkpoint : Option AgentState) (t : ChatTurn) (turns : List ChatTurn)
    (single : ∀ t' ∈ t :: turns, ∃ u, t'.payload.messages = [u]) :
    (getThreadHistory (checkpointAfter checkpoint (t :: turns))).length ≤ 1 := by
  induction turns generalizing checkpoint t with
  | nil =>
      obtain ⟨u, sent⟩ := single t List.mem_cons_self
      have bound := turn_length t.services (t.payload.merge (checkpoint.getD emptyThread))
      have one : (t.payload.merge (checkpoint.getD emptyThread)).messages.length = 1 := by
        simp [Payload.merge, sent]
      exact bound.trans one.le
  | cons next turns ih =>
      exact ih (nextCheckpoint checkpoint t) next (fun t' here => single t' (List.mem_cons_of_mem _ here))

theorem transcript_length (checkpoint : Option AgentState) (turns : List ChatTurn)
    (single : ∀ t ∈ turns, ∃ u, t.payload.messages = [u]) :
    (transcript checkpoint turns).length = 2 * turns.length := by
  induction turns generalizing checkpoint with
  | nil => rfl
  | cons t turns ih =>
      obtain ⟨⟨u, sent⟩, later⟩ := List.forall_mem_cons.mp single
      rw [transcript, sent, List.length_append, ih _ later]
      simp only [List.length_append, List.length_cons, List.length_nil]
      omega

/-- After turns that submit one message each, the history is what was said exactly when there
was no turn: the reply is never saved, and the next message takes the place of the last. -/
theorem history_eq_transcript_iff (turns : List ChatTurn)
    (single : ∀ t ∈ turns, ∃ u, t.payload.messages = [u]) :
    getThreadHistory (checkpointAfter none turns) = transcript none turns ↔ turns = [] := by
  constructor
  · intro same
    cases turns with
    | nil => rfl
    | cons t turns =>
        have short := history_length_le none t turns single
        have long := transcript_length none (t :: turns) single
        rw [same, long, List.length_cons] at short
        omega
  · rintro rfl
    rfl

def greeting : ChatTurn :=
  { services := { offline with llm := fun _ _ => ⟨[.ofText "您好"], false⟩ }
    payload := ⟨[userMessage "你好"], some "tenant", some "thread"⟩
    counts := [] }

theorem greeting_incomplete : ¬ ∀ turns : List ChatTurn, (∀ t ∈ turns, ∃ u, t.payload.messages = [u]) →
    Completed none turns → getThreadHistory (checkpointAfter none turns) = transcript none turns := by
  intro claim
  have completed : (greeting.run emptyThread).outcome = .finished := by decide +kernel
  have said := claim [greeting] (by simp [greeting]) ⟨completed, trivial⟩
  have lost : getThreadHistory (checkpointAfter none [greeting]) = [userMessage "你好"] := by decide +kernel
  have spoken : transcript none [greeting] = [userMessage "你好", replyMessage "您好"] := by decide +kernel
  rw [lost, spoken] at said
  exact absurd said (by decide)

theorem history_eq_transcript_iff_greeting :
    getThreadHistory (checkpointAfter none [greeting]) = transcript none [greeting] ↔ [greeting] = [] :=
  history_eq_transcript_iff [greeting] (by simp [greeting])

end CuckooEcho.Chat
