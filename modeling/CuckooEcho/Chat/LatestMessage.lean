import CuckooEcho.Agent.Compression
import CuckooEcho.Chat.Context

namespace CuckooEcho.Chat
open Lib Agent

/-! ## What is sent to the model -/

def completionsOf (effects : List Effect) : List (List LlmMessage) :=
  effects.filterMap fun | .completion messages => some messages | _ => none

def promptsOf (updates : List AgentUpdate) : List (List LlmMessage) := updates.flatMap fun u => completionsOf u.effects

theorem mem_completionsOf {effects : List Effect} {messages : List LlmMessage} :
    messages ∈ completionsOf effects ↔ .completion messages ∈ effects := by
  unfold completionsOf
  rw [List.mem_filterMap]
  constructor
  · rintro ⟨effect, here, eq⟩
    cases effect with
    | completion sent =>
        obtain rfl := Option.some.inj eq
        exact here
    | token text => cases eq
    | cacheStore query response tenantId => cases eq
    | notifyHitlRequest tenantId threadId reason => cases eq
  · exact fun here => ⟨_, here, rfl⟩

theorem completionsOf_append (before after : List Effect) :
    completionsOf (before ++ after) = completionsOf before ++ completionsOf after := List.filterMap_append

section
variable (services : Services) (s : AgentState)

theorem completionsOf_cacheStore (response : String) : completionsOf (cacheStore s response) = [] := by
  unfold cacheStore
  split <;> rfl

theorem completionsOf_generate : completionsOf (llmGenerateNode services s).2 = [llmMessages services s] := by
  have streamed : completionsOf (.completion (llmMessages services s) :: (tokensOf (replyOf services s)).map .token) =
      [llmMessages services s] := by
    simp [completionsOf, List.filterMap_map]
  unfold llmGenerateNode
  dsimp only
  split
  · exact streamed
  · split
    · rw [completionsOf_append, streamed, completionsOf_cacheStore, List.append_nil]
    · rw [completionsOf_append, streamed, completionsOf_cacheStore, List.append_nil]

theorem promptsOf_answer : promptsOf (answer services s).updates = [llmMessages services s] := by
  obtain ⟨last, -, silent, eq⟩ := answer_updates services s
  have none : completionsOf last.effects = [] := by
    rw [List.eq_nil_iff_forall_not_mem]
    exact fun messages here => silent messages (mem_completionsOf.mp here)
  rw [eq, promptsOf, List.flatMap_cons, List.flatMap_cons, List.flatMap_singleton, completionsOf_generate, none]
  rfl

theorem promptsOf_answered (node : Node) (s₁ s₂ : AgentState) :
    promptsOf (answered services node s₁ s₂ s).updates = [llmMessages services s] :=
  promptsOf_answer services s

/-! ## The end of the prompt -/

theorem last_llmMessages {earlier : List Message} {m : Message} (eq : s.messages = earlier ++ [m]) :
    (llmMessages services s).getLast? = some (historyMessage m) := by
  have window : s.messages.drop (s.messages.length - 10) = earlier.drop (earlier.length + 1 - 10) ++ [m] := by
    rw [eq, List.length_append, List.length_singleton, List.drop_append_of_le_length (by omega)]
  rw [llmMessages, window, List.map_append, ← List.append_assoc]
  exact List.getLast?_concat

theorem llmMessages_of_empty (empty : s.messages = []) :
    ∀ m ∈ llmMessages services s, m.role = "system" := by
  intro m here
  rw [llmMessages, empty, List.drop_nil, List.map_nil, List.append_nil] at here
  rcases List.mem_cons.mp here with rfl | tool
  · unfold contextMessage
    split <;> rfl
  · unfold toolMessage at tool
    split at tool
    · cases tool
    · obtain rfl := List.mem_singleton.mp tool
      rfl

end

/-! ## The customer's message in the prompt -/

def ModelSees (run : AgentRun) (text : String) : Prop :=
  ∃ prompt, promptsOf run.updates = [prompt] ∧ prompt.getLast? = some ⟨"user", text⟩

section
variable {services : Services} {s s₁ s₂ s₃ : AgentState} {earlier : List Message} {text : String}

theorem preprocessNode_of_not_compresses (last : s.messages = earlier ++ [userMessage text])
    (short : ¬ Compresses services s) : preprocessNode services s = some s := by
  have spoken : s.messages.getLast? = some (userMessage text) := by rw [last, List.getLast?_concat]
  unfold preprocessNode
  rw [compressed_of_not_compresses short]
  simp [spoken, userMessage, handleMediaItems]

/-- Between the preprocessing and the prompt nothing touches the messages. -/
theorem modelSees_answered_iff (node : Node) (last : s.messages = earlier ++ [userMessage text])
    (preprocessed : preprocessNode services s = some s₁) (same : s₃.messages = s₁.messages) :
    ModelSees (answered services node s₁ s₂ s₃) text ↔ ¬ Compresses services s := by
  unfold ModelSees
  rw [promptsOf_answered]
  constructor
  · rintro ⟨prompt, eq, ends⟩ ⟨wired, long⟩
    obtain ⟨complete, wired⟩ := Option.isSome_iff_exists.mp wired
    obtain rfl := Option.some.inj ((preprocessNode_compresses wired long).symm.trans preprocessed)
    obtain rfl := List.singleton_inj.mp eq
    have role := llmMessages_of_empty services s₃ same _ (List.mem_of_getLast? ends)
    exact absurd role (by simp)
  · intro short
    obtain rfl := Option.some.inj ((preprocessNode_of_not_compresses last short).symm.trans preprocessed)
    exact ⟨_, rfl, last_llmMessages services s₃ (same.trans last)⟩

theorem modelSees_iff (last : s.messages = earlier ++ [userMessage text])
    (reached : Reaches (turn services s) .llmGenerate) :
    ModelSees (turn services s) text ↔ ¬ Compresses services s := by
  have path := turn_path services s
  generalize turn services s = run at path reached
  obtain ⟨u, here, generated⟩ := reached
  cases path with
  | preprocessRaised raises => cases here
  | handedOff preprocessed route =>
      simp only [List.mem_cons, List.not_mem_nil, or_false] at here
      rcases here with rfl | rfl | rfl <;> cases generated
  | @toolAnswered s₁ s₃ preprocessed route executed =>
      obtain ⟨toolCalls, llmResponse, eq, -⟩ := toolExecutorNode_writes services (routerNode services s₁)
      have same : s₃.messages = s₁.messages := by rw [← executed, eq, routerNode_eq]
      exact modelSees_answered_iff .toolExecutor last preprocessed same
  | retrievalRaised preprocessed route raises =>
      simp only [List.mem_cons, List.not_mem_nil, or_false] at here
      rcases here with rfl | rfl <;> cases generated
  | @ragAnswered s₁ s₃ preprocessed route retrieved =>
      obtain ⟨ragContext, sources, userIntent, eq⟩ := ragEngineNode_writes retrieved
      have same : s₃.messages = s₁.messages := by rw [eq, routerNode_eq]
      exact modelSees_answered_iff .ragEngine last preprocessed same

end

def summarising : Services := { offline with llmSummarizer := some fun _ => ⟨[.ofText "用户多次询问退款"], false⟩ }

def refundQuestion (earlier : Nat) : AgentState :=
  { tenantId := some "shop", messages := List.replicate earlier (userMessage "在吗") ++ [userMessage "退货怎么办"] }

/-- The fiftieth message is summarised with the others, and the model is called without it. -/
theorem refundQuestion_lost :
    ¬ ∀ (services : Services) (s : AgentState) (earlier : List Message) (text : String),
      s.messages = earlier ++ [userMessage text] → text ≠ "" → Reaches (turn services s) .llmGenerate →
      ModelSees (turn services s) text := by
  intro claim
  have long : Compresses summarising (refundQuestion 49) := by
    refine ⟨rfl, ?_⟩
    rw [refundQuestion, List.length_append, List.length_replicate]
    decide
  have reached : Reaches (turn summarising (refundQuestion 49)) .llmGenerate := by
    unfold Reaches
    decide +kernel
  exact (modelSees_iff rfl reached).mp (claim _ _ _ _ rfl (by decide) reached) long

theorem modelSees_iff_refundQuestion :
    ModelSees (turn summarising (refundQuestion 1)) "退货怎么办" ↔ ¬ Compresses summarising (refundQuestion 1) := by
  have reached : Reaches (turn summarising (refundQuestion 1)) .llmGenerate := by
    unfold Reaches
    decide +kernel
  exact modelSees_iff rfl reached

end CuckooEcho.Chat
