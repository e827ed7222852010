import CuckooEcho.Chat.LatestMessage
import CuckooEcho.Chat.Reply

namespace CuckooEcho.Chat
open Lib Json Agent

/-! ## Turns that find their answer in the cache -/

def updatesAfter (node : Node) (updates : List AgentUpdate) : List AgentUpdate :=
  (updates.dropWhile fun u => u.node ≠ node).tail

/-- The turn comes to the retrieval, and the cache has a response for its message. -/
structure HitsCache (t : ChatTurn) (saved : AgentState) (response : String) : Prop where
  routed : ∃ s, preprocessNode t.services (t.payload.merge saved) = some s ∧
    routeDecision (routerNode t.services s) = .rag ∧ cacheHit t.services (routerNode t.services s) = some response

structure AnsweredFromCache (t : ChatTurn) (saved : AgentState) (response : String) : Prop where
  noCompletion : promptsOf (updatesAfter .ragEngine (t.run saved).updates) = []
  reply : (t.run saved).state.llmResponse = response
  received : shown (eventGenerator none true t.counts (t.run saved)) = units response.toList

section
variable {t : ChatTurn} {saved : AgentState} {response : String}

theorem ragEngineNode_of_hit {services : Services} {s : AgentState} (hit : cacheHit services s = some response) :
    ragEngineNode services s = some { s with ragContext := [], sources := [], llmResponse := response } := by
  have asked : ¬ (lastText s.messages = "" ∨ s.tenantId.getD "" = "") := by
    intro blank
    simp [cacheHit, blank] at hit
  have messages : s.messages ≠ [] := fun empty => asked (Or.inl (by rw [empty]; rfl))
  simp [ragEngineNode, messages, asked, hit]

/-- The edge from the retrieval leads to the generation, hit or not. -/
theorem run_of_hit (hits : HitsCache t saved response) :
    ∃ s₁ s₂, t.run saved = answered t.services .ragEngine s₁ s₂
      { s₂ with ragContext := [], sources := [], llmResponse := response } := by
  obtain ⟨s, preprocessed, route, hit⟩ := hits.routed
  have path := turn_path t.services (t.payload.merge saved)
  unfold ChatTurn.run
  generalize turn t.services (t.payload.merge saved) = run at path ⊢
  cases path with
  | preprocessRaised raises => exact absurd (raises.symm.trans preprocessed) (by simp)
  | handedOff before other | toolAnswered before other _ =>
      obtain rfl := Option.some.inj (preprocessed.symm.trans before)
      exact absurd (route.symm.trans other) (by decide)
  | retrievalRaised before _ raises =>
      obtain rfl := Option.some.inj (preprocessed.symm.trans before)
      exact absurd (raises.symm.trans (ragEngineNode_of_hit hit)) (by simp)
  | ragAnswered before _ retrieved =>
      obtain rfl := Option.some.inj (preprocessed.symm.trans before)
      obtain rfl := Option.some.inj (retrieved.symm.trans (ragEngineNode_of_hit hit))
      exact ⟨s, _, rfl⟩

/-- After a hit the model is called all the same, with the conversation and without a reference. -/
theorem prompts_after_hit (hits : HitsCache t saved response) :
    ∃ s, promptsOf (updatesAfter .ragEngine (t.run saved).updates) = [llmMessages t.services s] ∧
      s.ragContext = [] := by
  obtain ⟨s₁, s₂, run⟩ := run_of_hit hits
  refine ⟨{ s₂ with ragContext := [], sources := [], llmResponse := response }, ?_, rfl⟩
  rw [run]
  exact promptsOf_answer t.services _

theorem not_answeredFromCache (hits : HitsCache t saved response) : ¬ AnsweredFromCache t saved response := by
  intro cached
  obtain ⟨s, prompts, -⟩ := prompts_after_hit hits
  exact absurd (prompts.symm.trans cached.noCompletion) (List.cons_ne_nil _ _)

end

/-- The cache knows the question; the model answers in its own words. -/
def cachedDesk : Services :=
  { offline with
    cacheLookup := fun _ _ => some "七天内可退货"
    llm := fun _ _ => ⟨[.ofText "您好"], false⟩ }

def cachedTurn : ChatTurn :=
  { services := cachedDesk, payload := ⟨[userMessage "怎么退货"], some "shop", some "thread"⟩, counts := [] }

theorem cachedTurn_hits : HitsCache cachedTurn emptyThread "七天内可退货" :=
  ⟨_, rfl, by decide +kernel, by decide +kernel⟩

theorem cachedTurn_generates :
    ¬ ∀ (t : ChatTurn) (saved : AgentState) (response : String),
      HitsCache t saved response → AnsweredFromCache t saved response := by
  intro claim
  obtain ⟨s, prompts, -⟩ := prompts_after_hit cachedTurn_hits
  exact absurd (prompts.symm.trans (claim _ _ _ cachedTurn_hits).noCompletion) (List.cons_ne_nil _ _)

theorem not_answeredFromCache_cachedTurn : ¬ AnsweredFromCache cachedTurn emptyThread "七天内可退货" :=
  not_answeredFromCache cachedTurn_hits

end CuckooEcho.Chat
