import CuckooEcho.Agent.Graph

namespace CuckooEcho.Agent
open Lib

/-! ## States that differ in what is private to a conversation -/

/-- The services may answer differently for the media and the tools of the conversation. -/
inductive SamePublic (services : Services) : Services → Prop
  | mk (asrClient : Option (String → Option String)) (ossClient : Option (String → Option String))
      (visionClient : Option (String → String → Option String))
      (orderService : Option (String → List (String × String) → String → ToolOutcome)) :
      SamePublic services { services with asrClient, ossClient, visionClient, orderService }

/-- The states differ in the messages, the media, the tool calls and what was made of them. -/
structure Agree (s t : AgentState) : Prop where
  threadId : s.threadId = t.threadId
  tenantId : s.tenantId = t.tenantId
  userIntent : s.userIntent = t.userIntent
  ragContext : s.ragContext = t.ragContext
  sources : s.sources = t.sources
  hitlRequested : s.hitlRequested = t.hitlRequested
  guardrailsPassed : s.guardrailsPassed = t.guardrailsPassed
  unresolvedTurns : s.unresolvedTurns = t.unresolvedTurns

theorem Agree.refl (s : AgentState) : Agree s s := ⟨rfl, rfl, rfl, rfl, rfl, rfl, rfl, rfl⟩

def queried (messages : List Message) : Option LlmMessage := messages.getLast?.map historyMessage

def queryOf (services : Services) (messages : List Message) : Option (Option LlmMessage) :=
  (preprocessNode services { messages }).map fun s => queried s.messages

theorem lastText_eq_queried (messages : List Message) :
    lastText messages = ((queried messages).map (·.content)).getD "" := by
  unfold lastText queried
  rw [Option.map_map]
  rfl

theorem eq_nil_iff_queried (messages : List Message) : messages = [] ↔ queried messages = none := by
  simp [queried]

section
variable {services : Services} {s t : AgentState}

theorem Agree.merge (agree : Agree s t) {payload payload' : Payload}
    (tenantId : payload.tenantId = payload'.tenantId) (threadId : payload.threadId = payload'.threadId) :
    Agree (payload.merge s) (payload'.merge t) := by
  refine ⟨?_, ?_, agree.userIntent, agree.ragContext, agree.sources, agree.hitlRequested, agree.guardrailsPassed,
    agree.unresolvedTurns⟩
  · simp only [Payload.merge, threadId, agree.threadId]
  · simp only [Payload.merge, tenantId, agree.tenantId]

theorem queried_congr (same : queried s.messages = queried t.messages) :
    lastText s.messages = lastText t.messages ∧ (s.messages = [] ↔ t.messages = []) := by
  rw [lastText_eq_queried, lastText_eq_queried, eq_nil_iff_queried, eq_nil_iff_queried, same]
  exact ⟨rfl, Iff.rfl⟩

/-! ## Preprocessing -/

def MediaPass.after (urls : List MediaUrl) (pass : MediaPass) : MediaPass :=
  { pass with mediaUrls := urls ++ pass.mediaUrls }

theorem handleMedia_after (pass : MediaPass) (urls : List MediaUrl) (item : Media) :
    handleMedia services (pass.after urls) item = (handleMedia services pass item).map (MediaPass.after urls) := by
  unfold handleMedia
  by_cases audio : item.type = "audio" ∧ services.asrClient.isSome
  · simp only [audio, and_self, ↓reduceIte]
    split
    · split <;> simp [MediaPass.after]
    · rfl
  · simp only [audio, ↓reduceIte]
    split
    · cases item.ossUrl with
      | none => rfl
      | some url =>
          dsimp only
          cases services.ossClient.elim (some url) fun sign => sign url with
          | none => rfl
          | some signed => simp [MediaPass.after]
    · rfl

/-- The media urls that are there have no part in what becomes of the last message. -/
theorem handleMediaItems_after (services : Services) (pass : MediaPass) (urls : List MediaUrl)
    (items : List Media) :
    handleMediaItems services (pass.after urls) items =
      (handleMediaItems services pass items).map (MediaPass.after urls) := by
  induction items generalizing pass with
  | nil => rfl
  | cons item items ih =>
      simp only [handleMediaItems, handleMedia_after]
      cases handleMedia services pass item with
      | none => rfl
      | some pass => exact ih pass

theorem queried_preprocess : (preprocessNode services s).map (fun after => queried after.messages) =
    queryOf services s.messages := by
  have same : (compressed services s).messages = (compressed services { messages := s.messages }).messages := by
    unfold compressed
    cases services.llmSummarizer with
    | none => rfl
    | some complete => dsimp only; split <;> rfl
  have fresh : (compressed services { messages := s.messages }).mediaUrls = [] := by
    unfold compressed
    cases services.llmSummarizer with
    | none => rfl
    | some complete => dsimp only; split <;> rfl
  unfold queryOf preprocessNode
  simp only [same, fresh]
  cases last : (compressed services { messages := s.messages }).messages.getLast? with
  | none => simp [same]
  | some lastMsg =>
      have passed := handleMediaItems_after services ⟨lastMsg, [], []⟩ (compressed services s).mediaUrls
        lastMsg.media
      simp only [MediaPass.after, List.append_nil] at passed
      simp only [passed, Option.map_map]
      rfl

theorem queryOf_cacheLookup (cacheLookup : String → String → Option String) (messages : List Message) :
    queryOf { services with cacheLookup } messages = queryOf services messages := by
  have media (pass : MediaPass) (items : List Media) :
      handleMediaItems { services with cacheLookup } pass items = handleMediaItems services pass items := by
    induction items generalizing pass with
    | nil => rfl
    | cons item items ih =>
        have first : handleMedia { services with cacheLookup } pass item = handleMedia services pass item := rfl
        simp only [handleMediaItems, first, ih]
  unfold queryOf preprocessNode
  simp only [media]
  rfl

/-! ## Routing and retrieval -/

theorem routerNode_congr (services : Services) (agree : Agree s t)
    (same : queried s.messages = queried t.messages) :
    (routerNode services s).userIntent = (routerNode services t).userIntent ∧
      (routerNode services s).hitlRequested = (routerNode services t).hitlRequested := by
  obtain ⟨text, empty⟩ := queried_congr same
  have sentiment : detectNegativeSentiment s = detectNegativeSentiment t := by
    simp only [detectNegativeSentiment, agree.unresolvedTurns, text, ne_eq, empty]
  have flag := agree.hitlRequested
  unfold routerNode
  simp only [text, empty, sentiment]
  split
  · exact ⟨rfl, flag⟩
  · cases ruleHit (lastText t.messages) with
    | some tool => exact ⟨rfl, flag⟩
    | none =>
        dsimp only
        split
        · exact ⟨rfl, rfl⟩
        · split
          · exact ⟨rfl, rfl⟩
          · split
            · exact ⟨rfl, rfl⟩
            · exact ⟨rfl, flag⟩

theorem cacheHit_congr (services : Services) (agree : Agree s t)
    (same : queried s.messages = queried t.messages) :
    cacheHit services s = cacheHit services t := by
  simp only [cacheHit, (queried_congr same).1, agree.tenantId]

theorem retrieve_congr (query tenantId : String) (agree : s.userIntent = t.userIntent) :
    retrieve services query tenantId s = (retrieve services query tenantId t).map fun after =>
      { s with ragContext := after.ragContext, sources := after.sources, userIntent := after.userIntent } := by
  unfold retrieve
  split
  · rfl
  · split
    · rfl
    · rfl
    · rfl
    · rename_i hits _ _ _
      cases getActiveDocIds services (hits.map Hit.document) tenantId with
      | none => rfl
      | some active =>
          cases found : chunksWithSources active hits with
          | none => simp [found]
          | some chunks =>
              by_cases empty : chunks = []
              · simp [found, empty, noAnswer]
              · cases reranked : rerankChunks services query chunks with
                | none => simp [found, empty, reranked]
                | some top => simp [found, empty, reranked, agree]

theorem ragEngineNode_congr (services : Services) (agree : Agree s t)
    (same : queried s.messages = queried t.messages) :
    ragEngineNode services s = (ragEngineNode services t).map fun after =>
      { s with
        ragContext := after.ragContext
        sources := after.sources
        userIntent := after.userIntent
        llmResponse := (cacheHit services s).getD s.llmResponse } := by
  obtain ⟨text, empty⟩ := queried_congr same
  have hit := cacheHit_congr services agree same
  have tenant : s.tenantId.getD "" = t.tenantId.getD "" := by rw [agree.tenantId]
  unfold ragEngineNode
  simp only [text, empty, tenant, hit]
  by_cases silent : t.messages = []
  · have noHit : cacheHit services t = none := by simp [cacheHit, lastText, silent]
    simp [silent, noHit, noAnswer]
  · by_cases blank : lastText t.messages = "" ∨ t.tenantId.getD "" = ""
    · have noHit : cacheHit services t = none := by simp [cacheHit, blank]
      simp [silent, blank, noHit, noAnswer]
    · simp only [silent, blank, ↓reduceIte]
      cases cacheHit services t with
      | some cached => simp [agree.userIntent]
      | none => exact retrieve_congr _ _ agree.userIntent

/-! ## Generation and guardrails -/

def Effect.isStore : Effect → Bool
  | .cacheStore _ _ _ => true
  | _ => false

/-- A prompt with reference information has nothing of the conversation but the query. -/
def PromptIsQuery (s : AgentState) : Prop := s.ragContext ≠ [] → s.toolCalls = [] ∧ s.messages.length ≤ 1

instance (s : AgentState) : Decidable (PromptIsQuery s) :=
  inferInstanceAs (Decidable (s.ragContext ≠ [] → s.toolCalls = [] ∧ s.messages.length ≤ 1))

theorem llmMessages_eq_queried (called : s.toolCalls = []) (single : s.messages.length ≤ 1) :
    llmMessages services s = contextMessage s :: (queried s.messages).toList := by
  have window : s.messages.drop (s.messages.length - 10) = s.messages := by
    rw [show s.messages.length - 10 = 0 by omega, List.drop_zero]
  unfold llmMessages toolMessage queried
  rw [called, window]
  match s.messages, single with
  | [], _ => rfl
  | [m], _ => rfl
  | _ :: _ :: _, long => exact absurd long (by simp)

theorem replyOf_congr (services : Services) (agree : Agree s t)
    (same : queried s.messages = queried t.messages) (some : s.ragContext ≠ [])
    (own : PromptIsQuery s) (own' : PromptIsQuery t) : replyOf services s = replyOf services t := by
  obtain ⟨called, single⟩ := own some
  obtain ⟨called', single'⟩ := own' (agree.ragContext ▸ some)
  unfold replyOf
  rw [llmMessages_eq_queried called single, llmMessages_eq_queried called' single', same,
    agree.threadId, contextMessage, contextMessage, agree.ragContext, agree.sources]

theorem stored_hitl (services : Services) (s : AgentState) :
    (hitlNode services s).2.filter Effect.isStore = [] := by
  unfold hitlNode
  dsimp only
  split <;> rfl

theorem stored_of_ne {n : Node} {effects : List Effect} (returned : runNode services n s = some (t, effects))
    (other : n ≠ .llmGenerate) : effects.filter Effect.isStore = [] := by
  cases n with
  | llmGenerate => exact absurd rfl other
  | hitl =>
      obtain rfl : (hitlNode services s).2 = effects := congrArg Prod.snd (Option.some.inj returned)
      exact stored_hitl services s
  | router | toolExecutor | guardrails | postprocess =>
      obtain rfl : [] = effects := congrArg Prod.snd (Option.some.inj returned)
      rfl
  | preprocess | ragEngine =>
      obtain ⟨after, -, same⟩ := Option.map_eq_some_iff.mp returned
      obtain rfl : [] = effects := congrArg Prod.snd same
      rfl

theorem stored_generate (services : Services) (s : AgentState) :
    (llmGenerateNode services s).2.filter Effect.isStore =
      if (replyOf services s).raises then [] else cacheStore s (fullResponse (replyOf services s)) := by
  have streamed : (Effect.completion (llmMessages services s) ::
      (tokensOf (replyOf services s)).map .token).filter Effect.isStore = [] := by
    simp [Effect.isStore, List.filter_map, Function.comp_def]
  have kept (response : String) : (cacheStore s response).filter Effect.isStore = cacheStore s response := by
    unfold cacheStore
    split <;> rfl
  unfold llmGenerateNode
  dsimp only
  split
  · exact streamed
  · split <;> rw [List.filter_append, streamed, kept, List.nil_append]

theorem llmGenerateNode_congr (services : Services) (agree : Agree s t)
    (same : queried s.messages = queried t.messages) (own : PromptIsQuery s) (own' : PromptIsQuery t) :
    (llmGenerateNode services s).2.filter Effect.isStore = (llmGenerateNode services t).2.filter Effect.isStore ∧
      (s.ragContext ≠ [] →
        (llmGenerateNode services s).1.llmResponse = (llmGenerateNode services t).1.llmResponse) := by
  rw [stored_generate, stored_generate, llmGenerateNode_response, llmGenerateNode_response]
  by_cases empty : s.ragContext = []
  · have nothing (response : String) : cacheStore s response = [] ∧ cacheStore t response = [] := by
      simp [cacheStore, empty, ← agree.ragContext]
    exact ⟨by simp [nothing], fun some => absurd empty some⟩
  · have reply := replyOf_congr services agree same empty own own'
    have text := (queried_congr same).1
    simp [reply, generationFails, cacheStore, agree.sources, agree.ragContext, agree.tenantId, text]

theorem rejects_congr (services : Services) (agree : Agree s t)
    (response : s.ragContext ≠ [] → s.llmResponse = t.llmResponse) :
    rejects services s = rejects services t := by
  unfold rejects
  rw [← agree.ragContext]
  by_cases empty : s.ragContext = []
  · simp [empty]
  · rw [response empty]

end

/-! ## One node on two conversations -/

/-- What two states agree on besides when the node is called with them. -/
def Ready (services services' : Services) : Node → AgentState → AgentState → Prop
  | .preprocess, s, t => queryOf services s.messages = queryOf services' t.messages
  | .guardrails, s, t => s.ragContext ≠ [] → s.llmResponse = t.llmResponse
  | .router, s, t | .ragEngine, s, t | .toolExecutor, s, t | .llmGenerate, s, t =>
      queried s.messages = queried t.messages
  | .postprocess, _, _ | .hitl, _, _ => True

structure AgreeAfter (services services' : Services) (n : Node) (p q : AgentState × List Effect) : Prop where
  agree : Agree p.1 q.1
  stored : p.2.filter Effect.isStore = q.2.filter Effect.isStore
  next : edge n p.1 = edge n q.1
  ready : ∀ m ∈ edge n p.1, Ready services services' m p.1 q.1

section
variable {services services' : Services} {s t : AgentState}

theorem Ready.refl (services : Services) (n : Node) (s : AgentState) : Ready services services n s s := by
  cases n with
  | guardrails => exact fun _ => rfl
  | postprocess | hitl => trivial
  | preprocess | router | ragEngine | toolExecutor | llmGenerate => rfl

/-- Only preprocessing and the tools ask the services that are the conversation's own. -/
theorem runNode_public (same : SamePublic services services') {n : Node}
    (shared : n ≠ .preprocess ∧ n ≠ .toolExecutor) (t : AgentState) :
    runNode services' n t = runNode services n t := by
  cases same with
  | mk asrClient ossClient visionClient orderService =>
      cases n with
      | preprocess => exact absurd rfl shared.1
      | toolExecutor => exact absurd rfl shared.2
      | router | ragEngine | llmGenerate | guardrails | postprocess | hitl => rfl

theorem AgreeAfter.onto {n m : Node} {p q : AgentState × List Effect} (agree : Agree p.1 q.1)
    (stored : p.2.filter Effect.isStore = q.2.filter Effect.isStore) (left : edge n p.1 = some m)
    (right : edge n q.1 = some m) (ready : Ready services services' m p.1 q.1) :
    AgreeAfter services services' n p q where
  agree
  stored
  next := left.trans right.symm
  ready other next := by
    obtain rfl := Option.some.inj (left.symm.trans next)
    exact ready

theorem preprocess_agree (agree : Agree s t) (ready : Ready services services' .preprocess s t) :
    Option.Rel (AgreeAfter services services' .preprocess) (runNode services .preprocess s)
      (runNode services' .preprocess t) := by
  have ready : queryOf services s.messages = queryOf services' t.messages := ready
  rw [← queried_preprocess, ← queried_preprocess] at ready
  simp only [runNode]
  cases left : preprocessNode services s with
  | none =>
      cases right : preprocessNode services' t with
      | none => exact .none
      | some t' => simp [left, right] at ready
  | some s' =>
      cases right : preprocessNode services' t with
      | none => simp [left, right] at ready
      | some t' =>
          simp only [left, right, Option.map_some, Option.some.injEq] at ready
          obtain ⟨_, _, _, rfl⟩ := preprocessNode_writes left
          obtain ⟨_, _, _, rfl⟩ := preprocessNode_writes right
          exact .some (.onto ⟨agree.threadId, agree.tenantId, agree.userIntent, agree.ragContext, agree.sources,
            agree.hitlRequested, agree.guardrailsPassed, agree.unresolvedTurns⟩ rfl rfl rfl ready)

theorem toolExecutor_agree (agree : Agree s t) (ready : Ready services services' .toolExecutor s t) :
    Option.Rel (AgreeAfter services services' .toolExecutor) (runNode services .toolExecutor s)
      (runNode services' .toolExecutor t) := by
  obtain ⟨_, _, left, -⟩ := toolExecutorNode_writes services s
  obtain ⟨_, _, right, -⟩ := toolExecutorNode_writes services' t
  simp only [runNode]
  rw [left, right]
  exact .some (.onto ⟨agree.threadId, agree.tenantId, agree.userIntent, agree.ragContext, agree.sources,
    agree.hitlRequested, agree.guardrailsPassed, agree.unresolvedTurns⟩ rfl rfl rfl ready)

theorem router_agree (agree : Agree s t) (ready : Ready services services' .router s t) :
    Option.Rel (AgreeAfter services services' .router) (runNode services .router s)
      (runNode services .router t) := by
  obtain ⟨intent, flag⟩ := routerNode_congr services agree ready
  have route : routeDecision (routerNode services s) = routeDecision (routerNode services t) := by
    simp only [routeDecision, intent, flag]
  have edges : edge .router (routerNode services s) = edge .router (routerNode services t) := by
    simp only [edge, route]
  have kept : (routerNode services s).messages = s.messages ∧ (routerNode services t).messages = t.messages := by
    rw [routerNode_eq, routerNode_eq]
    exact ⟨rfl, rfl⟩
  refine .some ⟨?_, rfl, edges, fun m next => ?_⟩
  · rw [routerNode_eq, routerNode_eq] at intent flag ⊢
    exact ⟨agree.threadId, agree.tenantId, intent, agree.ragContext, agree.sources, flag, agree.guardrailsPassed,
      agree.unresolvedTurns⟩
  · have same : queried (routerNode services s).messages = queried (routerNode services t).messages := by
      rw [kept.1, kept.2]
      exact ready
    simp only [edge, Option.mem_def] at next
    split at next
    all_goals
      obtain rfl := Option.some.inj next
      first | exact same | trivial

theorem ragEngine_agree (agree : Agree s t) (ready : Ready services services' .ragEngine s t) :
    Option.Rel (AgreeAfter services services' .ragEngine) (runNode services .ragEngine s)
      (runNode services .ragEngine t) := by
  have same := ragEngineNode_congr services agree ready
  simp only [runNode]
  rw [same]
  cases retrieved : ragEngineNode services t with
  | none => exact .none
  | some after =>
      obtain ⟨_, _, _, rfl⟩ := ragEngineNode_writes retrieved
      exact .some (.onto ⟨agree.threadId, agree.tenantId, rfl, rfl, rfl, agree.hitlRequested, agree.guardrailsPassed,
        agree.unresolvedTurns⟩ rfl rfl rfl ready)

theorem llmGenerate_agree (agree : Agree s t) (ready : Ready services services' .llmGenerate s t)
    (own : PromptIsQuery s) (own' : PromptIsQuery t) :
    Option.Rel (AgreeAfter services services' .llmGenerate) (runNode services .llmGenerate s)
      (runNode services .llmGenerate t) := by
  obtain ⟨stored, response⟩ := llmGenerateNode_congr services agree ready own own'
  obtain ⟨_, _, _, left⟩ := llmGenerateNode_writes services s
  obtain ⟨_, _, _, right⟩ := llmGenerateNode_writes services t
  refine .some (.onto ?_ stored rfl rfl fun some => ?_)
  · rw [left, right]
    exact ⟨agree.threadId, agree.tenantId, agree.userIntent, agree.ragContext, agree.sources, agree.hitlRequested,
      rfl, agree.unresolvedTurns⟩
  · rw [left] at some
    exact response some

theorem guardrails_agree (agree : Agree s t) (ready : Ready services services' .guardrails s t) :
    Option.Rel (AgreeAfter services services' .guardrails) (runNode services .guardrails s)
      (runNode services .guardrails t) := by
  have verdict := rejects_congr services agree ready
  have after : Agree (guardrailsNode services s) (guardrailsNode services t) := by
    unfold guardrailsNode
    rw [verdict]
    split
    · exact ⟨agree.threadId, agree.tenantId, agree.userIntent, agree.ragContext, agree.sources, rfl, rfl,
        agree.unresolvedTurns⟩
    · exact ⟨agree.threadId, agree.tenantId, agree.userIntent, agree.ragContext, agree.sources, agree.hitlRequested,
        rfl, agree.unresolvedTurns⟩
  refine .some ⟨after, rfl, ?_, fun m next => ?_⟩
  · simp only [edge, guardrailsDecision, after.hitlRequested]
  · simp only [edge, Option.mem_def] at next
    split at next
    all_goals
      obtain rfl := Option.some.inj next
      trivial

theorem postprocess_agree (agree : Agree s t) :
    Option.Rel (AgreeAfter services services' .postprocess) (runNode services .postprocess s)
      (runNode services .postprocess t) := by
  have after : Agree (postprocessNode s) (postprocessNode t) := by
    have passed := agree.guardrailsPassed
    unfold postprocessNode
    by_cases here : t.guardrailsPassed = true
    · simpa only [passed, here, ↓reduceIte] using agree
    · simp only [passed, here]
      exact ⟨agree.threadId, agree.tenantId, agree.userIntent, agree.ragContext, agree.sources, agree.hitlRequested,
        rfl, congrArg (· + 1) agree.unresolvedTurns⟩
  exact .some ⟨after, rfl, rfl, by simp [edge]⟩

theorem hitl_agree (agree : Agree s t) :
    Option.Rel (AgreeAfter services services' .hitl) (runNode services .hitl s) (runNode services .hitl t) := by
  refine .some ⟨?_, (stored_hitl services s).trans (stored_hitl services t).symm, rfl, by simp [edge]⟩
  exact ⟨agree.threadId, agree.tenantId, agree.userIntent, agree.ragContext, agree.sources, agree.hitlRequested,
    agree.guardrailsPassed, agree.unresolvedTurns⟩

/-- A node called with states that agree leaves states that agree, and stores the same replies. -/
theorem runNode_agree (same : SamePublic services services') {n : Node} (agree : Agree s t)
    (ready : Ready services services' n s t) (own : n = .llmGenerate → PromptIsQuery s ∧ PromptIsQuery t) :
    Option.Rel (AgreeAfter services services' n) (runNode services n s) (runNode services' n t) := by
  have shared (other : n ≠ .preprocess ∧ n ≠ .toolExecutor) : runNode services' n t = runNode services n t :=
    runNode_public same other t
  cases n with
  | preprocess => exact preprocess_agree agree ready
  | toolExecutor => exact toolExecutor_agree agree ready
  | router => exact shared (by decide) ▸ router_agree agree ready
  | ragEngine => exact shared (by decide) ▸ ragEngine_agree agree ready
  | llmGenerate => exact shared (by decide) ▸ llmGenerate_agree agree ready (own rfl).1 (own rfl).2
  | guardrails => exact shared (by decide) ▸ guardrails_agree agree ready
  | postprocess => exact shared (by decide) ▸ postprocess_agree agree
  | hitl => exact shared (by decide) ▸ hitl_agree agree

end

end CuckooEcho.Agent
