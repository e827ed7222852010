import CuckooEcho.Chat.History

namespace CuckooEcho.Chat
open Lib Agent

/-! ## What a turn takes from earlier turns -/

/-- One of the updates is that of the node, called with the state that the update before it has left. -/
def Calls : List AgentUpdate → Node → AgentState → Prop
  | u :: v :: us, node, s => v.node = node ∧ u.state = s ∨ Calls (v :: us) node s
  | [_], _, _ | [], _, _ => False

def RetrievedIn (run : AgentRun) (s : AgentState) : Prop :=
  ∃ u ∈ run.updates, u.node = .ragEngine ∧ u.state.ragContext = s.ragContext ∧ u.state.sources = s.sources

/-- The guardrails ask the model whether the reply follows from the retrieved chunks. -/
def Checks (services : Services) (s : AgentState) : Prop :=
  s.ragContext ≠ [] ∧ s.llmResponse ≠ "" ∧ services.nliModel.isSome

structure OwnContext (services : Services) (run : AgentRun) : Prop where
  toolResult : ∀ s, Calls run.updates .llmGenerate s → toolMessage services s ≠ [] → Reaches run .toolExecutor
  reference : ∀ s, Calls run.updates .llmGenerate s → s.ragContext ≠ [] → RetrievedIn run s
  checked : ∀ s, Calls run.updates .guardrails s → Checks services s → RetrievedIn run s

/-- A turn that is routed to a tool finds no reference information in the state that it starts from, and a
turn that retrieves finds no tool call there. -/
def Fresh (services : Services) (s : AgentState) : Prop :=
  match preprocessNode services s with
  | none => True
  | some preprocessed =>
      match routeDecision (routerNode services preprocessed) with
      | .tool => s.ragContext = []
      | .rag => (ragEngineNode services (routerNode services preprocessed)).isSome → s.toolCalls = []
      | .hitl => True

/-! ## The calls of a turn -/

theorem toolMessage_eq_nil {services : Services} {s : AgentState} :
    toolMessage services s = [] ↔ s.toolCalls = [] := by
  unfold toolMessage
  cases last : s.toolCalls.getLast? with
  | none => simpa using last
  | some call =>
      have some : s.toolCalls ≠ [] := by
        intro empty
        simp [empty] at last
      simp [some]

/-- What the model is sent is the prompt of the state that the generation is called with. -/
theorem sent_of_mem_effects {services : Services} {s : AgentState} {messages : List LlmMessage}
    (here : .completion messages ∈ (llmGenerateNode services s).2) : messages = llmMessages services s := by
  have streamed {rest : List Effect} (stored : .completion messages ∉ rest)
      (here : .completion messages ∈
        .completion (llmMessages services s) :: (tokensOf (replyOf services s)).map .token ++ rest) :
      messages = llmMessages services s := by
    simpa [stored] using here
  have notStored (response : String) : .completion messages ∉ cacheStore s response := by
    unfold cacheStore
    split <;> simp
  unfold llmGenerateNode at here
  dsimp only at here
  split at here
  · exact streamed List.not_mem_nil (by simpa using here)
  · split at here
    · exact streamed (notStored _) here
    · exact streamed (notStored _) here

section
variable {services : Services} {s₁ s₂ s₃ : AgentState}

theorem hitlNode_sends (services : Services) (s : AgentState) (messages : List LlmMessage) :
    .completion messages ∉ (hitlNode services s).2 := by
  unfold hitlNode
  dsimp only
  split <;> simp

theorem answer_updates (services : Services) (s : AgentState) : ∃ last : AgentUpdate,
    (last.node = .postprocess ∨ last.node = .hitl) ∧ (∀ messages, .completion messages ∉ last.effects) ∧
      (answer services s).updates =
        [⟨.llmGenerate, (llmGenerateNode services s).1, (llmGenerateNode services s).2⟩,
          ⟨.guardrails, guardrailsNode services (llmGenerateNode services s).1, []⟩, last] := by
  unfold answer
  dsimp only
  split
  · exact ⟨_, Or.inl rfl, fun _ => List.not_mem_nil, rfl⟩
  · exact ⟨_, Or.inr rfl, hitlNode_sends services _, rfl⟩

def answered (services : Services) (node : Node) (s₁ s₂ s₃ : AgentState) : AgentRun :=
  ⟨⟨.preprocess, s₁, []⟩ :: ⟨.router, s₂, []⟩ :: ⟨node, s₃, []⟩ :: (answer services s₃).updates,
    (answer services s₃).state, (answer services s₃).outcome⟩

theorem calls_answered (services : Services) (s₁ s₂ s₃ : AgentState) {node : Node}
    (other : node = .toolExecutor ∨ node = .ragEngine) (s : AgentState) :
    (Calls (answered services node s₁ s₂ s₃).updates .llmGenerate s ↔ s₃ = s) ∧
      (Calls (answered services node s₁ s₂ s₃).updates .guardrails s ↔ (llmGenerateNode services s₃).1 = s) := by
  obtain ⟨last, ended, -, eq⟩ := answer_updates services s₃
  have different : last.node ≠ .llmGenerate ∧ last.node ≠ .guardrails := by
    rcases ended with h | h <;> simp [h]
  rcases other with rfl | rfl <;> simp [answered, eq, Calls, different]

theorem reaches_answered_tool {node : Node} : Reaches (answered services node s₁ s₂ s₃) .toolExecutor ↔
    node = .toolExecutor := by
  obtain ⟨last, ended, -, eq⟩ := answer_updates services s₃
  have different : last.node ≠ .toolExecutor := by
    rcases ended with h | h <;> simp [h]
  simp [answered, eq, Reaches, different]

theorem retrievedIn_answered {node : Node} {s : AgentState}
    (retrieved : RetrievedIn (answered services node s₁ s₂ s₃) s) :
    node = .ragEngine := by
  obtain ⟨last, ended, -, eq⟩ := answer_updates services s₃
  have different : last.node ≠ .ragEngine := by
    rcases ended with h | h <;> simp [h]
  obtain ⟨u, here, rag, -⟩ := retrieved
  simp only [answered, eq, List.mem_cons, List.not_mem_nil, or_false] at here
  rcases here with rfl | rfl | rfl | rfl | rfl | rfl
  · cases rag
  · cases rag
  · exact rag
  · cases rag
  · cases rag
  · exact absurd rag different

theorem sends_answered (node : Node) {u : AgentUpdate} {messages : List LlmMessage}
    (here : u ∈ (answered services node s₁ s₂ s₃).updates) (sent : .completion messages ∈ u.effects) :
    messages = llmMessages services s₃ := by
  obtain ⟨last, -, silent, eq⟩ := answer_updates services s₃
  simp only [answered, eq, List.mem_cons, List.not_mem_nil, or_false] at here
  rcases here with rfl | rfl | rfl | rfl | rfl | rfl
  · cases sent
  · cases sent
  · cases sent
  · exact sent_of_mem_effects sent
  · cases sent
  · exact absurd sent (silent messages)

theorem ownContext_toolAnswered (s₁ : AgentState) (generated : s₃.ragContext = s₁.ragContext) :
    OwnContext services (answered services .toolExecutor s₁ s₂ s₃) ↔ s₁.ragContext = [] := by
  have call := calls_answered services s₁ s₂ s₃ (Or.inl rfl)
  obtain ⟨llmResponse, tokensUsed, citations, writes⟩ := llmGenerateNode_writes services s₃
  constructor
  · intro own
    by_contra stale
    have retrieved := own.reference s₃ ((call s₃).1.mpr rfl) (generated ▸ stale)
    exact absurd (retrievedIn_answered retrieved) (by decide)
  · intro empty
    refine ⟨fun s _ _ => reaches_answered_tool.mpr rfl, fun s called some => ?_, fun s called checks => ?_⟩
    · rw [← (call s).1.mp called, generated] at some
      exact absurd empty some
    · have some := checks.1
      rw [← (call s).2.mp called, writes] at some
      exact absurd (generated.trans empty) some

theorem ownContext_ragAnswered (s₁ : AgentState) (generated : s₃.toolCalls = s₁.toolCalls) :
    OwnContext services (answered services .ragEngine s₁ s₂ s₃) ↔ s₁.toolCalls = [] := by
  have call := calls_answered services s₁ s₂ s₃ (Or.inr rfl)
  obtain ⟨llmResponse, tokensUsed, citations, writes⟩ := llmGenerateNode_writes services s₃
  have retrieved : ⟨.ragEngine, s₃, []⟩ ∈ (answered services .ragEngine s₁ s₂ s₃).updates := by simp [answered]
  constructor
  · intro own
    by_contra stale
    have shown : toolMessage services s₃ ≠ [] := toolMessage_eq_nil.not.mpr (generated ▸ stale)
    have ran := own.toolResult s₃ ((call s₃).1.mpr rfl) shown
    exact absurd (reaches_answered_tool.mp ran) (by decide)
  · intro empty
    refine ⟨fun s called shown => ?_, fun s called _ => ?_, fun s called _ => ?_⟩
    · rw [← (call s).1.mp called] at shown
      exact absurd (toolMessage_eq_nil.mpr (generated.trans empty)) shown
    · rw [← (call s).1.mp called]
      exact ⟨_, retrieved, rfl, rfl, rfl⟩
    · rw [← (call s).2.mp called, writes]
      exact ⟨_, retrieved, rfl, rfl, rfl⟩

end

/-! ## Turns whose prompt and guardrails are their own -/

theorem ownContext_of_uncalled {services : Services} {run : AgentRun} (uncalled : ∀ s,
    ¬ Calls run.updates .llmGenerate s ∧ ¬ Calls run.updates .guardrails s) : OwnContext services run :=
  ⟨fun s called => absurd called (uncalled s).1, fun s called => absurd called (uncalled s).1,
    fun s called => absurd called (uncalled s).2⟩

theorem ownContext_iff_fresh {services : Services} {s : AgentState} {run : AgentRun}
    (path : Path services s run) :
    OwnContext services run ↔ Fresh services s := by
  unfold Fresh
  cases path with
  | preprocessRaised raises =>
      have own : OwnContext services ⟨[], s, .raised⟩ := ownContext_of_uncalled fun _ => by simp [Calls]
      simp [raises, own]
  | @handedOff s₁ preprocessed route =>
      simp only [preprocessed, route, iff_true]
      exact ownContext_of_uncalled fun _ => by simp [Calls]
  | @toolAnswered s₁ s₃ preprocessed route executed =>
      obtain ⟨messages, summary, mediaUrls, rfl⟩ := preprocessNode_writes preprocessed
      obtain ⟨toolCalls, llmResponse, eq, -⟩ := toolExecutorNode_writes services
        (routerNode services { s with messages, summary, mediaUrls })
      simp only [preprocessed, route]
      refine ownContext_toolAnswered { s with messages, summary, mediaUrls } ?_
      rw [← executed, eq, routerNode_eq]
  | @retrievalRaised s₁ preprocessed route raises =>
      simp only [preprocessed, route, raises, Option.isSome_none, Bool.false_eq_true, false_implies, iff_true]
      exact ownContext_of_uncalled fun _ => by simp [Calls]
  | @ragAnswered s₁ s₃ preprocessed route retrieved =>
      obtain ⟨messages, summary, mediaUrls, rfl⟩ := preprocessNode_writes preprocessed
      obtain ⟨ragContext, sources, userIntent, eq⟩ := ragEngineNode_writes retrieved
      simp only [preprocessed, route, retrieved, Option.isSome_some, forall_const]
      refine ownContext_ragAnswered { s with messages, summary, mediaUrls } ?_
      rw [eq, routerNode_eq]

/-- All that the model is sent in a turn are prompts of states that the generation is called with. -/
theorem calls_of_sent {services : Services} {s : AgentState} {u : AgentUpdate} {messages : List LlmMessage}
    (here : u ∈ (turn services s).updates) (sent : .completion messages ∈ u.effects) :
    ∃ s', Calls (turn services s).updates .llmGenerate s' ∧ messages = llmMessages services s' := by
  have path := turn_path services s
  generalize turn services s = run at path here
  cases path with
  | preprocessRaised raises => cases here
  | handedOff preprocessed route =>
      simp only [List.mem_cons, List.not_mem_nil, or_false] at here
      rcases here with rfl | rfl | rfl
      · cases sent
      · cases sent
      · exact absurd sent (hitlNode_sends services _ messages)
  | @toolAnswered s₁ s₃ preprocessed route executed =>
      exact ⟨s₃, (calls_answered services s₁ _ s₃ (Or.inl rfl) s₃).1.mpr rfl, sends_answered .toolExecutor here sent⟩
  | retrievalRaised preprocessed route raises =>
      simp only [List.mem_cons, List.not_mem_nil, or_false] at here
      rcases here with rfl | rfl
      · cases sent
      · cases sent
  | @ragAnswered s₁ s₃ preprocessed route retrieved =>
      exact ⟨s₃, (calls_answered services s₁ _ s₃ (Or.inr rfl) s₃).1.mpr rfl, sends_answered .ragEngine here sent⟩

/-- Whatever is saved for a thread, its next turns are shown nothing of earlier turns exactly when each of
them starts fresh. -/
theorem ownContext_along_iff (saved : AgentState) (turns : List ChatTurn) :
    Along nextTurn (fun saved t => OwnContext t.services (t.run saved)) saved turns ↔
      Along nextTurn (fun saved t => Fresh t.services (t.payload.merge saved)) saved turns :=
  along_iff_along (fun _ => True) (fun saved t _ =>
    ownContext_iff_fresh (turn_path t.services (t.payload.merge saved)))
    (fun _ _ _ _ _ _ => trivial) trivial

/-- One document is found for every question. A reply follows from what it repeats, and the model repeats
the document unless it is shown the result of a tool. -/
def returnsDesk : Services :=
  { offline with
    embeddingService := some fun _ => some []
    search := fun _ _ _ => some [[⟨some "doc", some "七天无理由退货", none, none, none, ⟨none, none⟩⟩]]
    llm := fun messages _ => ⟨[.ofText (if messages.length = 2 then "七天无理由退货" else "您的订单已发货")], false⟩
    nliModel := some fun pairs =>
      .scores (pairs.map fun (context, reply) => if context = reply then (0, 1, 0) else (1, 0, 0)) }

def askingThread (text : String) : ChatTurn :=
  { services := returnsDesk, payload := ⟨[userMessage text], some "tenant", some "thread"⟩, counts := [] }

theorem staleReference_breaks : ¬ ∀ turns : List ChatTurn,
    Along nextTurn (fun saved t => OwnContext t.services (t.run saved)) emptyThread turns := by
  intro claim
  have stale : ((askingThread "怎么退货").run emptyThread).state.ragContext = ["七天无理由退货"] := by decide +kernel
  have routed : (preprocessNode returnsDesk ((askingThread "我的订单").payload.merge
      ((askingThread "怎么退货").run emptyThread).state)).map (fun s => routeDecision (routerNode returnsDesk s)) =
        some .tool := by decide +kernel
  have later := (claim [askingThread "怎么退货", askingThread "我的订单"] ((askingThread "怎么退货").run emptyThread).state
    rfl).2
  generalize ((askingThread "怎么退货").run emptyThread).state = saved at stale routed later
  have own : OwnContext returnsDesk ((askingThread "我的订单").run saved) := (later _ rfl).1
  have fresh : Fresh returnsDesk ((askingThread "我的订单").payload.merge saved) :=
    (ownContext_iff_fresh (turn_path _ _)).mp own
  obtain ⟨s, preprocessed, route⟩ := Option.map_eq_some_iff.mp routed
  simp only [Fresh, preprocessed, route] at fresh
  have empty : saved.ragContext = [] := fresh
  rw [stale] at empty
  cases empty

end CuckooEcho.Chat
