import CuckooEcho.Agent.Graph

namespace CuckooEcho.Agent
open Lib StateGraph

/-! ## What happened in a turn -/

def Reaches (run : AgentRun) (node : Node) : Prop := ∃ u ∈ run.updates, u.node = node

def Rejected (run : AgentRun) : Prop :=
  ∃ u ∈ run.updates, u.node = .guardrails ∧ u.state.guardrailsPassed = false

/-- The turn asked for a human by itself: the router decided so or the guardrails did. -/
def AsksForHuman (run : AgentRun) : Prop :=
  (∃ u ∈ run.updates, u.node = .router ∧ u.state.userIntent = some "hitl") ∨ Rejected run

/-! ## The channels that outlive a turn -/

/-- The reply and the hand-off channels, which a request does not reset. -/
structure SameReply (s t : AgentState) : Prop where
  llmResponse : t.llmResponse = s.llmResponse
  correctionMessage : t.correctionMessage = s.correctionMessage
  hitlRequested : t.hitlRequested = s.hitlRequested

theorem generate_keeps (services : Services) (s : AgentState) :
    (llmGenerateNode services s).1.correctionMessage = s.correctionMessage ∧
      (llmGenerateNode services s).1.hitlRequested = s.hitlRequested := by
  obtain ⟨llmResponse, tokensUsed, citations, eq⟩ := llmGenerateNode_writes services s
  rw [eq]
  exact ⟨rfl, rfl⟩

section
variable {services : Services}

theorem sameReply_preprocess {s t : AgentState} (h : preprocessNode services s = some t) : SameReply s t := by
  obtain ⟨messages, summary, mediaUrls, rfl⟩ := preprocessNode_writes h
  exact ⟨rfl, rfl, rfl⟩

theorem guardrailsNode_rejects {s : AgentState} (h : rejects services s = true) :
    guardrailsNode services s =
      { s with guardrailsPassed := false, correctionMessage := some correctionText, hitlRequested := true } := by
  simp [guardrailsNode, h]

theorem guardrailsNode_passes {s : AgentState} (h : rejects services s = false) :
    guardrailsNode services s = { s with guardrailsPassed := true } := by
  simp [guardrailsNode, h]

inductive AnswerPath (services : Services) (s : AgentState) : AgentRun → Prop
  | rejected {g c : AgentState} {effects : List Effect} (generated : llmGenerateNode services s = (g, effects))
      (rejected : rejects services g = true)
      (checked : c = { g with
        guardrailsPassed := false, correctionMessage := some correctionText, hitlRequested := true }) :
      AnswerPath services s
        ⟨[⟨.llmGenerate, g, effects⟩, ⟨.guardrails, c, []⟩,
          ⟨.hitl, (hitlNode services c).1, (hitlNode services c).2⟩], (hitlNode services c).1, .finished⟩
  | flagged {g c : AgentState} {effects : List Effect} (generated : llmGenerateNode services s = (g, effects))
      (passed : rejects services g = false) (flag : s.hitlRequested = true)
      (checked : c = { g with guardrailsPassed := true }) :
      AnswerPath services s
        ⟨[⟨.llmGenerate, g, effects⟩, ⟨.guardrails, c, []⟩,
          ⟨.hitl, (hitlNode services c).1, (hitlNode services c).2⟩], (hitlNode services c).1, .finished⟩
  | passed {g c : AgentState} {effects : List Effect} (generated : llmGenerateNode services s = (g, effects))
      (passed : rejects services g = false) (flag : s.hitlRequested = false)
      (checked : c = { g with guardrailsPassed := true }) :
      AnswerPath services s
        ⟨[⟨.llmGenerate, g, effects⟩, ⟨.guardrails, c, []⟩, ⟨.postprocess, c, []⟩], c, .finished⟩

theorem answer_path (services : Services) (s : AgentState) : AnswerPath services s (answer services s) := by
  have kept := (generate_keeps services s).2
  unfold answer
  cases generated : llmGenerateNode services s with
  | mk g effects =>
      rw [generated] at kept
      dsimp only at kept ⊢
      cases verdict : rejects services g with
      | true =>
          rw [guardrailsNode_rejects verdict]
          exact AnswerPath.rejected generated verdict rfl
      | false =>
          rw [guardrailsNode_passes verdict]
          cases flag : s.hitlRequested with
          | true =>
              have decision : guardrailsDecision { g with guardrailsPassed := true } = .hitl := by
                simp [guardrailsDecision, kept, flag]
              rw [decision]
              exact AnswerPath.flagged generated verdict flag rfl
          | false =>
              have decision : guardrailsDecision { g with guardrailsPassed := true } = .pass := by
                simp [guardrailsDecision, kept, flag]
              rw [decision]
              exact AnswerPath.passed generated verdict flag rfl

theorem sameReply_router (services : Services) (s : AgentState) :
    (routerNode services s).llmResponse = s.llmResponse ∧
      (routerNode services s).correctionMessage = s.correctionMessage := by
  rw [routerNode_eq]
  exact ⟨rfl, rfl⟩

/-- The corrections that the updates of a turn carry: the saved one, and the turn's own from its rejection on. -/
inductive Corrections (services : Services) (s : AgentState) (run : AgentRun) : Prop
  | unread (raises : preprocessNode services s = none) (quiet : run.updates = [])
      (kept : run.state.correctionMessage = s.correctionMessage) (accepted : ¬ Rejected run)
  | saved (n : Nat) (preprocessed : preprocessNode services s ≠ none)
      (carried : run.updates.map (·.state.correctionMessage) = List.replicate (n + 2) s.correctionMessage)
      (kept : run.state.correctionMessage = s.correctionMessage) (accepted : ¬ Rejected run)
  | rejected (n : Nat) (preprocessed : preprocessNode services s ≠ none)
      (carried : run.updates.map (·.state.correctionMessage) =
        List.replicate (n + 2) s.correctionMessage ++ [some correctionText, some correctionText])
      (set : run.state.correctionMessage = some correctionText) (rejected : Rejected run)

theorem AnswerPath.corrections {s : AgentState} {run : AgentRun} (path : AnswerPath services s run) :
    (¬ Rejected run ∧ run.updates.map (·.state.correctionMessage) = List.replicate 3 s.correctionMessage ∧
      run.state.correctionMessage = s.correctionMessage) ∨
    (Rejected run ∧ run.updates.map (·.state.correctionMessage) =
        [s.correctionMessage, some correctionText, some correctionText] ∧
      run.state.correctionMessage = some correctionText) := by
  have kept := (generate_keeps services s).1
  cases path with
  | @rejected g c effects generated rejected checked =>
      subst checked
      simp only [generated] at kept
      refine Or.inr ⟨⟨_, List.mem_cons_of_mem _ List.mem_cons_self, rfl, rfl⟩, ?_, rfl⟩
      simp only [List.map_cons, List.map_nil, hitlNode, kept]
  | @flagged g c effects generated passed flag checked =>
      subst checked
      simp only [generated] at kept
      refine Or.inl ⟨by simp [Rejected], ?_, kept⟩
      simp only [List.map_cons, List.map_nil, hitlNode, kept]
      rfl
  | @passed g c effects generated passed flag checked =>
      subst checked
      simp only [generated] at kept
      refine Or.inl ⟨by simp [Rejected], ?_, kept⟩
      simp only [List.map_cons, List.map_nil, kept]
      rfl

theorem toolExecutor_keeps (s : AgentState) :
    (toolExecutorNode services s).correctionMessage = s.correctionMessage ∧
      (toolExecutorNode services s).hitlRequested = s.hitlRequested := by
  obtain ⟨toolCalls, llmResponse, eq, -⟩ := toolExecutorNode_writes services s
  rw [eq]
  exact ⟨rfl, rfl⟩

theorem ragEngine_keeps {s t : AgentState} (h : ragEngineNode services s = some t) :
    t.correctionMessage = s.correctionMessage ∧ t.hitlRequested = s.hitlRequested := by
  obtain ⟨ragContext, sources, userIntent, rfl⟩ := ragEngineNode_writes h
  exact ⟨rfl, rfl⟩

theorem answered_corrections {s s₁ s₂ s₃ : AgentState} {node : Node} (preprocessed : preprocessNode services s ≠ none)
    (first : s₁.correctionMessage = s.correctionMessage) (second : s₂.correctionMessage = s.correctionMessage)
    (third : s₃.correctionMessage = s.correctionMessage) (other : node ≠ .guardrails) :
    Corrections services s ⟨⟨.preprocess, s₁, []⟩ :: ⟨.router, s₂, []⟩ :: ⟨node, s₃, []⟩ ::
      (answer services s₃).updates, (answer services s₃).state, (answer services s₃).outcome⟩ := by
  have same {s' : AgentState} {outcome : StateGraph.Outcome} :
      Rejected ⟨⟨.preprocess, s₁, []⟩ :: ⟨.router, s₂, []⟩ :: ⟨node, s₃, []⟩ ::
        (answer services s₃).updates, s', outcome⟩ ↔ Rejected (answer services s₃) := by
    simp [Rejected, other]
  cases (answer_path services s₃).corrections with
  | inl accepted =>
      obtain ⟨accepted, carried, kept⟩ := accepted
      refine .saved 4 preprocessed ?_ (kept.trans third) (same.not.mpr accepted)
      simp only [List.map_cons, first, second, third, carried]
      rfl
  | inr rejected =>
      obtain ⟨rejected, carried, set⟩ := rejected
      refine .rejected 2 preprocessed ?_ set (same.mpr rejected)
      simp only [List.map_cons, first, second, third, carried]
      rfl

theorem Path.corrections {s : AgentState} {run : AgentRun} (path : Path services s run) :
    Corrections services s run := by
  cases path with
  | preprocessRaised raises => exact .unread raises rfl rfl (by simp [Rejected])
  | @handedOff s₁ preprocessed route =>
      have first := (sameReply_preprocess preprocessed).correctionMessage
      have second := (sameReply_router services s₁).2.trans first
      refine .saved 1 (by simp [preprocessed]) ?_ second (by simp [Rejected])
      simp only [List.map_cons, List.map_nil, hitlNode, first, second]
      rfl
  | @toolAnswered s₁ s₃ preprocessed route executed =>
      have first := (sameReply_preprocess preprocessed).correctionMessage
      have second := (sameReply_router services s₁).2.trans first
      have third : s₃.correctionMessage = s.correctionMessage := by
        rw [← executed, (toolExecutor_keeps _).1, second]
      exact answered_corrections (by simp [preprocessed]) first second third (by decide)
  | @retrievalRaised s₁ preprocessed route raises =>
      have first := (sameReply_preprocess preprocessed).correctionMessage
      have second := (sameReply_router services s₁).2.trans first
      refine .saved 0 (by simp [preprocessed]) ?_ second (by simp [Rejected])
      simp only [List.map_cons, List.map_nil, first, second]
      rfl
  | @ragAnswered s₁ s₃ preprocessed route retrieved =>
      have first := (sameReply_preprocess preprocessed).correctionMessage
      have second := (sameReply_router services s₁).2.trans first
      have third := (ragEngine_keeps retrieved).1.trans second
      exact answered_corrections (by simp [preprocessed]) first second third (by decide)

theorem turn_corrections (services : Services) (s : AgentState) : Corrections services s (turn services s) :=
  (turn_path services s).corrections

theorem rejects_of_rejected {s₁ s₂ s₃ : AgentState} {node : Node} {rest : AgentRun} {outcome : StateGraph.Outcome}
    (path : AnswerPath services s₃ rest) (other : node ≠ .guardrails)
    (rejected : Rejected ⟨⟨.preprocess, s₁, []⟩ :: ⟨.router, s₂, []⟩ :: ⟨node, s₃, []⟩ :: rest.updates,
      rest.state, outcome⟩) : rejects services (llmGenerateNode services s₃).1 = true := by
  cases path with
  | rejected generated verdict checked => rw [generated, verdict]
  | flagged generated passed flag checked => simp [Rejected, checked, other] at rejected
  | passed generated passed flag checked => simp [Rejected, checked, other] at rejected

/-! ## Hand-offs -/

/-- How a turn reaches the hand-off: by the saved flag, or because it asks for a human. -/
inductive Handoff (services : Services) (s : AgentState) (run : AgentRun) : Prop
  | unread (raises : preprocessNode services s = none) (quiet : run.updates = [])
      (kept : run.state.hitlRequested = s.hitlRequested)
  | transferred (preprocessed : preprocessNode services s ≠ none)
      (cause : s.hitlRequested = true ∨ AsksForHuman run) (reached : Reaches run .hitl)
      (flag : run.state.hitlRequested = true) (reply : run.state.llmResponse = transferText)
  | answered (preprocessed : preprocessNode services s ≠ none) (unflagged : s.hitlRequested = false)
      (unasked : ¬ AsksForHuman run) (served : ¬ Reaches run .hitl) (flag : run.state.hitlRequested = false)

theorem routerNode_flag (services : Services) (s : AgentState) :
    (routerNode services s).hitlRequested = (s.hitlRequested || intentOf services s = "hitl") := by
  rw [routerNode_eq]

theorem routerNode_intent (services : Services) (s : AgentState) :
    (routerNode services s).userIntent = some (intentOf services s) := by
  rw [routerNode_eq]

theorem routed_hitl {s : AgentState} (route : routeDecision (routerNode services s) = .hitl) :
    s.hitlRequested = true ∨ intentOf services s = "hitl" := by
  rw [routeDecision_routerNode] at route
  by_contra neither
  cases tool : isToolIntent (intentOf services s) <;> simp [tool, neither] at route

theorem routed_tool {s : AgentState} (route : routeDecision (routerNode services s) = .tool) :
    isToolIntent (intentOf services s) = true ∧ intentOf services s ≠ "hitl" := by
  rw [routeDecision_routerNode] at route
  cases tool : isToolIntent (intentOf services s) with
  | true =>
      refine ⟨rfl, fun asked => ?_⟩
      rw [asked] at tool
      exact absurd tool (by decide)
  | false =>
      simp only [tool, Bool.false_eq_true, ↓reduceIte] at route
      split at route <;> simp at route

theorem routed_rag {s : AgentState} (route : routeDecision (routerNode services s) = .rag) :
    s.hitlRequested = false ∧ intentOf services s ≠ "hitl" := by
  rw [routeDecision_routerNode] at route
  cases tool : isToolIntent (intentOf services s) <;> simp [tool] at route
  exact route

/-- A turn that gets as far as generating a reply has not asked for a human in the router. -/
theorem answered_handoff {s s₁ s₂ s₃ : AgentState} {node : Node} {rest : AgentRun}
    (path : AnswerPath services s₃ rest) (preprocessed : preprocessNode services s ≠ none)
    (intent : s₂.userIntent ≠ some "hitl") (kept : s₃.hitlRequested = s.hitlRequested)
    (other : node ≠ .guardrails ∧ node ≠ .router ∧ node ≠ .hitl) :
    Handoff services s ⟨⟨.preprocess, s₁, []⟩ :: ⟨.router, s₂, []⟩ :: ⟨node, s₃, []⟩ :: rest.updates,
      rest.state, rest.outcome⟩ := by
  obtain ⟨notGuardrails, notRouter, notHitl⟩ := other
  cases path with
  | @rejected g c effects generated rejected checked =>
      subst checked
      refine .transferred preprocessed (Or.inr (Or.inr ?_)) ?_ rfl rfl
      · simp [Rejected]
      · simp [Reaches]
  | @flagged g c effects generated passed flag checked =>
      subst checked
      have flagged := (generate_keeps services s₃).2.trans flag
      rw [generated] at flagged
      exact .transferred preprocessed (Or.inl (kept.symm.trans flag)) (by simp [Reaches]) flagged rfl
  | @passed g c effects generated passed flag checked =>
      subst checked
      have unflagged := (generate_keeps services s₃).2.trans flag
      rw [generated] at unflagged
      refine .answered preprocessed (kept.symm.trans flag) ?_ ?_ unflagged
      · simp [AsksForHuman, Rejected, intent, notRouter, notGuardrails]
      · simp [Reaches, notHitl]

theorem Path.handoff {s : AgentState} {run : AgentRun} (path : Path services s run) : Handoff services s run := by
  cases path with
  | preprocessRaised raises => exact .unread raises rfl rfl
  | @handedOff s₁ preprocessed route =>
      have first := (sameReply_preprocess preprocessed).hitlRequested
      have cause := routed_hitl route
      have flag : (routerNode services s₁).hitlRequested = true := by
        simpa [routerNode_flag] using cause
      refine .transferred (by simp [preprocessed]) ?_ (by simp [Reaches]) flag rfl
      cases cause with
      | inl flagged => exact Or.inl (first.symm.trans flagged)
      | inr asked =>
          refine Or.inr (Or.inl ⟨_, List.mem_cons_of_mem _ List.mem_cons_self, rfl, ?_⟩)
          rw [routerNode_intent, asked]
  | @toolAnswered s₁ s₃ preprocessed route executed =>
      have first := (sameReply_preprocess preprocessed).hitlRequested
      have unasked := (routed_tool route).2
      have kept : s₃.hitlRequested = s.hitlRequested := by
        rw [← executed, (toolExecutor_keeps _).2, routerNode_flag, first]
        simp [unasked]
      exact answered_handoff (answer_path services s₃) (by simp [preprocessed])
        (by simpa [routerNode_intent] using unasked) kept (by decide)
  | @retrievalRaised s₁ preprocessed route raises =>
      have first := (sameReply_preprocess preprocessed).hitlRequested
      obtain ⟨unflagged, unasked⟩ := routed_rag route
      refine .answered (by simp [preprocessed]) (first.symm.trans unflagged) ?_ (by simp [Reaches]) ?_
      · simp [AsksForHuman, Rejected, routerNode_intent, unasked]
      · simp [routerNode_flag, unflagged, unasked]
  | @ragAnswered s₁ s₃ preprocessed route retrieved =>
      have first := (sameReply_preprocess preprocessed).hitlRequested
      obtain ⟨unflagged, unasked⟩ := routed_rag route
      have kept : s₃.hitlRequested = s.hitlRequested := by
        rw [(ragEngine_keeps retrieved).2, routerNode_flag, first]
        simp [unasked]
      exact answered_handoff (answer_path services s₃) (by simp [preprocessed])
        (by simpa [routerNode_intent] using unasked) kept (by decide)

theorem turn_handoff (services : Services) (s : AgentState) : Handoff services s (turn services s) :=
  (turn_path services s).handoff

end

end CuckooEcho.Agent
