import CuckooEcho.Agent.Thread

namespace CuckooEcho.Agent
open Lib StateGraph

/-! ## The tokens of a turn -/

/-- The state that `llm_generate` is called on, if the turn comes to it. -/
def generatesFrom (services : Services) (s : AgentState) : Option AgentState :=
  (preprocessNode services s).bind fun preprocessed =>
    let routed := routerNode services preprocessed
    match routeDecision routed with
    | .tool => some (toolExecutorNode services routed)
    | .rag => ragEngineNode services routed
    | .hitl => none

/-- What the provider reports for the reply of the turn. -/
def tokensReported (services : Services) (s : AgentState) : Nat :=
  (generatesFrom services s).elim 0 fun generating => tokensUsedOf (replyOf services generating)

/-- The reply is generated and the provider reports its tokens, or the turn raises and the thread has no
count from an earlier turn. -/
def CountsTokens (services : Services) (s : AgentState) : Prop :=
  match generatesFrom services s with
  | some generating =>
      generationFails services generating = false ∧ 0 < tokensUsedOf (replyOf services generating)
  | none => ∀ preprocessed ∈ preprocessNode services s,
      routeDecision (routerNode services preprocessed) ≠ .hitl ∧ s.tokensUsed = 0

instance (services : Services) (s : AgentState) : Decidable (CountsTokens services s) :=
  match generates : generatesFrom services s with
  | some generating => decidable_of_iff
      (generationFails services generating = false ∧ 0 < tokensUsedOf (replyOf services generating))
      (by simp only [CountsTokens, generates])
  | none => decidable_of_iff
      (∀ preprocessed ∈ preprocessNode services s,
        routeDecision (routerNode services preprocessed) ≠ .hitl ∧ s.tokensUsed = 0)
      (by simp only [CountsTokens, generates])

/-- The count that a reader of the updates keeps: a zero does not replace it. -/
def lastTokens (tokens : Nat) (u : AgentUpdate) : Nat := if u.state.tokensUsed ≠ 0 then u.state.tokensUsed else tokens

section
variable {services : Services} {s : AgentState}

theorem llmGenerateNode_tokens (succeeds : generationFails services s = false) :
    (llmGenerateNode services s).1.tokensUsed = tokensUsedOf (replyOf services s) := by
  obtain ⟨replied, carded⟩ := Bool.or_eq_false_iff.mp succeeds
  simp [llmGenerateNode, replied, carded]

theorem lastTokens_last {tokens : Nat} {us : List AgentUpdate} {u : AgentUpdate} (counted : u.state.tokensUsed ≠ 0) :
    (us ++ [u]).foldl lastTokens tokens = u.state.tokensUsed := by
  rw [List.foldl_append]
  exact if_pos counted

theorem lastTokens_of_zero {us : List AgentUpdate} (zero : ∀ u ∈ us, u.state.tokensUsed = 0) (tokens : Nat) :
    us.foldl lastTokens tokens = tokens := by
  induction us generalizing tokens with
  | nil => rfl
  | cons u us ih =>
      obtain ⟨here, later⟩ := List.forall_mem_cons.mp zero
      rw [List.foldl_cons, ih later]
      exact if_neg (not_not.mpr here)

theorem AnswerPath.lastUpdate {run : AgentRun} (path : AnswerPath services s run)
    (succeeds : generationFails services s = false) : run.outcome = .finished ∧
      ∃ us u, run.updates = us ++ [u] ∧ u.state.tokensUsed = tokensUsedOf (replyOf services s) := by
  have counted := llmGenerateNode_tokens succeeds
  cases path with
  | rejected generated rejected checked =>
      subst checked
      rw [generated] at counted
      exact ⟨rfl, [_, _], _, rfl, counted⟩
  | flagged generated passed flag checked =>
      subst checked
      rw [generated] at counted
      exact ⟨rfl, [_, _], _, rfl, counted⟩
  | passed generated passed flag checked =>
      subst checked
      rw [generated] at counted
      exact ⟨rfl, [_, _], _, rfl, counted⟩

theorem generatesFrom_tool {s₁ : AgentState} (preprocessed : preprocessNode services s = some s₁)
    (route : routeDecision (routerNode services s₁) = .tool) :
    generatesFrom services s = some (toolExecutorNode services (routerNode services s₁)) := by
  simp [generatesFrom, preprocessed, route]

theorem generatesFrom_rag {s₁ : AgentState} (preprocessed : preprocessNode services s = some s₁)
    (route : routeDecision (routerNode services s₁) = .rag) :
    generatesFrom services s = ragEngineNode services (routerNode services s₁) := by
  simp [generatesFrom, preprocessed, route]

theorem generatesFrom_hitl {s₁ : AgentState} (preprocessed : preprocessNode services s = some s₁)
    (route : routeDecision (routerNode services s₁) = .hitl) : generatesFrom services s = none := by
  simp [generatesFrom, preprocessed, route]

/-- What the reader of a turn's updates is left with, and whether the turn has finished. -/
inductive Counted (services : Services) (s : AgentState) (run : AgentRun) : Prop
  | reported (finished : run.outcome = .finished) (positive : 0 < tokensReported services s)
      (tokens : run.updates.foldl lastTokens 0 = tokensReported services s)
  | none (unfinished : run.outcome ≠ .finished) (tokens : run.updates.foldl lastTokens 0 = 0)

theorem counted_of_answer {s₃ : AgentState} (before : List AgentUpdate)
    (generates : generatesFrom services s = some s₃) (counts : CountsTokens services s) :
    Counted services s ⟨before ++ (answer services s₃).updates, (answer services s₃).state,
      (answer services s₃).outcome⟩ := by
  simp only [CountsTokens, generates] at counts
  have reported : tokensReported services s = tokensUsedOf (replyOf services s₃) := by
    simp [tokensReported, generates]
  obtain ⟨finished, us, u, updates, counted⟩ := (answer_path services s₃).lastUpdate counts.1
  refine .reported finished (reported ▸ counts.2) ?_
  rw [reported, ← counted]
  simp only [updates, ← List.append_assoc]
  exact lastTokens_last (counted ▸ Nat.ne_of_gt counts.2)

theorem Path.counted {run : AgentRun} (path : Path services s run) (counts : CountsTokens services s) :
    Counted services s run := by
  cases path with
  | preprocessRaised raises => exact .none (by simp) rfl
  | handedOff preprocessed route =>
      simp only [CountsTokens, generatesFrom_hitl preprocessed route] at counts
      exact absurd route (counts _ preprocessed).1
  | toolAnswered preprocessed route executed =>
      subst executed
      exact counted_of_answer [_, _, _] (generatesFrom_tool preprocessed route) counts
  | retrievalRaised preprocessed route raises =>
      simp only [CountsTokens, (generatesFrom_rag preprocessed route).trans raises] at counts
      have zero := (counts _ preprocessed).2
      obtain ⟨messages, summary, mediaUrls, rfl⟩ := preprocessNode_writes preprocessed
      refine .none (by simp) (lastTokens_of_zero ?_ 0)
      simp [routerNode_eq, zero]
  | ragAnswered preprocessed route retrieved =>
      exact counted_of_answer [_, _, _] ((generatesFrom_rag preprocessed route).trans retrieved) counts

theorem turn_counted (counts : CountsTokens services s) : Counted services s (turn services s) :=
  (turn_path services s).counted counts

end

end CuckooEcho.Agent
