import CuckooEcho.Chat.Corrections

namespace CuckooEcho.Chat
open Lib Agent

/-! ## Counting the rejected replies of a thread -/

/-- What is saved for a thread, and how many of its replies the guardrails have rejected. -/
structure Strikes where
  saved : AgentState
  rejected : Nat

instance (run : AgentRun) : Decidable (Rejected run) :=
  inferInstanceAs (Decidable (∃ u ∈ run.updates, u.node = .guardrails ∧ u.state.guardrailsPassed = false))

def Strikes.step (s : Strikes) (t : ChatTurn) : Option Strikes :=
  some ⟨(t.run s.saved).state, if Rejected (t.run s.saved) then s.rejected + 1 else s.rejected⟩

def Strikes.Counted (s : Strikes) : Prop := s.saved.unresolvedTurns = s.rejected

def freshThread : Strikes := ⟨emptyThread, 0⟩

/-! ## The counter never moves -/

section
variable {services : Services} {s : AgentState} {run : AgentRun}

/-- A rejection hands the turn off, so that only accepted replies get to the node that counts. -/
theorem answer_unresolved (path : AnswerPath services s run) :
    run.state.unresolvedTurns = s.unresolvedTurns := by
  have generated : (llmGenerateNode services s).1.unresolvedTurns = s.unresolvedTurns := by
    obtain ⟨llmResponse, tokensUsed, citations, eq⟩ := llmGenerateNode_writes services s
    rw [eq]
  cases path with
  | rejected same _ checked | flagged same _ _ checked | passed same _ _ checked =>
      subst checked
      rw [same] at generated
      exact generated

theorem router_unresolved (services : Services) (s : AgentState) :
    (routerNode services s).unresolvedTurns = s.unresolvedTurns := by
  rw [routerNode_eq]

theorem path_unresolved (path : Path services s run) : run.state.unresolvedTurns = s.unresolvedTurns := by
  have first {s₁ : AgentState} (preprocessed : preprocessNode services s = some s₁) :
      (routerNode services s₁).unresolvedTurns = s.unresolvedTurns := by
    obtain ⟨messages, summary, mediaUrls, rfl⟩ := preprocessNode_writes preprocessed
    exact router_unresolved services _
  cases path with
  | preprocessRaised _ => rfl
  | handedOff preprocessed _ => exact first preprocessed
  | retrievalRaised preprocessed _ _ => exact first preprocessed
  | @toolAnswered s₁ s₃ preprocessed _ executed =>
      obtain ⟨toolCalls, llmResponse, written, -⟩ := toolExecutorNode_writes services (routerNode services s₁)
      have third : s₃.unresolvedTurns = s.unresolvedTurns := by
        rw [← executed, written]
        exact first preprocessed
      exact (answer_unresolved (answer_path services s₃)).trans third
  | @ragAnswered s₁ s₃ preprocessed _ retrieved =>
      obtain ⟨ragContext, sources, userIntent, written⟩ := ragEngineNode_writes retrieved
      have third : s₃.unresolvedTurns = s.unresolvedTurns := by
        rw [written]
        exact first preprocessed
      exact (answer_unresolved (answer_path services s₃)).trans third

theorem run_unresolved (t : ChatTurn) (saved : AgentState) :
    (t.run saved).state.unresolvedTurns = saved.unresolvedTurns := by
  have kept := path_unresolved (turn_path t.services (t.payload.merge saved))
  exact kept

end

/-- The third strike is never counted on a thread that starts from no state. -/
theorem unresolved_below (turns : List ChatTurn) : Throughout Strikes.step
    (fun s => s.saved.unresolvedTurns < unresolvedThreshold) freshThread turns := by
  have keep (s : Strikes) (t : ChatTurn) (s' : Strikes) (below : s.saved.unresolvedTurns < unresolvedThreshold)
      (next : s.step t = some s') : s'.saved.unresolvedTurns < unresolvedThreshold := by
    obtain rfl := Option.some.inj next
    exact (run_unresolved t s.saved).trans_lt below
  exact throughout_of_step keep (show 0 < unresolvedThreshold by decide)

/-- The saved counter is the number of rejected replies after every turn exactly when there is none. -/
theorem counted_iff_accepted (turns : List ChatTurn) :
    Throughout Strikes.step Strikes.Counted freshThread turns ↔
      Along Strikes.step (fun s t => ¬ Rejected (t.run s.saved)) freshThread turns := by
  refine throughout_iff_along_any (fun s : Strikes => s.saved.unresolvedTurns = 0 ∧ s.rejected = 0)
    (fun s zero => zero.1.trans zero.2.symm) ?_ ?_ ⟨rfl, rfl⟩
  · rintro s t s' ⟨counter, none⟩ accepted next
    obtain rfl := Option.some.inj next
    exact ⟨(run_unresolved t s.saved).trans counter, by simp [accepted, none]⟩
  · rintro s t s' ⟨counter, none⟩ next counted rejected
    obtain rfl := Option.some.inj next
    have same := ((run_unresolved t s.saved).trans counter).symm.trans counted
    simp [rejected] at same

theorem rejection_uncounted : ¬ ∀ turns : List ChatTurn,
    Throughout Strikes.step Strikes.Counted freshThread turns := by
  intro claim
  have rejected : Rejected (contradictedTurn.run emptyThread) := by decide +kernel
  have counted : Strikes.Counted _ := ((claim [contradictedTurn]).2 _ rfl).start
  have none : (contradictedTurn.run emptyThread).state.unresolvedTurns = 0 := run_unresolved _ _
  have one : (contradictedTurn.run emptyThread).state.unresolvedTurns = 1 := counted.trans (if_pos rejected)
  omega

end CuckooEcho.Chat
