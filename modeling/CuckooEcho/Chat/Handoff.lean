import CuckooEcho.Chat.Stream
import CuckooEcho.Hitl.Sessions

namespace CuckooEcho.Chat
open Lib Agent

/-! ## Turns that are routed afresh -/

def nodesOf (run : AgentRun) : List Node := run.updates.map (·.node)

def cleared (s : AgentState) : AgentState := { s with hitlRequested := false }

/-- The turn takes the path that it would take had no earlier turn requested a human, and is handed off
only if it asks for that itself. -/
structure RoutedAfresh (services : Services) (s : AgentState) : Prop where
  path : nodesOf (turn services s) = nodesOf (turn services (cleared s))
  asked : Reaches (turn services s) .hitl → AsksForHuman (turn services s)

def toolReply (services : Services) (s : AgentState) : AgentState :=
  (llmGenerateNode services (toolExecutorNode services (routerNode services s))).1

/-- The message asks for a human, or it names a tool and the reply to the tool's result is rejected. -/
def AsksByItself (services : Services) (s : AgentState) : Prop :=
  intentOf services s = "hitl" ∨
    (isToolIntent (intentOf services s) = true ∧ rejects services (toolReply services s) = true)

def AfreshWhen (services : Services) (s : AgentState) : Prop :=
  s.hitlRequested = false ∨
    match preprocessNode services s with
    | none => True
    | some s₁ => AsksByItself services s₁

/-! ## Nodes that do not read the flag -/

section
variable {services : Services} {s s₁ : AgentState} {run : AgentRun}

theorem preprocessNode_cleared (services : Services) (s : AgentState) :
    preprocessNode services (cleared s) = (preprocessNode services s).map cleared := by
  have first : compressed services (cleared s) = cleared (compressed services s) := by
    unfold compressed
    split
    · rw [show (cleared s).messages = s.messages from rfl]
      split <;> rfl
    · rfl
  unfold preprocessNode
  dsimp only
  rw [first]
  cases last : (compressed services s).messages.getLast? with
  | none =>
      have same : (cleared (compressed services s)).messages.getLast? = none := last
      simp only [same, Option.map_some]
  | some lastMsg =>
      have same : (cleared (compressed services s)).messages.getLast? = some lastMsg := last
      simp only [same, Option.map_map]
      rfl

theorem toolReply_cleared (services : Services) (s : AgentState) :
    rejects services (toolReply services (cleared s)) = rejects services (toolReply services s) := by
  have generated (t : AgentState) : rejects services (llmGenerateNode services t).1 =
      rejects services (llmGenerateNode services (cleared t)).1 := by
    unfold llmGenerateNode
    rw [show replyOf services (cleared t) = replyOf services t from rfl]
    dsimp only
    split
    · rfl
    · rw [show sourceCardRaises (cleared t).sources = sourceCardRaises t.sources from rfl]
      split <;> rfl
  have routed : cleared (toolExecutorNode services (routerNode services (cleared s))) =
      cleared (toolExecutorNode services (routerNode services s)) := by
    rw [routerNode_eq, routerNode_eq]
    rfl
  rw [toolReply, toolReply, generated, routed, ← generated]

theorem nodesOf_hitl (path : Path services s run) (preprocessed : preprocessNode services s = some s₁)
    (asked : intentOf services s₁ = "hitl") :
    nodesOf run = [.preprocess, .router, .hitl] ∧ AsksForHuman run := by
  cases path with
  | preprocessRaised raises => simp [preprocessed] at raises
  | handedOff other _ =>
      obtain rfl := Option.some.inj (preprocessed.symm.trans other)
      exact ⟨rfl, Or.inl ⟨_, List.mem_cons_of_mem _ List.mem_cons_self, rfl, by rw [routerNode_intent, asked]⟩⟩
  | toolAnswered other route _ =>
      obtain rfl := Option.some.inj (preprocessed.symm.trans other)
      exact absurd asked (routed_tool route).2
  | retrievalRaised other route _ | ragAnswered other route _ =>
      obtain rfl := Option.some.inj (preprocessed.symm.trans other)
      exact absurd asked (routed_rag route).2

theorem answered_rejected {s₃ : AgentState} {rest : AgentRun} (path : AnswerPath services s₃ rest)
    (verdict : rejects services (llmGenerateNode services s₃).1 = true) :
    nodesOf rest = [.llmGenerate, .guardrails, .hitl] ∧ Rejected rest := by
  cases path with
  | rejected generated rejected checked => exact ⟨rfl, by simp [Rejected, checked]⟩
  | flagged generated passed flag checked => simp [generated, passed] at verdict
  | passed generated passed flag checked => simp [generated, passed] at verdict

theorem nodesOf_tool (path : Path services s run) (preprocessed : preprocessNode services s = some s₁)
    (tool : isToolIntent (intentOf services s₁) = true) (verdict : rejects services (toolReply services s₁) = true) :
    nodesOf run = [.preprocess, .router, .toolExecutor, .llmGenerate, .guardrails, .hitl] ∧ Rejected run := by
  cases path with
  | preprocessRaised raises => simp [preprocessed] at raises
  | handedOff other route | retrievalRaised other route _ | ragAnswered other route _ =>
      obtain rfl := Option.some.inj (preprocessed.symm.trans other)
      simp [routeDecision_routerNode, tool] at route
  | @toolAnswered _ s₃ other route executed =>
      obtain rfl := Option.some.inj (preprocessed.symm.trans other)
      obtain ⟨nodes, u, here, rejected⟩ := answered_rejected (answer_path services s₃) (executed ▸ verdict)
      refine ⟨?_, u, by simp [here], rejected⟩
      simpa [nodesOf] using nodes

theorem rejected_of_asks {s₂ s₃ : AgentState} {node : Node} {rest : AgentRun} {outcome : StateGraph.Outcome}
    (path : AnswerPath services s₃ rest) (intent : s₂.userIntent ≠ some "hitl") (other : node ≠ .router)
    (asks : AsksForHuman ⟨⟨.preprocess, s₁, []⟩ :: ⟨.router, s₂, []⟩ :: ⟨node, s₃, []⟩ :: rest.updates,
      rest.state, outcome⟩) :
    Rejected ⟨⟨.preprocess, s₁, []⟩ :: ⟨.router, s₂, []⟩ :: ⟨node, s₃, []⟩ :: rest.updates, rest.state, outcome⟩ := by
  refine asks.resolve_left ?_
  cases path <;> simp [intent, other]

theorem asksByItself_of_asks (path : Path services s run) (preprocessed : preprocessNode services s = some s₁)
    (flag : s.hitlRequested = true) (asks : AsksForHuman run) : AsksByItself services s₁ := by
  have kept : s₁.hitlRequested = true := (sameReply_preprocess preprocessed).hitlRequested.trans flag
  cases path with
  | preprocessRaised raises => simp [preprocessed] at raises
  | handedOff other _ =>
      obtain rfl := Option.some.inj (preprocessed.symm.trans other)
      refine Or.inl ?_
      simpa [AsksForHuman, Rejected, routerNode_intent] using asks
  | retrievalRaised other route _ | ragAnswered other route _ =>
      obtain rfl := Option.some.inj (preprocessed.symm.trans other)
      exact absurd (kept.symm.trans (routed_rag route).1) (by simp)
  | @toolAnswered _ s₃ other route executed =>
      obtain rfl := Option.some.inj (preprocessed.symm.trans other)
      obtain ⟨tool, unasked⟩ := routed_tool route
      have rejected := rejected_of_asks (answer_path services s₃) (by simpa [routerNode_intent] using unasked)
        (by simp) asks
      have verdict := rejects_of_rejected (answer_path services s₃) (by simp) rejected
      exact Or.inr ⟨tool, by rw [toolReply, executed, verdict]⟩

theorem nodesOf_unread (path : Path services s run) (raises : preprocessNode services s = none) :
    run.updates = [] := by
  cases path with
  | preprocessRaised _ => rfl
  | handedOff preprocessed _ | retrievalRaised preprocessed _ _ | toolAnswered preprocessed _ _
  | ragAnswered preprocessed _ _ => simp [raises] at preprocessed

end

theorem routedAfresh_of_asksByItself {services : Services} {s s₁ : AgentState}
    (preprocessed : preprocessNode services s = some s₁) (asks : AsksByItself services s₁) :
    RoutedAfresh services s := by
  have other : preprocessNode services (cleared s) = some (cleared s₁) := by
    rw [preprocessNode_cleared, preprocessed, Option.map_some]
  have path := turn_path services s
  have path' := turn_path services (cleared s)
  cases asks with
  | inl asked =>
      obtain ⟨nodes, asks⟩ := nodesOf_hitl path preprocessed asked
      exact ⟨nodes.trans (nodesOf_hitl path' other asked).1.symm, fun _ => asks⟩
  | inr rejected =>
      obtain ⟨tool, verdict⟩ := rejected
      obtain ⟨nodes, asks⟩ := nodesOf_tool path preprocessed tool verdict
      have verdict' := (toolReply_cleared services s₁).trans verdict
      exact ⟨nodes.trans (nodesOf_tool path' other tool verdict').1.symm, fun _ => Or.inr asks⟩

/-- A turn is routed afresh exactly when the saved flag is clear or does not matter. -/
theorem routedAfresh_iff (services : Services) (s : AgentState) :
    RoutedAfresh services s ↔ AfreshWhen services s := by
  have path := turn_path services s
  cases flag : s.hitlRequested with
  | false =>
      have same : cleared s = s := by rw [cleared, ← flag]
      have fresh : RoutedAfresh services s := by
        refine ⟨by rw [same], fun reached => ?_⟩
        cases turn_handoff services s with
        | unread raises quiet kept => simp [Reaches, quiet] at reached
        | transferred preprocessed cause _ _ reply => exact cause.resolve_left (by simp [flag])
        | answered preprocessed unflagged unasked served _ => exact absurd reached served
      exact ⟨fun _ => Or.inl flag, fun _ => fresh⟩
  | true =>
      unfold AfreshWhen
      cases preprocessed : preprocessNode services s with
      | none =>
          have other : preprocessNode services (cleared s) = none := by
            rw [preprocessNode_cleared, preprocessed, Option.map_none]
          have quiet := nodesOf_unread path preprocessed
          have quiet' := nodesOf_unread (turn_path services (cleared s)) other
          exact iff_of_true ⟨by rw [nodesOf, nodesOf, quiet, quiet'], by simp [Reaches, quiet]⟩ (Or.inr trivial)
      | some s₁ =>
          constructor
          · intro fresh
            cases turn_handoff services s with
            | unread raises quiet kept => simp [preprocessed] at raises
            | transferred _ cause reached _ reply =>
                exact Or.inr (asksByItself_of_asks path preprocessed flag (fresh.asked reached))
            | answered _ unflagged unasked served _ => simp [flag] at unflagged
          · intro asks
            exact routedAfresh_of_asksByItself preprocessed (asks.resolve_left (by simp [flag]))

/-! ## Turns among the sessions of the admins -/

/-- The checkpoints and the tables of the hand-off; `ended` recalls the threads whose session was ended. -/
structure Desk where
  checkpoints : String → Option AgentState
  db : Hitl.Db
  ended : List Hitl.Uuid

inductive Event
  | turn (threadId : String) (t : ChatTurn) (sessionId taskId : Hitl.Uuid)
  | admin (op : Hitl.Op)

section
-- How the driver reads the text of an id, and whether the database role is subject to row-level security.
variable (uuid : String → Option Hitl.Uuid) (rls : Bool)

def notify (sessionId taskId : Hitl.Uuid) (db : Hitl.Db) : Effect → Hitl.Db
  -- A hand-off that cannot be recorded leaves the tables as they were
  | .notifyHitlRequest tenantId threadId _ =>
      (do let tenant ← uuid tenantId
          let thread ← uuid threadId
          Hitl.notifyHitlRequest db sessionId taskId tenant thread).getD db
  | _ => db

def endedBy (db : Hitl.Db) : Hitl.Op → List Hitl.Uuid
  | .endSession sessionId tenantId =>
      match Hitl.endSession rls db sessionId tenantId with
      | .ok (_, response) => [response.threadId]
      | .error _ => []
  | _ => []

def Desk.saved (desk : Desk) (threadId : String) : AgentState := (desk.checkpoints threadId).getD emptyThread

def Desk.step (desk : Desk) : Event → Option Desk
  | .turn threadId t sessionId taskId =>
      let run := t.run (desk.saved threadId)
      some { desk with
        checkpoints := Function.update desk.checkpoints threadId (some run.state)
        db := (run.updates.flatMap (·.effects)).foldl (notify uuid sessionId taskId) desk.db }
  | .admin op => (op.step rls desk.db).map fun db =>
      { desk with db, ended := endedBy rls desk.db op ++ desk.ended }

def Desk.Ended (desk : Desk) (threadId : String) : Prop := ∃ id, uuid threadId = some id ∧ id ∈ desk.ended

def NotSticky (desk : Desk) : Event → Prop
  | .turn threadId t _ _ => desk.Ended uuid threadId → RoutedAfresh t.services (t.payload.merge (desk.saved threadId))
  | .admin _ => True

def StartsAfresh (desk : Desk) : Event → Prop
  | .turn threadId t _ _ => desk.Ended uuid threadId → AfreshWhen t.services (t.payload.merge (desk.saved threadId))
  | .admin _ => True

/-- After their session has ended, threads are routed afresh exactly as long as each of their turns starts with
the flag clear, asks for a human itself or cannot be read. -/
theorem notSticky_iff_startsAfresh (desk : Desk) (events : List Event) :
    Along (Desk.step uuid rls) (NotSticky uuid) desk events ↔
      Along (Desk.step uuid rls) (StartsAfresh uuid) desk events := by
  refine along_iff_along (fun _ => True) ?_ (fun _ _ _ _ _ _ => trivial) trivial
  intro desk event _
  cases event with
  | turn threadId t sessionId taskId => exact imp_congr_right fun _ => routedAfresh_iff _ _
  | admin op => exact Iff.rfl

end

def customerThread : String := "00000000-0000-4000-8000-000000000001"

def shopTenant : String := "00000000-0000-4000-8000-000000000002"

def customerSays (text : String) : ChatTurn :=
  { services := offline, payload := ⟨[userMessage text], some shopTenant, some customerThread⟩, counts := [] }

def sampleUuid (text : String) : Option Hitl.Uuid :=
  if text = customerThread then some 0x40008000000000000001
  else if text = shopTenant then some 0x40008000000000000002
  else none

def openDesk : Desk where
  checkpoints _ := none
  db :=
    { now := 0
      threads := fun id => if id = 0x40008000000000000001 then some ⟨0x40008000000000000002, .active⟩ else none
      sessions := fun _ => none
      tasks := []
      tickets := [] }
  ended := []

def helpedOnce : List Event :=
  [.turn customerThread (customerSays "转人工") 10 11,
    .admin (.takeSession 10 0x40008000000000000002 7),
    .admin (.endSession 10 0x40008000000000000002)]

def nextTurnOf (desk : Desk) (t : ChatTurn) : List Hitl.Uuid × List Node × Bool :=
  let run := t.run (desk.saved customerThread)
  (desk.ended, nodesOf run, run.updates.any fun u =>
    (u.node = .router && u.state.userIntent = some "hitl") || (u.node = .guardrails && !u.state.guardrailsPassed))

/-- A customer who was once helped by a human is handed off again for a greeting. -/
theorem greeting_handedOff : ¬ ∀ events : List Event,
    Along (Desk.step sampleUuid false) (NotSticky sampleUuid) openDesk events := by
  intro claim
  have seen : (exec (Desk.step sampleUuid false) openDesk helpedOnce).map (nextTurnOf · (customerSays "你好")) =
      some ([0x40008000000000000001], [.preprocess, .router, .hitl], false) := by decide +kernel
  obtain ⟨desk, run, seen⟩ := Option.map_eq_some_iff.mp seen
  obtain ⟨ended, seen⟩ := Prod.mk.inj seen
  obtain ⟨nodes, unasked⟩ := Prod.mk.inj seen
  have along := claim (helpedOnce ++ [.turn customerThread (customerSays "你好") 12 13])
  have fresh := (along.after run _ rfl).1 ⟨0x40008000000000000001, rfl, by simp [ended]⟩
  have reached : Reaches ((customerSays "你好").run (desk.saved customerThread)) .hitl :=
    List.mem_map.mp (show Node.hitl ∈ nodesOf _ by simp [nodes])
  rw [List.any_eq_false] at unasked
  rcases fresh.asked reached with ⟨u, here, isRouter, asked⟩ | ⟨u, here, isGuardrails, rejected⟩
  · exact unasked u here (by simp [isRouter, asked])
  · exact unasked u here (by simp [isGuardrails, rejected])

section
variable (uuid : String → Option Hitl.Uuid) (rls : Bool)

/-! ## The flag is never cleared -/

theorem flag_after_turn (t : ChatTurn) (saved : AgentState) :
    (t.run saved).state.hitlRequested = true ↔ saved.hitlRequested = true ∨ AsksForHuman (t.run saved) := by
  cases turn_handoff t.services (t.payload.merge saved) with
  | unread raises quiet kept =>
      have unasked : ¬ AsksForHuman (t.run saved) := by simp [AsksForHuman, Rejected, ChatTurn.run, quiet]
      rw [or_iff_left unasked]
      exact iff_of_eq (congrArg (· = true) kept)
  | transferred preprocessed cause reached flag reply => exact iff_of_true flag cause
  | answered preprocessed unflagged unasked served flag =>
      have clear : saved.hitlRequested = false := unflagged
      exact iff_of_false (by simp [ChatTurn.run, flag]) (not_or.mpr ⟨by simp [clear], unasked⟩)

theorem flagged_throughout (threadId : String) {desk : Desk} (events : List Event)
    (flagged : (desk.saved threadId).hitlRequested = true) :
    Throughout (Desk.step uuid rls) (fun desk => (desk.saved threadId).hitlRequested = true) desk events := by
  refine throughout_of_step ?_ flagged
  intro desk event after flagged h
  cases event with
  | admin op =>
      obtain ⟨db, -, rfl⟩ := Option.map_eq_some_iff.mp h
      exact flagged
  | turn other t sessionId taskId =>
      obtain rfl := Option.some.inj h
      by_cases same : threadId = other
      · subst same
        simp only [Desk.saved, Function.update_self, Option.getD_some]
        exact (flag_after_turn t _).mpr (Or.inl flagged)
      · simp only [Desk.saved, Function.update_of_ne same]
        exact flagged

end

end CuckooEcho.Chat
