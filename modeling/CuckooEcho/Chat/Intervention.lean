import CuckooEcho.Chat.Handoff
import CuckooEcho.Hitl.ThreadStatus

namespace CuckooEcho.Chat
open Lib Agent

/-! ## Turns while a human is in charge -/

/-- The desk with the sessions that an admin has taken and not ended yet, each with its thread. -/
structure Watch where
  desk : Desk
  charge : List (Hitl.Uuid × Hitl.Uuid)

/-- Nothing is generated and nothing is put on the queue for the customer. -/
structure Silent (t : ChatTurn) (saved : AgentState) : Prop where
  ungenerated : ∀ u ∈ (t.run saved).updates, ∀ messages, Effect.completion messages ∉ u.effects
  unsaid : t.items saved = []

section
variable (uuid : String → Option Hitl.Uuid) (rls : Bool)

def chargeAfter (db : Hitl.Db) (charge : List (Hitl.Uuid × Hitl.Uuid)) : Hitl.Op → List (Hitl.Uuid × Hitl.Uuid)
  | .takeSession sessionId tenantId adminUserId =>
      match Hitl.takeSession rls db sessionId tenantId adminUserId with
      | .ok (_, response) => (sessionId, response.threadId) :: charge
      | .error _ => charge
  | .endSession sessionId tenantId =>
      match Hitl.endSession rls db sessionId tenantId with
      | .ok _ => charge.filter fun taken => taken.1 ≠ sessionId
      | .error _ => charge
  | .notifyHitlRequest .. | .pollEscalationTasks .. | .wait _ => charge

namespace Watch

def step (w : Watch) (event : Event) : Option Watch :=
  (w.desk.step uuid rls event).map fun desk =>
    { desk
      charge := match event with
        | .turn .. => w.charge
        | .admin op => chargeAfter rls w.desk.db w.charge op }

def InCharge (w : Watch) (threadId : String) : Prop :=
  ∃ id, uuid threadId = some id ∧ ∃ sessionId, (sessionId, id) ∈ w.charge

end Watch

def BotSilent (w : Watch) : Event → Prop
  | .turn threadId t _ _ => w.InCharge uuid threadId → Silent t (w.desk.saved threadId)
  | .admin _ => True

def NoTurn (w : Watch) : Event → Prop
  | .turn threadId .. => ¬ w.InCharge uuid threadId
  | .admin _ => True

end

/-! ## The sessions in charge are the active ones -/

def Watch.Accurate (w : Watch) : Prop :=
  ∀ sessionId id, (sessionId, id) ∈ w.charge ↔ Hitl.ActiveAt w.desk.db sessionId id

section
variable {uuid : String → Option Hitl.Uuid} {rls : Bool} {db db' : Hitl.Db} {charge : List (Hitl.Uuid × Hitl.Uuid)}

theorem activeAt_of_notified {s k tenant thread : Hitl.Uuid}
    (notified : Hitl.notifyHitlRequest db s k tenant thread = some db') (other id : Hitl.Uuid) :
    Hitl.ActiveAt db' other id ↔ Hitl.ActiveAt db other id := by
  obtain ⟨mid, inserted, stored⟩ := Option.bind_eq_some_iff.mp notified
  obtain ⟨fresh, rfl⟩ := Hitl.Db.insertSession_eq_some.mp inserted
  obtain ⟨-, rfl⟩ := Hitl.Db.insertTask_eq_some.mp stored
  by_cases here : other = s
  · subst here
    simp [Hitl.ActiveAt, fresh, Hitl.pendingRow]
  · simp [Hitl.ActiveAt, Function.update_of_ne here]

theorem activeAt_of_notify (sessionId taskId : Hitl.Uuid) (effects : List Effect) (other id : Hitl.Uuid) :
    Hitl.ActiveAt (effects.foldl (notify uuid sessionId taskId) db) other id ↔ Hitl.ActiveAt db other id := by
  induction effects generalizing db with
  | nil => rfl
  | cons effect effects ih =>
      rw [List.foldl_cons, ih]
      cases effect with
      | completion | token | cacheStore => rfl
      | notifyHitlRequest tenantId threadId reason =>
          simp only [notify]
          cases recorded : (do
            let tenant ← uuid tenantId
            let thread ← uuid threadId
            Hitl.notifyHitlRequest db sessionId taskId tenant thread) with
          | none => rfl
          | some after =>
              obtain ⟨tenant, -, recorded⟩ := Option.bind_eq_some_iff.mp recorded
              obtain ⟨thread, -, recorded⟩ := Option.bind_eq_some_iff.mp recorded
              exact activeAt_of_notified recorded other id

theorem taken_of_ok {s tenant admin : Hitl.Uuid} {response : Hitl.SessionResponse}
    (taken : Hitl.takeSession rls db s tenant admin = .ok (db', response)) :
    ∃ row, db.sessions s = some row ∧ row.status = .pending ∧ response.threadId = row.threadId ∧
      ∀ other, db'.sessions other =
        if other = s then some { row with adminUserId := some admin, status := .active } else db.sessions other := by
  cases selected : db.selectSession (Hitl.tenantDbContext rls tenant) s with
  | none => simp [Hitl.takeSession, selected] at taken
  | some row =>
      by_cases pending : row.status = .pending
      · simp only [Hitl.takeSession, selected, pending, ne_eq, not_true_eq_false, ↓reduceIte, Except.ok.injEq,
          Prod.mk.injEq] at taken
        obtain ⟨rfl, rfl⟩ := taken
        exact ⟨row, (Hitl.Db.selectSession_eq_some.mp selected).1, pending, rfl,
          fun other => Hitl.Db.updateSession_sessions (by exact selected) _ other⟩
      · simp [Hitl.takeSession, selected, pending] at taken

theorem ended_of_ok {s tenant : Hitl.Uuid} {response : Hitl.SessionResponse}
    (ended : Hitl.endSession rls db s tenant = .ok (db', response)) :
    ∃ row : Hitl.SessionRow, ∀ other, db'.sessions other =
        if other = s then some { row with endedAt := some db.now, status := .resolved } else db.sessions other := by
  cases selected : db.selectSession (Hitl.tenantDbContext rls tenant) s with
  | none => simp [Hitl.endSession, selected] at ended
  | some row =>
      by_cases active : row.status = .active
      · rw [Hitl.endSession_of_active selected active] at ended
        obtain ⟨rfl, -⟩ := Prod.mk.inj (Except.ok.inj ended)
        exact ⟨row, fun other => Hitl.Db.updateSession_sessions (by exact selected) _ other⟩
      · simp [Hitl.endSession, selected, active] at ended

theorem charge_of_op {op : Hitl.Op} (accurate : ∀ s id, (s, id) ∈ charge ↔ Hitl.ActiveAt db s id)
    (next : op.step rls db = some db') (s id : Hitl.Uuid) :
    (s, id) ∈ chargeAfter rls db charge op ↔ Hitl.ActiveAt db' s id := by
  cases op with
  | notifyHitlRequest sessionId taskId tenant thread =>
      obtain rfl := Option.some.inj next
      rw [chargeAfter, accurate]
      cases recorded : Hitl.notifyHitlRequest db sessionId taskId tenant thread with
      | none => rfl
      | some after => exact (activeAt_of_notified recorded s id).symm
  | wait seconds =>
      obtain rfl := Option.some.inj next
      exact accurate s id
  | takeSession sessionId tenant admin =>
      rcases Hitl.takeSession_of_step next with ⟨e, raised, rfl⟩ | ⟨answer, returned⟩
      · simpa [chargeAfter, raised] using accurate s id
      · obtain ⟨row, found, pending, thread, sessions⟩ := taken_of_ok returned
        simp only [chargeAfter, returned, List.mem_cons, Prod.mk.injEq, accurate, thread]
        by_cases here : s = sessionId
        · subst here
          simp [Hitl.ActiveAt, found, pending, sessions, eq_comm]
        · simp [Hitl.ActiveAt, sessions, here]
  | endSession sessionId tenant =>
      rcases Hitl.endSession_of_step next with ⟨e, raised, rfl⟩ | ⟨answer, returned⟩
      · simpa [chargeAfter, raised] using accurate s id
      · obtain ⟨row, sessions⟩ := ended_of_ok returned
        simp only [chargeAfter, returned, List.mem_filter, accurate, decide_eq_true_eq]
        by_cases here : s = sessionId
        · subst here
          simp [Hitl.ActiveAt, sessions]
        · simp [Hitl.ActiveAt, sessions, here]
  | pollEscalationTasks pick ticket =>
      rw [chargeAfter, accurate]
      cases Hitl.step_effect next with
      | none threads sessions => simp only [Hitl.ActiveAt, sessions]
      | @escalated _ sessionId row found pending threads sessions =>
          by_cases here : s = sessionId
          · subst here
            simp [Hitl.ActiveAt, found, pending, sessions]
          · simp [Hitl.ActiveAt, sessions, here]

theorem accurate_throughout (w : Watch) (events : List Event) (accurate : w.Accurate) :
    Throughout (Watch.step uuid rls) Watch.Accurate w events := by
  refine throughout_of_step ?_ accurate
  intro w event w' accurate next
  obtain ⟨desk, stepped, rfl⟩ := Option.map_eq_some_iff.mp next
  intro sessionId id
  cases event with
  | turn threadId t session task =>
      obtain rfl := Option.some.inj stepped
      exact (accurate sessionId id).trans (activeAt_of_notify _ _ _ _ _).symm
  | admin op =>
      obtain ⟨db, moved, rfl⟩ := Option.map_eq_some_iff.mp stepped
      exact charge_of_op accurate moved sessionId id

end

/-! ## No turn is silent -/

section
variable {services : Services} {s : AgentState} {run : AgentRun}

/-- An update other than that of `llm_generate` marks the reply as sent only with something on the queue. -/
theorem said_handleUpdate {u : AgentUpdate} (other : u.node ≠ .llmGenerate) (count : Nat) {c : Consumer}
    (said : c.responseSent = true → c.items ≠ []) (reply : (handleUpdate count u c).responseSent = true) :
    (handleUpdate count u c).items ≠ [] := by
  rw [items_handleUpdate]
  intro nothing
  simp only [List.append_eq_nil_iff] at nothing
  obtain ⟨⟨⟨before, tokens⟩, response⟩, -⟩ := nothing
  have unsent : c.responseSent = false := by
    cases sent : c.responseSent with
    | false => rfl
    | true => exact absurd before (said sent)
  have replied : u.state.llmResponse ≠ "" := by
    simpa [responseSent_handleUpdate, unsent] using reply
  have drained : (arrived count u c).queue = [] := by
    have empty : (arrived count u c).items = [] := by
      rw [arrived, items_get, items_put, before, tokens, List.append_nil]
    exact (List.append_eq_nil_iff.mp empty).2
  have waiting : (arrived count u c).responseSent = false := unsent
  simp [responseItems, replied, drained, waiting, other] at response

theorem said_handleUpdates {us : List AgentUpdate} (others : ∀ u ∈ us, u.node ≠ .llmGenerate) (counts : List Nat)
    {c : Consumer} (said : c.responseSent = true → c.items ≠ []) :
    (handleUpdates counts us c).responseSent = true → (handleUpdates counts us c).items ≠ [] := by
  induction us generalizing counts c with
  | nil => exact said
  | cons u us ih =>
      obtain ⟨here, later⟩ := List.forall_mem_cons.mp others
      exact ih later counts.tail (said_handleUpdate here _ said)

/-- A graph run that raises leaves the apology, unless something was said before. -/
theorem said_of_raised (counts : List Nat) (raised : run.outcome = .raised)
    (others : ∀ u ∈ run.updates, u.node ≠ .llmGenerate) : (consumeStream counts run).items ≠ [] := by
  have said := said_handleUpdates others counts (c := .start) (by simp [Consumer.start])
  unfold consumeStream handleFailure
  split
  · rename_i quiet
    exact said (quiet.resolve_left (by simp [raised]))
  · rw [items_put]
    simp

theorem responseSent_handleUpdates (counts : List Nat) (us : List AgentUpdate) (c : Consumer) :
    (handleUpdates counts us c).responseSent = (c.responseSent || us.any fun u => u.state.llmResponse ≠ "") := by
  induction us generalizing counts c with
  | nil => simp [handleUpdates]
  | cons u us ih =>
      rw [handleUpdates, ih, responseSent_handleUpdate, List.any_cons, Bool.or_assoc]

theorem said_of_reply (counts : List Nat) (others : ∀ u ∈ run.updates, u.node ≠ .llmGenerate)
    (reply : ∃ u ∈ run.updates, u.state.llmResponse ≠ "") : (consumeStream counts run).items ≠ [] := by
  have sent : (handleUpdates counts run.updates .start).responseSent = true := by
    simpa [responseSent_handleUpdates] using Or.inr reply
  have said := said_handleUpdates others counts (c := .start) (by simp [Consumer.start]) sent
  intro nothing
  exact said (List.prefix_nil.mp (nothing ▸ items_prefix_handleFailure run.outcome _))

theorem generates_answer (path : AnswerPath services s run) :
    ∃ u ∈ run.updates, ∃ messages, Effect.completion messages ∈ u.effects := by
  have asked : .completion (llmMessages services s) ∈ (llmGenerateNode services s).2 := by
    unfold llmGenerateNode
    dsimp only
    split
    · exact List.mem_cons_self
    · split <;> exact List.mem_cons_self
  cases path with
  | rejected generated _ _ | flagged generated _ _ _ | passed generated _ _ _ =>
      rw [generated] at asked
      exact ⟨_, List.mem_cons_self, _, asked⟩

theorem not_silent (t : ChatTurn) (saved : AgentState) : ¬ Silent t saved := by
  intro silent
  have unsaid : (consumeStream t.counts (turn t.services (t.payload.merge saved))).items = [] := silent.unsaid
  have ungenerated := silent.ungenerated
  rw [ChatTurn.run] at ungenerated
  generalize eq : turn t.services (t.payload.merge saved) = run at unsaid ungenerated
  have path := turn_path t.services (t.payload.merge saved)
  rw [eq] at path
  cases path with
  | preprocessRaised _ => exact said_of_raised t.counts rfl (by simp) unsaid
  | retrievalRaised _ _ _ => exact said_of_raised t.counts rfl (by simp) unsaid
  | handedOff _ _ =>
      refine said_of_reply t.counts (by simp) ?_ unsaid
      simp [hitlNode, transferText]
  | @toolAnswered _ s₃ _ _ _ | @ragAnswered _ s₃ _ _ _ =>
      obtain ⟨u, here, messages, asked⟩ := generates_answer (answer_path t.services s₃)
      exact ungenerated u (by simp [here]) messages asked

end

/-- While a human is in charge the bot is silent exactly as long as no turn is run. -/
theorem botSilent_iff_noTurn (uuid : String → Option Hitl.Uuid) (rls : Bool) (w : Watch) (events : List Event) :
    Along (Watch.step uuid rls) (BotSilent uuid) w events ↔ Along (Watch.step uuid rls) (NoTurn uuid) w events := by
  refine along_iff_along (fun _ => True) ?_ (fun _ _ _ _ _ _ => trivial) trivial
  intro w event _
  cases event with
  | turn threadId t sessionId taskId => exact imp_congr_right fun _ => iff_false_intro (not_silent t _)
  | admin op => exact Iff.rfl

def watched : Watch := ⟨openDesk, []⟩

theorem greeting_whileTaken : ¬ ∀ events : List Event,
    Along (Watch.step sampleUuid false) (BotSilent sampleUuid) watched events := by
  intro claim
  have taken : (exec (Watch.step sampleUuid false) watched (helpedOnce.take 2)).map (·.charge) =
      some [(10, 0x40008000000000000001)] := by decide +kernel
  obtain ⟨w, run, charge⟩ := Option.map_eq_some_iff.mp taken
  have along := claim (helpedOnce.take 2 ++ [.turn customerThread (customerSays "你好") 12 13])
  have inCharge : w.InCharge sampleUuid customerThread :=
    ⟨0x40008000000000000001, rfl, 10, by simp [charge]⟩
  exact not_silent _ _ ((along.after run _ rfl).1 inCharge)

end CuckooEcho.Chat
