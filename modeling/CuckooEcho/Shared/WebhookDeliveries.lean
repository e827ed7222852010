import CuckooEcho.Shared.WebhookService

namespace CuckooEcho.Shared.Webhooks
open Lib

/-! ## Every event is delivered -/

section
variable {Payload : Type*}

/-- All attempts so far have failed, and there are fewer than three. -/
structure Pending (t : Tracked Payload) : Prop where
  attempts : t.delivery.attempts = t.exchanges.length
  few : t.exchanges.length < 3
  failed : ∀ exchange ∈ t.exchanges, succeeded exchange.2 = false

/-- Only the last attempt can have succeeded, and if it has not it was the third one. -/
structure Settled (t : Tracked Payload) : Prop where
  attempts : t.delivery.attempts = t.exchanges.length
  few : t.exchanges.length ≤ 3
  last : ∃ earlier last, t.exchanges = earlier ++ [last] ∧ (∀ exchange ∈ earlier, succeeded exchange.2 = false) ∧
    (succeeded last.2 = true ∧ t.delivery.status = .success ∨
      succeeded last.2 = false ∧ t.exchanges.length = 3 ∧ t.delivery.status = .failed)

def WebhookService.deliveries (m : WebhookService Payload) : List (Tracked Payload) :=
  m.queue ++ m.retrying ++ m.dropped ++ m.persisted

/-- No event raises an error, and each has a delivery for each webhook that it concerns. Each delivery waits in the
queue or to be retried, is persisted once, or is left alone because its webhook has been deleted. -/
structure Delivered (m : WebhookService Payload) : Prop where
  raised : ∀ e ∈ m.events, e.raised = none
  queued : ∀ e ∈ m.events, e.queued = e.matching
  made : (m.deliveries.map (·.delivery.webhookId)).Perm (m.events.flatMap (·.queued))
  numbered : (m.deliveries.map (·.number)).Perm (List.range m.queued)
  pending : ∀ t ∈ m.queue, Pending t
  retrying : ∀ t ∈ m.retrying, Pending t
  settled : ∀ t ∈ m.persisted, Settled t
  deleted : ∀ t ∈ m.dropped, t.delivery.webhookId ∈ m.deleted

/-- The event concerns no webhook. -/
def Unmatched (m : WebhookService Payload) : Act Payload → Prop
  | .emit _ tenantId eventType _ => m.matching tenantId eventType = []
  | _ => True

/-! ### As the code is -/

/-- Nothing ever gets into the queue. -/
structure Silent (m : WebhookService Payload) : Prop where
  queue : m.queue = []
  retrying : m.retrying = []
  queued : m.queued = 0
  dropped : m.dropped = []
  persisted : m.persisted = []
  events : ∀ e ∈ m.events, e.queued = []

theorem emitEvent_none (m : WebhookService Payload) (now tenantId eventType : String) (payload : Payload) :
    m.emitEvent none now tenantId eventType payload =
      { m with events := ⟨(m.matching tenantId eventType).map (·.id), [],
        if m.matching tenantId eventType = [] then none
        else some ⟨["created_at"], "Field required"⟩⟩ :: m.events } := by
  rw [WebhookService.emitEvent]
  cases m.matching tenantId eventType with
  | nil => rfl
  | cons webhook webhooks => rfl

theorem Silent.step {wire : Wire Payload} {m m' : WebhookService Payload} (h : Silent m) {act : Act Payload}
    (next : step wire m act = some m') : Silent m' := by
  cases act with
  | create => exact Option.some.inj next ▸ ⟨h.queue, h.retrying, h.queued, h.dropped, h.persisted, h.events⟩
  | delete webhookId =>
      obtain rfl := Option.some.inj next
      rw [WebhookService.deleteWebhook]
      split
      · exact ⟨h.queue, h.retrying, h.queued, h.dropped, h.persisted, h.events⟩
      · exact h
  | emit now tenantId eventType payload =>
      obtain rfl := Option.some.inj next
      rw [emitEvent_none]
      exact ⟨h.queue, h.retrying, h.queued, h.dropped, h.persisted, List.forall_mem_cons.mpr ⟨rfl, h.events⟩⟩
  | deliver now response =>
      rw [Webhooks.step, stepWith, WebhookService.deliverPending, h.queue] at next
      cases next
  | retry i =>
      rw [Webhooks.step, stepWith, WebhookService.retryDelivery, h.retrying] at next
      cases next

theorem Silent.delivered {m : WebhookService Payload} (h : Silent m)
    (events : ∀ e ∈ m.events, e.raised = none ∧ e.matching = []) : Delivered m := by
  have none : m.deliveries = [] := by
    rw [WebhookService.deliveries, h.queue, h.retrying, h.dropped, h.persisted]
    rfl
  constructor
  · exact fun e member => (events e member).1
  · exact fun e member => (h.events e member).trans (events e member).2.symm
  · rw [none, List.flatMap_eq_nil_iff.mpr h.events]
    exact List.Perm.refl _
  · rw [none, h.queued]
    exact List.Perm.refl _
  · rw [h.queue]
    exact List.forall_mem_nil _
  · rw [h.retrying]
    exact List.forall_mem_nil _
  · rw [h.persisted]
    exact List.forall_mem_nil _
  · rw [h.dropped]
    exact List.forall_mem_nil _

theorem silent_initial (webhooks : List WebhookConfig) : Silent (.initial webhooks : WebhookService Payload) :=
  ⟨rfl, rfl, rfl, rfl, rfl, List.forall_mem_nil _⟩

theorem Unmatched.step {wire : Wire Payload} {m m' : WebhookService Payload} (h : Silent m)
    (events : ∀ e ∈ m.events, e.raised = none ∧ e.matching = []) {act : Act Payload} (unmatched : Unmatched m act)
    (next : step wire m act = some m') : ∀ e ∈ m'.events, e.raised = none ∧ e.matching = [] := by
  cases act with
  | create => exact Option.some.inj next ▸ events
  | delete webhookId =>
      obtain rfl := Option.some.inj next
      rw [WebhookService.deleteWebhook]
      split <;> exact events
  | emit now tenantId eventType payload =>
      obtain rfl := Option.some.inj next
      have none : m.matching tenantId eventType = [] := unmatched
      rw [emitEvent_none, none]
      exact List.forall_mem_cons.mpr ⟨⟨rfl, rfl⟩, events⟩
  | deliver now response =>
      rw [Webhooks.step, stepWith, WebhookService.deliverPending, h.queue] at next
      cases next
  | retry i =>
      rw [Webhooks.step, stepWith, WebhookService.retryDelivery, h.retrying] at next
      cases next

theorem unmatched_of_delivered {wire : Wire Payload} {m m' : WebhookService Payload} {act : Act Payload}
    (next : step wire m act = some m') (delivered : Delivered m') : Unmatched m act := by
  cases act with
  | emit now tenantId eventType payload =>
      obtain rfl := Option.some.inj next
      have raised := delivered.raised
      rw [emitEvent_none] at raised
      have here := (List.forall_mem_cons.mp raised).1
      by_contra matching
      rw [Unmatched] at matching
      rw [if_neg matching] at here
      cases here
  | _ => trivial

/-- Events are delivered in exactly the runs in which no event concerns a webhook: every other event raises an error,
since the deliveries are made without the time of their creation. -/
theorem delivered_iff_unmatched (wire : Wire Payload) (webhooks : List WebhookConfig) (acts : List (Act Payload)) :
    Throughout (step wire) Delivered (.initial webhooks) acts ↔
      Along (step wire) Unmatched (.initial webhooks) acts := by
  refine throughout_iff_along_any
    (fun m : WebhookService Payload => Silent m ∧ ∀ e ∈ m.events, e.raised = none ∧ e.matching = [])
    (fun m h => h.1.delivered h.2) ?_ ?_ ⟨silent_initial webhooks, List.forall_mem_nil _⟩
  · exact fun m act m' h unmatched next => ⟨h.1.step next, unmatched.step h.1 h.2 next⟩
  · exact fun m act m' h next delivered => unmatched_of_delivered next delivered

/-! ### With the time of creation -/

/-- A delivery is known to the service by its webhook. -/
structure Stocked (m : WebhookService Payload) : Prop where
  delivered : Delivered m
  keyed : ∀ id webhook, m.webhooks.get id = some webhook → webhook.id = id
  known : ∀ t ∈ m.queue ++ m.retrying,
    (m.webhooks.get t.delivery.webhookId).isSome ∨ t.delivery.webhookId ∈ m.deleted

def fresh (createdAt now eventType : String) (payload : Payload) : Nat → List WebhookConfig → List (Tracked Payload)
  | _, [] => []
  | number, webhook :: webhooks =>
      { number, delivery := { id := "del_" ++ now, webhookId := webhook.id, eventType, payload, createdAt } } ::
        fresh createdAt now eventType payload (number + 1) webhooks

section
variable {createdAt now eventType : String} {payload : Payload}

theorem queueDeliveries_some (m : WebhookService Payload) (webhooks : List WebhookConfig) :
    WebhookService.queueDeliveries (some createdAt) now eventType payload m webhooks =
      ({ m with
        queue := m.queue ++ fresh createdAt now eventType payload m.queued webhooks
        queued := m.queued + webhooks.length }, webhooks.map (·.id), none) := by
  induction webhooks generalizing m with
  | nil => simp [WebhookService.queueDeliveries, fresh]
  | cons webhook webhooks ih =>
      rw [WebhookService.queueDeliveries, WebhookService.queueDelivery, WebhookDelivery.validate, Except.map]
      dsimp only
      rw [ih]
      simp [fresh, Nat.add_comm, Nat.add_left_comm]

theorem fresh_numbers (number : Nat) (webhooks : List WebhookConfig) :
    (fresh createdAt now eventType payload number webhooks).map (·.number) = List.range' number webhooks.length := by
  induction webhooks generalizing number with
  | nil => rfl
  | cons webhook webhooks ih => exact congrArg (number :: ·) (ih (number + 1))

theorem fresh_webhookIds (number : Nat) (webhooks : List WebhookConfig) :
    (fresh createdAt now eventType payload number webhooks).map (·.delivery.webhookId) = webhooks.map (·.id) := by
  induction webhooks generalizing number with
  | nil => rfl
  | cons webhook webhooks ih => exact congrArg (webhook.id :: ·) (ih (number + 1))

theorem fresh_pending {number : Nat} {webhooks : List WebhookConfig} {t : Tracked Payload}
    (member : t ∈ fresh createdAt now eventType payload number webhooks) : Pending t := by
  induction webhooks generalizing number with
  | nil => cases member
  | cons webhook webhooks ih =>
      obtain rfl | later := List.mem_cons.mp member
      · exact ⟨rfl, Nat.zero_lt_succ 2, List.forall_mem_nil _⟩
      · exact ih later

end

theorem exchanged_status (t : Tracked Payload) (now : String) (sent : Post) (response : Response) :
    (t.exchanged now sent response).delivery.status = if succeeded response then .success else .failed := by
  cases response with
  | ok status => simp [Tracked.exchanged, WebhookDelivery.answered, succeeded]
  | error text => rfl

theorem exchanged_kept (t : Tracked Payload) (now : String) (sent : Post) (response : Response) :
    (t.exchanged now sent response).number = t.number ∧
      (t.exchanged now sent response).delivery.webhookId = t.delivery.webhookId ∧
      (t.exchanged now sent response).delivery.attempts = t.delivery.attempts + 1 := by
  cases response <;> exact ⟨rfl, rfl, rfl⟩

section
variable {t : Tracked Payload} (now : String) (sent : Post) (response : Response)

theorem Pending.length_exchanged (h : Pending t) :
    (t.exchanged now sent response).delivery.attempts = (t.exchanged now sent response).exchanges.length := by
  rw [(exchanged_kept t now sent response).2.2, h.attempts]
  simp [Tracked.exchanged]

theorem Pending.again (h : Pending t) (failed : (t.exchanged now sent response).delivery.status = .failed)
    (few : (t.exchanged now sent response).delivery.attempts < 3) : Pending (t.exchanged now sent response) := by
  refine ⟨h.length_exchanged now sent response, ?_, ?_⟩
  · rwa [← h.length_exchanged now sent response]
  · refine List.forall_mem_append.mpr ⟨h.failed, List.forall_mem_singleton.mpr ?_⟩
    rw [exchanged_status] at failed
    cases ok : succeeded response with
    | false => rfl
    | true => simp [ok] at failed

theorem Pending.settles (h : Pending t) (last : ¬ ((t.exchanged now sent response).delivery.status = .failed ∧
    (t.exchanged now sent response).delivery.attempts < 3)) : Settled (t.exchanged now sent response) := by
  have length := h.length_exchanged now sent response
  have three : (t.exchanged now sent response).exchanges.length ≤ 3 := by
    rw [← length, (exchanged_kept t now sent response).2.2, h.attempts]
    exact h.few
  refine ⟨length, three, t.exchanges, (sent, response), rfl, h.failed, ?_⟩
  rw [exchanged_status, length] at last
  rw [exchanged_status]
  cases ok : succeeded response with
  | true => exact Or.inl ⟨rfl, rfl⟩
  | false =>
      rw [ok] at last
      exact Or.inr ⟨rfl, Nat.le_antisymm three (Nat.not_lt.mp fun few => last ⟨rfl, few⟩), rfl⟩

end

/-- Every delivery is where it was but one, which has moved. -/
theorem map_perm {β : Type*} {f : Tracked Payload → β} {m : WebhookService Payload} {t t' : Tracked Payload}
    {queue after : List (Tracked Payload)} (next : m.queue = t :: queue) (same : f t' = f t)
    (moved : after.Perm (t' :: (queue ++ m.retrying ++ m.dropped ++ m.persisted))) {expected : List β}
    (before : (m.deliveries.map f).Perm expected) : (after.map f).Perm expected := by
  refine (moved.map f).trans ?_
  rw [WebhookService.deliveries, next] at before
  simpa [same] using before

theorem Stocked.deliver {wire : Wire Payload} {m m' : WebhookService Payload} (h : Stocked m) {now : String}
    {response : Response} (next : m.deliverPending wire now response = some m') : Stocked m' := by
  rw [WebhookService.deliverPending] at next
  cases waiting : m.queue with
  | nil =>
      rw [waiting] at next
      cases next
  | cons t queue =>
      rw [waiting] at next
      obtain rfl := Option.some.inj next
      have pending := h.delivered.pending
      have known := h.known
      rw [waiting] at pending known
      obtain ⟨here, later⟩ := List.forall_mem_cons.mp pending
      obtain ⟨mine, others⟩ := List.forall_mem_cons.mp known
      rw [WebhookService.executeDelivery]
      dsimp only
      cases found : m.webhooks.get t.delivery.webhookId with
      | none =>
          have deleted := mine.resolve_left (by simp [found])
          have moved : ((queue ++ m.retrying ++ t :: m.dropped) ++ m.persisted).Perm
              (t :: (queue ++ m.retrying ++ m.dropped ++ m.persisted)) :=
            List.perm_middle.append_right m.persisted
          exact {
            delivered := {
              raised := h.delivered.raised
              queued := h.delivered.queued
              made := map_perm waiting rfl moved h.delivered.made
              numbered := map_perm waiting rfl moved h.delivered.numbered
              pending := later
              retrying := h.delivered.retrying
              settled := h.delivered.settled
              deleted := List.forall_mem_cons.mpr ⟨deleted, h.delivered.deleted⟩ }
            keyed := h.keyed
            known := others }
      | some webhook =>
          dsimp only
          generalize WebhookService.post wire webhook t.delivery = sent
          obtain ⟨number, webhookId, -⟩ := exchanged_kept t now sent response
          split
          · rename_i again
            have moved : ((queue ++ (m.retrying ++ [t.exchanged now sent response])) ++ m.dropped ++
                m.persisted).Perm
                (t.exchanged now sent response :: (queue ++ m.retrying ++ m.dropped ++ m.persisted)) := by
              rw [← List.append_assoc queue]
              exact ((List.perm_append_singleton _ _).append_right m.dropped).append_right m.persisted
            exact {
              delivered := {
                raised := h.delivered.raised
                queued := h.delivered.queued
                made := map_perm waiting webhookId moved h.delivered.made
                numbered := map_perm waiting number moved h.delivered.numbered
                pending := later
                retrying := List.forall_mem_append.mpr ⟨h.delivered.retrying,
                  List.forall_mem_singleton.mpr (here.again now sent response again.1 again.2)⟩
                settled := h.delivered.settled
                deleted := h.delivered.deleted }
              keyed := h.keyed
              known := by
                rw [← List.append_assoc]
                exact List.forall_mem_append.mpr ⟨others, List.forall_mem_singleton.mpr (by rwa [webhookId])⟩ }
          · rename_i last
            have moved : (queue ++ m.retrying ++ m.dropped ++ t.exchanged now sent response :: m.persisted).Perm
                (t.exchanged now sent response :: (queue ++ m.retrying ++ m.dropped ++ m.persisted)) :=
              List.perm_middle
            exact {
              delivered := {
                raised := h.delivered.raised
                queued := h.delivered.queued
                made := map_perm waiting webhookId moved h.delivered.made
                numbered := map_perm waiting number moved h.delivered.numbered
                pending := later
                retrying := h.delivered.retrying
                settled := List.forall_mem_cons.mpr ⟨here.settles now sent response last, h.delivered.settled⟩
                deleted := h.delivered.deleted }
              keyed := h.keyed
              known := others }

theorem Stocked.retry {m m' : WebhookService Payload} (h : Stocked m) {i : Nat}
    (next : m.retryDelivery i = some m') : Stocked m' := by
  obtain ⟨t, chosen, rfl⟩ := Option.map_eq_some_iff.mp next
  obtain ⟨inside, chosen⟩ := List.getElem?_eq_some_iff.mp chosen
  have member : t ∈ m.retrying := chosen ▸ List.getElem_mem inside
  have waiting : (m.queue ++ [t] ++ m.retrying.eraseIdx i).Perm (m.queue ++ m.retrying) := by
    rw [List.append_assoc, ← chosen]
    exact (List.getElem_cons_eraseIdx_perm inside).append_left m.queue
  have moved : (m.queue ++ [t] ++ m.retrying.eraseIdx i ++ m.dropped ++ m.persisted).Perm m.deliveries :=
    (waiting.append_right m.dropped).append_right m.persisted
  exact {
    delivered := {
      raised := h.delivered.raised
      queued := h.delivered.queued
      made := (moved.map _).trans h.delivered.made
      numbered := (moved.map _).trans h.delivered.numbered
      pending := List.forall_mem_append.mpr
        ⟨h.delivered.pending, List.forall_mem_singleton.mpr (h.delivered.retrying t member)⟩
      retrying := fun other kept => h.delivered.retrying other (List.mem_of_mem_eraseIdx kept)
      settled := h.delivered.settled
      deleted := h.delivered.deleted }
    keyed := h.keyed
    known := fun other kept => h.known other (waiting.mem_iff.mp kept) }

theorem Stocked.emit {m : WebhookService Payload} (h : Stocked m)
    (createdAt now tenantId eventType : String) (payload : Payload) :
    Stocked (m.emitEvent (some createdAt) now tenantId eventType payload) := by
  rw [WebhookService.emitEvent, queueDeliveries_some]
  dsimp only
  generalize made : fresh createdAt now eventType payload m.queued (m.matching tenantId eventType) = new
  have waiting : (m.queue ++ new ++ m.retrying).Perm (new ++ (m.queue ++ m.retrying)) := by
    rw [← List.append_assoc]
    exact List.perm_append_comm.append_right m.retrying
  have moved : (m.queue ++ new ++ m.retrying ++ m.dropped ++ m.persisted).Perm (new ++ m.deliveries) := by
    rw [WebhookService.deliveries, ← List.append_assoc new, ← List.append_assoc new]
    exact (waiting.append_right m.dropped).append_right m.persisted
  exact {
    delivered := {
      raised := List.forall_mem_cons.mpr ⟨rfl, h.delivered.raised⟩
      queued := List.forall_mem_cons.mpr ⟨rfl, h.delivered.queued⟩
      made := by
        refine (moved.map _).trans ?_
        rw [List.map_append, ← made, fresh_webhookIds, List.flatMap_cons]
        exact h.delivered.made.append_left _
      numbered := by
        refine (moved.map _).trans ?_
        rw [List.map_append, ← made, fresh_numbers]
        refine (h.delivered.numbered.append_left _).trans (List.perm_append_comm.trans ?_)
        have joined : List.range m.queued ++ List.range' m.queued (m.matching tenantId eventType).length =
            List.range (m.queued + (m.matching tenantId eventType).length) := by
          rw [List.range_eq_range', List.range_eq_range', ← List.range'_append_1, Nat.zero_add]
        rw [joined]
      pending := List.forall_mem_append.mpr ⟨h.delivered.pending, fun t member => fresh_pending (made ▸ member)⟩
      retrying := h.delivered.retrying
      settled := h.delivered.settled
      deleted := h.delivered.deleted }
    keyed := h.keyed
    known := by
      intro t member
      rcases List.mem_append.mp (waiting.mem_iff.mp member) with member | member
      · have named : t.delivery.webhookId ∈ (m.matching tenantId eventType).map (·.id) := by
          rw [← fresh_webhookIds m.queued, made]
          exact List.mem_map_of_mem member
        obtain ⟨webhook, concerned, same⟩ := List.mem_map.mp named
        obtain ⟨id, found⟩ := Dict.mem_values.mp (List.mem_filter.mp (List.mem_filter.mp concerned).1).1
        rw [← same, h.keyed id webhook found]
        exact Or.inl (Option.isSome_of_eq_some found)
      · exact h.known t member }

theorem Stocked.step {createdAt : String} {wire : Wire Payload} (m : WebhookService Payload) (act : Act Payload)
    (m' : WebhookService Payload) (h : Stocked m) (next : stepWith (some createdAt) wire m act = some m') :
    Stocked m' := by
  cases act with
  | create now tenantId url secretKey eventTypes =>
      obtain rfl := Option.some.inj next
      refine ⟨⟨h.delivered.raised, h.delivered.queued, h.delivered.made, h.delivered.numbered, h.delivered.pending,
        h.delivered.retrying, h.delivered.settled, h.delivered.deleted⟩, fun id webhook found => ?_, fun t member => ?_⟩
      · rw [WebhookService.createWebhook, Dict.get_set] at found
        split at found
        · rename_i same
          exact Option.some.inj found ▸ same.symm
        · exact h.keyed id webhook found
      · rw [WebhookService.createWebhook, Dict.get_set]
        split
        · exact Or.inl rfl
        · exact h.known t member
  | delete webhookId =>
      obtain rfl := Option.some.inj next
      rw [WebhookService.deleteWebhook]
      split
      · refine ⟨⟨h.delivered.raised, h.delivered.queued, h.delivered.made, h.delivered.numbered, h.delivered.pending,
          h.delivered.retrying, h.delivered.settled, fun t member => List.mem_cons_of_mem _ (h.delivered.deleted t member)⟩,
          fun id webhook found => ?_, fun t member => ?_⟩
        · rw [Dict.get_erase] at found
          split at found
          · cases found
          · exact h.keyed id webhook found
        · rw [Dict.get_erase]
          split
          · rename_i same
            exact Or.inr (same ▸ List.mem_cons_self ..)
          · exact (h.known t member).imp_right (List.mem_cons_of_mem _)
      · exact h
  | emit now tenantId eventType payload => exact Option.some.inj next ▸ h.emit createdAt now tenantId eventType payload
  | deliver now response => exact h.deliver next
  | retry i => exact h.retry next

/-- Were the time given, every event would be delivered in every run. -/
theorem delivered_of_createdAt (createdAt : String) (wire : Wire Payload) (webhooks : List WebhookConfig)
    (acts : List (Act Payload)) :
    Throughout (stepWith (some createdAt) wire) Delivered (.initial webhooks) acts := by
  have silent : Silent (.initial webhooks : WebhookService Payload) := silent_initial webhooks
  have keyed (id : String) (webhook : WebhookConfig)
      (found : (WebhookService.initial webhooks : WebhookService Payload).webhooks.get id = some webhook) :
      webhook.id = id := by
    obtain ⟨w, -, same⟩ := List.mem_map.mp (Dict.mem_of_get_setAll found)
    obtain ⟨rfl, rfl⟩ := Prod.mk.inj same
    rfl
  have start : Stocked (.initial webhooks : WebhookService Payload) :=
    ⟨silent.delivered (List.forall_mem_nil _), keyed, List.forall_mem_nil _⟩
  exact (throughout_of_step Stocked.step start).mono fun m h => h.delivered

end

/-- One webhook that is subscribed to the event. -/
theorem subscribed_not_delivered : ¬ ∀ (webhooks : List WebhookConfig) (acts : List (Act String)),
    Throughout (step ⟨id, fun _ _ => ""⟩) Delivered (.initial webhooks) acts := by
  intro claim
  have last := (claim [⟨"wh_1", "t1", "https://example.org", "secret", ["hitl.requested"], true⟩]
    [.emit "1" "t1" "hitl.requested" "event"]).last rfl
  exact absurd (last.raised _ (List.mem_singleton_self _)) (by decide)

end CuckooEcho.Shared.Webhooks
