import CuckooEcho.Agent.TokenUsage
import CuckooEcho.Billing.Limit
import CuckooEcho.Chat.Service

namespace CuckooEcho.Billing
open Lib Agent Chat

/-! ## What `usage_records` holds of a tenant -/

namespace Db
variable {db : Db} {tenant period : String}

def messagesUsed (db : Db) (tenant period : String) : Nat := (db.usageOf tenant period).elim 0 (·.messagesUsed)

def tokensUsed (db : Db) (tenant period : String) : Nat := (db.usageOf tenant period).elim 0 (·.tokensUsed)

theorem usageOf_map {f : UsageRow → UsageRow} (sameKey : ∀ row, (f row).tenantId = row.tenantId ∧
    (f row).period = row.period) (other : String) :
    { db with usage := db.usage.map f }.usageOf other period = (db.usageOf other period).map f := by
  have same : ((fun row : UsageRow => decide (row.tenantId = other ∧ row.period = period)) ∘ f) =
      fun row => decide (row.tenantId = other ∧ row.period = period) := by
    funext row
    rw [Function.comp_apply, (sameKey row).1, (sameKey row).2]
  rw [usageOf, List.find?_map, same, usageOf]

theorem usageOf_append_of_ne {row : UsageRow} {other : String} (different : row.tenantId ≠ other) :
    { db with usage := db.usage ++ [row] }.usageOf other period = db.usageOf other period := by
  simp [usageOf, List.find?_append, different]

theorem usageOf_append_of_none (none : db.usageOf tenant period = none) {row : UsageRow} (own : row.tenantId = tenant)
    (now : row.period = period) : { db with usage := db.usage ++ [row] }.usageOf tenant period = some row := by
  unfold usageOf at none ⊢
  rw [List.find?_append, none]
  simp [own, now]

theorem usageOf_own {row : UsageRow} (found : db.usageOf tenant period = some row) :
    row.tenantId = tenant ∧ row.period = period := by
  simpa using List.find?_some found

def afterRecord (db : Db) (tenant period : String) (messages tokens : Nat) : Db :=
  (db.recordUsage tenant period messages tokens 0 0).getD db

@[simp] theorem afterRecord_tenants (db : Db) (tenant period : String) (messages tokens : Nat) :
    (db.afterRecord tenant period messages tokens).tenants = db.tenants := by
  obtain ⟨usage, eq⟩ := recordUsage_usage db tenant period messages tokens 0 0
  rw [afterRecord, eq]

theorem afterRecord_used (registered : tenant ∈ db.tenants) (period : String) (messages tokens : Nat) :
    (db.afterRecord tenant period messages tokens).messagesUsed tenant period =
        db.messagesUsed tenant period + messages ∧
      (db.afterRecord tenant period messages tokens).tokensUsed tenant period =
        db.tokensUsed tenant period + tokens := by
  unfold afterRecord recordUsage
  rw [if_pos registered]
  cases found : db.usageOf tenant period with
  | none => simp [messagesUsed, tokensUsed, found, usageOf_append_of_none]
  | some row =>
      obtain ⟨own, now⟩ := usageOf_own found
      simp only [Option.getD_some, messagesUsed, tokensUsed]
      rw [usageOf_map (by intro row; split <;> exact ⟨rfl, rfl⟩)]
      simp [found, own, now, UsageRow.add]

theorem afterRecord_other (db : Db) (period : String) {other : String} (different : tenant ≠ other)
    (messages tokens : Nat) :
    (db.afterRecord tenant period messages tokens).usageOf other period = db.usageOf other period := by
  unfold afterRecord recordUsage
  split
  · split
    · exact usageOf_append_of_ne different
    · simp only [Option.getD_some]
      rw [usageOf_map (by intro row; split <;> exact ⟨rfl, rfl⟩)]
      cases found : db.usageOf other period with
      | none => rfl
      | some row =>
          have apart : row.tenantId ≠ tenant := fun same => different (same.symm.trans (usageOf_own found).1)
          simp [apart]
  · rfl

end Db

/-! ## The service with its billing

A generator that has released its lock looks at the tokens that its run has counted by then, and records the
message unless there are none. `_consume_stream` may still be counting. -/

structure Metered where
  service : Service
  db : Db
  unsettled : RequestId → Bool
  reported : RequestId → Nat
  completed : List (RequestId × Nat)
  recorded : List (RequestId × Nat)

inductive MeteredAction
  | service (action : Action)
  | settle (id : RequestId)
  | interrupt (id : RequestId)

namespace Metered

/-- `reported`, `completed` and `recorded` recall what the turns' providers have reported, which graph runs
have finished and what has been recorded. -/
def start (checkpoints : String → Option AgentState) (db : Db) : Metered where
  service := Service.start checkpoints
  db := db
  unsettled _ := false
  reported _ := 0
  completed := []
  recorded := []

variable (m : Metered)

def startsFrom (id : RequestId) (c : Connection) : AgentState :=
  (c.request.payload id).merge ((m.service.checkpoints c.request.threadId).getD emptyThread)

def finishes (id : RequestId) : Bool :=
  (m.service.connections id).any fun c => match c.run with
    | .executing [] .finished _ => true
    | _ => false

def observe (t : Service) : Action → Metered
  | .move id .load =>
      { m with
        service := t
        reported := Function.update m.reported id
          ((m.service.connections id).elim 0 fun c => tokensReported c.request.services (m.startsFrom id c)) }
  | .move id .finish =>
      { m with
        service := t
        completed := if m.finishes id then (id, m.reported id) :: m.completed else m.completed }
  | .move id .release =>
      { m with
        service := t
        -- A WebSocket message is not billed
        unsettled := Function.update m.unsettled id
          ((m.service.connections id).any fun c => c.request.endpoint = .completions) }
  | _ => { m with service := t }

def settle (period : String) (id : RequestId) (c : Connection) : Metered :=
  let settled := { m with unsettled := Function.update m.unsettled id false }
  if 0 < c.consumer.tokensUsed then
    { settled with
      db := m.db.afterRecord id.tenant period 1 c.consumer.tokensUsed
      recorded := (id, c.consumer.tokensUsed) :: m.recorded }
  else settled

end Metered

def Metered.step (period : String) (m : Metered) : MeteredAction → Option Metered
  | .service action => (m.service.step action).map fun t => m.observe t action
  | .settle id =>
      if m.unsettled id then (m.service.connections id).map (m.settle period id) else none
  | .interrupt id =>
      if m.unsettled id then some { m with unsettled := Function.update m.unsettled id false } else none

/-! ## Usage that is counted once -/

def ofTenant (tenant : String) (entries : List (RequestId × Nat)) : List (RequestId × Nat) :=
  entries.filter fun entry => entry.1.tenant = tenant

def Over (tenant : String) (m : Metered) : Prop :=
  ∀ id c, id.tenant = tenant → m.service.connections id = some c →
    c.handler = .gone ∧ (c.run = .idle ∨ c.run = .ended) ∧ m.unsettled id = false

/-- Once all has ended, the usage row counts the graph runs that have finished and the tokens reported for them. -/
def CountedOnce (tenant period : String) (m : Metered) : Prop :=
  Over tenant m →
    m.db.messagesUsed tenant period = (ofTenant tenant m.completed).length ∧
      m.db.tokensUsed tenant period = ((ofTenant tenant m.completed).map (·.2)).sum

def hasEnded : RunState → Bool
  | .ended => true
  | _ => false

def SteadyMove (m : Metered) (id : RequestId) (c : Connection) : Move → Prop
  | .load => CountsTokens c.request.services (m.startsFrom id c)
  | .cancel => c.handler ≠ .releasing ∧ (c.handler = .serving → hasEnded c.run)
  | _ => True

instance (m : Metered) (id : RequestId) (c : Connection) : ∀ move, Decidable (SteadyMove m id c move)
  | .load => inferInstanceAs (Decidable (CountsTokens _ _))
  | .cancel => inferInstanceAs (Decidable (_ ∧ _))
  | .acquire | .start | .attach | .readQueue | .pushToken | .update | .finish | .pop | .release => isTrue trivial

/-- The tenant's turns are streams whose tokens are counted, and their clients stay until the message has been
recorded, unless they leave before the run begins or once it has ended. -/
def Steady (tenant : String) (m : Metered) : MeteredAction → Prop
  | .service (.arrive id request) => id.tenant = tenant → request.endpoint = .completions
  | .service (.move id move) => id.tenant = tenant → ∀ c ∈ m.service.connections id, SteadyMove m id c move
  | .interrupt id => id.tenant ≠ tenant
  | _ => True

instance (tenant : String) (m : Metered) : ∀ action, Decidable (Steady tenant m action)
  | .service (.arrive _ _) => inferInstanceAs (Decidable (_ → _))
  | .service (.move _ _) => inferInstanceAs (Decidable (_ → _))
  | .interrupt _ => inferInstanceAs (Decidable (_ ≠ _))
  | .service (.get _ _) | .service (.tick _) | .settle _ => isTrue trivial

/-! ## Where a request is with its billing -/

structure Unbilled (m : Metered) (id : RequestId) : Prop where
  settled : m.unsettled id = false
  uncompleted : ∀ n, (id, n) ∉ m.completed
  unrecorded : ∀ n, (id, n) ∉ m.recorded

def Owes (outcome : StateGraph.Outcome) (tokens reported : Nat) : Prop :=
  if outcome = .finished then 0 < reported ∧ tokens = reported else tokens = 0

def Completed (m : Metered) (id : RequestId) (tokens : Nat) : Prop :=
  ∀ n, (id, n) ∈ m.completed ↔ n = tokens ∧ 0 < tokens

inductive Stage (m : Metered) (id : RequestId) (c : Connection) : Prop
  | before (run : c.run = .idle) (handler : c.handler ≠ .serving ∧ c.handler ≠ .releasing)
      (tokens : c.consumer.tokensUsed = 0) (unbilled : Unbilled m id)
  | opening (run : c.run = .spawned ∨ c.run = .attached) (serving : c.handler = .serving)
      (tokens : c.consumer.tokensUsed = 0) (unbilled : Unbilled m id)
  | running {us : List AgentUpdate} {outcome : StateGraph.Outcome}
      {reading : Option (List (Option RequestId × String))} (run : c.run = .executing us outcome reading)
      (serving : c.handler = .serving)
      (owes : Owes outcome (us.foldl lastTokens c.consumer.tokensUsed) (m.reported id)) (unbilled : Unbilled m id)
  | ended (run : c.run = .ended) (handler : c.handler = .serving ∨ c.handler = .releasing)
      (settled : m.unsettled id = false) (unrecorded : ∀ n, (id, n) ∉ m.recorded)
      (completed : Completed m id c.consumer.tokensUsed)
  | released (run : c.run = .ended) (gone : c.handler = .gone) (unsettled : m.unsettled id = true)
      (unrecorded : ∀ n, (id, n) ∉ m.recorded) (completed : Completed m id c.consumer.tokensUsed)
  | billed (run : c.run = .ended) (gone : c.handler = .gone) (settled : m.unsettled id = false)
      (recorded : ∀ n, (id, n) ∈ m.recorded ↔ (id, n) ∈ m.completed)

structure SameBills (m m' : Metered) (id : RequestId) : Prop where
  unsettled : m'.unsettled id = m.unsettled id
  reported : m'.reported id = m.reported id
  completed : ∀ n, (id, n) ∈ m'.completed ↔ (id, n) ∈ m.completed
  recorded : ∀ n, (id, n) ∈ m'.recorded ↔ (id, n) ∈ m.recorded

section
variable {m m' : Metered} {id : RequestId} {c d : Connection}

theorem Unbilled.frame (h : Unbilled m id) (same : SameBills m m' id) : Unbilled m' id where
  settled := same.unsettled.trans h.settled
  uncompleted n := (same.completed n).not.mpr (h.uncompleted n)
  unrecorded n := (same.recorded n).not.mpr (h.unrecorded n)

theorem Stage.frame (stage : Stage m id c) (same : SameBills m m' id) (run : d.run = c.run)
    (handler : d.handler = c.handler) (tokens : d.consumer.tokensUsed = c.consumer.tokensUsed) : Stage m' id d := by
  cases stage with
  | before idle apart zero unbilled =>
      exact .before (run.trans idle) (handler ▸ apart) (tokens.trans zero) (unbilled.frame same)
  | opening early serving zero unbilled =>
      exact .opening (run ▸ early) (handler.trans serving) (tokens.trans zero) (unbilled.frame same)
  | running executing serving owes unbilled =>
      refine .running (run.trans executing) (handler.trans serving) ?_ (unbilled.frame same)
      rwa [tokens, same.reported]
  | ended ran present settled unrecorded completed =>
      refine .ended (run.trans ran) (handler ▸ present) (same.unsettled.trans settled)
        (fun n => (same.recorded n).not.mpr (unrecorded n)) fun n => ?_
      rw [same.completed, tokens]
      exact completed n
  | released ran gone unsettled unrecorded completed =>
      refine .released (run.trans ran) (handler.trans gone) (same.unsettled.trans unsettled)
        (fun n => (same.recorded n).not.mpr (unrecorded n)) fun n => ?_
      rw [same.completed, tokens]
      exact completed n
  | billed ran gone settled recorded =>
      refine .billed (run.trans ran) (handler.trans gone) (same.unsettled.trans settled) fun n => ?_
      rw [same.recorded, same.completed]
      exact recorded n

theorem observe_same (m : Metered) (t : Service) {id other : RequestId} {move : Move}
    (apart : other ≠ id ∨ (move ≠ .load ∧ move ≠ .finish ∧ move ≠ .release)) :
    SameBills m (m.observe t (.move id move)) other := by
  cases move with
  | load =>
      have different : other ≠ id := by simpa using apart
      exact ⟨rfl, Function.update_of_ne different _ _, fun _ => Iff.rfl, fun _ => Iff.rfl⟩
  | finish =>
      have different : other ≠ id := by simpa using apart
      refine ⟨rfl, rfl, fun n => ?_, fun _ => Iff.rfl⟩
      simp only [Metered.observe]
      split
      · simp [different]
      · exact Iff.rfl
  | release =>
      have different : other ≠ id := by simpa using apart
      exact ⟨Function.update_of_ne different _ _, rfl, fun _ => Iff.rfl, fun _ => Iff.rfl⟩
  | _ => exact ⟨rfl, rfl, fun _ => Iff.rfl, fun _ => Iff.rfl⟩

theorem Stage.early (stage : Stage m id c) (handler : c.handler = .waiting ∨ c.handler = .acquired) :
    c.run = .idle ∧ c.consumer.tokensUsed = 0 ∧ Unbilled m id := by
  cases stage with
  | before idle apart zero unbilled => exact ⟨idle, zero, unbilled⟩
  | opening early serving zero unbilled => simp [serving] at handler
  | running executing serving owes unbilled => simp [serving] at handler
  | ended ran present settled unrecorded completed => rcases present with h | h <;> simp [h] at handler
  | released ran gone unsettled unrecorded completed => simp [gone] at handler
  | billed ran gone settled recorded => simp [gone] at handler

theorem Stage.opened (stage : Stage m id c) (run : c.run = .spawned ∨ c.run = .attached) :
    c.handler = .serving ∧ c.consumer.tokensUsed = 0 ∧ Unbilled m id := by
  cases stage with
  | before idle apart zero unbilled => simp [idle] at run
  | opening early serving zero unbilled => exact ⟨serving, zero, unbilled⟩
  | running executing serving owes unbilled => simp [executing] at run
  | ended ran present settled unrecorded completed => simp [ran] at run
  | released ran gone unsettled unrecorded completed => simp [ran] at run
  | billed ran gone settled recorded => simp [ran] at run

theorem Stage.executed (stage : Stage m id c) {us : List AgentUpdate} {outcome : StateGraph.Outcome}
    {reading : Option (List (Option RequestId × String))} (run : c.run = .executing us outcome reading) :
    c.handler = .serving ∧ Owes outcome (us.foldl lastTokens c.consumer.tokensUsed) (m.reported id) ∧
      Unbilled m id := by
  cases stage with
  | before idle apart zero unbilled => simp [idle] at run
  | opening early serving zero unbilled => rcases early with h | h <;> simp [h] at run
  | running executing serving owes unbilled =>
      obtain ⟨rfl, rfl, -⟩ := RunState.executing.inj (executing.symm.trans run)
      exact ⟨serving, owes, unbilled⟩
  | ended ran present settled unrecorded completed => simp [ran] at run
  | released ran gone unsettled unrecorded completed => simp [ran] at run
  | billed ran gone settled recorded => simp [ran] at run

theorem Stage.closing (stage : Stage m id c) (run : c.run = .ended)
    (handler : c.handler = .serving ∨ c.handler = .releasing) :
    m.unsettled id = false ∧ (∀ n, (id, n) ∉ m.recorded) ∧ Completed m id c.consumer.tokensUsed := by
  cases stage with
  | before idle apart zero unbilled => simp [idle] at run
  | opening early serving zero unbilled => rcases early with h | h <;> simp [h] at run
  | running executing serving owes unbilled => simp [executing] at run
  | ended ran present settled unrecorded completed => exact ⟨settled, unrecorded, completed⟩
  | released ran gone unsettled unrecorded completed => simp [gone] at handler
  | billed ran gone settled recorded => simp [gone] at handler

theorem Stage.releasing (stage : Stage m id c) (handler : c.handler = .releasing) : c.run = .ended := by
  cases stage with
  | before idle apart zero unbilled => exact absurd handler apart.2
  | opening early serving zero unbilled => simp [serving] at handler
  | running executing serving owes unbilled => simp [serving] at handler
  | ended ran present settled unrecorded completed => exact ran
  | released ran gone unsettled unrecorded completed => exact ran
  | billed ran gone settled recorded => exact ran

theorem tokensUsed_receive (stream : c.request.endpoint = .completions) (u : AgentUpdate) :
    (c.receive u).tokensUsed = lastTokens c.consumer.tokensUsed u := by
  have response : (pushResponse c.consumer u).tokensUsed = c.consumer.tokensUsed := by
    unfold pushResponse
    split
    · rfl
    · split <;> rfl
  have correction : (pushCorrection (pushResponse c.consumer u) u).tokensUsed = c.consumer.tokensUsed := by
    unfold pushCorrection
    split <;> exact response
  unfold Connection.receive countTokens lastTokens
  rw [stream]
  dsimp only
  split
  · rfl
  · exact correction

theorem tokensUsed_handleFailure (outcome : StateGraph.Outcome) (consumer : Consumer) :
    (handleFailure outcome consumer).tokensUsed = consumer.tokensUsed := by
  unfold handleFailure
  split <;> rfl

theorem owes_of_counts {services : Services} {s : AgentState} (counts : CountsTokens services s) :
    Owes (turn services s).outcome ((turn services s).updates.foldl lastTokens 0) (tokensReported services s) := by
  cases turn_counted counts with
  | reported finished positive tokens =>
      rw [Owes, if_pos finished]
      exact ⟨positive, tokens⟩
  | none unfinished tokens => rwa [Owes, if_neg unfinished]

theorem completed_finish {t : Service} {outcome : StateGraph.Outcome}
    {reading : Option (List (Option RequestId × String))} (found : m.service.connections id = some c)
    (executing : c.run = .executing [] outcome reading)
    (owes : Owes outcome c.consumer.tokensUsed (m.reported id)) (unbilled : Unbilled m id) :
    Completed (m.observe t (.move id .finish)) id c.consumer.tokensUsed := by
  intro n
  unfold Owes at owes
  have uncompleted := unbilled.uncompleted n
  cases outcome with
  | finished =>
      obtain ⟨positive, counted⟩ := owes
      simp [Metered.observe, Metered.finishes, found, executing, uncompleted, counted, positive]
  | raised =>
      have zero : c.consumer.tokensUsed = 0 := owes
      simp [Metered.observe, Metered.finishes, found, executing, uncompleted, zero]
  | recursionLimit =>
      have zero : c.consumer.tokensUsed = 0 := owes
      simp [Metered.observe, Metered.finishes, found, executing, uncompleted, zero]

theorem ended_of_hasEnded {run : RunState} (ended : hasEnded run) : run = .ended := by
  cases run <;> first | rfl | cases ended

theorem Stage.release (stage : Stage m id c) (found : m.service.connections id = some c)
    (stream : c.request.endpoint = .completions) (releasing : c.handler = .releasing) (t : Service)
    (run : d.run = c.run) (gone : d.handler = .gone) (tokens : d.consumer.tokensUsed = c.consumer.tokensUsed) :
    Stage (m.observe t (.move id .release)) id d := by
  have ran := stage.releasing releasing
  obtain ⟨settled, unrecorded, completed⟩ := stage.closing ran (Or.inr releasing)
  exact .released (run.trans ran) gone (by simp [Metered.observe, found, stream]) unrecorded (tokens ▸ completed)

theorem stage_moved {tenant : String} (t : Service) {move : Move} {after : Connection} {writes : List Chat.Write}
    (found : m.service.connections id = some c) (stream : c.request.endpoint = .completions) (stage : Stage m id c)
    (own : id.tenant = tenant) (steady : Steady tenant m (.service (.move id move)))
    (moved : Moved id (m.service.env c.request.threadId) c move after writes) :
    Stage (m.observe t (.move id move)) id after := by
  cases moved with
  | granted waiting free =>
      obtain ⟨idle, zero, unbilled⟩ := stage.early (Or.inl waiting)
      exact .before idle (by simp) zero (unbilled.frame (observe_same m t (by simp)))
  | refused waiting =>
      obtain ⟨idle, zero, unbilled⟩ := stage.early (Or.inl waiting)
      exact .before idle (by simp) zero (unbilled.frame (observe_same m t (by simp)))
  | started acquired =>
      obtain ⟨idle, zero, unbilled⟩ := stage.early (Or.inr acquired)
      exact .opening (Or.inl rfl) rfl zero (unbilled.frame (observe_same m t (by simp)))
  | attached spawned _ =>
      obtain ⟨serving, zero, unbilled⟩ := stage.opened (Or.inl spawned)
      exact .opening (Or.inr rfl) serving zero (unbilled.frame (observe_same m t (by simp)))
  | opened spawned socket => simp [stream] at socket
  | @loaded merged attached merge =>
      obtain ⟨serving, zero, unbilled⟩ := stage.opened (Or.inr attached)
      have counts := steady own c found
      obtain rfl : merged = m.startsFrom id c := merge
      refine .running rfl serving ?_ ⟨unbilled.settled, unbilled.uncompleted, unbilled.unrecorded⟩
      have reported : (m.observe t (.move id .load)).reported id =
          tokensReported c.request.services (m.startsFrom id c) := by
        simp [Metered.observe, found]
      rw [zero, reported]
      exact owes_of_counts counts
  | readQueue executing generates =>
      obtain ⟨serving, owes, unbilled⟩ := stage.executed executing
      exact .running rfl serving owes (unbilled.frame (observe_same m t (by simp)))
  | pushed executing =>
      obtain ⟨serving, owes, unbilled⟩ := stage.executed executing
      exact .running rfl serving owes (unbilled.frame (observe_same m t (by simp)))
  | @updated u us outcome reading executing ready =>
      obtain ⟨serving, owes, unbilled⟩ := stage.executed executing
      refine .running rfl serving ?_ (unbilled.frame (observe_same m t (by simp)))
      rw [tokensUsed_receive stream]
      exact owes
  | @finished outcome reading executing _ =>
      obtain ⟨serving, owes, unbilled⟩ := stage.executed executing
      refine .ended rfl (Or.inl serving) unbilled.settled unbilled.unrecorded ?_
      rw [tokensUsed_handleFailure]
      exact completed_finish found executing owes unbilled
  | answered executing socket => simp [stream] at socket
  | yielded _ serving queue => exact stage.frame (observe_same m t (by simp)) rfl rfl rfl
  | ended _ serving queue ran =>
      obtain ⟨settled, unrecorded, completed⟩ := stage.closing ran (Or.inl serving)
      exact .ended ran (Or.inr rfl) settled unrecorded completed
  | released releasing held => exact stage.release found stream releasing t rfl rfl rfl
  | expired releasing lost => exact stage.release found stream releasing t rfl rfl rfl
  | left idle =>
      obtain ⟨notReleasing, -⟩ := steady own c found
      have waits : c.handler = .waiting ∨ c.handler = .acquired := by simpa [notReleasing] using idle
      obtain ⟨idle, zero, unbilled⟩ := stage.early waits
      exact .before idle (by simp) zero (unbilled.frame (observe_same m t (by simp)))
  | disconnected serving _ =>
      have ran := ended_of_hasEnded ((steady own c found).2 serving)
      obtain ⟨settled, unrecorded, completed⟩ := stage.closing ran (Or.inl serving)
      exact .ended ran (Or.inr rfl) settled unrecorded completed
  | stopped serving socket => simp [stream] at socket

end

/-! ## The accounts of a tenant -/

structure Metering (tenant period : String) (m : Metered) : Prop where
  registered : tenant ∈ m.db.tenants
  streams : ∀ id c, id.tenant = tenant → m.service.connections id = some c → c.request.endpoint = .completions
  stages : ∀ id c, id.tenant = tenant → m.service.connections id = some c → Stage m id c
  absent : ∀ id, id.tenant = tenant → m.service.connections id = none → Unbilled m id
  completedOnce : (ofTenant tenant m.completed).Nodup
  recordedOnce : (ofTenant tenant m.recorded).Nodup
  messages : m.db.messagesUsed tenant period = (ofTenant tenant m.recorded).length
  tokens : m.db.tokensUsed tenant period = ((ofTenant tenant m.recorded).map (·.2)).sum

section
variable {tenant period : String} {m m' : Metered} {id : RequestId}

theorem mem_ofTenant {entries : List (RequestId × Nat)} {n : Nat} :
    (id, n) ∈ ofTenant tenant entries ↔ (id, n) ∈ entries ∧ id.tenant = tenant := by
  simp [ofTenant]

theorem ofTenant_cons_own (own : id.tenant = tenant) (n : Nat) (entries : List (RequestId × Nat)) :
    ofTenant tenant ((id, n) :: entries) = (id, n) :: ofTenant tenant entries := by
  simp [ofTenant, own]

theorem ofTenant_cons_other (other : id.tenant ≠ tenant) (n : Nat) (entries : List (RequestId × Nat)) :
    ofTenant tenant ((id, n) :: entries) = ofTenant tenant entries := by
  simp [ofTenant, other]

theorem observe_bills (m : Metered) (t : Service) (action : Action) :
    (m.observe t action).service = t ∧ (m.observe t action).db = m.db ∧
      (m.observe t action).recorded = m.recorded := by
  cases action with
  | move id move => cases move <;> exact ⟨rfl, rfl, rfl⟩
  | _ => exact ⟨rfl, rfl, rfl⟩

/-- What has ended has been recorded exactly if its graph run has finished. -/
theorem Metering.recorded_iff (h : Metering tenant period m) (ends : Over tenant m) (own : id.tenant = tenant)
    (n : Nat) : (id, n) ∈ m.recorded ↔ (id, n) ∈ m.completed := by
  cases found : m.service.connections id with
  | none =>
      have unbilled := h.absent id own found
      exact iff_of_false (unbilled.unrecorded n) (unbilled.uncompleted n)
  | some c =>
      obtain ⟨gone, run, settled⟩ := ends id c own found
      cases h.stages id c own found with
      | before idle apart zero unbilled => exact iff_of_false (unbilled.unrecorded n) (unbilled.uncompleted n)
      | opening early serving zero unbilled => simp [serving] at gone
      | running executing serving owes unbilled => simp [serving] at gone
      | ended ran present settled unrecorded completed => simp [gone] at present
      | released ran gone unsettled unrecorded completed => simp [unsettled] at settled
      | billed ran gone settled recorded => exact recorded n

theorem Metering.countedOnce (h : Metering tenant period m) : CountedOnce tenant period m := by
  intro ends
  have same : (ofTenant tenant m.recorded).Perm (ofTenant tenant m.completed) := by
    refine (List.perm_ext_iff_of_nodup h.recordedOnce h.completedOnce).mpr fun ⟨id, n⟩ => ?_
    rw [mem_ofTenant, mem_ofTenant]
    exact and_congr_left fun own => h.recorded_iff ends own n
  exact ⟨h.messages.trans same.length_eq, h.tokens.trans (same.map _).sum_nat⟩

theorem Metering.service {t : Service} {action : Action} (h : Metering tenant period m)
    (streams : ∀ id c, id.tenant = tenant → t.connections id = some c → c.request.endpoint = .completions)
    (stages : ∀ id c, id.tenant = tenant → t.connections id = some c → Stage (m.observe t action) id c)
    (absent : ∀ id, id.tenant = tenant → t.connections id = none → Unbilled (m.observe t action) id)
    (completedOnce : (ofTenant tenant (m.observe t action).completed).Nodup) :
    Metering tenant period (m.observe t action) := by
  obtain ⟨service, db, recorded⟩ := observe_bills m t action
  exact {
    registered := db ▸ h.registered
    streams := by rwa [service]
    stages := by rwa [service]
    absent := by rwa [service]
    completedOnce
    recordedOnce := recorded ▸ h.recordedOnce
    messages := by rw [db, recorded, h.messages]
    tokens := by rw [db, recorded, h.tokens] }

theorem Metering.unbilled_of_finishes (h : Metering tenant period m) {c : Connection} (own : id.tenant = tenant)
    (found : m.service.connections id = some c) (finishes : m.finishes id) : Unbilled m id := by
  simp only [Metered.finishes, found, Option.any_some] at finishes
  split at finishes
  · rename_i reading executing
    exact ((h.stages id c own found).executed executing).2.2
  · cases finishes

theorem Metering.completedOnce_move (h : Metering tenant period m) {t : Service} {c : Connection}
    (found : m.service.connections id = some c) (move : Move) :
    (ofTenant tenant (m.observe t (.move id move)).completed).Nodup := by
  cases move with
  | finish =>
      simp only [Metered.observe]
      split
      · rename_i finishes
        by_cases own : id.tenant = tenant
        · rw [ofTenant_cons_own own]
          refine List.nodup_cons.mpr ⟨fun member => ?_, h.completedOnce⟩
          exact (h.unbilled_of_finishes own found finishes).uncompleted _ (mem_ofTenant.mp member).1
        · rw [ofTenant_cons_other own]
          exact h.completedOnce
      · exact h.completedOnce
  | _ => exact h.completedOnce

theorem Metering.arrive (h : Metering tenant period m) {request : Chat.Request} {t : Service}
    (steady : Steady tenant m (.service (.arrive id request)))
    (next : m.service.step (.arrive id request) = some t) :
    Metering tenant period (m.observe t (.arrive id request)) := by
  obtain ⟨new, rfl⟩ := step_arrive next
  have same (other : RequestId) : SameBills m (m.observe (m.service.arrive id request) (.arrive id request)) other :=
    ⟨rfl, rfl, fun _ => Iff.rfl, fun _ => Iff.rfl⟩
  refine h.service (fun other c own found => ?_) (fun other c own found => ?_) (fun other own missing => ?_)
    h.completedOnce
  · rcases arrive_connections found with ⟨rfl, rfl, -⟩ | ⟨-, old⟩
    · exact steady own
    · exact h.streams other c own old
  · rcases arrive_connections found with ⟨rfl, -, idle, start, handler⟩ | ⟨-, old⟩
    · refine .before idle ?_ (start ▸ rfl) ((h.absent other own new).frame (same other))
      rcases handler with waiting | gone
      · simp [waiting]
      · simp [gone]
    · exact (h.stages other c own old).frame (same other) rfl rfl rfl
  · exact (h.absent other own (arrive_connections_none missing)).frame (same other)

theorem Metering.move (h : Metering tenant period m) {move : Move} {t : Service}
    (steady : Steady tenant m (.service (.move id move)))
    (next : m.service.step (.move id move) = some t) : Metering tenant period (m.observe t (.move id move)) := by
  obtain ⟨c, after, writes, found, moved, rfl⟩ := step_move next
  refine h.service (fun other d own here => ?_) (fun other d own here => ?_) (fun other own missing => ?_) ?_
  · rcases moved_connections here with ⟨rfl, queue, rfl⟩ | ⟨-, d', old, queue, rfl⟩
    · exact moved.request ▸ h.streams other c own found
    · exact h.streams other d' own old
  · rcases moved_connections here with ⟨rfl, queue, rfl⟩ | ⟨different, d', old, queue, rfl⟩
    · let t := writes.foldl (Service.write other c.request.threadId) (m.service.connect other after)
      have stage := stage_moved t found (h.streams other c own found) (h.stages other c own found) own steady moved
      exact stage.frame ⟨rfl, rfl, fun _ => Iff.rfl, fun _ => Iff.rfl⟩ rfl rfl rfl
    · exact (h.stages other d' own old).frame (observe_same m _ (Or.inl different)) rfl rfl rfl
  · have before := writes_connections_none missing
    have different : other ≠ id := by
      rintro rfl
      simp [Service.connect] at before
    have absent : m.service.connections other = none := by
      simpa [Service.connect, Function.update_of_ne different] using before
    exact (h.absent other own absent).frame (observe_same m _ (Or.inl different))
  · exact h.completedOnce_move found move

theorem Metering.unmoved (h : Metering tenant period m) {t : Service}
    (same : t.connections = m.service.connections) : Metering tenant period { m with service := t } := by
  have bills (own : RequestId) : SameBills m { m with service := t } own :=
    ⟨rfl, rfl, fun _ => Iff.rfl, fun _ => Iff.rfl⟩
  refine ⟨h.registered, ?_, ?_, ?_, h.completedOnce, h.recordedOnce, h.messages, h.tokens⟩
  · exact same ▸ h.streams
  · intro own c here found
    exact (h.stages own c here (same ▸ found)).frame (bills own) rfl rfl rfl
  · intro own here missing
    exact (h.absent own here (same ▸ missing)).frame (bills own)

theorem settle_same (m : Metered) (period : String) (c : Connection) {other : RequestId} (different : other ≠ id) :
    SameBills m (m.settle period id c) other := by
  simp only [Metered.settle]
  split
  · refine ⟨Function.update_of_ne different _ _, rfl, fun _ => Iff.rfl, fun n => ?_⟩
    simp [different]
  · exact ⟨Function.update_of_ne different _ _, rfl, fun _ => Iff.rfl, fun _ => Iff.rfl⟩

theorem settle_service (m : Metered) (period : String) (id : RequestId) (c : Connection) :
    (m.settle period id c).service = m.service ∧ (m.settle period id c).completed = m.completed ∧
      (m.settle period id c).db.tenants = m.db.tenants := by
  simp only [Metered.settle]
  split <;> simp

theorem Stage.settled {c : Connection} (stage : Stage m id c) (period : String) (unsettled : m.unsettled id = true) :
    Stage (m.settle period id c) id c := by
  cases stage with
  | released ran gone _ unrecorded completed =>
      by_cases positive : 0 < c.consumer.tokensUsed
      · refine .billed ran gone (by simp [Metered.settle, positive]) fun n => ?_
        rw [(settle_service m period id c).2.1, completed n]
        simp [Metered.settle, positive, unrecorded n]
      · refine .billed ran gone (by simp [Metered.settle, positive]) fun n => ?_
        rw [(settle_service m period id c).2.1, completed n]
        simp [Metered.settle, positive, unrecorded n]
  | before idle apart zero unbilled => simp [unbilled.settled] at unsettled
  | opening early serving zero unbilled => simp [unbilled.settled] at unsettled
  | running executing serving owes unbilled => simp [unbilled.settled] at unsettled
  | ended ran present settled unrecorded completed => simp [settled] at unsettled
  | billed ran gone settled recorded => simp [settled] at unsettled

theorem Stage.unrecorded_of_unsettled {c : Connection} (stage : Stage m id c) (unsettled : m.unsettled id = true)
    (n : Nat) : (id, n) ∉ m.recorded := by
  cases stage with
  | released ran gone _ unrecorded completed => exact unrecorded n
  | before idle apart zero unbilled => exact unbilled.unrecorded n
  | opening early serving zero unbilled => exact unbilled.unrecorded n
  | running executing serving owes unbilled => exact unbilled.unrecorded n
  | ended ran present settled unrecorded completed => exact unrecorded n
  | billed ran gone settled recorded => simp [settled] at unsettled

theorem Metering.settle_usage (h : Metering tenant period m) {c : Connection}
    (found : m.service.connections id = some c) (unsettled : m.unsettled id = true) :
    (ofTenant tenant (m.settle period id c).recorded).Nodup ∧
      (m.settle period id c).db.messagesUsed tenant period = (ofTenant tenant (m.settle period id c).recorded).length ∧
      (m.settle period id c).db.tokensUsed tenant period =
        ((ofTenant tenant (m.settle period id c).recorded).map (·.2)).sum := by
  simp only [Metered.settle]
  split
  · by_cases own : id.tenant = tenant
    · subst own
      have fresh : (id, c.consumer.tokensUsed) ∉ ofTenant id.tenant m.recorded := fun member =>
        (h.stages id c rfl found).unrecorded_of_unsettled unsettled _ (mem_ofTenant.mp member).1
      obtain ⟨messages, tokens⟩ := Db.afterRecord_used h.registered period 1 c.consumer.tokensUsed
      rw [ofTenant_cons_own rfl]
      refine ⟨List.nodup_cons.mpr ⟨fresh, h.recordedOnce⟩, ?_, ?_⟩
      · rw [messages, h.messages, List.length_cons]
      · rw [tokens, h.tokens, List.map_cons, List.sum_cons, Nat.add_comm]
    · have kept := Db.afterRecord_other m.db period own 1 c.consumer.tokensUsed
      rw [ofTenant_cons_other own]
      refine ⟨h.recordedOnce, ?_, ?_⟩
      · simpa only [Db.messagesUsed, kept] using h.messages
      · simpa only [Db.tokensUsed, kept] using h.tokens
  · exact ⟨h.recordedOnce, h.messages, h.tokens⟩

theorem Metering.settle (h : Metering tenant period m) {c : Connection}
    (found : m.service.connections id = some c) (unsettled : m.unsettled id = true) :
    Metering tenant period (m.settle period id c) := by
  obtain ⟨service, completed, tenants⟩ := settle_service m period id c
  obtain ⟨recordedOnce, messages, tokens⟩ := h.settle_usage found unsettled
  refine ⟨tenants ▸ h.registered, ?_, ?_, ?_, completed ▸ h.completedOnce, recordedOnce, messages, tokens⟩
  · rw [service]
    exact h.streams
  · rw [service]
    intro other d own here
    by_cases same : other = id
    · subst same
      obtain rfl := Option.some.inj (found.symm.trans here)
      exact (h.stages other c own found).settled period unsettled
    · exact (h.stages other d own here).frame (settle_same m period c same) rfl rfl rfl
  · rw [service]
    intro other own missing
    have different : other ≠ id := by
      rintro rfl
      simp [found] at missing
    exact (h.absent other own missing).frame (settle_same m period c different)

theorem Metering.step (h : Metering tenant period m) {action : MeteredAction} (steady : Steady tenant m action)
    (next : m.step period action = some m') : Metering tenant period m' := by
  cases action with
  | service action =>
      obtain ⟨t, stepped, rfl⟩ := Option.map_eq_some_iff.mp next
      cases action with
      | arrive id request => exact h.arrive steady stepped
      | move id move => exact h.move steady stepped
      | get id threadId =>
          obtain rfl := Option.some.inj stepped
          exact h.unmoved rfl
      | tick seconds =>
          obtain rfl := Option.some.inj stepped
          exact h.unmoved rfl
  | settle id =>
      obtain ⟨unsettled, settled⟩ := Option.ite_none_right_eq_some.mp next
      obtain ⟨c, found, rfl⟩ := Option.map_eq_some_iff.mp settled
      exact h.settle found unsettled
  | interrupt id =>
      obtain ⟨-, eq⟩ := Option.ite_none_right_eq_some.mp next
      obtain rfl := Option.some.inj eq
      have other : id.tenant ≠ tenant := steady
      have same (own : RequestId) (here : own.tenant = tenant) :
          SameBills m { m with unsettled := Function.update m.unsettled id false } own := by
        have different : own ≠ id := by
          rintro rfl
          exact other here
        exact ⟨Function.update_of_ne different _ _, rfl, fun _ => Iff.rfl, fun _ => Iff.rfl⟩
      refine ⟨h.registered, h.streams, ?_, ?_, h.completedOnce, h.recordedOnce, h.messages, h.tokens⟩
      · intro own c here found
        exact (h.stages own c here found).frame (same own here) rfl rfl rfl
      · intro own here missing
        exact (h.absent own here missing).frame (same own here)

end

/-- If the tenant's turns are counted streams whose clients stay, each finished graph run is in the usage row once. -/
theorem countedOnce_of_steady (tenant period : String) (checkpoints : String → Option AgentState) (db : Db)
    (registered : tenant ∈ db.tenants) (unused : db.usageOf tenant period = none) (actions : List MeteredAction)
    (along : Along (Metered.step period) (Steady tenant) (Metered.start checkpoints db) actions) :
    Throughout (Metered.step period) (CountedOnce tenant period) (Metered.start checkpoints db) actions := by
  have start : Metering tenant period (Metered.start checkpoints db) := {
    registered
    streams := fun _ _ _ found => nomatch found
    stages := fun _ _ _ found => nomatch found
    absent := fun _ _ _ => ⟨rfl, fun _ => List.not_mem_nil, fun _ => List.not_mem_nil⟩
    completedOnce := List.nodup_nil
    recordedOnce := List.nodup_nil
    messages := by simp [Metered.start, Db.messagesUsed, unused, ofTenant]
    tokens := by simp [Metered.start, Db.tokensUsed, unused, ofTenant] }
  exact (throughout_of_along (fun _ _ _ h steady next => h.step steady next) start along).mono
    fun _ h => h.countedOnce

def replying (threadId text : String) (totalTokens : Option Nat) : Chat.Request :=
  { question .completions threadId text with
    services := { offline with llm := fun _ _ => ⟨[.ofText "您好", ⟨[], totalTokens⟩], false⟩ } }

/-- A whole turn: the reply is streamed, the run ends, the generator is read to its end and settles. -/
def wholeTurn (id : RequestId) (request : Chat.Request) : List MeteredAction :=
  (begins id request ++
    [.update, .update, .update, .readQueue, .pushToken, .pop, .update, .update, .update, .finish, .pop, .release].map
      (Action.move id)).map MeteredAction.service ++ [.settle id]

def freshDb : Db := ⟨["shop"], [], [], []⟩

def Arrives (id : RequestId) (_ : Metered) : MeteredAction → Prop
  | .service (.arrive other _) => other = id
  | _ => True

theorem connected_of_arrives {period : String} {id : RequestId} (m : Metered) (action : MeteredAction) (m' : Metered)
    (only : ∀ other c, m.service.connections other = some c → other = id) (arrives : Arrives id m action)
    (next : m.step period action = some m') : ∀ other c, m'.service.connections other = some c → other = id := by
  intro other d found
  cases action with
  | service action =>
      obtain ⟨t, stepped, rfl⟩ := Option.map_eq_some_iff.mp next
      rw [(observe_bills m t action).1] at found
      cases action with
      | arrive first request =>
          obtain ⟨-, rfl⟩ := step_arrive stepped
          rcases arrive_connections found with ⟨rfl, -⟩ | ⟨-, old⟩
          · exact arrives
          · exact only other d old
      | move first move =>
          obtain ⟨c, after, writes, here, -, rfl⟩ := step_move stepped
          rcases moved_connections found with ⟨rfl, -⟩ | ⟨-, c', old, -⟩
          · exact only other c here
          · exact only other c' old
      | get first threadId =>
          obtain rfl := Option.some.inj stepped
          exact only other d found
      | tick seconds =>
          obtain rfl := Option.some.inj stepped
          exact only other d found
  | settle first =>
      obtain ⟨-, settled⟩ := Option.ite_none_right_eq_some.mp next
      obtain ⟨c, -, rfl⟩ := Option.map_eq_some_iff.mp settled
      rw [(settle_service m period first c).1] at found
      exact only other d found
  | interrupt first =>
      obtain ⟨-, eq⟩ := Option.ite_none_right_eq_some.mp next
      obtain rfl := Option.some.inj eq
      exact only other d found

def silentTurn : List MeteredAction := wholeTurn ⟨"shop", 1⟩ (replying "first" "你好" none)

/-- The provider sends no usage figure. -/
theorem silentTurn_unrecorded :
    ¬ ∀ (tenant period : String) (checkpoints : String → Option AgentState) (db : Db), tenant ∈ db.tenants →
      db.usageOf tenant period = none → ∀ actions : List MeteredAction,
        Throughout (Metered.step period) (CountedOnce tenant period) (Metered.start checkpoints db) actions := by
  intro claim
  have seen : (exec (Metered.step "2026-05") (Metered.start (fun _ => none) freshDb) silentTurn).map (fun m =>
      ((m.service.connections ⟨"shop", 1⟩).map fun c => (c.handler, hasEnded c.run), m.unsettled ⟨"shop", 1⟩,
        m.completed, m.db.messagesUsed "shop" "2026-05")) =
      some (some (.gone, true), false, [(⟨"shop", 1⟩, 0)], 0) := by decide +kernel
  obtain ⟨m, run, eq⟩ := Option.map_eq_some_iff.mp seen
  obtain ⟨connected, settled, completed, messages⟩ : _ ∧ _ ∧ _ ∧ _ := by simpa only [Prod.mk.injEq] using eq
  have arrives : Along (Metered.step "2026-05") (Arrives ⟨"shop", 1⟩) (Metered.start (fun _ => none) freshDb)
      silentTurn := along_of_mem (by simp [silentTurn, wholeTurn, begins, Arrives]) _
  have alone : ∀ other c, (Metered.start (fun _ => none) freshDb).service.connections other = some c →
      other = ⟨"shop", 1⟩ := by simp [Metered.start, Service.start]
  have only := (throughout_of_along connected_of_arrives alone arrives).last run
  have ran : Over "shop" m := by
    intro id c _ found
    obtain rfl := only id c found
    obtain ⟨c', found', eq⟩ := Option.map_eq_some_iff.mp connected
    obtain rfl := Option.some.inj (found.symm.trans found')
    obtain ⟨gone, ended⟩ := Prod.mk.inj eq
    exact ⟨gone, Or.inr (ended_of_hasEnded ended), settled⟩
  have counted := ((claim "shop" "2026-05" (fun _ => none) freshDb (by decide) rfl silentTurn).last run ran).1
  rw [messages, completed] at counted
  exact absurd counted (by decide)

/-- The second turn is longer, and in another thread. -/
def twoTurns : List MeteredAction :=
  wholeTurn ⟨"shop", 1⟩ (replying "first" "你好" (some 12)) ++
    wholeTurn ⟨"shop", 2⟩ (replying "second" "你们几点开门？" (some 31))

theorem countedOnce_of_steady_twoTurns :
    Throughout (Metered.step "2026-05") (CountedOnce "shop" "2026-05") (Metered.start (fun _ => none) freshDb)
      twoTurns :=
  countedOnce_of_steady "shop" "2026-05" _ freshDb (by decide) rfl twoTurns (by decide +kernel)

end CuckooEcho.Billing
