import CuckooEcho.Hitl.Schema
import CuckooEcho.Lib.Run

namespace CuckooEcho.Hitl
open Lib

structure HttpException where
  statusCode : Nat
  detail : String
  deriving DecidableEq, Repr

structure SessionResponse where
  sessionId : Uuid
  threadId : Uuid
  status : SessionStatus
  deriving DecidableEq, Repr

/-! ## The four operations, each run alone -/

def pendingRow (tenantId threadId : Uuid) : SessionRow :=
  { tenantId, threadId, adminUserId := none, endedAt := none, status := .pending }

/-- `none` when a statement fails and the transaction is rolled back. -/
def notifyHitlRequest (db : Db) (sessionId taskId tenantId threadId : Uuid) : Option Db := do
  let db ← db.insertSession sessionId (pendingRow tenantId threadId)
  db.insertTask { id := taskId, sessionId, tenantId, threadId, executeAt := db.now + 60 }

def takeSession (rls : Bool) (db : Db) (sessionId tenantId adminUserId : Uuid) :
    Except HttpException (Db × SessionResponse) :=
  let scope := tenantDbContext rls tenantId
  match db.selectSession scope sessionId with
  | none => .error ⟨404, "Session not found"⟩
  | some row =>
      if row.status ≠ .pending then .error ⟨409, "Session already " ++ row.status.text⟩
      else .ok (((db.updateThread scope row.threadId .humanIntervention).updateSession scope sessionId
          fun r => { r with adminUserId := some adminUserId, status := .active }),
        ⟨sessionId, row.threadId, .active⟩)

def endSession (rls : Bool) (db : Db) (sessionId tenantId : Uuid) :
    Except HttpException (Db × SessionResponse) :=
  let scope := tenantDbContext rls tenantId
  match db.selectSession scope sessionId with
  | none => .error ⟨404, "Session not found"⟩
  | some row =>
      if row.status ≠ .active then .error ⟨409, "Session is " ++ row.status.text ++ ", not active"⟩
      else .ok (((db.updateThread scope row.threadId .active).updateSession scope sessionId
          fun r => { r with endedAt := some db.now, status := .resolved }),
        ⟨sessionId, row.threadId, .resolved⟩)

/-- Which row `ORDER BY execute_at LIMIT 1` may return among the due rows not skipped as locked. -/
def dueTask (db : Db) (locked : EscalationTask → Bool) (pick : Option EscalationTask) : Bool :=
  let due := db.tasks.filter fun t => t.executeAt ≤ db.now && !locked t
  match pick with
  | none => due.isEmpty
  | some task => task ∈ due && due.all (task.executeAt ≤ ·.executeAt)

def escalate (db : Db) (task : EscalationTask) (ticketId : Uuid) : Option Db :=
  match db.selectSession none task.sessionId with
  | none => some db
  | some session =>
      if session.status ≠ .pending then some db
      else (db.updateSession none task.sessionId fun r => { r with status := .autoEscalated }).insertTicket
        { id := ticketId, tenantId := task.tenantId, threadId := task.threadId,
          hitlSessionId := task.sessionId }

def pollEscalationTasks (rls : Bool) (db : Db) (pick : Option EscalationTask) (ticketId : Uuid) :
    Option Db :=
  match pick with
  | none => some db
  -- the poller opens no tenant context: where the policies apply, its read of `hitl_sessions` raises
  | some task => if rls then none else (escalate db task ticketId).map (·.deleteTask task.id)

/-! ## Sequences of operations -/

inductive Op
  | notifyHitlRequest (sessionId taskId tenantId threadId : Uuid)
  | takeSession (sessionId tenantId adminUserId : Uuid)
  | endSession (sessionId tenantId : Uuid)
  | pollEscalationTasks (pick : Option EscalationTask) (ticketId : Uuid)
  | wait (seconds : Nat)
  deriving DecidableEq, Repr

def Op.step (rls : Bool) (db : Db) : Op → Option Db
  -- An operation that raises leaves the tables as they were
  | .notifyHitlRequest s k tenant thread => some ((Hitl.notifyHitlRequest db s k tenant thread).getD db)
  | .takeSession s tenant admin =>
      match Hitl.takeSession rls db s tenant admin with
      | .ok (db', _) => some db'
      | .error _ => some db
  | .endSession s tenant =>
      match Hitl.endSession rls db s tenant with
      | .ok (db', _) => some db'
      | .error _ => some db
  | .pollEscalationTasks pick ticket =>
      if dueTask db (fun _ => false) pick then some ((Hitl.pollEscalationTasks rls db pick ticket).getD db)
      else none
  | .wait seconds => some { db with now := db.now + seconds }

inductive Effect (rls : Bool) (db db' : Db) : Op → Prop
  | none {op} (threads : db'.threads = db.threads) (sessions : db'.sessions = db.sessions) :
      Effect rls db db' op
  | notified {s k tenant thread} (fresh : db.sessions s = .none) (threads : db'.threads = db.threads)
      (sessions : db'.sessions = Function.update db.sessions s (some (pendingRow tenant thread))) :
      Effect rls db db' (.notifyHitlRequest s k tenant thread)
  | taken {s tenant admin row} (selected : db.selectSession (tenantDbContext rls tenant) s = some row)
      (pending : row.status = .pending)
      (threads : db'.threads =
        (db.updateThread (tenantDbContext rls tenant) row.threadId .humanIntervention).threads)
      (sessions : ∀ other, db'.sessions other =
        if other = s then some { row with adminUserId := some admin, status := .active }
        else db.sessions other) :
      Effect rls db db' (.takeSession s tenant admin)
  | ended {s tenant row} (selected : db.selectSession (tenantDbContext rls tenant) s = some row)
      (active : row.status = .active)
      (threads : db'.threads = (db.updateThread (tenantDbContext rls tenant) row.threadId .active).threads)
      (sessions : ∀ other, db'.sessions other =
        if other = s then some { row with endedAt := some db.now, status := .resolved }
        else db.sessions other) :
      Effect rls db db' (.endSession s tenant)
  | escalated {op s row} (found : db.sessions s = some row) (pending : row.status = .pending)
      (threads : db'.threads = db.threads)
      (sessions : ∀ other, db'.sessions other =
        if other = s then some { row with status := .autoEscalated } else db.sessions other) :
      Effect rls db db' op

section Effects
variable {rls : Bool} {db db' : Db}

theorem notifyHitlRequest_effect {s k tenant thread : Uuid}
    (h : notifyHitlRequest db s k tenant thread = some db') :
    Effect rls db db' (.notifyHitlRequest s k tenant thread) := by
  obtain ⟨mid, inserted, h⟩ := Option.bind_eq_some_iff.mp h
  obtain ⟨fresh, rfl⟩ := Db.insertSession_eq_some.mp inserted
  obtain ⟨-, rfl⟩ := Db.insertTask_eq_some.mp h
  exact .notified fresh rfl rfl

theorem takeSession_effect {s tenant admin : Uuid} {response : SessionResponse}
    (h : takeSession rls db s tenant admin = .ok (db', response)) :
    Effect rls db db' (.takeSession s tenant admin) := by
  unfold takeSession at h
  cases selected : db.selectSession (tenantDbContext rls tenant) s with
  | none => simp [selected] at h
  | some row =>
      by_cases pending : row.status = .pending
      · simp only [selected, pending, ne_eq, not_true_eq_false, ↓reduceIte, Except.ok.injEq,
          Prod.mk.injEq] at h
        obtain ⟨rfl, -⟩ := h
        exact .taken selected pending rfl
          fun other => Db.updateSession_sessions (by exact selected) _ other
      · simp [selected, pending] at h

theorem endSession_of_active {s tenant : Uuid} {row : SessionRow}
    (selected : db.selectSession (tenantDbContext rls tenant) s = some row) (active : row.status = .active) :
    endSession rls db s tenant =
      .ok (((db.updateThread (tenantDbContext rls tenant) row.threadId .active).updateSession
          (tenantDbContext rls tenant) s fun r => { r with endedAt := some db.now, status := .resolved }),
        ⟨s, row.threadId, .resolved⟩) := by
  simp [endSession, selected, active]

theorem endSession_effect {s tenant : Uuid} {response : SessionResponse}
    (h : endSession rls db s tenant = .ok (db', response)) :
    Effect rls db db' (.endSession s tenant) := by
  cases selected : db.selectSession (tenantDbContext rls tenant) s with
  | none => simp [endSession, selected] at h
  | some row =>
      by_cases active : row.status = .active
      · rw [endSession_of_active selected active] at h
        obtain ⟨rfl, -⟩ := Prod.mk.inj (Except.ok.inj h)
        exact .ended selected active rfl
          fun other => Db.updateSession_sessions (by exact selected) _ other
      · simp [endSession, selected, active] at h

theorem escalate_effect {task : EscalationTask} {ticket : Uuid} {op : Op}
    (h : escalate db task ticket = some db') : Effect rls db (db'.deleteTask task.id) op := by
  unfold escalate at h
  cases selected : db.selectSession none task.sessionId with
  | none =>
      obtain rfl : db = db' := by simpa [selected] using h
      exact .none rfl rfl
  | some row =>
      by_cases pending : row.status = .pending
      · simp only [selected, pending, ne_eq, not_true_eq_false, ↓reduceIte] at h
        obtain ⟨-, rfl⟩ := Db.insertTicket_eq_some.mp h
        exact .escalated (Db.selectSession_eq_some.mp selected).1 pending rfl
          fun other => Db.updateSession_sessions selected _ other
      · obtain rfl : db = db' := by simpa [selected, pending] using h
        exact .none rfl rfl

theorem takeSession_of_step {s tenant admin : Uuid} (h : (Op.takeSession s tenant admin).step rls db = some db') :
    (∃ e, takeSession rls db s tenant admin = .error e ∧ db' = db) ∨
      ∃ answer, takeSession rls db s tenant admin = .ok (db', answer) := by
  cases result : takeSession rls db s tenant admin with
  | error e =>
      obtain rfl : db = db' := by simpa [Op.step, result] using h
      exact Or.inl ⟨e, rfl, rfl⟩
  | ok after =>
      obtain rfl : after.1 = db' := by simpa [Op.step, result] using h
      exact Or.inr ⟨after.2, rfl⟩

theorem endSession_of_step {s tenant : Uuid} (h : (Op.endSession s tenant).step rls db = some db') :
    (∃ e, endSession rls db s tenant = .error e ∧ db' = db) ∨
      ∃ answer, endSession rls db s tenant = .ok (db', answer) := by
  cases result : endSession rls db s tenant with
  | error e =>
      obtain rfl : db = db' := by simpa [Op.step, result] using h
      exact Or.inl ⟨e, rfl, rfl⟩
  | ok after =>
      obtain rfl : after.1 = db' := by simpa [Op.step, result] using h
      exact Or.inr ⟨after.2, rfl⟩

theorem step_effect {op : Op} (h : op.step rls db = some db') : Effect rls db db' op := by
  cases op with
  | notifyHitlRequest s k tenant thread =>
      obtain rfl := Option.some.inj h
      cases result : Hitl.notifyHitlRequest db s k tenant thread with
      | none => exact .none rfl rfl
      | some after => exact notifyHitlRequest_effect result
  | takeSession s tenant admin =>
      rcases takeSession_of_step h with ⟨e, raised, rfl⟩ | ⟨answer, returned⟩
      · exact .none rfl rfl
      · exact takeSession_effect returned
  | endSession s tenant =>
      rcases endSession_of_step h with ⟨e, raised, rfl⟩ | ⟨answer, returned⟩
      · exact .none rfl rfl
      · exact endSession_effect returned
  | pollEscalationTasks pick ticket =>
      simp only [Op.step, Option.ite_none_right_eq_some, Option.some.injEq] at h
      obtain ⟨-, rfl⟩ := h
      cases pick with
      | none => exact .none rfl rfl
      | some task =>
          cases rls with
          | true => exact .none rfl rfl
          | false =>
              cases result : escalate db task ticket with
              | none => simpa [Hitl.pollEscalationTasks, result] using Effect.none rfl rfl
              | some after => simpa [Hitl.pollEscalationTasks, result] using escalate_effect result
  | wait seconds =>
      obtain rfl := Option.some.inj h
      exact .none rfl rfl

end Effects

end CuckooEcho.Hitl
