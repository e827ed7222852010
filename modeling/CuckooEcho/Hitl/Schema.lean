import Mathlib.Logic.Function.Basic
import Mathlib.Data.Option.Basic

namespace CuckooEcho.Hitl

/-! ## The tables of the hand-off -/

abbrev Uuid := Nat

inductive ThreadStatus
  | active | humanIntervention | closed
  deriving DecidableEq, Repr

structure ThreadRow where
  tenantId : Uuid
  status : ThreadStatus
  deriving DecidableEq, Repr

inductive SessionStatus
  | pending | active | resolved | autoEscalated
  deriving DecidableEq, Repr

def SessionStatus.text : SessionStatus → String
  | .pending => "pending"
  | .active => "active"
  | .resolved => "resolved"
  | .autoEscalated => "auto_escalated"

structure SessionRow where
  tenantId : Uuid
  threadId : Uuid
  adminUserId : Option Uuid
  endedAt : Option Nat
  status : SessionStatus
  deriving DecidableEq, Repr

structure EscalationTask where
  id : Uuid
  sessionId : Uuid
  tenantId : Uuid
  threadId : Uuid
  executeAt : Nat
  deriving DecidableEq, Repr

/-- A row of `tickets`; the status of every ticket written here is `open`. -/
structure Ticket where
  id : Uuid
  tenantId : Uuid
  threadId : Uuid
  hitlSessionId : Uuid
  deriving DecidableEq, Repr

structure Db where
  now : Nat
  threads : Uuid → Option ThreadRow
  sessions : Uuid → Option SessionRow
  tasks : List EscalationTask
  tickets : List Ticket

/-! ## Row-level security -/

/-- The tenant that the policies confine a transaction to, `none` for a role that bypasses them. -/
abbrev Scope := Option Uuid

def Scope.sees (scope : Scope) (tenantId : Uuid) : Bool := scope.all (· = tenantId)

/-- `SET LOCAL app.current_tenant`, which only matters to a role that the policies apply to. -/
def tenantDbContext (rls : Bool) (tenantId : Uuid) : Scope := if rls then some tenantId else none

@[simp] theorem sees_none (tenantId : Uuid) : Scope.sees none tenantId = true := rfl

theorem sees_tenantDbContext (rls : Bool) (tenantId owner : Uuid) :
    (tenantDbContext rls tenantId).sees owner = true ↔ (rls = true → tenantId = owner) := by
  cases rls <;> simp [tenantDbContext, Scope.sees]

/-! ## Statements -/

namespace Db

def selectSession (db : Db) (scope : Scope) (id : Uuid) : Option SessionRow :=
  (db.sessions id).filter fun row => scope.sees row.tenantId

def updateThread (db : Db) (scope : Scope) (id : Uuid) (status : ThreadStatus) : Db :=
  { db with threads := Function.update db.threads id ((db.threads id).map fun row =>
      if scope.sees row.tenantId then { row with status } else row) }

def updateSession (db : Db) (scope : Scope) (id : Uuid) (set : SessionRow → SessionRow) : Db :=
  { db with sessions := Function.update db.sessions id ((db.sessions id).map fun row =>
      if scope.sees row.tenantId then set row else row) }

def insertSession (db : Db) (id : Uuid) (row : SessionRow) : Option Db :=
  -- The primary key refuses a second row of one id
  if (db.sessions id).isSome then none
  else some { db with sessions := Function.update db.sessions id (some row) }

def insertTask (db : Db) (task : EscalationTask) : Option Db :=
  -- `session_id` references `hitl_sessions`; the reference to `threads` was dropped
  if (∀ t ∈ db.tasks, t.id ≠ task.id) ∧ (db.sessions task.sessionId).isSome then
    some { db with tasks := db.tasks ++ [task] }
  else none

def insertTicket (db : Db) (ticket : Ticket) : Option Db :=
  -- `thread_id` and `hitl_session_id` reference `threads` and `hitl_sessions`
  if (∀ t ∈ db.tickets, t.id ≠ ticket.id) ∧ (db.threads ticket.threadId).isSome ∧
      (db.sessions ticket.hitlSessionId).isSome then
    some { db with tickets := db.tickets ++ [ticket] }
  else none

def deleteTask (db : Db) (id : Uuid) : Db := { db with tasks := db.tasks.filter (·.id ≠ id) }

theorem selectSession_eq_some {db : Db} {scope : Scope} {id : Uuid} {row : SessionRow} :
    db.selectSession scope id = some row ↔
      db.sessions id = some row ∧ scope.sees row.tenantId = true := by
  simp [selectSession, Option.filter_eq_some_iff]

@[simp] theorem updateThread_sessions (db : Db) (scope : Scope) (id : Uuid) (status : ThreadStatus) :
    (db.updateThread scope id status).sessions = db.sessions := rfl

@[simp] theorem updateThread_tasks (db : Db) (scope : Scope) (id : Uuid) (status : ThreadStatus) :
    (db.updateThread scope id status).tasks = db.tasks := rfl

@[simp] theorem updateThread_tickets (db : Db) (scope : Scope) (id : Uuid) (status : ThreadStatus) :
    (db.updateThread scope id status).tickets = db.tickets := rfl

@[simp] theorem updateSession_threads (db : Db) (scope : Scope) (id : Uuid)
    (set : SessionRow → SessionRow) : (db.updateSession scope id set).threads = db.threads := rfl

@[simp] theorem updateSession_tasks (db : Db) (scope : Scope) (id : Uuid)
    (set : SessionRow → SessionRow) : (db.updateSession scope id set).tasks = db.tasks := rfl

@[simp] theorem updateSession_tickets (db : Db) (scope : Scope) (id : Uuid)
    (set : SessionRow → SessionRow) : (db.updateSession scope id set).tickets = db.tickets := rfl

@[simp] theorem deleteTask_threads (db : Db) (id : Uuid) :
    (db.deleteTask id).threads = db.threads := rfl

@[simp] theorem deleteTask_sessions (db : Db) (id : Uuid) :
    (db.deleteTask id).sessions = db.sessions := rfl

@[simp] theorem deleteTask_tickets (db : Db) (id : Uuid) :
    (db.deleteTask id).tickets = db.tickets := rfl

theorem updateThread_threads (db : Db) (scope : Scope) (id : Uuid) (status : ThreadStatus)
    (other : Uuid) : (db.updateThread scope id status).threads other =
      if other = id then (db.threads id).map fun row =>
        if scope.sees row.tenantId then { row with status } else row
      else db.threads other := by
  simp [updateThread, Function.update_apply]

theorem updateThread_owner {db : Db} {scope : Scope} {id : Uuid} {status : ThreadStatus} {thread : Uuid}
    {row : ThreadRow} (h : (db.updateThread scope id status).threads thread = some row) :
    ∃ old, db.threads thread = some old ∧ old.tenantId = row.tenantId := by
  rw [updateThread_threads] at h
  split at h
  · rename_i same
    obtain ⟨old, found, rfl⟩ := Option.map_eq_some_iff.mp h
    refine ⟨old, same ▸ found, ?_⟩
    split <;> rfl
  · exact ⟨row, h, rfl⟩

theorem updateSession_sessions {db : Db} {scope : Scope} {id : Uuid} {row : SessionRow}
    (selected : db.selectSession scope id = some row) (set : SessionRow → SessionRow) (other : Uuid) :
    (db.updateSession scope id set).sessions other =
      if other = id then some (set row) else db.sessions other := by
  obtain ⟨found, seen⟩ := selectSession_eq_some.mp selected
  simp [updateSession, Function.update_apply, found, seen]

theorem updateSession_sessions_of_ne (db : Db) (scope : Scope) {id other : Uuid} (ne : other ≠ id)
    (set : SessionRow → SessionRow) : (db.updateSession scope id set).sessions other = db.sessions other :=
  Function.update_of_ne ne _ _

theorem insertSession_eq_some {db db' : Db} {id : Uuid} {row : SessionRow} :
    db.insertSession id row = some db' ↔ db.sessions id = none ∧
      db' = { db with sessions := Function.update db.sessions id (some row) } := by
  unfold insertSession
  cases db.sessions id <;> simp [eq_comm]

theorem insertTask_eq_some {db db' : Db} {task : EscalationTask} :
    db.insertTask task = some db' ↔
      ((∀ t ∈ db.tasks, t.id ≠ task.id) ∧ (db.sessions task.sessionId).isSome) ∧
        db' = { db with tasks := db.tasks ++ [task] } := by
  rw [insertTask, Option.ite_none_right_eq_some, Option.some.injEq, eq_comm (a := db')]

theorem insertTicket_eq_some {db db' : Db} {ticket : Ticket} :
    db.insertTicket ticket = some db' ↔
      ((∀ t ∈ db.tickets, t.id ≠ ticket.id) ∧ (db.threads ticket.threadId).isSome ∧
        (db.sessions ticket.hitlSessionId).isSome) ∧
      db' = { db with tickets := db.tickets ++ [ticket] } := by
  rw [insertTicket, Option.ite_none_right_eq_some, Option.some.injEq, eq_comm (a := db')]

end Db

end CuckooEcho.Hitl
