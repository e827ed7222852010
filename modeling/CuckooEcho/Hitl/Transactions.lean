import CuckooEcho.Hitl.Sessions
import CuckooEcho.Lib.ReadCommitted

namespace CuckooEcho.Hitl
open Lib ReadCommitted

/-! ## The operations as concurrent transactions -/

inductive SessionSet
  | take (adminUserId : Uuid)
  | resolve (endedAt : Nat)
  | escalate
  deriving DecidableEq, Repr

def SessionSet.apply : SessionSet → SessionRow → SessionRow
  | .take admin, row => { row with adminUserId := some admin, status := .active }
  | .resolve endedAt, row => { row with endedAt := some endedAt, status := .resolved }
  | .escalate, row => { row with status := .autoEscalated }

inductive Write
  | insertSession (id : Uuid) (row : SessionRow)
  | insertTask (task : EscalationTask)
  | updateThread (scope : Scope) (id : Uuid) (status : ThreadStatus)
  | updateSession (scope : Scope) (id : Uuid) (set : SessionSet)
  | insertTicket (ticket : Ticket)
  | deleteTask (id : Uuid)

inductive Row
  | thread (id : Uuid) | session (id : Uuid) | task (id : Uuid)
  deriving DecidableEq, Repr

def Write.apply (db : Db) : Write → Option Db
  | .insertSession id row => db.insertSession id row
  | .insertTask task => db.insertTask task
  | .updateThread scope id status => some (db.updateThread scope id status)
  | .updateSession scope id set => some (db.updateSession scope id set.apply)
  | .insertTicket ticket => db.insertTicket ticket
  | .deleteTask id => some (db.deleteTask id)

/-- The rows that a statement locks: those that its `WHERE` clause finds. -/
def Write.touches (db : Db) : Write → List Row
  | .updateThread scope id _ => if (db.threads id).any (scope.sees ·.tenantId) then [.thread id] else []
  | .updateSession scope id _ => if (db.selectSession scope id).isSome then [.session id] else []
  | .deleteTask id => if db.tasks.any (·.id = id) then [.task id] else []
  | .insertSession .. | .insertTask _ | .insertTicket _ => []

inductive Request
  | notifyHitlRequest (sessionId taskId tenantId threadId : Uuid)
  | takeSession (sessionId tenantId adminUserId : Uuid)
  | endSession (sessionId tenantId : Uuid)
  | pollEscalationTasks (pick : Option EscalationTask) (ticketId : Uuid)

/-- The statement that a transaction is about to execute, with the values it has read. -/
inductive Point
  | notifySession (now : Nat) (sessionId taskId tenantId threadId : Uuid)
  | notifyTask (now : Nat) (sessionId taskId tenantId threadId : Uuid)
  | notifyCommit (now : Nat) (sessionId taskId tenantId threadId : Uuid)
  | takeSelect (sessionId tenantId adminUserId : Uuid)
  | takeThread (sessionId tenantId adminUserId threadId : Uuid)
  | takeUpdate (sessionId tenantId adminUserId threadId : Uuid)
  | takeCommit (sessionId tenantId adminUserId threadId : Uuid)
  | endSelect (now : Nat) (sessionId tenantId : Uuid)
  | endThread (now : Nat) (sessionId tenantId threadId : Uuid)
  | endUpdate (now : Nat) (sessionId tenantId threadId : Uuid)
  | endCommit (now : Nat) (sessionId tenantId threadId : Uuid)
  | pollLock (pick : Option EscalationTask) (ticketId : Uuid)
  | pollSelect (task : EscalationTask) (ticketId : Uuid)
  | pollUpdate (task : EscalationTask) (ticketId : Uuid)
  | pollTicket (task : EscalationTask) (ticketId : Uuid)
  | pollDelete (task : EscalationTask) (ticket : Option Ticket)
  | pollCommit (task : EscalationTask) (ticket : Option Ticket)
  | pollNone
  | raised (error : Option HttpException)
  deriving DecidableEq, Repr

def Request.opening : Request → Db → Point
  | .notifyHitlRequest s k tenant thread, db => .notifySession db.now s k tenant thread
  | .takeSession s tenant admin, _ => .takeSelect s tenant admin
  | .endSession s tenant, db => .endSelect db.now s tenant
  | .pollEscalationTasks pick ticket, _ => .pollLock pick ticket

def EscalationTask.ticket (task : EscalationTask) (ticketId : Uuid) : Ticket :=
  { id := ticketId, tenantId := task.tenantId, threadId := task.threadId, hitlSessionId := task.sessionId }

def selectPending (rls : Bool) (s tenant admin : Uuid) (db : Db) : Point :=
  match db.selectSession (tenantDbContext rls tenant) s with
  | none => .raised (some ⟨404, "Session not found"⟩)
  | some row =>
      if row.status ≠ .pending then .raised (some ⟨409, "Session already " ++ row.status.text⟩)
      else .takeThread s tenant admin row.threadId

def selectActive (rls : Bool) (now : Nat) (s tenant : Uuid) (db : Db) : Point :=
  match db.selectSession (tenantDbContext rls tenant) s with
  | none => .raised (some ⟨404, "Session not found"⟩)
  | some row =>
      if row.status ≠ .active then
        .raised (some ⟨409, "Session is " ++ row.status.text ++ ", not active"⟩)
      else .endThread now s tenant row.threadId

def selectStillPending (rls : Bool) (task : EscalationTask) (ticketId : Uuid) (db : Db) : Point :=
  if rls then .raised none
  else match db.selectSession none task.sessionId with
    | none => .pollDelete task none
    | some row => if row.status ≠ .pending then .pollDelete task none else .pollUpdate task ticketId

def instr (rls : Bool) : Point → Instr Db Write Row Point
  | .notifySession now s k tenant thread =>
      .write (.insertSession s (pendingRow tenant thread)) (.notifyTask now s k tenant thread)
  | .notifyTask now s k tenant thread =>
      .write (.insertTask ⟨k, s, tenant, thread, now + 60⟩) (.notifyCommit now s k tenant thread)
  | .takeSelect s tenant admin => .read (selectPending rls s tenant admin)
  | .takeThread s tenant admin thread =>
      .write (.updateThread (tenantDbContext rls tenant) thread .humanIntervention)
        (.takeUpdate s tenant admin thread)
  | .takeUpdate s tenant admin thread =>
      .write (.updateSession (tenantDbContext rls tenant) s (.take admin))
        (.takeCommit s tenant admin thread)
  | .endSelect now s tenant => .read (selectActive rls now s tenant)
  | .endThread now s tenant thread =>
      .write (.updateThread (tenantDbContext rls tenant) thread .active) (.endUpdate now s tenant thread)
  | .endUpdate now s tenant thread =>
      .write (.updateSession (tenantDbContext rls tenant) s (.resolve now))
        (.endCommit now s tenant thread)
  | .pollLock pick ticket =>
      .lock (fun db locked => dueTask db (fun t => locked (.task t.id)) pick) (pick.map fun t => .task t.id)
        (pick.elim .pollNone fun task => .pollSelect task ticket)
  | .pollSelect task ticket => .read (selectStillPending rls task ticket)
  | .pollUpdate task ticket =>
      .write (.updateSession none task.sessionId .escalate) (.pollTicket task ticket)
  | .pollTicket task ticket =>
      .write (.insertTicket (task.ticket ticket)) (.pollDelete task (some (task.ticket ticket)))
  | .pollDelete task ticket => .write (.deleteTask task.id) (.pollCommit task ticket)
  | .notifyCommit .. | .takeCommit .. | .endCommit .. | .pollCommit .. | .pollNone => .commit
  | .raised _ => .abort

def system (rls : Bool) : System Db Write Row Point Request where
  apply := Write.apply
  touches := Write.touches
  opening := Request.opening
  instr := instr rls
  elapse db seconds := { db with now := db.now + seconds }

abbrev Desk := State Db Write Row Point Nat

abbrev Desk.step (rls : Bool) : Desk → Act Request Nat → Option Desk := ReadCommitted.step (system rls)

end CuckooEcho.Hitl
