import CuckooEcho.Hitl.Transactions
import CuckooEcho.Lib.Serial

namespace CuckooEcho.Hitl
open Lib ReadCommitted

/-! ## The operations run alone are their transactions run one at a time -/

section
variable {rls : Bool} {db db' : Db}

theorem viewed_start (db : Db) : exec Write.apply db [] = some db := rfl

theorem notifyHitlRequest_serial (rls : Bool) (db : Db) (s k tenant thread : Uuid) :
    Serial (system rls) db ⟨.notifySession db.now s k tenant thread, []⟩
      ((notifyHitlRequest db s k tenant thread).getD db) := by
  cases inserted : db.insertSession s (pendingRow tenant thread) with
  | none => simpa [notifyHitlRequest, inserted] using Serial.rollback
  | some mid =>
      have now : mid.now = db.now := by
        obtain ⟨-, rfl⟩ := Db.insertSession_eq_some.mp inserted
        rfl
      have first : exec Write.apply db [.insertSession s (pendingRow tenant thread)] = some mid := by
        simp [Write.apply, inserted]
      refine .write (viewed_start db) rfl (by simp [system, Write.apply, inserted]) ?_
      cases added : mid.insertTask ⟨k, s, tenant, thread, db.now + 60⟩ with
      | none => simpa [notifyHitlRequest, inserted, now, added] using Serial.rollback
      | some last =>
          have second : exec Write.apply db [.insertSession s (pendingRow tenant thread),
              .insertTask ⟨k, s, tenant, thread, db.now + 60⟩] = some last := by
            simp [Write.apply, inserted, added]
          simp only [notifyHitlRequest, inserted, Option.bind_eq_bind, Option.bind_some, now, added, Option.getD_some]
          refine .write first rfl (by simp [system, Write.apply, added]) ?_
          exact .commit second rfl

theorem takeSession_serial (rls : Bool) (db : Db) (s tenant admin : Uuid) :
    Serial (system rls) db ⟨.takeSelect s tenant admin, []⟩
      (match takeSession rls db s tenant admin with
        | .ok (after, _) => after
        | .error _ => db) := by
  refine .read (viewed_start db) rfl ?_
  cases selected : db.selectSession (tenantDbContext rls tenant) s with
  | none =>
      simp only [takeSession, selected, selectPending]
      exact .abort rfl rfl
  | some row =>
      by_cases pending : row.status = .pending
      · simp only [takeSession, selected, selectPending, pending, ne_eq, not_true_eq_false, ↓reduceIte]
        refine .write (viewed_start db) rfl rfl (.write rfl rfl rfl ?_)
        exact .commit rfl rfl
      · simp only [takeSession, selected, selectPending, pending, ne_eq, not_false_eq_true, ↓reduceIte]
        exact .abort rfl rfl

theorem endSession_serial (rls : Bool) (db : Db) (s tenant : Uuid) :
    Serial (system rls) db ⟨.endSelect db.now s tenant, []⟩
      (match endSession rls db s tenant with
        | .ok (after, _) => after
        | .error _ => db) := by
  refine .read (viewed_start db) rfl ?_
  cases selected : db.selectSession (tenantDbContext rls tenant) s with
  | none =>
      simp only [endSession, selected, selectActive]
      exact .abort rfl rfl
  | some row =>
      by_cases active : row.status = .active
      · simp only [endSession, selected, selectActive, active, ne_eq, not_true_eq_false, ↓reduceIte]
        refine .write (viewed_start db) rfl rfl (.write rfl rfl rfl ?_)
        exact .commit rfl rfl
      · simp only [endSession, selected, selectActive, active, ne_eq, not_false_eq_true, ↓reduceIte]
        exact .abort rfl rfl

theorem escalate_serial (task : EscalationTask) (ticket : Uuid) :
    Serial (system false) db ⟨.pollSelect task ticket, []⟩
      (((escalate db task ticket).map (·.deleteTask task.id)).getD db) := by
  refine .read (viewed_start db) rfl ?_
  cases selected : db.selectSession none task.sessionId with
  | none =>
      simp only [escalate, selected, selectStillPending, Bool.false_eq_true, ↓reduceIte]
      exact .write (viewed_start db) rfl rfl (.commit rfl rfl)
  | some row =>
      by_cases pending : row.status = .pending
      · simp only [escalate, selected, selectStillPending, pending, ne_eq, not_true_eq_false, ↓reduceIte,
          Bool.false_eq_true]
        refine .write (viewed_start db) rfl rfl ?_
        have updated : exec Write.apply db [.updateSession none task.sessionId .escalate] =
            some (db.updateSession none task.sessionId SessionSet.escalate.apply) := rfl
        cases inserted : (db.updateSession none task.sessionId SessionSet.escalate.apply).insertTicket
            (task.ticket ticket) with
        | none =>
            have failed := (congrArg (Option.map (·.deleteTask task.id)) inserted)
            exact (congrArg (·.getD db) failed).symm ▸ Serial.rollback
        | some after =>
            have ticketed : exec Write.apply db [.updateSession none task.sessionId .escalate,
                .insertTicket (task.ticket ticket)] = some after := by
              simp [Write.apply, inserted]
            have escalated := congrArg (Option.map (·.deleteTask task.id)) inserted
            refine (congrArg (·.getD db) escalated).symm ▸ .write updated rfl ?_ (.write ticketed rfl rfl ?_)
            · simp [system, Write.apply, inserted]
            · exact .commit (by simp [system, Write.apply, inserted]) rfl
      · simp only [escalate, selected, selectStillPending, pending, ne_eq, not_false_eq_true, ↓reduceIte,
          Bool.false_eq_true]
        exact .write (viewed_start db) rfl rfl (.commit rfl rfl)

theorem pollEscalationTasks_serial (pick : Option EscalationTask) (ticket : Uuid)
    (due : dueTask db (fun _ => false) pick) :
    Serial (system rls) db ⟨.pollLock pick ticket, []⟩ ((pollEscalationTasks rls db pick ticket).getD db) := by
  cases pick with
  | none => exact .lock (viewed_start db) rfl due (.commit rfl rfl)
  | some task =>
      refine .lock (viewed_start db) rfl due ?_
      cases rls with
      | true => exact .read (viewed_start db) rfl (.abort rfl rfl)
      | false => exact escalate_serial task ticket

theorem leaves_of_serial (request : Request) {m : Desk} (idle : m.Idle)
    (serial : Serial (system rls) m.committed ⟨request.opening m.committed, []⟩ db') : Leaves (system rls) m db' :=
  Serial.leaves_idle request idle 0 serial

/-- Every operation is its transaction run while no other one is open. -/
theorem op_serial {op : Op} {m : Desk} (idle : m.Idle) (h : op.step rls m.committed = some db') :
    Leaves (system rls) m db' := by
  cases op with
  | notifyHitlRequest s k tenant thread =>
      obtain rfl := Option.some.inj h
      have serial := notifyHitlRequest_serial rls m.committed s k tenant thread
      exact leaves_of_serial (.notifyHitlRequest s k tenant thread) idle serial
  | takeSession s tenant admin =>
      have serial := takeSession_serial rls m.committed s tenant admin
      refine leaves_of_serial (.takeSession s tenant admin) idle ?_
      rcases takeSession_of_step h with ⟨e, raised, rfl⟩ | ⟨answer, returned⟩
      · rwa [raised] at serial
      · rwa [returned] at serial
  | endSession s tenant =>
      have serial := endSession_serial rls m.committed s tenant
      refine leaves_of_serial (.endSession s tenant) idle ?_
      rcases endSession_of_step h with ⟨e, raised, rfl⟩ | ⟨answer, returned⟩
      · rwa [raised] at serial
      · rwa [returned] at serial
  | pollEscalationTasks pick ticket =>
      simp only [Op.step, Option.ite_none_right_eq_some, Option.some.injEq] at h
      obtain ⟨due, rfl⟩ := h
      exact leaves_of_serial (.pollEscalationTasks pick ticket) idle (pollEscalationTasks_serial pick ticket due)
  | wait seconds =>
      obtain rfl := Option.some.inj h
      exact ⟨[.elapse seconds], _, rfl, ⟨idle.closed, idle.unlocked⟩, rfl⟩

end

/-- Every sequence of operations is a run of the concurrent transactions. -/
theorem operations_serial (rls : Bool) {db db' : Db} {ops : List Op} (run : exec (Op.step rls) db ops = some db') :
    Leaves (system rls) (.initial db : Desk) db' := by
  have simulated (before : Db) (op : Op) (after : Db) (m : Desk) (here : m.Idle ∧ m.committed = before)
      (next : op.step rls before = some after) :
      ∃ acts m', exec (Desk.step rls) m acts = some m' ∧ m'.Idle ∧ m'.committed = after := by
    obtain ⟨idle, rfl⟩ := here
    exact op_serial idle next
  exact exec_simulated (fun db (m : Desk) => m.Idle ∧ m.committed = db) simulated ⟨State.initial_idle db, rfl⟩ run

end CuckooEcho.Hitl
