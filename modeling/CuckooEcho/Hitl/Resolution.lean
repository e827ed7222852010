import CuckooEcho.Hitl.Transactions
import CuckooEcho.Hitl.ThreadStatus

namespace CuckooEcho.Hitl
open Lib ReadCommitted

/-! ## How a pending session is resolved -/

def takes (s : Uuid) : Point → Bool
  | .takeCommit s' _ _ _ => s' = s
  | _ => false

def escalates (s : Uuid) : Point → Bool
  | .pollCommit task (some _) => task.sessionId = s
  | _ => false

def resolves (s : Uuid) (p : Point) : Bool := takes s p || escalates s p

/-- No session has left `pending` twice, a ticket exists exactly for the escalated ones, and a
session that an admin has taken is neither escalated nor ticketed. -/
structure ResolvedOneWay (m : Desk) : Prop where
  once : ∀ s, m.finished.countP (resolves s) ≤ 1
  ticket : ∀ s, (∃ t ∈ m.committed.tickets, t.hitlSessionId = s) ↔
    ∃ row, m.committed.sessions s = some row ∧ row.status = .autoEscalated
  taken : ∀ s, 0 < m.finished.countP (takes s) →
    (∀ row, m.committed.sessions s = some row → row.status ≠ .autoEscalated) ∧
      ∀ t ∈ m.committed.tickets, t.hitlSessionId ≠ s

/-- When a transaction that has read a session as pending updates it, nobody has committed a
change of its status in the meantime. -/
def StillPending (db : Db) (x : Txn Write Point) : Prop :=
  match x.point with
  | .takeUpdate s _ _ _ => ∀ row, db.sessions s = some row → row.status = .pending
  | .pollUpdate task _ => ∀ row, db.sessions task.sessionId = some row → row.status = .pending
  | _ => True

instance (db : Db) : (x : Txn Write Point) → Decidable (StillPending db x)
  | ⟨.takeUpdate s .., _⟩ => inferInstanceAs (Decidable (∀ row ∈ db.sessions s, row.status = .pending))
  | ⟨.pollUpdate task _, _⟩ => inferInstanceAs (Decidable (∀ row ∈ db.sessions task.sessionId, row.status = .pending))
  | ⟨.notifySession .., _⟩ | ⟨.notifyTask .., _⟩ | ⟨.notifyCommit .., _⟩ | ⟨.takeSelect .., _⟩ | ⟨.takeThread .., _⟩
  | ⟨.takeCommit .., _⟩ | ⟨.endSelect .., _⟩ | ⟨.endThread .., _⟩ | ⟨.endUpdate .., _⟩ | ⟨.endCommit .., _⟩
  | ⟨.pollLock .., _⟩ | ⟨.pollSelect .., _⟩ | ⟨.pollTicket .., _⟩ | ⟨.pollDelete .., _⟩ | ⟨.pollCommit .., _⟩
  | ⟨.pollNone, _⟩ | ⟨.raised _, _⟩ => isTrue trivial

/-! ## What each transaction relies on -/

def Settled (status : SessionStatus) : Prop := status = .active ∨ status = .resolved

def Point.issued (rls : Bool) : Point → List Write
  | .notifyTask _ s _ tenant thread => [.insertSession s (pendingRow tenant thread)]
  | .notifyCommit now s k tenant thread =>
      [.insertSession s (pendingRow tenant thread), .insertTask ⟨k, s, tenant, thread, now + 60⟩]
  | .takeUpdate _ tenant _ thread => [.updateThread (tenantDbContext rls tenant) thread .humanIntervention]
  | .takeCommit s tenant admin thread =>
      [.updateThread (tenantDbContext rls tenant) thread .humanIntervention,
        .updateSession (tenantDbContext rls tenant) s (.take admin)]
  | .endUpdate _ _ tenant thread => [.updateThread (tenantDbContext rls tenant) thread .active]
  | .endCommit now s tenant thread =>
      [.updateThread (tenantDbContext rls tenant) thread .active,
        .updateSession (tenantDbContext rls tenant) s (.resolve now)]
  | .pollTicket task _ => [.updateSession none task.sessionId .escalate]
  | .pollDelete task (some ticket) =>
      [.updateSession none task.sessionId .escalate, .insertTicket ticket]
  | .pollCommit task (some ticket) =>
      [.updateSession none task.sessionId .escalate, .insertTicket ticket, .deleteTask task.id]
  | .pollCommit task none => [.deleteTask task.id]
  | _ => []

def Point.Relies (rls : Bool) (db : Db) (own : Row → Prop) : Point → Prop
  | .takeThread s tenant _ _ | .takeUpdate s tenant _ _ =>
      ∃ row, db.selectSession (tenantDbContext rls tenant) s = some row
  | .takeCommit s tenant _ _ => own (.session s) ∧
      ∃ row, db.selectSession (tenantDbContext rls tenant) s = some row ∧ row.status = .pending
  | .endThread _ s tenant _ | .endUpdate _ s tenant _ | .endCommit _ s tenant _ =>
      ∃ row, db.selectSession (tenantDbContext rls tenant) s = some row ∧ Settled row.status
  | .pollUpdate task _ => ∃ row, db.selectSession none task.sessionId = some row
  | .pollTicket task _ => own (.session task.sessionId) ∧
      ∃ row, db.selectSession none task.sessionId = some row ∧ row.status = .pending
  | .pollDelete task (some ticket) | .pollCommit task (some ticket) =>
      ticket.hitlSessionId = task.sessionId ∧ own (.session task.sessionId) ∧
      ∃ row, db.selectSession none task.sessionId = some row ∧ row.status = .pending
  | _ => True

/-- What the commit of a transaction does to `hitl_sessions` and `tickets`. -/
inductive CommitEffect (db view : Db) (own : Row → Prop) : Point → Prop
  | unchanged {p} (quiet : ∀ s, resolves s p = false) (sessions : view.sessions = db.sessions)
      (tickets : view.tickets = db.tickets) : CommitEffect db view own p
  | created {p s row} (quiet : ∀ s, resolves s p = false) (fresh : db.sessions s = none)
      (pending : row.status = .pending)
      (sessions : ∀ other, view.sessions other = if other = s then some row else db.sessions other)
      (tickets : view.tickets = db.tickets) : CommitEffect db view own p
  | taken {s tenant admin thread row} (owned : own (.session s)) (found : db.sessions s = some row)
      (pending : row.status = .pending)
      (sessions : ∀ other, view.sessions other =
        if other = s then some { row with adminUserId := some admin, status := .active }
        else db.sessions other)
      (tickets : view.tickets = db.tickets) : CommitEffect db view own (.takeCommit s tenant admin thread)
  | ended {p s row endedAt} (quiet : ∀ s, resolves s p = false) (found : db.sessions s = some row)
      (settled : Settled row.status)
      (sessions : ∀ other, view.sessions other =
        if other = s then some { row with endedAt := endedAt, status := .resolved } else db.sessions other)
      (tickets : view.tickets = db.tickets) : CommitEffect db view own p
  | escalated {task ticket row} (owned : own (.session task.sessionId))
      (about : ticket.hitlSessionId = task.sessionId)
      (found : db.sessions task.sessionId = some row) (pending : row.status = .pending)
      (sessions : ∀ other, view.sessions other =
        if other = task.sessionId then some { row with status := .autoEscalated } else db.sessions other)
      (tickets : view.tickets = db.tickets ++ [ticket]) :
      CommitEffect db view own (.pollCommit task (some ticket))

section Commit
variable {rls : Bool} {db view : Db} {own own' : Row → Prop}

theorem viewed_notifyCommit {now : Nat} {s k tenant thread : Uuid}
    (viewed : exec Write.apply db ((Point.notifyCommit now s k tenant thread).issued rls) = some view) :
    db.sessions s = none ∧ (∀ t ∈ db.tasks, t.id ≠ k) ∧
      view = { db with
        sessions := Function.update db.sessions s (some (pendingRow tenant thread))
        tasks := db.tasks ++ [⟨k, s, tenant, thread, now + 60⟩] } := by
  simp only [Point.issued, exec_cons, exec_nil, Option.bind_eq_some_iff] at viewed
  obtain ⟨mid, inserted, last, task, eq⟩ := viewed
  obtain rfl := Option.some.inj eq
  obtain ⟨fresh, rfl⟩ := Db.insertSession_eq_some.mp inserted
  obtain ⟨⟨new, -⟩, rfl⟩ := Db.insertTask_eq_some.mp task
  exact ⟨fresh, new, rfl⟩

theorem viewed_pollCommit {task : EscalationTask} {ticket : Ticket}
    (viewed : exec Write.apply db ((Point.pollCommit task (some ticket)).issued rls) = some view) :
    view = { db.updateSession none task.sessionId SessionSet.escalate.apply with
      tickets := db.tickets ++ [ticket], tasks := db.tasks.filter (·.id ≠ task.id) } := by
  simp only [Point.issued, exec_cons, exec_nil, Option.bind_eq_some_iff] at viewed
  obtain ⟨mid, updated, more, inserted, last, deleted, eq⟩ := viewed
  obtain rfl := Option.some.inj eq
  obtain rfl := Option.some.inj updated
  obtain ⟨-, rfl⟩ := Db.insertTicket_eq_some.mp inserted
  obtain rfl := Option.some.inj deleted
  rfl

theorem commitEffect_of_relies {p : Point} (relies : p.Relies rls db own)
    (viewed : exec Write.apply db (p.issued rls) = some view) (commits : instr rls p = .commit) :
    CommitEffect db view own p := by
  cases p with
  | notifyCommit now s k tenant thread =>
      obtain ⟨fresh, -, rfl⟩ := viewed_notifyCommit viewed
      exact .created (fun _ => rfl) fresh rfl (fun other => Function.update_apply ..) rfl
  | takeCommit s tenant admin thread =>
      obtain ⟨owned, row, selected, pending⟩ := relies
      obtain rfl := Option.some.inj viewed
      exact .taken owned (Db.selectSession_eq_some.mp selected).1 pending
        (fun other => Db.updateSession_sessions (by exact selected) _ other) rfl
  | endCommit now s tenant thread =>
      obtain ⟨row, selected, settled⟩ := relies
      obtain rfl := Option.some.inj viewed
      exact .ended (fun _ => rfl) (Db.selectSession_eq_some.mp selected).1 settled
        (fun other => Db.updateSession_sessions (by exact selected) _ other) rfl
  | pollCommit task ticket =>
      cases ticket with
      | none =>
          obtain rfl := Option.some.inj viewed
          exact .unchanged (fun _ => rfl) rfl rfl
      | some ticket =>
          obtain ⟨about, owned, row, selected, pending⟩ := relies
          obtain rfl := viewed_pollCommit viewed
          exact .escalated owned about (Db.selectSession_eq_some.mp selected).1 pending
            (fun other => Db.updateSession_sessions selected _ other) rfl
  | pollNone =>
      obtain rfl := Option.some.inj viewed
      exact .unchanged (fun _ => rfl) rfl rfl
  | _ => simp [instr] at commits

/-- Across another transaction's commit a session keeps its tenant, stays settled, and stays
pending if the other transaction does not own its row. -/
theorem CommitEffect.row {p : Point} (effect : CommitEffect db view own p) {s : Uuid} {row : SessionRow}
    (found : db.sessions s = some row) :
    ∃ row', view.sessions s = some row' ∧ row'.tenantId = row.tenantId ∧
      (Settled row.status → Settled row'.status) ∧
      (¬ own (.session s) → row.status = .pending → row'.status = .pending) := by
  have keep {s' : Uuid} {new : SessionRow} (ne : s ≠ s')
      (sessions : ∀ other, view.sessions other = if other = s' then some new else db.sessions other) :
      view.sessions s = some row := by rw [sessions, if_neg ne, found]
  cases effect with
  | unchanged quiet sessions tickets => exact ⟨row, by rw [sessions, found], rfl, id, fun _ h => h⟩
  | @created p s' new quiet fresh pending sessions tickets =>
      have ne : s ≠ s' := by
        rintro rfl
        simp [fresh] at found
      exact ⟨row, keep ne sessions, rfl, id, fun _ h => h⟩
  | @taken s' tenant admin thread old owned found' pending sessions tickets =>
      by_cases same : s = s'
      · subst same
        obtain rfl := Option.some.inj (found'.symm.trans found)
        exact ⟨_, (sessions s).trans (if_pos rfl), rfl, fun _ => Or.inl rfl, fun free => absurd owned free⟩
      · exact ⟨row, keep same sessions, rfl, id, fun _ h => h⟩
  | @ended p s' old endedAt quiet found' settled sessions tickets =>
      by_cases same : s = s'
      · subst same
        obtain rfl := Option.some.inj (found'.symm.trans found)
        refine ⟨_, (sessions s).trans (if_pos rfl), rfl, fun _ => Or.inr rfl, fun _ pending => ?_⟩
        simp [Settled, pending] at settled
      · exact ⟨row, keep same sessions, rfl, id, fun _ h => h⟩
  | @escalated task ticket old owned about found' pending sessions tickets =>
      by_cases same : s = task.sessionId
      · subst same
        obtain rfl := Option.some.inj (found'.symm.trans found)
        refine ⟨_, (sessions _).trans (if_pos rfl), rfl, fun settled => ?_, fun free => absurd owned free⟩
        simp [Settled, pending] at settled
      · exact ⟨row, keep same sessions, rfl, id, fun _ h => h⟩

theorem CommitEffect.selected {p : Point} (effect : CommitEffect db view own p) {scope : Scope} {s : Uuid}
    {row : SessionRow} (selected : db.selectSession scope s = some row) :
    ∃ row', view.selectSession scope s = some row' ∧ (Settled row.status → Settled row'.status) ∧
      (¬ own (.session s) → row.status = .pending → row'.status = .pending) := by
  obtain ⟨found, seen⟩ := Db.selectSession_eq_some.mp selected
  obtain ⟨row', found', tenant, settled, pending⟩ := effect.row found
  exact ⟨row', Db.selectSession_eq_some.mpr ⟨found', tenant ▸ seen⟩, settled, pending⟩

theorem Point.Relies.of_commit {p q : Point} (relies : q.Relies rls db own)
    (effect : CommitEffect db view own' p) (apart : ∀ r, own r → ¬ own' r) : q.Relies rls view own := by
  cases q with
  | takeThread s tenant admin thread | takeUpdate s tenant admin thread =>
      obtain ⟨row, selected⟩ := relies
      obtain ⟨row', selected', -⟩ := effect.selected selected
      exact ⟨row', selected'⟩
  | pollUpdate task ticket =>
      obtain ⟨row, selected⟩ := relies
      obtain ⟨row', selected', -⟩ := effect.selected selected
      exact ⟨row', selected'⟩
  | endThread now s tenant thread | endUpdate now s tenant thread | endCommit now s tenant thread =>
      obtain ⟨row, selected, settled⟩ := relies
      obtain ⟨row', selected', keep, -⟩ := effect.selected selected
      exact ⟨row', selected', keep settled⟩
  | takeCommit s tenant admin thread =>
      obtain ⟨owned, row, selected, pending⟩ := relies
      obtain ⟨row', selected', -, keep⟩ := effect.selected selected
      exact ⟨owned, row', selected', keep (apart _ owned) pending⟩
  | pollTicket task ticket =>
      obtain ⟨owned, row, selected, pending⟩ := relies
      obtain ⟨row', selected', -, keep⟩ := effect.selected selected
      exact ⟨owned, row', selected', keep (apart _ owned) pending⟩
  | pollDelete task ticket | pollCommit task ticket =>
      cases ticket with
      | none => trivial
      | some ticket =>
          obtain ⟨about, owned, row, selected, pending⟩ := relies
          obtain ⟨row', selected', -, keep⟩ := effect.selected selected
          exact ⟨about, owned, row', selected', keep (apart _ owned) pending⟩
  | _ => trivial

/-! ## The invariant of the committed rows -/

structure Rows (db : Db) (finished : List Point) : Prop where
  once : ∀ s, finished.countP (resolves s) ≤ 1
  unresolved : ∀ s, (∀ row, db.sessions s = some row → row.status = .pending) →
    finished.countP (resolves s) = 0
  ticket : ∀ s, (∃ t ∈ db.tickets, t.hitlSessionId = s) ↔
    ∃ row, db.sessions s = some row ∧ row.status = .autoEscalated
  taken : ∀ s, 0 < finished.countP (takes s) → ∃ row, db.sessions s = some row ∧ Settled row.status

theorem takes_of_quiet {p : Point} (quiet : ∀ s, resolves s p = false) (s : Uuid) : takes s p = false :=
  (Bool.or_eq_false_iff.mp (quiet s)).1

theorem Rows.resolvedOneWay {m : Desk} (h : Rows m.committed m.finished) : ResolvedOneWay m where
  once := h.once
  ticket := h.ticket
  taken s taken := by
    obtain ⟨row, found, settled⟩ := h.taken s taken
    have notEscalated : ∀ r, m.committed.sessions s = some r → r.status ≠ .autoEscalated := by
      rintro r found' escalated
      obtain rfl := Option.some.inj (found.symm.trans found')
      simp [Settled, escalated] at settled
    refine ⟨notEscalated, fun t member about => ?_⟩
    obtain ⟨r, found', escalated⟩ := (h.ticket s).mp ⟨t, member, about⟩
    exact notEscalated r found' escalated

@[simp] theorem resolves_takeCommit (s' s tenant admin thread : Uuid) :
    resolves s' (.takeCommit s tenant admin thread) = decide (s = s') := by
  simp [resolves, takes, escalates]

@[simp] theorem resolves_pollCommit (s : Uuid) (task : EscalationTask) (ticket : Ticket) :
    resolves s (.pollCommit task (some ticket)) = decide (task.sessionId = s) := by
  simp [resolves, takes, escalates]

theorem Rows.unresolved_of_pending {f : List Point} (h : Rows db f) {s : Uuid} {row : SessionRow}
    (found : db.sessions s = some row) (pending : row.status = .pending) :
    f.countP (resolves s) = 0 :=
  h.unresolved s fun r found' => by rwa [← Option.some.inj (found.symm.trans found')]

theorem Rows.of_quiet {f : List Point} {p : Point} (h : Rows db f) (quiet : ∀ s, resolves s p = false)
    (tickets : view.tickets = db.tickets)
    (rows : ∀ s row', view.sessions s = some row' →
      (db.sessions s = none ∧ row'.status = .pending) ∨
      ∃ row, db.sessions s = some row ∧ (row' = row ∨ Settled row.status ∧ Settled row'.status))
    (kept : ∀ s row, db.sessions s = some row → ∃ row', view.sessions s = some row' ∧
      (row' = row ∨ Settled row.status ∧ Settled row'.status)) : Rows view (p :: f) where
  once s := by simpa [quiet] using h.once s
  unresolved s pending := by
    have before : ∀ row, db.sessions s = some row → row.status = .pending := by
      intro row found
      obtain ⟨row', found', rfl | ⟨-, settled⟩⟩ := kept s row found
      · exact pending row' found'
      · simp [Settled, pending row' found'] at settled
    simpa [quiet] using h.unresolved s before
  ticket s := by
    rw [tickets, h.ticket s]
    constructor
    · rintro ⟨row, found, escalated⟩
      obtain ⟨row', found', rfl | ⟨settled, -⟩⟩ := kept s row found
      · exact ⟨row', found', escalated⟩
      · simp [Settled, escalated] at settled
    · rintro ⟨row', found', escalated⟩
      rcases rows s row' found' with ⟨-, pending⟩ | ⟨row, found, rfl | ⟨-, settled⟩⟩
      · simp [escalated] at pending
      · exact ⟨row', found, escalated⟩
      · simp [Settled, escalated] at settled
  taken s taken := by
    obtain ⟨row, found, settled⟩ := h.taken s (by simpa [takes_of_quiet quiet] using taken)
    obtain ⟨row', found', rfl | ⟨-, settled'⟩⟩ := kept s row found
    · exact ⟨row', found', settled⟩
    · exact ⟨row', found', settled'⟩

theorem Rows.of_commit {f : List Point} {p : Point} (h : Rows db f)
    (effect : CommitEffect db view own p) : Rows view (p :: f) := by
  cases effect with
  | unchanged quiet sessions tickets =>
      refine h.of_quiet quiet tickets (fun s row found => Or.inr ⟨row, ?_, Or.inl rfl⟩)
        (fun s row found => ⟨row, ?_, Or.inl rfl⟩)
      · rw [← sessions, found]
      · rw [sessions, found]
  | @created p s new quiet fresh pending sessions tickets =>
      refine h.of_quiet quiet tickets (fun other row' found => ?_) (fun other row found => ⟨row, ?_, Or.inl rfl⟩)
      · rw [sessions] at found
        split at found
        · rename_i same
          obtain rfl := Option.some.inj found
          exact Or.inl ⟨same ▸ fresh, pending⟩
        · exact Or.inr ⟨row', found, Or.inl rfl⟩
      · have ne : other ≠ s := by
          rintro rfl
          simp [fresh] at found
        rw [sessions, if_neg ne, found]
  | @ended p s row endedAt quiet found settled sessions tickets =>
      refine h.of_quiet quiet tickets (fun other row' found' => Or.inr ?_) (fun other old found' => ?_)
      · rw [sessions] at found'
        split at found'
        · rename_i same
          obtain rfl := Option.some.inj found'
          exact ⟨row, same ▸ found, Or.inr ⟨settled, Or.inr rfl⟩⟩
        · exact ⟨row', found', Or.inl rfl⟩
      · by_cases same : other = s
        · subst same
          obtain rfl := Option.some.inj (found.symm.trans found')
          exact ⟨_, (sessions _).trans (if_pos rfl), Or.inr ⟨settled, Or.inr rfl⟩⟩
        · exact ⟨old, by rw [sessions, if_neg same, found'], Or.inl rfl⟩
  | @taken s tenant admin thread row owned found pending sessions tickets =>
      have before := h.unresolved_of_pending found pending
      have here := (sessions s).trans (if_pos rfl)
      have other {s'} (ne : s ≠ s') := (sessions s').trans (if_neg ne.symm)
      refine ⟨fun s' => ?_, fun s' all => ?_, fun s' => ?_, fun s' taken => ?_⟩
      · by_cases same : s = s'
        · subst same
          simp [before]
        · simpa [same] using h.once s'
      · by_cases same : s = s'
        · subst same
          exact absurd (all _ here) (by simp)
        · simpa [same] using h.unresolved s' (other same ▸ all)
      · by_cases same : s = s'
        · subst same
          have none : ¬ ∃ t ∈ db.tickets, t.hitlSessionId = s := by
            rw [h.ticket s]
            rintro ⟨r, found', escalated⟩
            obtain rfl := Option.some.inj (found.symm.trans found')
            simp [pending] at escalated
          simp [tickets, none, here]
        · rw [tickets, h.ticket s', other same]
      · by_cases same : s = s'
        · subst same
          exact ⟨_, here, Or.inl rfl⟩
        · rw [other same]
          exact h.taken s' (by simpa [takes, same] using taken)
  | @escalated task ticket row owned about found pending sessions tickets =>
      have before := h.unresolved_of_pending found pending
      have here := (sessions task.sessionId).trans (if_pos rfl)
      have other {s'} (ne : task.sessionId ≠ s') := (sessions s').trans (if_neg ne.symm)
      refine ⟨fun s' => ?_, fun s' all => ?_, fun s' => ?_, fun s' taken => ?_⟩
      · by_cases same : task.sessionId = s'
        · subst same
          simp [before]
        · simpa [same] using h.once s'
      · by_cases same : task.sessionId = s'
        · subst same
          exact absurd (all _ here) (by simp)
        · simpa [same] using h.unresolved s' (other same ▸ all)
      · by_cases same : task.sessionId = s'
        · subst same
          simp [tickets, about, here]
        · rw [other same, ← h.ticket s', tickets]
          simp [about, same]
      · have taken : 0 < f.countP (takes s') := by simpa [takes] using taken
        obtain ⟨old, found', settled⟩ := h.taken s' taken
        have ne : task.sessionId ≠ s' := by
          rintro rfl
          obtain rfl := Option.some.inj (found.symm.trans found')
          simp [Settled, pending] at settled
        exact ⟨old, (other ne).trans found', settled⟩

end Commit

/-! ## The outline of the transactions -/

theorem Point.Relies.grow {rls : Bool} {db : Db} {own own' : Row → Prop} {p : Point}
    (relies : p.Relies rls db own) (more : ∀ r, own r → own' r) : p.Relies rls db own' := by
  cases p with
  | takeCommit s tenant admin thread => exact ⟨more _ relies.1, relies.2⟩
  | pollTicket task ticket => exact ⟨more _ relies.1, relies.2⟩
  | pollDelete task ticket | pollCommit task ticket =>
      cases ticket with
      | none => trivial
      | some ticket => exact ⟨relies.1, more _ relies.2.1, relies.2.2⟩
  | _ => exact relies

theorem Point.Relies.elapse {rls : Bool} {db : Db} {own : Row → Prop} {p : Point} (seconds : Nat)
    (relies : p.Relies rls db own) : p.Relies rls { db with now := db.now + seconds } own := by
  cases p with
  | pollDelete task ticket | pollCommit task ticket => cases ticket <;> exact relies
  | _ => exact relies

section Statements
variable {rls : Bool} {db : Db} {own : Row → Prop}

theorem selectPending_relies (s tenant admin : Uuid) :
    (selectPending rls s tenant admin db).Relies rls db own ∧
      (selectPending rls s tenant admin db).issued rls = [] := by
  unfold selectPending
  cases selected : db.selectSession (tenantDbContext rls tenant) s with
  | none => exact ⟨trivial, rfl⟩
  | some row =>
      by_cases pending : row.status = .pending
      · simp only [pending, ne_eq, not_true_eq_false, ↓reduceIte]
        exact ⟨⟨row, selected⟩, rfl⟩
      · simp only [pending, ne_eq, not_false_eq_true, ↓reduceIte]
        exact ⟨trivial, rfl⟩

theorem selectActive_relies (now : Nat) (s tenant : Uuid) :
    (selectActive rls now s tenant db).Relies rls db own ∧
      (selectActive rls now s tenant db).issued rls = [] := by
  unfold selectActive
  cases selected : db.selectSession (tenantDbContext rls tenant) s with
  | none => exact ⟨trivial, rfl⟩
  | some row =>
      by_cases active : row.status = .active
      · simp only [active, ne_eq, not_true_eq_false, ↓reduceIte]
        exact ⟨⟨row, selected, Or.inl active⟩, rfl⟩
      · simp only [active, ne_eq, not_false_eq_true, ↓reduceIte]
        exact ⟨trivial, rfl⟩

theorem selectStillPending_relies (task : EscalationTask) (ticket : Uuid) :
    (selectStillPending rls task ticket db).Relies rls db own ∧
      (selectStillPending rls task ticket db).issued rls = [] := by
  unfold selectStillPending
  cases rls with
  | true => exact ⟨trivial, rfl⟩
  | false =>
      cases selected : db.selectSession none task.sessionId with
      | none => exact ⟨trivial, rfl⟩
      | some row =>
          by_cases pending : row.status = .pending
          · simp only [pending, ne_eq, not_true_eq_false, Bool.false_eq_true, ↓reduceIte]
            exact ⟨⟨row, selected⟩, rfl⟩
          · simp only [pending, ne_eq, not_false_eq_true, Bool.false_eq_true, ↓reduceIte]
            exact ⟨trivial, rfl⟩

/-- A session's row is among those its update locks, if the transaction has not touched it yet. -/
theorem touches_session {view : Db} {scope : Scope} {s : Uuid} {set : SessionSet} {row : SessionRow}
    (selected : db.selectSession scope s = some row) (same : view.sessions = db.sessions) :
    .session s ∈ Write.touches view (.updateSession scope s set) := by
  have selected' : view.selectSession scope s = some row := by rwa [Db.selectSession, same]
  simp [Write.touches, selected']

/-- A pending row that a transaction updates is its own from then on. -/
theorem own_of_selected {view : Db} {scope : Scope} {s : Uuid} {set : SessionSet}
    (selected : ∃ row, db.selectSession scope s = some row)
    (good : ∀ row, db.sessions s = some row → row.status = .pending)
    (owned : ∀ r ∈ Write.touches view (.updateSession scope s set), own r) (same : view.sessions = db.sessions) :
    own (.session s) ∧ ∃ row, db.selectSession scope s = some row ∧ row.status = .pending := by
  obtain ⟨row, selected⟩ := selected
  exact ⟨owned _ (touches_session selected same), row, selected, good row (Db.selectSession_eq_some.mp selected).1⟩

theorem read_relies {p : Point} {view : Db} {next : Db → Point}
    (viewed : exec Write.apply db (p.issued rls) = some view) (reads : instr rls p = .read next) :
    (next view).Relies rls db own ∧ (next view).issued rls = p.issued rls := by
  cases p with
  | takeSelect s tenant admin =>
      obtain rfl := Option.some.inj viewed
      obtain rfl := Instr.read.inj reads
      exact selectPending_relies s tenant admin
  | endSelect now s tenant =>
      obtain rfl := Option.some.inj viewed
      obtain rfl := Instr.read.inj reads
      exact selectActive_relies now s tenant
  | pollSelect task ticket =>
      obtain rfl := Option.some.inj viewed
      obtain rfl := Instr.read.inj reads
      exact selectStillPending_relies task ticket
  | _ => simp [instr] at reads

theorem lock_relies {p next : Point} {allowed : Db → (Row → Bool) → Bool} {row : Option Row}
    (locks : instr rls p = .lock allowed row next) :
    next.Relies rls db own ∧ next.issued rls = p.issued rls := by
  cases p with
  | pollLock pick ticket =>
      obtain ⟨-, -, rfl⟩ := Instr.lock.inj locks
      cases pick <;> exact ⟨trivial, rfl⟩
  | _ => simp [instr] at locks

theorem write_issued {p next : Point} {w : Write} (writes : instr rls p = .write w next) :
    next.issued rls = p.issued rls ++ [w] := by
  cases p with
  | pollDelete task ticket =>
      obtain ⟨rfl, rfl⟩ := Instr.write.inj writes
      cases ticket <;> rfl
  | notifySession | notifyTask | takeThread | takeUpdate | endThread | endUpdate | pollUpdate | pollTicket =>
      obtain ⟨rfl, rfl⟩ := Instr.write.inj writes
      rfl
  | _ => simp [instr] at writes

theorem write_relies {p next : Point} {view : Db} {w : Write} (relies : p.Relies rls db own)
    (good : StillPending db ⟨p, p.issued rls⟩)
    (viewed : exec Write.apply db (p.issued rls) = some view) (writes : instr rls p = .write w next)
    (owned : ∀ r ∈ Write.touches view w, own r) : next.Relies rls db own := by
  cases p with
  | notifySession now s k tenant thread | notifyTask now s k tenant thread =>
      obtain ⟨-, rfl⟩ := Instr.write.inj writes
      trivial
  | takeThread s tenant admin thread =>
      obtain ⟨-, rfl⟩ := Instr.write.inj writes
      exact relies
  | takeUpdate s tenant admin thread =>
      obtain ⟨rfl, rfl⟩ := Instr.write.inj writes
      obtain rfl := Option.some.inj viewed
      exact own_of_selected relies good owned rfl
  | endThread now s tenant thread | endUpdate now s tenant thread =>
      obtain ⟨-, rfl⟩ := Instr.write.inj writes
      exact relies
  | pollUpdate task ticket =>
      obtain ⟨rfl, rfl⟩ := Instr.write.inj writes
      obtain rfl := Option.some.inj viewed
      exact own_of_selected relies good owned rfl
  | pollTicket task ticket =>
      obtain ⟨-, rfl⟩ := Instr.write.inj writes
      exact ⟨rfl, relies⟩
  | pollDelete task ticket =>
      obtain ⟨-, rfl⟩ := Instr.write.inj writes
      cases ticket <;> exact relies
  | _ => simp [instr] at writes

end Statements

def outline (rls : Bool) : Outline (system rls) StillPending where
  Global := Rows
  Local db own x := x.point.Relies rls db own ∧ x.writes = x.point.issued rls
  opening input _ := by cases input <;> exact ⟨trivial, rfl⟩
  grow h more := ⟨h.1.grow more, h.2⟩
  elapseGlobal _ h := ⟨h.once, h.unresolved, h.ticket, h.taken⟩
  elapseLocal d h := ⟨h.1.elapse d, h.2⟩
  read := by
    rintro db f own ⟨p, writes⟩ view next - ⟨-, all⟩ - viewed reads
    obtain rfl : writes = p.issued rls := all
    obtain ⟨relies, issued⟩ := read_relies viewed reads
    exact ⟨relies, issued.symm⟩
  lock := by
    rintro db f own ⟨p, writes⟩ view allowed row next locked - ⟨-, all⟩ - - locks - -
    obtain rfl : writes = p.issued rls := all
    obtain ⟨relies, issued⟩ := lock_relies locks
    exact ⟨relies, issued.symm⟩
  write := by
    rintro db f own ⟨p, writes⟩ view w next - ⟨relies, all⟩ good viewed does - owned
    obtain rfl : writes = p.issued rls := all
    exact ⟨write_relies relies good viewed does owned, (write_issued does).symm⟩
  commit h local_ _ viewed commits :=
    h.of_commit (commitEffect_of_relies local_.1 (local_.2 ▸ viewed) commits)
  stable _ local_ other _ viewed commits apart :=
    ⟨local_.1.of_commit (commitEffect_of_relies other.1 (other.2 ▸ viewed) commits) apart, local_.2⟩

theorem Initial.rows {db : Db} (initial : Initial db) : Rows db [] where
  once _ := by simp
  unresolved _ _ := rfl
  ticket s := by simp [initial.tickets, initial.sessions s]
  taken s taken := by simp at taken

/-- As long as no transaction updates a session whose status has changed since it was read, every
session is resolved in one way. -/
theorem resolvedOneWay_of_stillPending (rls : Bool) (db : Db) (acts : List (Act Request Nat))
    (initial : Initial db)
    (along : Along (Desk.step rls) (Guarded StillPending) (State.initial db) acts) :
    Throughout (Desk.step rls) ResolvedOneWay (State.initial db) acts :=
  ((outline rls).throughout initial.rows along).mono fun _ rows => rows.resolvedOneWay

/-- Both transactions read the session as pending before either of them updates it. -/
def takenTwice : List (Act Request Nat) :=
  [.start 0 (.notifyHitlRequest 10 20 0 1), .run 0, .run 0, .run 0,
    .start 1 (.takeSession 10 0 7), .start 2 (.takeSession 10 0 8), .run 1, .run 2,
    .run 1, .run 1, .run 1, .run 2, .run 2, .run 2]

theorem takenTwice_breaks :
    ¬ ∀ (rls : Bool) (db : Db) (acts : List (Act Request Nat)), Initial db →
      Throughout (Desk.step rls) ResolvedOneWay (State.initial db) acts := by
  intro claim
  have reached := (claim false oneThread takenTwice oneThread_initial).last rfl
  exact absurd (reached.once 10) (by decide)

/-- Two sessions: the second admin reads the first one when it has been taken, and the other one falls due. -/
def takenAndPolled : List (Act Request Nat) :=
  [.start 0 (.notifyHitlRequest 10 20 0 1), .run 0, .run 0, .run 0,
    .start 1 (.notifyHitlRequest 11 21 0 1), .run 1, .run 1, .run 1,
    .start 2 (.takeSession 10 0 7), .start 3 (.takeSession 10 0 8), .run 2, .run 2, .run 2, .run 2, .run 3, .elapse 60,
    .start 4 (.pollEscalationTasks (some ⟨21, 11, 0, 1, 60⟩) 30), .run 4, .run 4, .run 4, .run 4, .run 4, .run 4,
    .start 5 (.takeSession 11 0 8), .run 5]

theorem resolvedOneWay_of_stillPending_polled :
    Throughout (Desk.step false) ResolvedOneWay (State.initial oneThread) takenAndPolled :=
  resolvedOneWay_of_stillPending false oneThread _ oneThread_initial (by decide +kernel)

end CuckooEcho.Hitl
