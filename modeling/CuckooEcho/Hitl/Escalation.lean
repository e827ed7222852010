import CuckooEcho.Hitl.Resolution

namespace CuckooEcho.Hitl
open Lib ReadCommitted

/-! ## No escalation is lost or doubled -/

def Pending (db : Db) (s : Uuid) : Prop := ∃ row, db.sessions s = some row ∧ row.status = .pending

def taskCount (db : Db) (s : Uuid) : Nat := db.tasks.countP (·.sessionId = s)

def ticketCount (db : Db) (s : Uuid) : Nat := db.tickets.countP (·.hitlSessionId = s)

structure Accounted (db : Db) : Prop where
  pending : ∀ s, Pending db s → taskCount db s = 1
  ticket : ∀ s, ticketCount db s ≤ 1

/-- Every task belongs to a session, and a session has its task or its ticket but never both. -/
structure Booked (db : Db) : Prop where
  knownTask : ∀ t ∈ db.tasks, (db.sessions t.sessionId).isSome
  knownTicket : ∀ t ∈ db.tickets, (db.sessions t.hitlSessionId).isSome
  distinct : db.tasks.Pairwise (·.id ≠ ·.id)
  pending : ∀ s, Pending db s → taskCount db s = 1
  once : ∀ s, taskCount db s + ticketCount db s ≤ 1

theorem Booked.accounted {db : Db} (h : Booked db) : Accounted db where
  pending := h.pending
  ticket s := Nat.le_trans (Nat.le_add_left _ _) (h.once s)

/-! ### What an update does to the pending sessions -/

theorem SessionSet.apply_status_ne (set : SessionSet) (row : SessionRow) :
    (set.apply row).status ≠ .pending := by
  cases set <;> exact SessionStatus.noConfusion

theorem updateSession_self (db : Db) (scope : Scope) (id : Uuid) (set : SessionRow → SessionRow) :
    (db.updateSession scope id set).sessions id =
      (db.sessions id).map fun row => if scope.sees row.tenantId then set row else row :=
  Function.update_self ..

theorem pending_of_updateSession {db : Db} {scope : Scope} {id s : Uuid} {set : SessionSet}
    (h : Pending (db.updateSession scope id set.apply) s) : Pending db s := by
  obtain ⟨row', found, pending⟩ := h
  by_cases same : s = id
  · subst same
    rw [updateSession_self] at found
    obtain ⟨row, found, eq⟩ := Option.map_eq_some_iff.mp found
    split at eq
    · exact absurd (eq ▸ pending) (set.apply_status_ne row)
    · exact ⟨row, found, eq ▸ pending⟩
  · rw [Db.updateSession_sessions_of_ne _ _ same] at found
    exact ⟨row', found, pending⟩

theorem not_pending_updateSession {db : Db} {id : Uuid} {set : SessionSet} :
    ¬ Pending (db.updateSession none id set.apply) id := by
  rintro ⟨row', found, pending⟩
  rw [updateSession_self] at found
  obtain ⟨row, -, rfl⟩ := Option.map_eq_some_iff.mp found
  exact set.apply_status_ne row pending

theorem isSome_updateSession (db : Db) (scope : Scope) (id s : Uuid) (set : SessionRow → SessionRow) :
    ((db.updateSession scope id set).sessions s).isSome = (db.sessions s).isSome := by
  by_cases same : s = id
  · subst same
    rw [updateSession_self, Option.isSome_map]
  · rw [Db.updateSession_sessions_of_ne _ _ same]

/-! ### What the poller relies on -/

def Point.Books (db : Db) (own : Row → Prop) : Point → Prop
  | .pollSelect task _ | .pollUpdate task _ | .pollTicket task _ => own (.task task.id) ∧ task ∈ db.tasks
  | .pollDelete task none | .pollCommit task none =>
      (own (.task task.id) ∧ task ∈ db.tasks) ∧ ¬ Pending db task.sessionId
  | .pollDelete task (some ticket) | .pollCommit task (some ticket) =>
      (own (.task task.id) ∧ task ∈ db.tasks) ∧ ticket.hitlSessionId = task.sessionId
  | _ => True

/-- What the commit of a transaction does to `hitl_escalation_tasks` and `tickets`. -/
inductive TaskEffect (db view : Db) (own : Row → Prop) : Prop
  | kept (known : ∀ s, (view.sessions s).isSome = (db.sessions s).isSome)
      (reopened : ∀ s, Pending view s → Pending db s) (tasks : view.tasks = db.tasks)
      (tickets : view.tickets = db.tickets)
  | booked (task : EscalationTask) (fresh : db.sessions task.sessionId = none)
      (new : ∀ t ∈ db.tasks, t.id ≠ task.id)
      (known : ∀ s, (view.sessions s).isSome = (decide (s = task.sessionId) || (db.sessions s).isSome))
      (reopened : ∀ s, s ≠ task.sessionId → Pending view s → Pending db s)
      (tasks : view.tasks = db.tasks ++ [task]) (tickets : view.tickets = db.tickets)
  | dropped (task : EscalationTask) (ticket : Option Ticket) (owned : own (.task task.id))
      (member : task ∈ db.tasks) (about : ∀ t ∈ ticket.toList, t.hitlSessionId = task.sessionId)
      (known : ∀ s, (view.sessions s).isSome = (db.sessions s).isSome)
      (reopened : ∀ s, Pending view s → Pending db s) (decided : ¬ Pending view task.sessionId)
      (tasks : view.tasks = db.tasks.filter (·.id ≠ task.id))
      (tickets : view.tickets = db.tickets ++ ticket.toList)

section Commit
variable {rls : Bool} {db view : Db} {own own' : Row → Prop}

theorem taskEffect_of_books {p : Point} (books : p.Books db own)
    (viewed : exec Write.apply db (p.issued rls) = some view) (commits : instr rls p = .commit) :
    TaskEffect db view own := by
  cases p with
  | notifyCommit now s k tenant thread =>
      obtain ⟨fresh, new, rfl⟩ := viewed_notifyCommit viewed
      refine .booked ⟨k, s, tenant, thread, now + 60⟩ fresh new (fun other => ?_) (fun other ne => ?_) rfl rfl
      · by_cases same : other = s <;> simp [same]
      · rintro ⟨row, found, pending⟩
        exact ⟨row, (Function.update_of_ne ne _ _).symm.trans found, pending⟩
  | takeCommit s tenant admin thread =>
      obtain rfl := Option.some.inj viewed
      refine .kept (fun other => ?_) (fun other pending => ?_) rfl rfl
      · exact isSome_updateSession ..
      · exact pending_of_updateSession pending
  | endCommit now s tenant thread =>
      obtain rfl := Option.some.inj viewed
      refine .kept (fun other => ?_) (fun other pending => ?_) rfl rfl
      · exact isSome_updateSession ..
      · exact pending_of_updateSession pending
  | pollCommit task ticket =>
      cases ticket with
      | none =>
          obtain ⟨⟨owned, member⟩, decided⟩ := books
          obtain rfl := Option.some.inj viewed
          exact .dropped task none owned member (by simp) (fun _ => rfl) (fun _ h => h) decided rfl
            (List.append_nil _).symm
      | some ticket =>
          obtain ⟨⟨owned, member⟩, about⟩ := books
          obtain rfl := viewed_pollCommit viewed
          exact .dropped task (some ticket) owned member (by simpa using about)
            (fun _ => isSome_updateSession ..) (fun _ pending => pending_of_updateSession pending)
            not_pending_updateSession rfl rfl
  | pollNone =>
      obtain rfl := Option.some.inj viewed
      exact .kept (fun _ => rfl) (fun _ h => h) rfl rfl
  | _ => simp [instr] at commits

/-! ### The invariant of the committed rows -/

theorem countP_deleteTask {tasks : List EscalationTask} {task : EscalationTask}
    (distinct : tasks.Pairwise (·.id ≠ ·.id)) (member : task ∈ tasks) (s : Uuid) :
    (tasks.filter (·.id ≠ task.id)).countP (·.sessionId = s) + (if task.sessionId = s then 1 else 0) =
      tasks.countP (·.sessionId = s) := by
  induction tasks with
  | nil => simp at member
  | cons head tail ih =>
      obtain ⟨apart, distinct⟩ := List.pairwise_cons.mp distinct
      rcases List.mem_cons.mp member with rfl | member
      · have others : tail.filter (·.id ≠ task.id) = tail :=
          List.filter_eq_self.mpr fun t h => by simpa using (apart t h).symm
        rw [List.filter_cons_of_neg (by simp), others, List.countP_cons]
        simp
      · have here := ih distinct member
        have ne : head.id ≠ task.id := apart task member
        simp only [List.filter_cons, ne, ne_eq, not_false_eq_true, decide_true, ↓reduceIte,
          List.countP_cons] at here ⊢
        omega

theorem taskCount_of_fresh (h : Booked db) {s : Uuid} (fresh : db.sessions s = none) :
    taskCount db s = 0 := by
  refine List.countP_eq_zero.mpr fun t member about => ?_
  have known := h.knownTask t member
  rw [of_decide_eq_true about, fresh] at known
  exact absurd known (by simp)

theorem ticketCount_of_fresh (h : Booked db) {s : Uuid} (fresh : db.sessions s = none) :
    ticketCount db s = 0 := by
  refine List.countP_eq_zero.mpr fun t member about => ?_
  have known := h.knownTicket t member
  rw [of_decide_eq_true about, fresh] at known
  exact absurd known (by simp)

theorem Booked.of_effect (h : Booked db) (effect : TaskEffect db view own) : Booked view := by
  cases effect with
  | kept known reopened tasks tickets =>
      refine ⟨fun t member => ?_, fun t member => ?_, tasks ▸ h.distinct, fun s pending => ?_, fun s => ?_⟩
      · exact (known _).trans (h.knownTask t (tasks ▸ member))
      · exact (known _).trans (h.knownTicket t (tickets ▸ member))
      · rw [taskCount, tasks]
        exact h.pending s (reopened s pending)
      · rw [taskCount, ticketCount, tasks, tickets]
        exact h.once s
  | booked task fresh new known reopened tasks tickets =>
      have count (s : Uuid) : taskCount view s = taskCount db s + if task.sessionId = s then 1 else 0 := by
        simp [taskCount, tasks, List.countP_append, List.countP_cons]
      refine ⟨fun t member => ?_, fun t member => ?_, ?_, fun s pending => ?_, fun s => ?_⟩
      · rw [known]
        rcases List.mem_append.mp (tasks ▸ member) with old | this
        · simp [h.knownTask t old]
        · simp [List.mem_singleton.mp this]
      · simp [known, h.knownTicket t (tickets ▸ member)]
      · rw [tasks, List.pairwise_append]
        exact ⟨h.distinct, List.pairwise_singleton .., by simpa using new⟩
      · by_cases same : task.sessionId = s
        · subst same
          simp [count, taskCount_of_fresh h fresh]
        · simpa [count, same] using h.pending s (reopened s (Ne.symm same) pending)
      · rw [count, ticketCount, tickets]
        by_cases same : task.sessionId = s
        · subst same
          have noTicket := ticketCount_of_fresh h fresh
          rw [ticketCount] at noTicket
          simp [taskCount_of_fresh h fresh, noTicket]
        · simpa [same, ticketCount] using h.once s
  | dropped task ticket owned member about known reopened decided tasks tickets =>
      have count (s : Uuid) : taskCount view s + (if task.sessionId = s then 1 else 0) = taskCount db s := by
        rw [taskCount, tasks]
        exact countP_deleteTask h.distinct member s
      have more (s : Uuid) : ticketCount view s ≤ ticketCount db s + if task.sessionId = s then 1 else 0 := by
        rw [ticketCount, ticketCount, tickets, List.countP_append]
        cases ticket with
        | none => simp
        | some ticket => simp [List.countP_cons, about ticket (by simp)]
      refine ⟨fun t here => ?_, fun t here => ?_, ?_, fun s pending => ?_, fun s => ?_⟩
      · exact (known _).trans (h.knownTask t (List.mem_of_mem_filter (tasks ▸ here)))
      · rcases List.mem_append.mp (tickets ▸ here) with old | this
        · exact (known _).trans (h.knownTicket t old)
        · rw [about t this, known]
          exact h.knownTask task member
      · rw [tasks]
        exact h.distinct.filter _
      · have ne : task.sessionId ≠ s := fun same => decided (same ▸ pending)
        simpa [ne, h.pending s (reopened s pending)] using count s
      · have before := h.once s
        have tasksNow := count s
        have ticketsNow := more s
        omega

/-- A locked task stays in the table, and a session that is not pending never becomes so again. -/
theorem Point.Books.of_commit (h : Booked db) {q : Point} (books : q.Books db own)
    (effect : TaskEffect db view own') (apart : ∀ r, own r → ¬ own' r) : q.Books view own := by
  have keep {task : EscalationTask} (held : own (.task task.id) ∧ task ∈ db.tasks) :
      own (.task task.id) ∧ task ∈ view.tasks := by
    refine ⟨held.1, ?_⟩
    cases effect with
    | kept known reopened tasks tickets => exact tasks ▸ held.2
    | booked task' fresh new known reopened tasks tickets =>
        exact tasks ▸ List.mem_append_left _ held.2
    | dropped task' ticket owned member about known reopened decided tasks tickets =>
        have ne : task.id ≠ task'.id := fun same => apart _ held.1 (same ▸ owned)
        exact tasks ▸ List.mem_filter.mpr ⟨held.2, by simpa using ne⟩
  have decided {task : EscalationTask} (member : task ∈ db.tasks)
      (before : ¬ Pending db task.sessionId) : ¬ Pending view task.sessionId := by
    cases effect with
    | kept known reopened tasks tickets => exact fun pending => before (reopened _ pending)
    | booked task' fresh new known reopened tasks tickets =>
        have ne : task.sessionId ≠ task'.sessionId := by
          intro same
          have known := h.knownTask task member
          simp [same, fresh] at known
        exact fun pending => before (reopened _ ne pending)
    | dropped task' ticket owned member about known reopened decided tasks tickets =>
        exact fun pending => before (reopened _ pending)
  cases q with
  | pollSelect task ticket | pollUpdate task ticket | pollTicket task ticket => exact keep books
  | pollDelete task ticket | pollCommit task ticket =>
      cases ticket with
      | none => exact ⟨keep books.1, decided books.1.2 books.2⟩
      | some ticket => exact ⟨keep books.1, books.2⟩
  | _ => trivial

end Commit

/-! ### The outline of the transactions -/

theorem Point.Books.grow {db : Db} {own own' : Row → Prop} {p : Point} (books : p.Books db own)
    (more : ∀ r, own r → own' r) : p.Books db own' := by
  cases p with
  | pollSelect task ticket | pollUpdate task ticket | pollTicket task ticket =>
      exact ⟨more _ books.1, books.2⟩
  | pollDelete task ticket | pollCommit task ticket =>
      cases ticket <;> exact ⟨⟨more _ books.1.1, books.1.2⟩, books.2⟩
  | _ => trivial

theorem Point.Books.elapse {db : Db} {own : Row → Prop} {p : Point} (seconds : Nat)
    (books : p.Books db own) : p.Books { db with now := db.now + seconds } own := by
  cases p with
  | pollDelete task ticket | pollCommit task ticket => cases ticket <;> exact books
  | _ => exact books

section Statements
variable {rls : Bool} {db : Db} {own : Row → Prop}

theorem selectPending_books (s tenant admin : Uuid) : (selectPending rls s tenant admin db).Books db own := by
  unfold selectPending
  cases db.selectSession (tenantDbContext rls tenant) s with
  | none => trivial
  | some row => dsimp only; split <;> trivial

theorem selectActive_books (now : Nat) (s tenant : Uuid) : (selectActive rls now s tenant db).Books db own := by
  unfold selectActive
  cases db.selectSession (tenantDbContext rls tenant) s with
  | none => trivial
  | some row => dsimp only; split <;> trivial

theorem selectStillPending_books (task : EscalationTask) (ticket : Uuid)
    (held : own (.task task.id) ∧ task ∈ db.tasks) : (selectStillPending rls task ticket db).Books db own := by
  unfold selectStillPending
  cases rls with
  | true => trivial
  | false =>
      cases selected : db.selectSession none task.sessionId with
      | none =>
          refine ⟨held, ?_⟩
          rintro ⟨row, found, -⟩
          simp [Db.selectSession, found] at selected
      | some row =>
          have found := (Db.selectSession_eq_some.mp selected).1
          by_cases pending : row.status = .pending
          · simp only [pending, ne_eq, not_true_eq_false, Bool.false_eq_true, ↓reduceIte]
            exact held
          · simp only [pending, ne_eq, not_false_eq_true, Bool.false_eq_true, ↓reduceIte]
            refine ⟨held, ?_⟩
            rintro ⟨row', found', pending'⟩
            exact pending (Option.some.inj (found.symm.trans found') ▸ pending')

theorem read_books {p : Point} {view : Db} {next : Db → Point} (books : p.Books db own)
    (viewed : exec Write.apply db (p.issued rls) = some view) (reads : instr rls p = .read next) :
    (next view).Books db own := by
  cases p with
  | takeSelect s tenant admin =>
      obtain rfl := Option.some.inj viewed
      obtain rfl := Instr.read.inj reads
      exact selectPending_books s tenant admin
  | endSelect now s tenant =>
      obtain rfl := Option.some.inj viewed
      obtain rfl := Instr.read.inj reads
      exact selectActive_books now s tenant
  | pollSelect task ticket =>
      obtain rfl := Option.some.inj viewed
      obtain rfl := Instr.read.inj reads
      exact selectStillPending_books task ticket books
  | _ => simp [instr] at reads

theorem lock_books {p next : Point} {view : Db} {allowed : Db → (Row → Bool) → Bool} {row : Option Row}
    {locked : Row → Bool} (viewed : exec Write.apply db (p.issued rls) = some view)
    (locks : instr rls p = .lock allowed row next) (chosen : allowed view locked)
    (owned : ∀ r ∈ row.toList, own r) : next.Books db own := by
  cases p with
  | pollLock pick ticket =>
      obtain rfl := Option.some.inj viewed
      obtain ⟨rfl, rfl, rfl⟩ := Instr.lock.inj locks
      cases pick with
      | none => trivial
      | some task =>
          simp only [dueTask, Bool.and_eq_true, decide_eq_true_eq, List.mem_filter] at chosen
          exact ⟨owned _ (by simp), chosen.1.1⟩
  | _ => simp [instr] at locks

theorem write_books {p next : Point} {w : Write} (books : p.Books db own)
    (writes : instr rls p = .write w next) : next.Books db own := by
  cases p with
  | pollUpdate task ticket =>
      obtain ⟨-, rfl⟩ := Instr.write.inj writes
      exact books
  | pollTicket task ticket =>
      obtain ⟨-, rfl⟩ := Instr.write.inj writes
      exact ⟨books, rfl⟩
  | pollDelete task ticket =>
      obtain ⟨-, rfl⟩ := Instr.write.inj writes
      cases ticket <;> exact books
  | notifySession | notifyTask | takeThread | takeUpdate | endThread | endUpdate =>
      obtain ⟨-, rfl⟩ := Instr.write.inj writes
      trivial
  | _ => simp [instr] at writes

end Statements

def bookings (rls : Bool) : Outline (system rls) fun _ _ => True where
  Global db _ := Booked db
  Local db own x := x.point.Books db own ∧ x.writes = x.point.issued rls
  opening input _ := by cases input <;> exact ⟨trivial, rfl⟩
  grow h more := ⟨h.1.grow more, h.2⟩
  elapseGlobal _ h := ⟨h.knownTask, h.knownTicket, h.distinct, h.pending, h.once⟩
  elapseLocal d h := ⟨h.1.elapse d, h.2⟩
  read := by
    rintro db f own ⟨p, writes⟩ view next - ⟨books, all⟩ - viewed reads
    obtain rfl : writes = p.issued rls := all
    obtain ⟨-, issued⟩ : (next view).Relies rls db own ∧ _ := read_relies viewed reads
    exact ⟨read_books books viewed reads, issued.symm⟩
  lock := by
    rintro db f own ⟨p, writes⟩ view allowed row next locked - ⟨-, all⟩ - viewed locks chosen owned
    obtain rfl : writes = p.issued rls := all
    obtain ⟨-, issued⟩ : next.Relies rls db own ∧ _ := lock_relies locks
    exact ⟨lock_books viewed locks chosen owned, issued.symm⟩
  write := by
    rintro db f own ⟨p, writes⟩ view w next - ⟨books, all⟩ - - does - -
    obtain rfl : writes = p.issued rls := all
    exact ⟨write_books books does, (write_issued does).symm⟩
  commit h local_ _ viewed commits :=
    h.of_effect (taskEffect_of_books local_.1 (local_.2 ▸ viewed) commits)
  stable h local_ other _ viewed commits apart :=
    ⟨local_.1.of_commit h (taskEffect_of_books other.1 (other.2 ▸ viewed) commits) apart, local_.2⟩

/-- Whatever the transactions do and wherever they are rolled back, every session that waits for an
admin has exactly one task, and no session has two tickets. -/
theorem accounted_throughout (rls : Bool) (now : Nat) (threads : Uuid → Option ThreadRow)
    (acts : List (Act Request Nat)) :
    Throughout (Desk.step rls) (fun m => Accounted m.committed)
      (State.initial ⟨now, threads, fun _ => none, [], []⟩) acts := by
  have empty : Booked ⟨now, threads, fun _ => none, [], []⟩ := by
    refine ⟨by simp, by simp, List.Pairwise.nil, ?_, fun s => by simp [taskCount, ticketCount]⟩
    rintro s ⟨row, found, -⟩
    simp at found
  have free : Along (Desk.step rls) (Guarded fun _ _ => True)
      (State.initial ⟨now, threads, fun _ => none, [], []⟩) acts := by
    refine along_of_mem (fun act _ m => ?_) _
    cases act <;> simp [Guarded]
  exact ((bookings rls).throughout empty free).mono fun _ booked => booked.accounted

end CuckooEcho.Hitl
