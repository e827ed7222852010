import CuckooEcho.Hitl.Escalation
import CuckooEcho.Hitl.Serial
import CuckooEcho.Lib.Inevitable
import Mathlib.Data.List.MinMax
import Mathlib.Data.Finset.Lattice.Fold
import Mathlib.Data.Fintype.EquivFin
import Mathlib.Data.List.Nodup

namespace CuckooEcho.Hitl
open Lib ReadCommitted

/-! ## What a poll does to its task -/

def waiting (db : Db) (task : EscalationTask) : Bool :=
  (db.sessions task.sessionId).any fun row => row.status = .pending

def due (db : Db) (task : EscalationTask) : Bool := task.executeAt ≤ db.now

/-- The ticket of a session refers to the row of its thread, which `threads` need not have. -/
def Deliverable (db : Db) (task : EscalationTask) : Prop := waiting db task = true → (db.threads task.threadId).isSome

/-- A poll that finds a task; the id of its ticket is new. -/
def Polls (db : Db) : Op → Prop
  | .pollEscalationTasks (some _) ticketId => ∀ ticket ∈ db.tickets, ticket.id ≠ ticketId
  | _ => False

/-- The tasks are gone, and each session that waited for an admin has been escalated with one ticket. -/
structure Escalates (before : Db) (handled : List EscalationTask) (after : Db) : Prop where
  now : after.now = before.now
  threads : after.threads = before.threads
  tasks : after.tasks = before.tasks.filter (· ∉ handled)
  sessions : ∀ s, after.sessions s = (before.sessions s).map fun row =>
    if row.status = .pending ∧ s ∈ handled.map (·.sessionId) then { row with status := .autoEscalated } else row
  tickets : ∃ new : List Ticket, after.tickets = before.tickets ++ new ∧
    new.map (fun ticket => (ticket.tenantId, ticket.threadId, ticket.hitlSessionId)) =
      (handled.filter (waiting before)).map fun task => (task.tenantId, task.threadId, task.sessionId)

/-- All that is due has been handled, the earliest first. -/
structure Drained (before after : Db) (handled : List EscalationTask) : Prop where
  all : handled.Perm (before.tasks.filter (due before))
  order : handled.Pairwise (·.executeAt ≤ ·.executeAt)
  escalates : Escalates before handled after

section
variable {db mid db' : Db} {task : EscalationTask} {ticketId : Uuid} {handled : List EscalationTask}

theorem waiting_eq_true : waiting db task = true ↔ Pending db task.sessionId := by
  simp [waiting, Pending, Option.any_eq_true]

theorem dueTask_some {locked : EscalationTask → Bool} (h : dueTask db locked (some task) = true) :
    task ∈ db.tasks ∧ due db task = true := by
  simp only [dueTask, Bool.and_eq_true, decide_eq_true_eq, List.mem_filter] at h
  exact ⟨h.1.1, decide_eq_true h.1.2.1⟩

theorem dueTask_first {task' : EscalationTask} (h : dueTask db (fun _ => false) (some task) = true)
    (member : task' ∈ db.tasks) (overdue : due db task' = true) : task.executeAt ≤ task'.executeAt := by
  simp only [dueTask, Bool.and_eq_true, List.all_eq_true, decide_eq_true_eq, List.mem_filter] at h
  exact h.2 task' ⟨member, of_decide_eq_true overdue, rfl⟩

theorem exists_dueTask (member : task ∈ db.tasks) (overdue : due db task = true) :
    ∃ first, dueTask db (fun _ => false) (some first) = true := by
  have here : task ∈ db.tasks.filter fun t => t.executeAt ≤ db.now && !false :=
    List.mem_filter.mpr ⟨member, by simpa [due] using overdue⟩
  cases first : List.argmin EscalationTask.executeAt (db.tasks.filter fun t => t.executeAt ≤ db.now && !false) with
  | none =>
      rw [List.argmin_eq_none.mp first] at here
      exact absurd here List.not_mem_nil
  | some first' =>
      refine ⟨first', ?_⟩
      simp only [dueTask, Bool.and_eq_true, List.all_eq_true, decide_eq_true_eq]
      exact ⟨List.argmin_mem first, fun t there => List.le_of_mem_argmin there first⟩

theorem poll_eq (found : dueTask db (fun _ => false) (some task) = true) :
    (Op.pollEscalationTasks (some task) ticketId).step false db =
      some (((escalate db task ticketId).map (·.deleteTask task.id)).getD db) := if_pos found

/-- The ticket of an undeliverable task is refused, and the poll that picked it is rolled back. -/
theorem escalate_refused (undeliverable : ¬ Deliverable db task) : escalate db task ticketId = none := by
  obtain ⟨waits, missing⟩ := Classical.not_imp.mp undeliverable
  obtain ⟨row, found, pending⟩ := waiting_eq_true.mp waits
  have selected : db.selectSession none task.sessionId = some row := Db.selectSession_eq_some.mpr ⟨found, rfl⟩
  simp [escalate, selected, pending, Db.insertTicket, missing]

theorem deleteTask_tasks (distinct : db.tasks.Pairwise (·.id ≠ ·.id)) (member : task ∈ db.tasks) :
    db.tasks.filter (·.id ≠ task.id) = db.tasks.filter (· ∉ [task]) := by
  refine List.filter_congr fun t here => ?_
  have same : t.id = task.id ↔ t = task :=
    ⟨List.inj_on_of_nodup_map (List.pairwise_map.mpr distinct) here member, congrArg _⟩
  simp [same]

theorem escalates_of_decided (distinct : db.tasks.Pairwise (·.id ≠ ·.id)) (member : task ∈ db.tasks)
    (decided : waiting db task = false) : Escalates db [task] (db.deleteTask task.id) where
  now := rfl
  threads := rfl
  tasks := deleteTask_tasks distinct member
  sessions s := by
    cases found : db.sessions s with
    | none => simp [found]
    | some row =>
        have kept : ¬ (row.status = .pending ∧ s ∈ [task].map (·.sessionId)) := by
          rintro ⟨pending, here⟩
          obtain rfl := List.mem_singleton.mp here
          simp [waiting, found, pending] at decided
        simp only [Db.deleteTask_sessions, found, Option.map_some, if_neg kept]
  tickets := ⟨[], by simp, by simp [decided]⟩

theorem escalates_of_waiting (distinct : db.tasks.Pairwise (·.id ≠ ·.id)) (member : task ∈ db.tasks) {row : SessionRow}
    (found : db.sessions task.sessionId = some row) (pending : row.status = .pending) {after : Db}
    (inserted : (db.updateSession none task.sessionId fun r => { r with status := .autoEscalated }).insertTicket
      { id := ticketId, tenantId := task.tenantId, threadId := task.threadId, hitlSessionId := task.sessionId } =
        some after) : Escalates db [task] (after.deleteTask task.id) := by
  obtain ⟨-, rfl⟩ := Db.insertTicket_eq_some.mp inserted
  have waits : waiting db task = true := waiting_eq_true.mpr ⟨row, found, pending⟩
  refine ⟨rfl, rfl, deleteTask_tasks distinct member, fun s => ?_, [_], rfl, by simp [waits]⟩
  by_cases same : s = task.sessionId
  · subst same
    simp [Db.updateSession, found, pending]
  · simp [Db.updateSession, same]

theorem escalates_of_escalate (distinct : db.tasks.Pairwise (·.id ≠ ·.id)) (member : task ∈ db.tasks) {after : Db}
    (escalated : escalate db task ticketId = some after) : Escalates db [task] (after.deleteTask task.id) := by
  unfold escalate at escalated
  cases selected : db.selectSession none task.sessionId with
  | none =>
      rw [selected] at escalated
      obtain rfl := Option.some.inj escalated
      refine escalates_of_decided distinct member ?_
      cases found : db.sessions task.sessionId with
      | none => simp [waiting, found]
      | some row => simp [Db.selectSession, found] at selected
  | some row =>
      have found := (Db.selectSession_eq_some.mp selected).1
      simp only [selected] at escalated
      by_cases pending : row.status = .pending
      · exact escalates_of_waiting distinct member found pending ((if_neg (not_not.mpr pending)).symm.trans escalated)
      · obtain rfl := Option.some.inj ((if_pos pending).symm.trans escalated)
        refine escalates_of_decided distinct member ?_
        simp [waiting, found, pending]

theorem escalate_delivers (deliverable : Deliverable db task) (fresh : ∀ ticket ∈ db.tickets, ticket.id ≠ ticketId) :
    ∃ after, escalate db task ticketId = some after := by
  unfold escalate
  cases selected : db.selectSession none task.sessionId with
  | none => exact ⟨db, rfl⟩
  | some row =>
      have found := (Db.selectSession_eq_some.mp selected).1
      by_cases pending : row.status = .pending
      · have known : (db.threads task.threadId).isSome := deliverable (waiting_eq_true.mpr ⟨row, found, pending⟩)
        refine ⟨_, (if_neg (not_not.mpr pending)).trans (if_pos ⟨fresh, known, ?_⟩)⟩
        rw [isSome_updateSession, found]
        rfl
      · exact ⟨db, if_pos pending⟩

end

/-! ## Polls one after the other -/

section
variable {before mid after : Db} {task task' : EscalationTask} {handled : List EscalationTask}

theorem Booked.eq_of_session (booked : Booked before) (here : task ∈ before.tasks) (there : task' ∈ before.tasks)
    (same : task.sessionId = task'.sessionId) : task = task' := by
  have few : (before.tasks.filter (·.sessionId = task.sessionId)).length ≤ 1 := by
    rw [← List.countP_eq_length_filter]
    exact (Nat.le_add_right _ _).trans (booked.once task.sessionId)
  have first : task ∈ before.tasks.filter (·.sessionId = task.sessionId) := List.mem_filter.mpr ⟨here, by simp⟩
  have second : task' ∈ before.tasks.filter (·.sessionId = task.sessionId) :=
    List.mem_filter.mpr ⟨there, by simp [same]⟩
  obtain ⟨only, eq⟩ : ∃ only, before.tasks.filter (·.sessionId = task.sessionId) = [only] := by
    apply List.length_eq_one_iff.mp
    have some := List.length_pos_of_mem first
    omega
  rw [eq] at first second
  rw [List.mem_singleton.mp first, List.mem_singleton.mp second]

theorem Escalates.mem_tasks (escalates : Escalates before handled mid) :
    task ∈ mid.tasks ↔ task ∈ before.tasks ∧ task ∉ handled := by
  rw [escalates.tasks, List.mem_filter, decide_eq_true_iff]

theorem Escalates.refl (db : Db) : Escalates db [] db :=
  ⟨rfl, rfl, by simp, fun s => by simp, [], by simp, rfl⟩

theorem Escalates.apart (escalates : Escalates before handled mid) (booked : Booked before)
    (known : ∀ t ∈ handled, t ∈ before.tasks) (member : task ∈ mid.tasks) :
    task.sessionId ∉ handled.map (·.sessionId) := by
  intro here
  obtain ⟨t, there, same⟩ := List.mem_map.mp here
  obtain ⟨member, left⟩ := escalates.mem_tasks.mp member
  exact left (booked.eq_of_session (known t there) member same ▸ there)

theorem Escalates.waiting_eq (escalates : Escalates before handled mid) (booked : Booked before)
    (known : ∀ t ∈ handled, t ∈ before.tasks) (member : task ∈ mid.tasks) : waiting mid task = waiting before task := by
  have apart := escalates.apart booked known member
  simp [waiting, escalates.sessions, apart]

theorem Escalates.concat (escalates : Escalates before handled mid) (booked : Booked before)
    (known : ∀ t ∈ handled, t ∈ before.tasks) (member : task ∈ mid.tasks) (next : Escalates mid [task] after) :
    Escalates before (handled ++ [task]) after where
  now := next.now.trans escalates.now
  threads := next.threads.trans escalates.threads
  tasks := by
    rw [next.tasks, escalates.tasks, List.filter_filter]
    refine List.filter_congr fun t _ => ?_
    simp [and_comm, not_or]
  sessions s := by
    rw [next.sessions, escalates.sessions, Option.map_map]
    refine congrArg (Option.map · _) (funext fun row => ?_)
    by_cases pending : row.status = .pending
    · by_cases here : s ∈ handled.map (·.sessionId)
      · simp [pending, here]
      · simp [pending, here]
    · simp [pending]
  tickets := by
    obtain ⟨first, eq, about⟩ := escalates.tickets
    obtain ⟨second, eq', about'⟩ := next.tickets
    refine ⟨first ++ second, ?_, ?_⟩
    · rw [eq', eq, List.append_assoc]
    · have same := escalates.waiting_eq booked known member
      rw [List.map_append, about, about', List.filter_append, List.map_append]
      simp [List.filter_cons, same]

/-- What has been handled by polls, the earliest tasks first. -/
structure Polled (before db : Db) (handled : List EscalationTask) : Prop where
  escalates : Escalates before handled db
  known : ∀ t ∈ handled, t ∈ before.tasks ∧ due before t = true
  nodup : handled.Nodup
  order : handled.Pairwise (·.executeAt ≤ ·.executeAt)
  first : ∀ t ∈ handled, ∀ t' ∈ db.tasks, due before t' = true → t.executeAt ≤ t'.executeAt

theorem Polled.refl (db : Db) : Polled db db [] :=
  ⟨Escalates.refl db, by simp, List.nodup_nil, List.Pairwise.nil, by simp⟩

theorem Escalates.due_eq (escalates : Escalates before handled mid) (task : EscalationTask) :
    due mid task = due before task := by
  rw [due, due, escalates.now]

theorem Polled.concat (polled : Polled before mid handled) (booked : Booked before)
    (found : dueTask mid (fun _ => false) (some task) = true) (next : Escalates mid [task] after) :
    Polled before after (handled ++ [task]) := by
  obtain ⟨member, overdue⟩ := dueTask_some found
  have known t here := (polled.known t here).1
  rw [polled.escalates.due_eq] at overdue
  obtain ⟨old, left⟩ := polled.escalates.mem_tasks.mp member
  refine ⟨polled.escalates.concat booked known member next, ?_, ?_, ?_, ?_⟩
  · exact List.forall_mem_append.mpr ⟨polled.known, by simpa using ⟨old, overdue⟩⟩
  · refine List.nodup_append.mpr ⟨polled.nodup, by simp, fun t here t' there same => ?_⟩
    obtain rfl := List.mem_singleton.mp there
    exact left (same ▸ here)
  · refine List.pairwise_append.mpr ⟨polled.order, List.pairwise_singleton .., ?_⟩
    simpa using fun t here => polled.first t here task member overdue
  · intro t here t' there overdue'
    have still := (next.mem_tasks.mp there).1
    rcases List.mem_append.mp here with earlier | now
    · exact polled.first t earlier t' still overdue'
    · obtain rfl := List.mem_singleton.mp now
      rw [← polled.escalates.due_eq] at overdue'
      exact dueTask_first found still overdue'

theorem Polled.drained (polled : Polled before after handled) (booked : Booked before)
    (none_due : ∀ t ∈ after.tasks, due before t = false) : Drained before after handled := by
  refine ⟨?_, polled.order, polled.escalates⟩
  have distinct : before.tasks.Nodup := booked.distinct.imp fun ne same => ne (congrArg _ same)
  refine (List.perm_ext_iff_of_nodup polled.nodup (distinct.filter _)).mpr fun t => ?_
  rw [List.mem_filter]
  refine ⟨polled.known t, fun ⟨member, overdue⟩ => ?_⟩
  by_contra left
  have still := none_due t (polled.escalates.mem_tasks.mpr ⟨member, left⟩)
  simp [overdue] at still

theorem Escalates.deliverable_iff (escalates : Escalates before handled mid) (booked : Booked before)
    (known : ∀ t ∈ handled, t ∈ before.tasks) (member : task ∈ mid.tasks) :
    Deliverable mid task ↔ Deliverable before task := by
  rw [Deliverable, Deliverable, escalates.waiting_eq booked known member, escalates.threads]

theorem exists_fresh (tickets : List Ticket) : ∃ ticketId, ∀ ticket ∈ tickets, ticket.id ≠ ticketId := by
  obtain ⟨ticketId, fresh⟩ := Infinite.exists_notMem_finset (tickets.map (·.id)).toFinset
  refine ⟨ticketId, fun ticket member same => fresh ?_⟩
  rw [List.mem_toFinset]
  exact List.mem_map.mpr ⟨ticket, member, same⟩

theorem Polled.distinct (polled : Polled before mid handled) (booked : Booked before) :
    mid.tasks.Pairwise (·.id ≠ ·.id) := by
  rw [polled.escalates.tasks]
  exact booked.distinct.filter _

/-- What a poll of a deliverable task comes to. -/
theorem Polled.next (polled : Polled before mid handled) (booked : Booked before) {ticketId : Uuid}
    (found : dueTask mid (fun _ => false) (some task) = true) (fresh : ∀ ticket ∈ mid.tickets, ticket.id ≠ ticketId)
    (deliverable : Deliverable before task) :
    ∃ after, (Op.pollEscalationTasks (some task) ticketId).step false mid = some after ∧
      Polled before after (handled ++ [task]) := by
  have member := (dueTask_some found).1
  have known t here := (polled.known t here).1
  have here := (polled.escalates.deliverable_iff booked known member).mpr deliverable
  obtain ⟨after, escalated⟩ := escalate_delivers here fresh
  have next := escalates_of_escalate (polled.distinct booked) member escalated
  refine ⟨after.deleteTask task.id, ?_, polled.concat booked found next⟩
  rw [poll_eq found, escalated]
  rfl

theorem drains_of_deliverable (booked : Booked before)
    (deliverable : ∀ t ∈ before.tasks, due before t = true → Deliverable before t) :
    Inevitable (Op.step false) Polls (fun db => ∃ handled, Drained before db handled) before := by
  apply inevitable_of_measure Nat.lt_wfRel.wf (fun db => db.tasks.length) fun db => ∃ handled, Polled before db handled
  · rintro db op db' ⟨handled, polled⟩ mine h
    cases op with
    | pollEscalationTasks pick ticketId =>
        cases pick with
        | none => exact mine.elim
        | some task =>
            by_cases found : dueTask db (fun _ => false) (some task) = true
            · obtain ⟨member, overdue⟩ := dueTask_some found
              rw [polled.escalates.due_eq] at overdue
              obtain ⟨old, left⟩ := polled.escalates.mem_tasks.mp member
              obtain ⟨after, stepped, next⟩ := polled.next booked found mine (deliverable task old overdue)
              obtain rfl := Option.some.inj (stepped.symm.trans h)
              refine ⟨⟨_, next⟩, ?_⟩
              have tasks : after.tasks = db.tasks.filter (· ≠ task) := by
                rw [next.escalates.tasks, polled.escalates.tasks, List.filter_filter]
                refine List.filter_congr fun t _ => ?_
                simp [and_comm, not_or]
              show after.tasks.length < db.tasks.length
              rw [tasks]
              exact List.length_filter_lt_length_iff_exists.mpr ⟨task, member, by simp⟩
            · exact absurd h (by simp [Op.step, found])
    | notifyHitlRequest | takeSession | endSession | wait => exact mine.elim
  · rintro db ⟨handled, polled⟩ stuck
    refine ⟨handled, polled.drained booked fun t member => ?_⟩
    cases overdue : due before t with
    | false => rfl
    | true =>
        rw [← polled.escalates.due_eq] at overdue
        obtain ⟨first, found⟩ := exists_dueTask member overdue
        obtain ⟨ticketId, fresh⟩ := exists_fresh db.tickets
        have none := stuck (.pollEscalationTasks (some first) ticketId) fresh
        exact absurd ((poll_eq found).symm.trans none) (by simp)
  · exact ⟨[], Polled.refl before⟩

theorem deliverable_of_drains (booked : Booked before)
    (drains : Inevitable (Op.step false) Polls (fun db => ∃ handled, Drained before db handled) before) :
    ∀ t ∈ before.tasks, due before t = true → Deliverable before t := by
  intro stuck member overdue
  by_contra undeliverable
  refine not_inevitable (fun db => ∃ handled, Polled before db handled ∧ stuck ∈ db.tasks) ?_
    ⟨[], Polled.refl before, member⟩ drains
  rintro db ⟨handled, polled, left⟩
  obtain ⟨first, found⟩ := exists_dueTask left ((polled.escalates.due_eq stuck).trans overdue)
  obtain ⟨ticketId, fresh⟩ := exists_fresh db.tickets
  have known t here := (polled.known t here).1
  by_cases deliverable : Deliverable before first
  · obtain ⟨after, stepped, next⟩ := polled.next booked found fresh deliverable
    refine ⟨.pollEscalationTasks (some first) ticketId, after, fresh, stepped, _, next, ?_⟩
    have other : stuck ≠ first := fun same => undeliverable (same ▸ deliverable)
    refine next.escalates.mem_tasks.mpr ⟨member, ?_⟩
    simpa [other] using (polled.escalates.mem_tasks.mp left).2
  · refine ⟨.pollEscalationTasks (some first) ticketId, db, fresh, ?_, handled, polled, left⟩
    rw [← polled.escalates.deliverable_iff booked known (dueTask_some found).1] at deliverable
    rw [poll_eq found, escalate_refused deliverable]
    rfl

end

theorem booked_of_run {now : Nat} {threads : Uuid → Option ThreadRow} {acts : List (Act Request Nat)} {m : Desk}
    {rls : Bool} (run : exec (Desk.step rls) (State.initial ⟨now, threads, fun _ => none, [], []⟩) acts = some m) :
    Booked m.committed := by
  have empty : Booked ⟨now, threads, fun _ => none, [], []⟩ := by
    refine ⟨by simp, by simp, List.Pairwise.nil, ?_, fun s => by simp [taskCount, ticketCount]⟩
    rintro s ⟨row, found, -⟩
    simp at found
  have free : Along (Desk.step rls) (Guarded fun _ _ => True)
      (State.initial ⟨now, threads, fun _ => none, [], []⟩) acts := by
    refine along_of_mem (fun act _ m => ?_) _
    cases act <;> simp [Guarded]
  exact ((bookings rls).throughout empty free).last run

/-- Whatever has happened before, polls that nothing else interrupts handle all that is due, the earliest first and
with one ticket for each session that waits, if and only if each of these sessions is about a thread that the table
of threads has. -/
theorem drains_iff (now : Nat) (threads : Uuid → Option ThreadRow) (acts : List (Act Request Nat)) {m : Desk}
    (run : exec (Desk.step false) (State.initial ⟨now, threads, fun _ => none, [], []⟩) acts = some m) :
    Inevitable (Op.step false) Polls (fun db => ∃ handled, Drained m.committed db handled) m.committed ↔
      ∀ t ∈ m.committed.tasks, due m.committed t = true → Deliverable m.committed t := by
  have booked := booked_of_run run
  exact ⟨deliverable_of_drains booked, drains_of_deliverable booked⟩

/-- A session about the thread of `oneThread` that has waited for a minute. -/
def waitedFor : List (Act Request Nat) :=
  [.start 0 (.notifyHitlRequest 10 20 0 1), .run 0, .run 0, .run 0, .elapse 60]

theorem drains_iff_waitedFor : ∃ m : Desk,
    exec (Desk.step false) (State.initial ⟨0, oneThread.threads, fun _ => none, [], []⟩) waitedFor = some m ∧
      (Inevitable (Op.step false) Polls (fun db => ∃ handled, Drained m.committed db handled) m.committed ↔
        ∀ t ∈ m.committed.tasks, due m.committed t = true → Deliverable m.committed t) :=
  ⟨_, rfl, drains_iff 0 oneThread.threads waitedFor rfl⟩

/-! ## A task that blocks the others -/

/-- The task is due, its session waits, and the table of threads has no row for its thread. -/
structure Blocks (stuck : EscalationTask) (db : Db) : Prop where
  member : stuck ∈ db.tasks
  overdue : due db stuck = true
  waits : Pending db stuck.sessionId
  missing : db.threads stuck.threadId = none

section
variable {db db' : Db} {stuck : EscalationTask}

theorem Blocks.of_undeliverable (member : stuck ∈ db.tasks) (overdue : due db stuck = true)
    (undeliverable : ¬ Deliverable db stuck) : Blocks stuck db := by
  obtain ⟨waits, missing⟩ := Classical.not_imp.mp undeliverable
  exact ⟨member, overdue, waiting_eq_true.mp waits, by simpa using missing⟩

theorem Blocks.undeliverable (blocks : Blocks stuck db) : ¬ Deliverable db stuck := by
  intro deliverable
  have known := deliverable (waiting_eq_true.mpr blocks.waits)
  simp [blocks.missing] at known

/-- What the operations other than polls leave of a blocking task. -/
theorem Blocks.kept (blocks : Blocks stuck db) (tasks : ∀ t ∈ db.tasks, t ∈ db'.tasks) (now : db.now ≤ db'.now)
    (sessions : db'.sessions stuck.sessionId = db.sessions stuck.sessionId)
    (threads : db'.threads stuck.threadId = none) : Blocks stuck db' := by
  refine ⟨tasks stuck blocks.member, ?_, ?_, threads⟩
  · have early := of_decide_eq_true blocks.overdue
    exact decide_eq_true (early.trans now)
  · obtain ⟨row, found, pending⟩ := blocks.waits
    exact ⟨row, sessions.trans found, pending⟩

theorem updateThread_missing {scope : Scope} {id thread : Uuid} {status : ThreadStatus}
    (missing : db.threads thread = none) : (db.updateThread scope id status).threads thread = none := by
  rw [Db.updateThread_threads]
  split
  · rename_i same
    rw [← same, missing]
    rfl
  · exact missing

/-- What an update of another session leaves of a blocking task. -/
theorem Blocks.updated (blocks : Blocks stuck db) {scope : Scope} {thread s : Uuid} {status : ThreadStatus}
    {set : SessionRow → SessionRow} (other : stuck.sessionId ≠ s) :
    Blocks stuck ((db.updateThread scope thread status).updateSession scope s set) :=
  blocks.kept (fun _ member => member) (Nat.le_refl _) (Db.updateSession_sessions_of_ne _ _ other _)
    (updateThread_missing blocks.missing)

theorem Blocks.poll (blocks : Blocks stuck db) (booked : Booked db) {pick : Option EscalationTask} {ticketId : Uuid}
    (h : (Op.pollEscalationTasks pick ticketId).step false db = some db') :
    Blocks stuck db' ∧ ∀ t ∈ db.tasks, stuck.executeAt < t.executeAt → t ∈ db'.tasks := by
  have same (eq : db' = db) : Blocks stuck db' ∧ ∀ t ∈ db.tasks, stuck.executeAt < t.executeAt → t ∈ db'.tasks := by
    subst eq
    exact ⟨blocks, fun t member _ => member⟩
  cases pick with
  | none =>
      have found : dueTask db (fun _ => false) none = true := by
        by_contra missed
        exact absurd h (by simp [Op.step, missed])
      exact same (Option.some.inj (h.symm.trans (if_pos found)))
  | some task =>
      have found : dueTask db (fun _ => false) (some task) = true := by
        by_contra missed
        exact absurd h (by simp [Op.step, missed])
      rw [poll_eq found, Option.some.injEq] at h
      cases escalated : escalate db task ticketId with
      | none => exact same (by simpa [escalated, eq_comm] using h)
      | some after =>
          obtain rfl : after.deleteTask task.id = db' := by simpa [escalated] using h
          have member := (dueTask_some found).1
          have next := escalates_of_escalate booked.distinct member escalated
          have other : stuck ≠ task := by
            rintro rfl
            exact absurd (escalated.symm.trans (escalate_refused blocks.undeliverable)) (by simp)
          have elsewhere : stuck.sessionId ≠ task.sessionId := fun same =>
            other (booked.eq_of_session blocks.member member same)
          refine ⟨⟨next.mem_tasks.mpr ⟨blocks.member, by simpa using other⟩, ?_, ?_, ?_⟩, fun t here later => ?_⟩
          · exact (next.due_eq stuck).trans blocks.overdue
          · obtain ⟨row, found, pending⟩ := blocks.waits
            exact ⟨row, by simp [next.sessions, found, elsewhere], pending⟩
          · rw [next.threads]
            exact blocks.missing
          · refine next.mem_tasks.mpr ⟨here, fun handled => ?_⟩
            obtain rfl := List.mem_singleton.mp handled
            exact absurd (dueTask_first found blocks.member blocks.overdue) (Nat.not_le_of_lt later)

theorem Blocks.step {op : Op} (blocks : Blocks stuck db) (booked : Booked db)
    (untaken : ∀ tenant admin, op ≠ .takeSession stuck.sessionId tenant admin) (h : op.step false db = some db') :
    Blocks stuck db' ∧ ∀ t ∈ db.tasks, stuck.executeAt < t.executeAt → t ∈ db'.tasks := by
  cases op with
  | pollEscalationTasks pick ticketId => exact blocks.poll booked h
  | wait seconds =>
      obtain rfl := Option.some.inj h
      exact ⟨blocks.kept (fun _ member => member) (Nat.le_add_right _ _) rfl blocks.missing, fun t member _ => member⟩
  | notifyHitlRequest s k tenant thread =>
      obtain rfl := Option.some.inj h
      cases result : notifyHitlRequest db s k tenant thread with
      | none => exact ⟨blocks, fun t member _ => member⟩
      | some after =>
          obtain ⟨mid, inserted, added⟩ := Option.bind_eq_some_iff.mp result
          obtain ⟨fresh, rfl⟩ := Db.insertSession_eq_some.mp inserted
          obtain ⟨-, rfl⟩ := Db.insertTask_eq_some.mp added
          obtain ⟨row, found, -⟩ := blocks.waits
          have other : stuck.sessionId ≠ s := by
            rintro rfl
            exact absurd (found.symm.trans fresh) (by simp)
          refine ⟨blocks.kept (fun t member => List.mem_append_left _ member) (Nat.le_refl _) ?_ blocks.missing,
            fun t member _ => List.mem_append_left _ member⟩
          exact Function.update_of_ne other _ _
  | takeSession s tenant admin =>
      have other : stuck.sessionId ≠ s := by
        rintro rfl
        exact untaken tenant admin rfl
      simp only [Op.step, takeSession] at h
      split at h
      · rename_i after answer taken
        obtain rfl := Option.some.inj h
        split at taken
        · cases taken
        · split at taken
          · cases taken
          · obtain ⟨rfl, -⟩ := Prod.mk.inj (Except.ok.inj taken)
            exact ⟨blocks.updated other, fun t member _ => member⟩
      · obtain rfl := Option.some.inj h
        exact ⟨blocks, fun t member _ => member⟩
  | endSession s tenant =>
      rcases endSession_of_step h with ⟨e, -, rfl⟩ | ⟨answer, returned⟩
      · exact ⟨blocks, fun t member _ => member⟩
      · cases selected : db.selectSession (tenantDbContext false tenant) s with
        | none => simp [endSession, selected] at returned
        | some row =>
            by_cases active : row.status = .active
            · have other : stuck.sessionId ≠ s := by
                rintro rfl
                obtain ⟨row', found, pending⟩ := blocks.waits
                have same := Option.some.inj (found.symm.trans (Db.selectSession_eq_some.mp selected).1)
                rw [same, active] at pending
                cases pending
              rw [endSession_of_active selected active] at returned
              obtain ⟨rfl, -⟩ := Prod.mk.inj (Except.ok.inj returned)
              exact ⟨blocks.updated other, fun t member _ => member⟩
            · simp [endSession, selected, active] at returned

end

/-- A task that is due for a session about a thread that the table of threads does not have is picked again and
again: until an admin takes that session, no task that falls due later is ever handled. -/
theorem later_escalations_wait (now : Nat) (threads : Uuid → Option ThreadRow) (ops later : List Op) {db db' : Db}
    (run : exec (Op.step false) ⟨now, threads, fun _ => none, [], []⟩ ops = some db) {stuck : EscalationTask}
    (member : stuck ∈ db.tasks) (overdue : due db stuck = true) (undeliverable : ¬ Deliverable db stuck)
    (untaken : ∀ op ∈ later, ∀ tenant admin, op ≠ .takeSession stuck.sessionId tenant admin)
    (run' : exec (Op.step false) db later = some db') :
    (stuck ∈ db'.tasks ∧ due db' stuck = true ∧ ¬ Deliverable db' stuck) ∧
      ∀ t ∈ db.tasks, stuck.executeAt < t.executeAt → t ∈ db'.tasks ∧ ticketCount db' t.sessionId = 0 := by
  have start := Blocks.of_undeliverable member overdue undeliverable
  have booked (ops : List Op) {db : Db}
      (run : exec (Op.step false) ⟨now, threads, fun _ => none, [], []⟩ ops = some db) : Booked db := by
    obtain ⟨acts, m, here, -, rfl⟩ := operations_serial false run
    exact booked_of_run here
  have kept : Blocks stuck db' ∧ ∀ t ∈ db.tasks, stuck.executeAt < t.executeAt → t ∈ db'.tasks := by
    clear member overdue undeliverable
    induction later generalizing db ops with
    | nil =>
        obtain rfl := Option.some.inj run'
        exact ⟨start, fun t member _ => member⟩
    | cons op later ih =>
        obtain ⟨here, rest⟩ := List.forall_mem_cons.mp untaken
        obtain ⟨mid, stepped, run'⟩ := Option.bind_eq_some_iff.mp run'
        obtain ⟨blocks, waits⟩ := start.step (booked ops run) here stepped
        have reached : exec (Op.step false) ⟨now, threads, fun _ => none, [], []⟩ (ops ++ [op]) = some mid := by
          rw [exec_append, run]
          simpa using stepped
        obtain ⟨still, later⟩ := ih (ops ++ [op]) reached rest run' blocks
        exact ⟨still, fun t member after => later t (waits t member after) after⟩
  obtain ⟨blocks, waits⟩ := kept
  refine ⟨⟨blocks.member, blocks.overdue, blocks.undeliverable⟩, fun t member after => ⟨waits t member after, ?_⟩⟩
  have all : Booked db' := booked (ops ++ later) (by rw [exec_append, run]; exact run')
  have once := all.once t.sessionId
  have counted : 0 < taskCount db' t.sessionId :=
    List.countP_pos_iff.mpr ⟨t, waits t member after, by simp⟩
  omega

/-- A session about a thread that the table of threads does not have, and a second later one about a thread that it
has. -/
def unknownThreadFirst : List Op :=
  [.notifyHitlRequest 10 20 0 5, .wait 1, .notifyHitlRequest 11 21 0 1, .wait 60]

theorem later_escalations_wait_unknownThreadFirst : ∃ db db',
    exec (Op.step false) ⟨0, oneThread.threads, fun _ => none, [], []⟩ unknownThreadFirst = some db ∧
    exec (Op.step false) db [.pollEscalationTasks (some ⟨20, 10, 0, 5, 60⟩) 30] = some db' ∧
      ((⟨20, 10, 0, 5, 60⟩ ∈ db'.tasks ∧ due db' ⟨20, 10, 0, 5, 60⟩ = true ∧ ¬ Deliverable db' ⟨20, 10, 0, 5, 60⟩) ∧
        ∀ t ∈ db.tasks, 60 < t.executeAt → t ∈ db'.tasks ∧ ticketCount db' t.sessionId = 0) :=
  ⟨_, _, rfl, rfl, later_escalations_wait 0 oneThread.threads unknownThreadFirst
    [.pollEscalationTasks (some ⟨20, 10, 0, 5, 60⟩) 30] rfl (by decide) rfl
    (fun deliverable => absurd (deliverable rfl) (by decide)) (by simp) rfl⟩

end CuckooEcho.Hitl
