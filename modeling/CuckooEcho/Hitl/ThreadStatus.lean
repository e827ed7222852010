import CuckooEcho.Hitl.Sessions

namespace CuckooEcho.Hitl
open Lib

/-! ## When a thread's status follows its sessions -/

def ActiveAt (db : Db) (s thread : Uuid) : Prop :=
  ∃ row, db.sessions s = some row ∧ row.threadId = thread ∧ row.status = .active

def ActiveOn (db : Db) (thread : Uuid) : Prop := ∃ s, ActiveAt db s thread

def ActiveBesides (db : Db) (s thread : Uuid) : Prop := ∃ other, other ≠ s ∧ ActiveAt db other thread

def StatusFollows (db : Db) : Prop :=
  ∀ thread row, db.threads thread = some row →
    (row.status = .humanIntervention ↔ ActiveOn db thread)

structure Initial (db : Db) : Prop where
  sessions : ∀ s, db.sessions s = none
  threads : ∀ thread row, db.threads thread = some row → row.status = .active
  tasks : db.tasks = []
  tickets : db.tickets = []

/-- Where the policies apply, a hand-off is only requested for a thread of the same tenant. -/
def OwnThread (rls : Bool) (db : Db) : Op → Prop
  | .notifyHitlRequest _ _ tenant thread =>
      rls = true → ∀ row, db.threads thread = some row → row.tenantId = tenant
  | _ => True

/-- No session is ended while another session of its thread is active. -/
def EndsAlone (rls : Bool) (db : Db) : Op → Prop
  | .endSession s tenant => ∀ row, db.selectSession (tenantDbContext rls tenant) s = some row →
      row.status = .active → (db.threads row.threadId).isSome → ¬ ActiveBesides db s row.threadId
  | _ => True

def Matched (rls : Bool) (db : Db) : Prop :=
  rls = true → ∀ s row, db.sessions s = some row →
    ∀ owner, db.threads row.threadId = some owner → owner.tenantId = row.tenantId

theorem activeOn_iff (db : Db) (s thread : Uuid) :
    ActiveOn db thread ↔ ActiveBesides db s thread ∨ ActiveAt db s thread := by
  constructor
  · rintro ⟨other, here⟩
    by_cases same : other = s
    · exact Or.inr (same ▸ here)
    · exact Or.inl ⟨other, same, here⟩
  · rintro (⟨other, -, here⟩ | here)
    · exact ⟨other, here⟩
    · exact ⟨s, here⟩

theorem activeAt_iff {db : Db} {s : Uuid} {row : SessionRow} (found : db.sessions s = some row)
    (thread : Uuid) : ActiveAt db s thread ↔ row.threadId = thread ∧ row.status = .active := by
  simp [ActiveAt, found]

theorem activeBesides_congr (db db' : Db) (s : Uuid)
    (others : ∀ other, other ≠ s → db'.sessions other = db.sessions other) (thread : Uuid) :
    ActiveBesides db' s thread ↔ ActiveBesides db s thread := by
  refine exists_congr fun other => and_congr_right fun ne => ?_
  simp only [ActiveAt, others other ne]

/-- What the change of one session's row means for the sessions of a thread. -/
theorem activeOn_of_update {db db' : Db} {s : Uuid} {row new : SessionRow} (found : db.sessions s = some row)
    (sessions : ∀ other, db'.sessions other = if other = s then some new else db.sessions other) (thread : Uuid) :
    (ActiveOn db thread ↔ ActiveBesides db s thread ∨ row.threadId = thread ∧ row.status = .active) ∧
      (ActiveOn db' thread ↔ ActiveBesides db s thread ∨ new.threadId = thread ∧ new.status = .active) := by
  have others := activeBesides_congr db db' s fun other ne => by rw [sessions, if_neg ne]
  have before := activeAt_iff found thread
  have after := activeAt_iff ((sessions s).trans (if_pos rfl)) thread
  exact ⟨by rw [activeOn_iff db s, before], by rw [activeOn_iff db' s, others, after]⟩

section Steps
variable {rls : Bool} {db db' : Db}

theorem updateThread_matched (matched : Matched rls db) {s tenant : Uuid} {row : SessionRow}
    (selected : db.selectSession (tenantDbContext rls tenant) s = some row) (status : ThreadStatus)
    (thread : Uuid) :
    (db.updateThread (tenantDbContext rls tenant) row.threadId status).threads thread =
      if thread = row.threadId then (db.threads thread).map ({ · with status }) else db.threads thread := by
  obtain ⟨found, seen⟩ := Db.selectSession_eq_some.mp selected
  rw [Db.updateThread_threads]
  split
  · rename_i eq
    subst eq
    cases owner : db.threads row.threadId with
    | none => rfl
    | some trow =>
        have visible : (tenantDbContext rls tenant).sees trow.tenantId = true := by
          rw [sees_tenantDbContext] at seen ⊢
          exact fun on => (seen on).trans (matched on s row found trow owner).symm
        simp [visible]
  · rfl

theorem Matched.of_origins (matched : Matched rls db)
    (threads : ∀ t owner, db'.threads t = some owner →
      ∃ old, db.threads t = some old ∧ old.tenantId = owner.tenantId)
    (sessions : ∀ s row, db'.sessions s = some row →
      ∃ old, db.sessions s = some old ∧ old.tenantId = row.tenantId ∧ old.threadId = row.threadId) :
    Matched rls db' := by
  intro on s row found owner ownerFound
  obtain ⟨old, oldFound, sameTenant, sameThread⟩ := sessions s row found
  obtain ⟨oldOwner, oldOwnerFound, sameOwner⟩ := threads _ owner ownerFound
  rw [← sameOwner, ← sameTenant]
  exact matched on s old oldFound oldOwner (sameThread ▸ oldOwnerFound)

theorem origin_of_update {s : Uuid} {row row' : SessionRow} (found : db.sessions s = some row)
    (sessions : ∀ other, db'.sessions other = if other = s then some row' else db.sessions other)
    (tenant : row.tenantId = row'.tenantId) (thread : row.threadId = row'.threadId) :
    ∀ s r, db'.sessions s = some r →
      ∃ old, db.sessions s = some old ∧ old.tenantId = r.tenantId ∧ old.threadId = r.threadId := by
  intro other r h
  rw [sessions] at h
  split at h
  · rename_i same
    obtain rfl := Option.some.inj h
    exact ⟨row, same ▸ found, tenant, thread⟩
  · exact ⟨r, h, rfl, rfl⟩

theorem Matched.of_effect {op : Op} (matched : Matched rls db) (own : OwnThread rls db op)
    (effect : Effect rls db db' op) : Matched rls db' := by
  cases effect with
  | none threads sessions => rwa [Matched, threads, sessions]
  | @notified s k tenant thread fresh threads sessions =>
      intro on s' row found owner ownerFound
      rw [threads] at ownerFound
      rw [sessions, Function.update_apply] at found
      split at found
      · obtain rfl := Option.some.inj found
        exact own on owner ownerFound
      · exact matched on s' row found owner ownerFound
  | taken selected pending threads sessions =>
      exact matched.of_origins (fun t owner h => Db.updateThread_owner (threads ▸ h))
        (origin_of_update (Db.selectSession_eq_some.mp selected).1 sessions rfl rfl)
  | ended selected active threads sessions =>
      exact matched.of_origins (fun t owner h => Db.updateThread_owner (threads ▸ h))
        (origin_of_update (Db.selectSession_eq_some.mp selected).1 sessions rfl rfl)
  | escalated found pending threads sessions =>
      exact matched.of_origins (fun t owner h => ⟨owner, threads ▸ h, rfl⟩)
        (origin_of_update found sessions rfl rfl)

/-- A session changed together with the status of its thread: only that thread is left to be looked at. -/
theorem StatusFollows.of_update (follows : StatusFollows db) (matched : Matched rls db) {s tenant : Uuid}
    {row new : SessionRow} {status : ThreadStatus}
    (selected : db.selectSession (tenantDbContext rls tenant) s = some row)
    (threads : db'.threads = (db.updateThread (tenantDbContext rls tenant) row.threadId status).threads)
    (sessions : ∀ other, db'.sessions other = if other = s then some new else db.sessions other)
    (thread : new.threadId = row.threadId)
    (settles : ∀ owner, db.threads row.threadId = some owner →
      (status = .humanIntervention ↔ ActiveBesides db s row.threadId ∨ new.status = .active)) :
    StatusFollows db' := by
  intro t trow found
  obtain ⟨before, after⟩ := activeOn_of_update (Db.selectSession_eq_some.mp selected).1 sessions t
  rw [threads, updateThread_matched matched selected] at found
  rw [after, thread]
  split at found
  · rename_i same
    subst same
    obtain ⟨owner, there, rfl⟩ := Option.map_eq_some_iff.mp found
    simpa using settles owner there
  · rename_i differs
    rw [follows t trow found, before]
    simp [Ne.symm differs]

theorem StatusFollows.of_effect {op : Op} (follows : StatusFollows db) (matched : Matched rls db)
    (alone : EndsAlone rls db op) (effect : Effect rls db db' op) : StatusFollows db' := by
  cases effect with
  | none threads sessions =>
      intro thread trow found
      rw [threads] at found
      simpa only [ActiveOn, ActiveAt, sessions] using follows thread trow found
  | @notified s k tenant owner fresh threads sessions =>
      intro thread trow found
      have others := activeBesides_congr db db' s
        fun other ne => by rw [sessions, Function.update_of_ne ne]
      have before : ¬ ActiveAt db s thread := by simp [ActiveAt, fresh]
      have created : db'.sessions s = some (pendingRow tenant owner) := by simp [sessions]
      have after := activeAt_iff created thread
      rw [threads] at found
      rw [follows thread trow found, activeOn_iff db s, activeOn_iff db' s, others, after]
      simp [before, pendingRow]
  | taken selected pending threads sessions =>
      exact follows.of_update matched selected threads sessions rfl (by simp)
  | @ended s tenant row selected active threads sessions =>
      refine follows.of_update matched selected threads sessions rfl fun owner there => ?_
      have none := alone row selected active (by rw [there]; rfl)
      simp [none]
  | @escalated op s row found' pending threads sessions =>
      intro thread trow found
      obtain ⟨before, after⟩ := activeOn_of_update found' sessions thread
      rw [threads] at found
      rw [follows thread trow found, before, after]
      simp [pending]

theorem EndsAlone.of_step {op : Op} (matched : Matched rls db) (h : op.step rls db = some db')
    (follows : StatusFollows db') : EndsAlone rls db op := by
  cases op with
  | endSession s tenant =>
      intro row selected active exists_ besides
      obtain ⟨trow, found⟩ := Option.isSome_iff_exists.mp exists_
      simp only [Op.step, endSession_of_active selected active, Option.some.injEq] at h
      have restored : db'.threads row.threadId = some { trow with status := .active } := by
        rw [← h, Db.updateSession_threads, updateThread_matched matched selected]
        simp [found]
      have others := activeBesides_congr db db' s
        fun other ne => by rw [← h, Db.updateSession_sessions_of_ne _ _ ne, Db.updateThread_sessions]
      have still : ActiveOn db' row.threadId :=
        (activeOn_iff db' s _).mpr (Or.inl ((others _).mpr besides))
      simpa using (follows _ _ restored).mpr still
  | _ => trivial

end Steps

theorem Initial.matched {db : Db} (initial : Initial db) (rls : Bool) : Matched rls db := by
  intro _ s row found
  simp [initial.sessions s] at found

theorem Initial.follows {db : Db} (initial : Initial db) : StatusFollows db := by
  intro thread row found
  simp [initial.threads thread row found, ActiveOn, ActiveAt, initial.sessions]

/-- A thread is in human intervention exactly while one of its sessions is active, as long as and
only as long as no session is ended beside another active one. -/
theorem statusFollows_iff_endsAlone (rls : Bool) (db : Db) (ops : List Op) (initial : Initial db)
    (own : Along (Op.step rls) (OwnThread rls) db ops) :
    Throughout (Op.step rls) StatusFollows db ops ↔
      Along (Op.step rls) (EndsAlone rls) db ops := by
  have start : StatusFollows db ∧ Matched rls db := ⟨initial.follows, initial.matched rls⟩
  refine throughout_iff_along (fun db => StatusFollows db ∧ Matched rls db)
    (fun db h => h.1) ?_ ?_ start own
  · intro db op db' inv own alone h
    have effect := step_effect h
    exact ⟨inv.1.of_effect inv.2 alone effect, inv.2.of_effect own effect⟩
  · intro db op db' inv _ h follows
    exact EndsAlone.of_step inv.2 h follows

def oneThread : Db :=
  { now := 0, threads := fun t => if t = 1 then some ⟨0, .active⟩ else none, sessions := fun _ => none,
    tasks := [], tickets := [] }

theorem oneThread_initial : Initial oneThread where
  sessions _ := rfl
  threads thread row h := by
    simp only [oneThread, Option.ite_none_right_eq_some, Option.some.injEq] at h
    rw [← h.2]
  tasks := rfl
  tickets := rfl

def endedBesideActive : List Op :=
  [.notifyHitlRequest 10 20 0 1, .notifyHitlRequest 11 21 0 1, .takeSession 10 0 7, .takeSession 11 0 8,
    .endSession 10 0]

theorem endedBesideActive_breaks :
    ¬ ∀ (rls : Bool) (db : Db) (ops : List Op), Initial db →
      Throughout (Op.step rls) StatusFollows db ops := by
  intro claim
  have reached := (claim false oneThread endedBesideActive oneThread_initial).last rfl 1 ⟨0, .active⟩ rfl
  simpa using reached.mpr ⟨11, _, rfl, rfl, rfl⟩

/-- The second session of the thread is taken and ended after the first one has been. -/
def endedOneByOne : List Op :=
  [.notifyHitlRequest 10 20 0 1, .notifyHitlRequest 11 21 0 1, .takeSession 10 0 7, .endSession 10 0,
    .takeSession 11 0 8, .endSession 11 0]

theorem statusFollows_iff_endsAlone_oneByOne :
    Throughout (Op.step true) StatusFollows oneThread endedOneByOne ↔
      Along (Op.step true) (EndsAlone true) oneThread endedOneByOne := by
  have owner (row : ThreadRow) (found : oneThread.threads 1 = some row) : row.tenantId = 0 := by
    obtain rfl := Option.some.inj found
    rfl
  have own : Along (Op.step true) (OwnThread true) oneThread endedOneByOne := by
    refine along_cons rfl (fun _ => owner) ?_
    refine along_cons rfl (fun _ => owner) ?_
    exact along_of_mem (by simp [OwnThread]) _
  exact statusFollows_iff_endsAlone true oneThread endedOneByOne oneThread_initial own

end CuckooEcho.Hitl
