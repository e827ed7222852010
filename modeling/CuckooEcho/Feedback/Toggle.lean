import CuckooEcho.Feedback.Schema
import CuckooEcho.Lib.ReadCommitted

namespace CuckooEcho.Feedback
open Lib ReadCommitted

/-! ## `store_feedback` as concurrent transactions on one key -/

inductive Write
  | insert (key : FeedbackKey) (feedbackType : FeedbackType)
  | update (id : Uuid) (feedbackType : FeedbackType)
  | delete (id : Uuid)
  deriving DecidableEq, Repr

def Write.apply (db : Db) : Write → Option Db
  | .insert key feedbackType => db.insert key feedbackType
  | .update id feedbackType => some (db.update id feedbackType)
  | .delete id => some (db.delete id)

def Write.touches (db : Db) : Write → List FeedbackKey
  | .insert key _ => [key]
  | .update id _ | .delete id => (db.rows.filter fun row => row.id = id).map (·.key)

/-- The statement that a call is about to execute, with the row that its `SELECT` has returned. An
`INSERT` waits for a transaction that has written the key before it looks for a row of the key. -/
inductive Point
  | select (feedbackType : FeedbackType)
  | delete (feedbackType : FeedbackType) (existing : FeedbackRow)
  | update (feedbackType : FeedbackType) (existing : FeedbackRow)
  | awaitKey (feedbackType : FeedbackType)
  | checkKey (feedbackType : FeedbackType)
  | insert (feedbackType : FeedbackType)
  | commit (feedbackType : FeedbackType) (feedbackState : Option FeedbackType)
  | raised
  deriving DecidableEq, Repr

section
variable (key : FeedbackKey)

def selectExisting (feedbackType : FeedbackType) (db : Db) : Point :=
  match db.select key with
  | none => .awaitKey feedbackType
  | some existing =>
      if existing.feedbackType = feedbackType then .delete feedbackType existing
      else .update feedbackType existing

def instr : Point → Instr Db Write FeedbackKey Point
  | .select feedbackType => .read (selectExisting key feedbackType)
  | .delete feedbackType existing => .write (.delete existing.id) (.commit feedbackType none)
  | .update feedbackType existing => .write (.update existing.id feedbackType) (.commit feedbackType (some feedbackType))
  | .awaitKey feedbackType => .lock (fun _ _ => true) (some key) (.checkKey feedbackType)
  | .checkKey feedbackType => .read fun db => if db.Accepts key then .insert feedbackType else .raised
  | .insert feedbackType => .write (.insert key feedbackType) (.commit feedbackType (some feedbackType))
  | .commit .. => .commit
  | .raised => .abort

def storeFeedback : System Db Write FeedbackKey Point FeedbackType where
  apply := Write.apply
  touches := Write.touches
  opening feedbackType _ := .select feedbackType
  instr := instr key
  elapse db _ := db

end

abbrev Calls := State Db Write FeedbackKey Point Nat

/-! ## The toggle rule -/

def toggle (stored : Option FeedbackType) (feedbackType : FeedbackType) : Option FeedbackType :=
  if stored = some feedbackType then none else some feedbackType

/-- One call after another: its type and the state that it returned, which is the one it left. -/
def toggleStep (stored : Option FeedbackType) (call : FeedbackType × Option FeedbackType) :
    Option (Option FeedbackType) :=
  if toggle stored call.1 = call.2 then some call.2 else none

def Db.stored (db : Db) (key : FeedbackKey) : Option FeedbackType := (db.select key).map (·.feedbackType)

def Point.call : Point → Option (FeedbackType × Option FeedbackType)
  | .commit feedbackType feedbackState => some (feedbackType, feedbackState)
  | _ => none

/-- The calls that have returned, in the order of their commits. -/
def returned (finished : List Point) : List (FeedbackType × Option FeedbackType) :=
  finished.reverse.filterMap Point.call

structure Linearizable (key : FeedbackKey) (start : Db) (m : Calls) : Prop where
  unraised : ∀ t x, m.txns t = some x → x.point ≠ .raised
  order : ∃ serial, serial.Perm (returned m.finished) ∧
    exec toggleStep (start.stored key) serial = some (m.committed.stored key)
  single : m.committed.Single key

/-- The row that a call is about to act on is still the one that it has read. -/
def StillStored (key : FeedbackKey) (db : Db) (x : Txn Write Point) : Prop :=
  match x.point with
  | .delete _ existing | .update _ existing => db.select key = some existing
  | .checkKey _ => db.select key = none
  | .select _ | .awaitKey _ | .insert _ | .commit .. | .raised => True

instance (key : FeedbackKey) (db : Db) : (x : Txn Write Point) → Decidable (StillStored key db x)
  | ⟨.delete _ existing, _⟩ | ⟨.update _ existing, _⟩ => inferInstanceAs (Decidable (db.select key = some existing))
  | ⟨.checkKey _, _⟩ => inferInstanceAs (Decidable (db.select key = none))
  | ⟨.select _, _⟩ | ⟨.awaitKey _, _⟩ | ⟨.insert _, _⟩ | ⟨.commit .., _⟩ | ⟨.raised, _⟩ => isTrue trivial

/-! ## Calls that act on what they have read -/

theorem stored_of_singleton {db : Db} {key : FeedbackKey} {row : FeedbackRow} (rows : db.of key = [row]) :
    db.stored key = some row.feedbackType := by
  rw [Db.stored, Db.select_eq_head?, rows]
  rfl

theorem stored_of_nil {db : Db} {key : FeedbackKey} (rows : db.of key = []) : db.stored key = none := by
  rw [Db.stored, Db.select_eq_head?, rows]
  rfl

def Point.Relies (key : FeedbackKey) (db : Db) (owns : Prop) (writes : List Write) : Point → Prop
  | .select _ | .awaitKey _ => writes = []
  | .delete feedbackType existing => writes = [] ∧ existing.feedbackType = feedbackType
  | .update feedbackType existing => writes = [] ∧ existing.feedbackType ≠ feedbackType
  | .checkKey _ => writes = [] ∧ owns
  | .insert _ => writes = [] ∧ owns ∧ db.of key = []
  | .commit feedbackType feedbackState => owns ∧ ∃ after, exec Write.apply db writes = some after ∧
      after.Single key ∧ after.stored key = feedbackState ∧ toggle (db.stored key) feedbackType = feedbackState ∧
      after.tenants = db.tenants
  | .raised => False

structure Replays (key : FeedbackKey) (start db : Db) (finished : List Point) : Prop where
  serial : exec toggleStep (start.stored key) (returned finished) = some (db.stored key)
  single : db.Single key
  registered : key.tenantId ∈ db.tenants

section
variable {key : FeedbackKey} {start db : Db} {own own' : Prop} {writes : List Write} {p : Point}

theorem Point.Relies.grow (relies : p.Relies key db own writes) (more : own → own') :
    p.Relies key db own' writes := by
  cases p with
  | checkKey _ => exact ⟨relies.1, more relies.2⟩
  | insert _ => exact ⟨relies.1, more relies.2.1, relies.2.2⟩
  | commit _ _ => exact ⟨more relies.1, relies.2⟩
  | _ => exact relies

theorem Point.Relies.of_unowned {view : Db} (relies : p.Relies key db own writes) (unowned : ¬ own) :
    p.Relies key view own writes := by
  cases p with
  | checkKey _ => exact relies
  | insert _ => exact absurd relies.2.1 unowned
  | commit _ _ => exact absurd relies.1 unowned
  | _ => exact relies

theorem selectExisting_relies (feedbackType : FeedbackType) :
    (selectExisting key feedbackType db).Relies key db own [] := by
  unfold selectExisting
  cases selected : db.select key with
  | none => exact rfl
  | some existing =>
      by_cases same : existing.feedbackType = feedbackType
      · simp only [same, ↓reduceIte]
        exact ⟨rfl, same⟩
      · simp only [same, ↓reduceIte]
        exact ⟨rfl, same⟩

theorem key_mem_touches {existing : FeedbackRow} (selected : db.select key = some existing) :
    key ∈ (db.rows.filter fun row => row.id = existing.id).map (·.key) := by
  have isKey : existing.key = key := by simpa using List.find?_some selected
  exact List.mem_map.mpr ⟨existing, List.mem_filter.mpr ⟨List.mem_of_find?_eq_some selected, by simp⟩, isKey⟩

theorem commit_relies_of_delete {feedbackType : FeedbackType} {existing : FeedbackRow} (single : db.Single key)
    (selected : db.select key = some existing) (same : existing.feedbackType = feedbackType) (owns : own) :
    (Point.commit feedbackType none).Relies key db own [.delete existing.id] := by
  have rows := Db.of_eq_singleton single selected
  have empty : (db.delete existing.id).of key = [] := by simp [Db.of_delete, rows]
  refine ⟨owns, _, rfl, ?_, stored_of_nil empty, ?_, rfl⟩
  · simp [Db.Single, empty]
  · simp [toggle, stored_of_singleton rows, same]

theorem commit_relies_of_update {feedbackType : FeedbackType} {existing : FeedbackRow} (single : db.Single key)
    (selected : db.select key = some existing) (other : existing.feedbackType ≠ feedbackType) (owns : own) :
    (Point.commit feedbackType (some feedbackType)).Relies key db own [.update existing.id feedbackType] := by
  have rows := Db.of_eq_singleton single selected
  have replaced : (db.update existing.id feedbackType).of key = [{ existing with feedbackType }] := by
    simp [Db.of_update, rows]
  refine ⟨owns, _, rfl, ?_, stored_of_singleton replaced, ?_, rfl⟩
  · simp [Db.Single, replaced]
  · simp [toggle, stored_of_singleton rows, other]

theorem commit_relies_of_insert {feedbackType : FeedbackType} (empty : db.of key = [])
    (inserts : (Write.apply db (.insert key feedbackType)).isSome) (owns : own) :
    (Point.commit feedbackType (some feedbackType)).Relies key db own [.insert key feedbackType] := by
  obtain ⟨after, inserted⟩ := Option.isSome_iff_exists.mp inserts
  have only := Db.of_insert inserted
  refine ⟨owns, after, by simp [inserted], ?_, stored_of_singleton only, ?_, ?_⟩
  · simp [Db.Single, only]
  · simp [toggle, stored_of_nil empty]
  · obtain ⟨-, rfl⟩ := Db.insert_eq_some.mp inserted
    rfl

theorem returned_cons (p : Point) (finished : List Point) :
    returned (p :: finished) = returned finished ++ p.call.toList := by
  simp only [returned, List.reverse_cons, List.filterMap_append, List.filterMap_cons, List.filterMap_nil]
  cases p.call <;> rfl

theorem Replays.commit {finished : List Point} {view : Db} {feedbackType : FeedbackType}
    {feedbackState : Option FeedbackType} (h : Replays key start db finished)
    (relies : (Point.commit feedbackType feedbackState).Relies key db own writes)
    (viewed : exec Write.apply db writes = some view) :
    Replays key start view (.commit feedbackType feedbackState :: finished) := by
  obtain ⟨-, after, applied, single, stored, toggled, tenants⟩ := relies
  obtain rfl := Option.some.inj (viewed.symm.trans applied)
  refine ⟨?_, single, tenants ▸ h.registered⟩
  rw [returned_cons, exec_append, h.serial]
  simp [Point.call, toggleStep, toggled, stored]

end

def outline (key : FeedbackKey) (start : Db) : Outline (storeFeedback key) (StillStored key) where
  Global := Replays key start
  Local db own x := x.point.Relies key db (own key) x.writes
  opening _ _ := rfl
  grow h more := h.grow (more key)
  elapseGlobal _ h := h
  elapseLocal _ h := h
  read := by
    rintro db f own ⟨p, writes⟩ view next global relies good viewed reads
    cases p with
    | select feedbackType =>
        obtain rfl := Instr.read.inj reads
        obtain rfl : writes = [] := relies
        obtain rfl := Option.some.inj viewed
        exact selectExisting_relies feedbackType
    | checkKey feedbackType =>
        obtain rfl := Instr.read.inj reads
        obtain ⟨rfl, owns⟩ := relies
        obtain rfl := Option.some.inj viewed
        have free : db.of key = [] := Db.select_eq_none.mp good
        have accepts : db.Accepts key := ⟨global.registered, Db.of_eq_nil.mp free⟩
        simp only [accepts, ↓reduceIte]
        exact ⟨rfl, owns, free⟩
    | _ => simp [storeFeedback, instr] at reads
  lock := by
    rintro db f own ⟨p, writes⟩ view allowed row next locked - relies - - locks - owned
    cases p with
    | awaitKey feedbackType =>
        obtain ⟨-, rfl, rfl⟩ := Instr.lock.inj locks
        exact ⟨relies, owned key (by simp)⟩
    | _ => simp [storeFeedback, instr] at locks
  write := by
    rintro db f own ⟨p, writes⟩ view w next global relies good viewed does applied owned
    cases p with
    | delete feedbackType existing =>
        obtain ⟨rfl, rfl⟩ := Instr.write.inj does
        obtain ⟨rfl, same⟩ := relies
        obtain rfl := Option.some.inj viewed
        exact commit_relies_of_delete global.single good same (owned key (key_mem_touches good))
    | update feedbackType existing =>
        obtain ⟨rfl, rfl⟩ := Instr.write.inj does
        obtain ⟨rfl, other⟩ := relies
        obtain rfl := Option.some.inj viewed
        exact commit_relies_of_update global.single good other (owned key (key_mem_touches good))
    | insert feedbackType =>
        obtain ⟨rfl, rfl⟩ := Instr.write.inj does
        obtain ⟨rfl, owns, empty⟩ := relies
        obtain rfl := Option.some.inj viewed
        exact commit_relies_of_insert empty applied owns
    | _ => simp [storeFeedback, instr] at does
  commit := by
    rintro db f own ⟨p, writes⟩ view global relies - viewed commits
    cases p with
    | commit feedbackType feedbackState => exact global.commit relies viewed
    | _ => simp [storeFeedback, instr] at commits
  stable := by
    rintro db f own own' ⟨p, writes⟩ ⟨p', writes'⟩ view - relies other - - commits apart
    cases p' with
    | commit feedbackType feedbackState => exact relies.of_unowned fun owns => apart key owns other.1
    | _ => simp [storeFeedback, instr] at commits

theorem linearizable_of_holds {key : FeedbackKey} {start : Db} {m : Calls}
    (h : (outline key start).Holds m) : Linearizable key start m where
  unraised t x found raised := by
    have relies := h.open_ t x found
    simp only [outline, raised, Point.Relies] at relies
  order := ⟨_, List.Perm.refl _, h.rows.serial⟩
  single := h.rows.single

theorem linearizable_of_stillStored (key : FeedbackKey) (start : Db) (acts : List (Act FeedbackType Nat))
    (single : start.Single key) (registered : key.tenantId ∈ start.tenants)
    (along : Along (ReadCommitted.step (storeFeedback key)) (Guarded (StillStored key))
      (State.initial start : Calls) acts) :
    Throughout (ReadCommitted.step (storeFeedback key)) (Linearizable key start)
      (State.initial start : Calls) acts := by
  have opened : (outline key start).Holds (State.initial start : Calls) :=
    Outline.holds_initial ⟨rfl, single, registered⟩
  exact (throughout_of_along (fun m act m' h good next => Outline.Holds.step h good next) opened along).mono
    fun _ h => linearizable_of_holds h

def message : FeedbackKey := ⟨1, 2, 3, 0⟩

def unrated : Db := ⟨[0], [], 10⟩

/-- Both calls find no row of the message. -/
def bothInsert : List (Act FeedbackType Nat) :=
  [.start 0 .thumbsUp, .start 1 .thumbsUp, .run 0, .run 1, .run 0, .run 0, .run 0, .run 0, .run 1, .run 1]

theorem bothInsert_raises :
    ¬ ∀ (key : FeedbackKey) (start : Db) (acts : List (Act FeedbackType Nat)), start.Single key →
      key.tenantId ∈ start.tenants →
      Throughout (ReadCommitted.step (storeFeedback key)) (Linearizable key start) (State.initial start : Calls)
        acts := by
  intro claim
  have reached := (claim message unrated bothInsert (by decide) (by decide)).last rfl
  exact reached.unraised 1 _ rfl rfl

/-- Each call starts before the one before it has ended, and reads the row that that one leaves. -/
def overlapping : List (Act FeedbackType Nat) :=
  [.start 0 .thumbsUp, .run 0, .run 0, .start 1 .thumbsDown, .run 0, .run 0, .run 0, .run 1, .start 2 .thumbsDown,
    .run 1, .run 1, .run 2, .run 2, .run 2]

theorem linearizable_of_stillStored_overlapping :
    Throughout (ReadCommitted.step (storeFeedback message)) (Linearizable message unrated)
      (State.initial unrated : Calls) overlapping :=
  linearizable_of_stillStored message unrated overlapping (by decide) (by decide) (by decide +kernel)

end CuckooEcho.Feedback
