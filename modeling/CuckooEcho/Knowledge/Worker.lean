import CuckooEcho.Knowledge.Chunker
import CuckooEcho.Lib.Run
import Mathlib.Algebra.Group.Nat.Defs
import Mathlib.Logic.Function.Basic

namespace CuckooEcho.Knowledge
open Lib

/-! ## `knowledge_docs` and the collection `knowledge_chunks` -/

abbrev Uuid := Nat

inductive DocStatus
  | pending | processing | completed | failed
  deriving DecidableEq, Repr

structure DocRow where
  id : Uuid
  tenantId : Uuid
  ossPath : String
  status : DocStatus
  chunkCount : Option Nat
  errorMsg : Option String
  deletedAt : Option Nat
  createdAt : Nat
  deriving DecidableEq, Repr

/-- A row of Milvus: `V` is the type of the vectors. -/
structure ChunkRow (V : Type*) where
  tenantId : Uuid
  docId : Uuid
  chunkText : Text
  denseVector : V
  deriving DecidableEq, Repr

namespace DocRow
variable (row : DocRow)

def setStage (stage : String) : DocRow := { row with status := .processing, errorMsg := some ("stage:" ++ stage) }

def setFailed (error : String) : DocRow := { row with status := .failed, errorMsg := some error }

def setCompleted (chunkCount : Nat) : DocRow :=
  { row with status := .completed, chunkCount := some chunkCount, errorMsg := none }

def reset : DocRow := { row with status := .pending, errorMsg := none }

def delete (now : Nat) : DocRow := if row.deletedAt = none then { row with deletedAt := some now } else row

end DocRow

/-! ## `process_document` -/

def maxRetries : Nat := 3

structure Job where
  docId : Uuid
  tenantId : Uuid
  filePath : String
  attempt : Nat
  deriving DecidableEq, Repr

/-- What an attempt does next; `raised` is the handler of its exception. -/
inductive Stage (V : Type*)
  | parsing
  | parse
  | chunking (text : Text)
  | split (text : Text)
  | embedding (chunks : List Text)
  | embed (chunks : List Text)
  | storing (chunks : List Text) (vectors : List V)
  | insert (chunks : List Text) (vectors : List V)
  | complete (chunkCount : Nat)
  | raised (error : String)
  deriving DecidableEq, Repr

inductive Worker (V : Type*)
  | stopped
  | polling
  | processing (job : Job) (stage : Stage V)
  deriving DecidableEq, Repr

def Worker.docId {V : Type*} : Worker V → Option Uuid
  | .processing job _ => some job.docId
  | _ => none

/-- What a service answers. `embed_batch` returns vectors; a call that raises may have taken effect. -/
inductive Answer (V : Type*)
  | returns (vectors : List V)
  | raises (error : String) (done : Bool)
  deriving DecidableEq, Repr

def Answer.lands {V : Type*} : Answer V → Bool
  | .returns _ => true
  | .raises _ done => done

/-- An operation of an attempt: the update of the document's row or the rows for Milvus that it stands for,
and how the worker goes on. -/
structure Operation (V : Type*) where
  status : Option (DocRow → DocRow) := none
  rows : List (ChunkRow V) := []
  next : List V → Worker V
  failed : String → Worker V

def chunkRows {V : Type*} (docId tenantId : Uuid) (chunks : List Text) (vectors : List V) : List (ChunkRow V) :=
  List.zipWith (fun chunk vec => ⟨tenantId, docId, chunk, vec⟩) chunks vectors

def operation {V : Type*} (document : String → Text) (job : Job) : Stage V → Option (Operation V)
  | .parsing => some
      { status := some (·.setStage ("parsing (attempt " ++ toString job.attempt ++ ")"))
        next := fun _ => .processing job .parse
        failed := fun error => .processing job (.raised error) }
  | .parse => some
      { next := fun _ => .processing job (.chunking (document job.filePath))
        failed := fun error => .processing job (.raised error) }
  | .chunking text => some
      { status := some (·.setStage "chunking")
        next := fun _ => .processing job (.split text)
        failed := fun error => .processing job (.raised error) }
  | .split text => (splitText {} text).map fun chunks =>
      { next := fun _ => .processing job (.embedding chunks)
        failed := fun error => .processing job (.raised error) }
  | .embedding chunks => some
      { status := some (·.setStage ("embedding (" ++ toString chunks.length ++ " chunks)"))
        next := fun _ => .processing job (.embed chunks)
        failed := fun error => .processing job (.raised error) }
  | .embed chunks => some
      { next := fun vectors => .processing job (.storing chunks vectors)
        failed := fun error => .processing job (.raised error) }
  | .storing chunks vectors => some
      { status := some (·.setStage "storing")
        next := fun _ => .processing job (.insert chunks vectors)
        failed := fun error => .processing job (.raised error) }
  | .insert chunks vectors => some
      { rows := chunkRows job.docId job.tenantId chunks vectors
        next := fun _ => .processing job (.complete chunks.length)
        failed := fun error => .processing job (.raised error) }
  | .complete chunkCount => some
      { status := some (·.setCompleted chunkCount)
        next := fun _ => .polling
        failed := fun error => .processing job (.raised error) }
  | .raised error => some <|
      -- what the handler raises ends the poll loop
      if job.attempt < maxRetries then
        { status := some (·.setStage ("retry " ++ toString job.attempt ++ "/" ++ toString maxRetries ++ " in " ++
            toString (2 ^ job.attempt) ++ "s"))
          next := fun _ => .processing { job with attempt := job.attempt + 1 } .parsing
          failed := fun _ => .stopped }
      else
        { status := some (·.setFailed ("[" ++ toString maxRetries ++ " attempts] " ++
            String.ofList (error.toList.take 500)))
          next := fun _ => .polling
          failed := fun _ => .stopped }

/-! ## The pipeline with the admin service -/

structure Cleanup where
  docId : Uuid
  attempt : Nat
  deriving DecidableEq, Repr

/-- The last four fields recall what has happened: how often a document has been reset, how often the one that a
worker has picked had been by then, whether the worker has since changed its status, and the vectors that
`embed_batch` returned for a document last. -/
structure Pipeline (V : Type*) where
  now : Nat
  docs : List DocRow
  collection : List (ChunkRow V)
  workers : Nat → Worker V
  cleanups : List Cleanup
  resets : Uuid → Nat
  resetsAtPick : Nat → Nat
  marked : Nat → Bool
  embedded : Uuid → List V

/-- `skipped` are the rows that other transactions have locked while a worker selects. A worker stops when its
statement raises, or with its process. -/
inductive Act (V : Type*)
  | upload (id tenantId : Uuid) (ossPath : String)
  | start (w : Nat)
  | poll (w : Nat) (skipped : List Uuid) (pick : Option DocRow)
  | stop (w : Nat)
  | run (w : Nat) (answer : Answer V)
  | retry (tenantId id : Uuid)
  | delete (tenantId id : Uuid)
  | cleanup (i : Nat) (answer : Answer V)
  | tick (seconds : Nat)

def Selects (docs : List DocRow) (skipped : List Uuid) : Option DocRow → Prop
  | some row => row ∈ docs ∧ row.status = .pending ∧ row.id ∉ skipped ∧
      ∀ other ∈ docs, other.status = .pending → other.id ∉ skipped → row.createdAt ≤ other.createdAt
  | none => ∀ row ∈ docs, row.status = .pending → row.id ∈ skipped

instance (docs : List DocRow) (skipped : List Uuid) : ∀ pick, Decidable (Selects docs skipped pick)
  | some _ => inferInstanceAs (Decidable (_ ∧ _ ∧ _ ∧ _))
  | none => inferInstanceAs (Decidable (∀ _ ∈ docs, _))

def updateDoc (docs : List DocRow) (id : Uuid) (set : DocRow → DocRow) : List DocRow :=
  docs.map fun row => if row.id = id then set row else row

namespace Pipeline
variable {V : Type*}

def start : Pipeline V where
  now := 0
  docs := []
  collection := []
  workers _ := .stopped
  cleanups := []
  resets _ := 0
  resetsAtPick _ := 0
  marked _ := false
  embedded _ := []

variable (m : Pipeline V)

def rowsOf (id : Uuid) : List (ChunkRow V) := m.collection.filter fun row => row.docId = id

def become (w : Nat) (worker : Worker V) : Pipeline V := { m with workers := Function.update m.workers w worker }

def pick (w : Nat) (row : DocRow) : Pipeline V :=
  { m.become w (.processing ⟨row.id, row.tenantId, row.ossPath, 1⟩ .parsing) with
    resetsAtPick := Function.update m.resetsAtPick w (m.resets row.id)
    marked := Function.update m.marked w false }

def perform (w : Nat) (id : Uuid) (op : Operation V) : Pipeline V :=
  { m with
    docs := op.status.elim m.docs (updateDoc m.docs id)
    marked := if op.status.isSome then Function.update m.marked w true else m.marked
    collection := m.collection ++ op.rows }

def embed (id : Uuid) : Stage V → List V → Pipeline V
  | .embed _, vectors => { m with embedded := Function.update m.embedded id vectors }
  | _, _ => m

def run (document : String → Text) (w : Nat) (answer : Answer V) : Option (Pipeline V) :=
  match m.workers w with
  | .processing job stage => (operation document job stage).map fun op =>
      let m' := if answer.lands then m.perform w job.docId op else m
      match answer with
      | .returns vectors => (m'.embed job.docId stage vectors).become w (op.next vectors)
      | .raises error _ => m'.become w (op.failed error)
  | _ => none

/-- The rows that an admin's statement finds: `rls` says whether row-level security binds the role. -/
def updateSeen (rls : Bool) (tenantId id : Uuid) (set : DocRow → DocRow) : List DocRow :=
  m.docs.map fun row => if row.id = id ∧ (rls = true → row.tenantId = tenantId) then set row else row

def retry (rls : Bool) (tenantId id : Uuid) : Pipeline V :=
  { m with
    docs := m.updateSeen rls tenantId id .reset
    resets := if m.docs.any fun row => row.id = id ∧ (rls = true → row.tenantId = tenantId) then
      Function.update m.resets id (m.resets id + 1) else m.resets }

def cleanup (i : Nat) (answer : Answer V) : Option (Pipeline V) :=
  m.cleanups[i]?.map fun c =>
    let collection := if answer.lands then m.collection.filter fun row => row.docId ≠ c.docId else m.collection
    match answer with
    | .returns _ => { m with collection, cleanups := m.cleanups.eraseIdx i }
    | .raises _ _ =>
        if c.attempt + 1 < maxRetries then
          { m with collection, cleanups := m.cleanups.set i { c with attempt := c.attempt + 1 } }
        else { m with collection, cleanups := m.cleanups.eraseIdx i }

end Pipeline

/-- One step of the workers or of the admin service. The upload's and the worker's statement name no tenant to
row-level security, so they raise where it binds the role. -/
def Pipeline.step {V : Type*} (rls : Bool) (document : String → Text) (m : Pipeline V) : Act V → Option (Pipeline V)
  | .upload id tenantId ossPath =>
      if rls = true ∨ id ∈ m.docs.map (·.id) then none
      else some { m with docs := m.docs ++ [⟨id, tenantId, ossPath, .pending, none, none, none, m.now⟩] }
  | .start w =>
      match m.workers w with
      | .stopped => some (m.become w .polling)
      | _ => none
  | .poll w skipped pick =>
      match m.workers w with
      | .polling =>
          if rls = false ∧ Selects m.docs skipped pick then some (pick.elim m (m.pick w)) else none
      | _ => none
  | .stop w => some (m.become w .stopped)
  | .run w answer => m.run document w answer
  | .retry tenantId id => some (m.retry rls tenantId id)
  | .delete tenantId id =>
      some { m with docs := m.updateSeen rls tenantId id (·.delete m.now), cleanups := m.cleanups ++ [⟨id, 0⟩] }
  | .cleanup i answer => m.cleanup i answer
  | .tick seconds => some { m with now := m.now + seconds }

/-! ## What a step of a worker does -/

section
variable {V : Type*} {document : String → Text} {job : Job} {stage : Stage V} {op : Operation V} {m m' : Pipeline V}
  {w : Nat} {answer : Answer V}

structure Advanced (old row : DocRow) : Prop where
  id : row.id = old.id
  tenantId : row.tenantId = old.tenantId
  ossPath : row.ossPath = old.ossPath
  deletedAt : row.deletedAt = old.deletedAt
  status : row.status ≠ .pending

inductive Sets (stage : Stage V) : (DocRow → DocRow) → Prop
  | processing (text : String) : Sets stage (·.setStage text)
  | failed (error : String) : Sets stage (·.setFailed error)
  | completed (chunkCount : Nat) (last : stage = .complete chunkCount) : Sets stage (·.setCompleted chunkCount)

theorem operation_sets (does : operation document job stage = some op) {set : DocRow → DocRow}
    (status : op.status = some set) : Sets stage set := by
  cases stage with
  | split text =>
      obtain ⟨chunks, -, rfl⟩ := Option.map_eq_some_iff.mp does
      cases status
  | raised error =>
      simp only [operation, Option.some.injEq] at does
      subst does
      split at status
      · obtain rfl := Option.some.inj status
        exact .processing _
      · obtain rfl := Option.some.inj status
        exact .failed _
  | parse | embed | insert =>
      obtain rfl := Option.some.inj does
      cases status
  | complete chunkCount =>
      obtain rfl := Option.some.inj does
      obtain rfl := Option.some.inj status
      exact .completed chunkCount rfl
  | parsing | chunking | embedding | storing =>
      obtain rfl := Option.some.inj does
      obtain rfl := Option.some.inj status
      exact .processing _

theorem operation_status (does : operation document job stage = some op) {set : DocRow → DocRow}
    (status : op.status = some set) (row : DocRow) : Advanced row (set row) := by
  cases operation_sets does status <;> exact ⟨rfl, rfl, rfl, rfl, DocStatus.noConfusion⟩

theorem operation_rows (does : operation document job stage = some op) :
    op.rows = [] ∨ ∃ chunks vectors, stage = .insert chunks vectors ∧
      op.rows = chunkRows job.docId job.tenantId chunks vectors := by
  cases stage with
  | split text =>
      obtain ⟨chunks, -, rfl⟩ := Option.map_eq_some_iff.mp does
      exact Or.inl rfl
  | raised error =>
      simp only [operation, Option.some.injEq] at does
      subst does
      split <;> exact Or.inl rfl
  | insert chunks vectors =>
      obtain rfl := Option.some.inj does
      exact Or.inr ⟨chunks, vectors, rfl, rfl⟩
  | _ =>
      obtain rfl := Option.some.inj does
      exact Or.inl rfl

/-- A worker that goes on with a document goes on with the one that it has picked. -/
def Worker.Keeps (job : Job) (worker : Worker V) : Prop :=
  ∀ job' stage, worker = .processing job' stage → ∃ attempt, job' = { job with attempt }

theorem Worker.keeps_processing (job : Job) (attempt : Nat) (stage : Stage V) :
    (processing { job with attempt } stage).Keeps job := by
  rintro - - ⟨⟩
  exact ⟨attempt, rfl⟩

theorem Worker.Keeps.docId {worker : Worker V} (h : worker.Keeps job) {d : Uuid} (here : worker.docId = some d) :
    d = job.docId := by
  cases worker with
  | stopped | polling => cases here
  | processing job' stage =>
      obtain ⟨attempt, rfl⟩ := h job' stage rfl
      exact (Option.some.inj here).symm

theorem operation_next (does : operation document job stage = some op) (vectors : List V) :
    (op.next vectors).Keeps job := by
  cases stage with
  | split text =>
      obtain ⟨chunks, -, rfl⟩ := Option.map_eq_some_iff.mp does
      exact Worker.keeps_processing job job.attempt _
  | raised error =>
      simp only [operation, Option.some.injEq] at does
      subst does
      split
      · exact Worker.keeps_processing job (job.attempt + 1) _
      · exact fun _ _ => nofun
  | complete chunkCount =>
      obtain rfl := Option.some.inj does
      exact fun _ _ => nofun
  | _ =>
      obtain rfl := Option.some.inj does
      exact Worker.keeps_processing job job.attempt _

theorem operation_failed (does : operation document job stage = some op) (error : String) :
    op.failed error = .processing job (.raised error) ∨ op.failed error = .stopped := by
  cases stage with
  | split text =>
      obtain ⟨chunks, -, rfl⟩ := Option.map_eq_some_iff.mp does
      exact Or.inl rfl
  | raised error =>
      simp only [operation, Option.some.injEq] at does
      subst does
      split <;> exact Or.inr rfl
  | _ =>
      obtain rfl := Option.some.inj does
      exact Or.inl rfl

theorem operation_failed_keeps (does : operation document job stage = some op) (error : String) :
    (op.failed error).Keeps job := by
  rcases operation_failed does error with goesOn | stops
  · exact goesOn ▸ Worker.keeps_processing job job.attempt _
  · exact stops ▸ fun _ _ => nofun

theorem mem_chunkRows {id tenantId : Uuid} {chunks : List Text} {vectors : List V} {row : ChunkRow V}
    (member : row ∈ chunkRows id tenantId chunks vectors) : row.docId = id := by
  induction chunks generalizing vectors with
  | nil => simp [chunkRows] at member
  | cons chunk chunks ih =>
      cases vectors with
      | nil => simp [chunkRows] at member
      | cons vec vectors =>
          rcases List.mem_cons.mp member with rfl | later
          · rfl
          · exact ih later

theorem Pipeline.become_self (w : Nat) (worker : Worker V) : (m.become w worker).workers w = worker := by
  simp only [become, Function.update_self]

theorem Pipeline.run_cases (next : m.run document w answer = some m') :
    ∃ job stage op, ∃ worker : Worker V, ∃ embedded, m.workers w = .processing job stage ∧
      operation document job stage = some op ∧ worker.Keeps job ∧
      m' = { if answer.lands then m.perform w job.docId op else m with
        embedded, workers := Function.update m.workers w worker } := by
  unfold run at next
  split at next
  case h_2 => cases next
  case h_1 job stage busy =>
    obtain ⟨op, does, rfl⟩ := Option.map_eq_some_iff.mp next
    cases answer with
    | returns vectors =>
        exact ⟨job, stage, op, op.next vectors, ((m.perform w job.docId op).embed job.docId stage vectors).embedded,
          busy, does, operation_next does vectors, by cases stage <;> rfl⟩
    | raises error done =>
        exact ⟨job, stage, op, op.failed error, m.embedded, busy, does, operation_failed_keeps does error,
          by cases done <;> rfl⟩

theorem map_ids {docs : List DocRow} {f : DocRow → DocRow} (keeps : ∀ row, (f row).id = row.id) :
    (docs.map f).map (·.id) = docs.map (·.id) := by
  rw [List.map_map]
  exact List.map_congr_left fun row _ => keeps row

theorem updateSeen_ids (rls : Bool) (tenantId id : Uuid) {set : DocRow → DocRow}
    (keeps : ∀ row, (set row).id = row.id) : (m.updateSeen rls tenantId id set).map (·.id) = m.docs.map (·.id) := by
  refine map_ids fun row => ?_
  split
  · exact keeps row
  · rfl

theorem retry_ids (rls : Bool) (tenantId id : Uuid) :
    (m.retry rls tenantId id).docs.map (·.id) = m.docs.map (·.id) :=
  updateSeen_ids rls tenantId id fun _ => rfl

theorem mem_updateSeen {rls : Bool} {tenantId id : Uuid} {set : DocRow → DocRow} {row : DocRow}
    (member : row ∈ m.updateSeen rls tenantId id set) :
    row ∈ m.docs ∨ ∃ old ∈ m.docs, old.id = id ∧ row = set old := by
  obtain ⟨old, stored, rfl⟩ := List.mem_map.mp member
  split
  case isTrue seen => exact Or.inr ⟨old, stored, seen.1, rfl⟩
  case isFalse => exact Or.inl stored

theorem updateDoc_ids {docs : List DocRow} (id : Uuid) {set : DocRow → DocRow}
    (keeps : ∀ row, (set row).id = row.id) : (updateDoc docs id set).map (·.id) = docs.map (·.id) := by
  refine map_ids fun row => ?_
  split
  · exact keeps row
  · rfl

theorem DocRow.delete_id (now : Nat) (row : DocRow) : (row.delete now).id = row.id := by
  unfold delete
  split <;> rfl

theorem DocRow.delete_status (now : Nat) (row : DocRow) : (row.delete now).status = row.status := by
  unfold delete
  split <;> rfl

theorem perform_ids (does : operation document job stage = some op) (id : Uuid) :
    (m.perform w id op).docs.map (·.id) = m.docs.map (·.id) := by
  cases status : op.status with
  | none => simp only [Pipeline.perform, status, Option.elim_none]
  | some set =>
      simp only [Pipeline.perform, status, Option.elim_some]
      exact updateDoc_ids id fun row => (operation_status does status row).id

theorem mem_perform {id : Uuid} {row : DocRow} (member : row ∈ (m.perform w id op).docs) :
    (row ∈ m.docs ∧ (row.id = id → op.status = none)) ∨
      ∃ set old, op.status = some set ∧ old ∈ m.docs ∧ old.id = id ∧ row = set old := by
  cases status : op.status with
  | none =>
      simp only [Pipeline.perform, status, Option.elim_none] at member
      exact Or.inl ⟨member, fun _ => rfl⟩
  | some set =>
      simp only [Pipeline.perform, status, Option.elim_some] at member
      obtain ⟨old, stored, rfl⟩ := List.mem_map.mp member
      split
      case isTrue here => exact Or.inr ⟨set, old, rfl, stored, here, rfl⟩
      case isFalse other => exact Or.inl ⟨stored, fun here => absurd here other⟩

theorem rowsOf_perform (w : Nat) (id d : Uuid) (op : Operation V) :
    (m.perform w id op).rowsOf d = m.rowsOf d ++ op.rows.filter fun row => row.docId = d := List.filter_append ..

theorem filter_chunkRows (id tenantId : Uuid) (chunks : List Text) (vectors : List V) :
    ((chunkRows id tenantId chunks vectors).filter fun row => row.docId = id) = chunkRows id tenantId chunks vectors :=
  List.filter_eq_self.mpr fun _ member => decide_eq_true (mem_chunkRows member)

theorem rowsOf_perform_of_ne (does : operation document job stage = some op) {d : Uuid} (other : job.docId ≠ d) :
    (m.perform w job.docId op).rowsOf d = m.rowsOf d := by
  rw [rowsOf_perform]
  rcases operation_rows does with nothing | ⟨chunks, vectors, -, rows⟩
  · rw [nothing, List.filter_nil, List.append_nil]
  · rw [rows, List.filter_eq_nil_iff.mpr fun row member here =>
      other ((mem_chunkRows member).symm.trans (of_decide_eq_true here)), List.append_nil]

section
variable {rls : Bool}

theorem step_upload {id tenantId : Uuid} {ossPath : String}
    (next : m.step rls document (.upload id tenantId ossPath) = some m') : id ∉ m.docs.map (·.id) ∧
      m' = { m with docs := m.docs ++ [⟨id, tenantId, ossPath, .pending, none, none, none, m.now⟩] } := by
  simp only [Pipeline.step] at next
  split at next
  case isTrue => cases next
  case isFalse fresh => exact ⟨fun here => fresh (Or.inr here), (Option.some.inj next).symm⟩

theorem step_start (next : m.step rls document (.start w) = some m') : m' = m.become w .polling := by
  simp only [Pipeline.step] at next
  split at next
  · exact (Option.some.inj next).symm
  · cases next

theorem step_poll {skipped : List Uuid} {pick : Option DocRow}
    (next : m.step rls document (.poll w skipped pick) = some m') :
    m.workers w = .polling ∧ Selects m.docs skipped pick ∧ m' = pick.elim m (m.pick w) := by
  simp only [Pipeline.step] at next
  split at next
  case h_2 => cases next
  case h_1 idle =>
    split at next
    case isTrue selects => exact ⟨idle, selects.2, (Option.some.inj next).symm⟩
    case isFalse => cases next

theorem step_cleanup {i : Nat} (next : m.step rls document (.cleanup i answer) = some m') :
    ∃ collection cleanups, m' = { m with collection, cleanups } := by
  obtain ⟨c, -, rfl⟩ := Option.map_eq_some_iff.mp next
  cases answer with
  | returns vectors => exact ⟨_, _, rfl⟩
  | raises error done =>
      dsimp only
      split <;> exact ⟨_, _, rfl⟩

end

end

end CuckooEcho.Knowledge
