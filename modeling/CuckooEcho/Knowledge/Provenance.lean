import CuckooEcho.Knowledge.Indexing
import CuckooEcho.Agent.RetrievedContext
import CuckooEcho.Feedback.Submission

namespace CuckooEcho.Knowledge
open Lib
variable {V : Type*}

/-! ## Where the rows of the collection come from -/

/-- A document of its tenant whose text has the chunk. -/
structure ChunkOf (document : String → Text) (docs : List DocRow) (row : ChunkRow V) (doc : DocRow) : Prop where
  stored : doc ∈ docs
  id : doc.id = row.docId
  tenantId : doc.tenantId = row.tenantId
  chunk : ∃ chunks, splitText {} (document doc.ossPath) = some chunks ∧ row.chunkText ∈ chunks

/-- What a worker holds of the file that it has been given. -/
def Stage.Reads (document : String → Text) (filePath : String) : Stage V → Prop
  | .chunking text | .split text => text = document filePath
  | .embedding chunks | .embed chunks | .storing chunks _ | .insert chunks _ =>
      splitText {} (document filePath) = some chunks
  | .parsing | .parse | .complete _ | .raised _ => True

structure Assigned (docs : List DocRow) (job : Job) (doc : DocRow) : Prop where
  stored : doc ∈ docs
  id : doc.id = job.docId
  tenantId : doc.tenantId = job.tenantId
  ossPath : doc.ossPath = job.filePath

structure Provenance (document : String → Text) (m : Pipeline V) : Prop where
  keyed : (m.docs.map (·.id)).Nodup
  rows : ∀ row ∈ m.collection, ∃ doc, ChunkOf document m.docs row doc
  assigned : ∀ w job stage, m.workers w = .processing job stage → ∃ doc, Assigned m.docs job doc
  reads : ∀ w job stage, m.workers w = .processing job stage → stage.Reads document job.filePath

/-- The row is still there, whatever has become of its status. -/
def Remains (docs docs' : List DocRow) : Prop :=
  ∀ doc ∈ docs, ∃ doc' ∈ docs', doc'.id = doc.id ∧ doc'.tenantId = doc.tenantId ∧ doc'.ossPath = doc.ossPath

/-- Every document has been uploaded by the tenant it belongs to. -/
def Uploaded (acts : List (Act V)) (m : Pipeline V) : Prop :=
  ∀ doc ∈ m.docs, .upload doc.id doc.tenantId doc.ossPath ∈ acts

section
variable {document : String → Text} {m m' : Pipeline V} {rls : Bool} {docs docs' : List DocRow} {job : Job}
  {stage : Stage V} {op : Operation V} {answer : Answer V} {row : ChunkRow V}

theorem Remains.refl (docs : List DocRow) : Remains docs docs := fun doc stored => ⟨doc, stored, rfl, rfl, rfl⟩

theorem remains_map {f : DocRow → DocRow} (same : ∀ doc ∈ docs,
    (f doc).id = doc.id ∧ (f doc).tenantId = doc.tenantId ∧ (f doc).ossPath = doc.ossPath) :
    Remains docs (docs.map f) := fun doc stored => ⟨f doc, List.mem_map_of_mem stored, same doc stored⟩

theorem remains_append (docs more : List DocRow) : Remains docs (docs ++ more) :=
  fun doc stored => ⟨doc, List.mem_append_left _ stored, rfl, rfl, rfl⟩

theorem ChunkOf.remains (h : ∃ doc, ChunkOf document docs row doc) (remain : Remains docs docs') :
    ∃ doc, ChunkOf document docs' row doc := by
  obtain ⟨doc, h⟩ := h
  obtain ⟨doc', stored, id, tenantId, ossPath⟩ := remain doc h.stored
  exact ⟨doc', stored, id.trans h.id, tenantId.trans h.tenantId, ossPath ▸ h.chunk⟩

theorem Assigned.remains (h : ∃ doc, Assigned docs job doc) (remain : Remains docs docs') :
    ∃ doc, Assigned docs' job doc := by
  obtain ⟨doc, h⟩ := h
  obtain ⟨doc', stored, id, tenantId, ossPath⟩ := remain doc h.stored
  exact ⟨doc', stored, id.trans h.id, tenantId.trans h.tenantId, ossPath.trans h.ossPath⟩

theorem Provenance.remains (h : Provenance document m) (keyed : (docs.map (·.id)).Nodup)
    (remain : Remains m.docs docs) (resets : Uuid → Nat) (cleanups : List Cleanup) :
    Provenance document { m with docs, resets, cleanups } :=
  ⟨keyed, fun row stored => ChunkOf.remains (h.rows row stored) remain,
    fun w job stage busy => Assigned.remains (h.assigned w job stage busy) remain, h.reads⟩

theorem provenance_become (h : Provenance document m) (w : Nat) {worker : Worker V}
    (goes : ∀ job stage, worker = .processing job stage →
      (∃ doc, Assigned m.docs job doc) ∧ stage.Reads document job.filePath) :
    Provenance document (m.become w worker) := by
  have cases {v : Nat} {job : Job} {stage : Stage V} (busy : (m.become w worker).workers v = .processing job stage) :
      worker = .processing job stage ∨ m.workers v = .processing job stage := by
    by_cases here : v = w
    · subst here
      exact Or.inl ((Pipeline.become_self v worker).symm.trans busy)
    · simp only [Pipeline.become, Function.update_of_ne here] at busy
      exact Or.inr busy
  refine ⟨h.keyed, h.rows, fun v job stage busy => ?_, fun v job stage busy => ?_⟩
  · rcases cases busy with new | old
    · exact (goes job stage new).1
    · exact h.assigned v job stage old
  · rcases cases busy with new | old
    · exact (goes job stage new).2
    · exact h.reads v job stage old

/-! ## What an attempt inserts -/

theorem chunkText_of_chunkRows {id tenantId : Uuid} {chunks : List Text} {vectors : List V}
    (member : row ∈ chunkRows id tenantId chunks vectors) :
    row.docId = id ∧ row.tenantId = tenantId ∧ row.chunkText ∈ chunks := by
  obtain ⟨i, here, rfl⟩ := List.getElem_of_mem member
  simp only [chunkRows, List.getElem_zipWith]
  exact ⟨trivial, trivial, List.getElem_mem _⟩

theorem reads_next (reads : stage.Reads document job.filePath) (does : operation document job stage = some op)
    (vectors : List V) {job' : Job} {stage' : Stage V} (goes : op.next vectors = .processing job' stage') :
    stage'.Reads document job'.filePath := by
  cases stage with
  | split text =>
      obtain ⟨chunks, splits, rfl⟩ := Option.map_eq_some_iff.mp does
      obtain ⟨rfl, rfl⟩ := Worker.processing.inj goes
      exact (congrArg (splitText {}) reads).symm.trans splits
  | complete n =>
      obtain rfl := Option.some.inj does
      cases goes
  | raised error =>
      simp only [operation, Option.some.injEq] at does
      subst does
      split at goes
      · obtain ⟨rfl, rfl⟩ := Worker.processing.inj goes
        trivial
      · cases goes
  | parsing | parse | insert chunks stored =>
      obtain rfl := Option.some.inj does
      obtain ⟨rfl, rfl⟩ := Worker.processing.inj goes
      trivial
  | chunking text | embedding chunks | embed chunks | storing chunks stored =>
      obtain rfl := Option.some.inj does
      obtain ⟨rfl, rfl⟩ := Worker.processing.inj goes
      exact reads

theorem reads_failed (does : operation document job stage = some op) (error : String) {job' : Job} {stage' : Stage V}
    (goes : op.failed error = .processing job' stage') : stage'.Reads document job'.filePath := by
  rcases operation_failed does error with goesOn | stops
  · obtain ⟨rfl, rfl⟩ := Worker.processing.inj (goesOn.symm.trans goes)
    trivial
  · cases stops.symm.trans goes

theorem remains_perform (does : operation document job stage = some op) (w : Nat) (id : Uuid) :
    Remains m.docs (m.perform w id op).docs := by
  cases status : op.status with
  | none =>
      simp only [Pipeline.perform, status, Option.elim_none]
      exact Remains.refl _
  | some set =>
      simp only [Pipeline.perform, status, Option.elim_some, updateDoc]
      apply remains_map
      intro doc _
      split
      · have advanced := operation_status does status doc
        exact ⟨advanced.id, advanced.tenantId, advanced.ossPath⟩
      · exact ⟨rfl, rfl, rfl⟩

theorem provenance_perform (h : Provenance document m) {w : Nat} (busy : m.workers w = .processing job stage)
    (does : operation document job stage = some op) : Provenance document (m.perform w job.docId op) := by
  have remain := remains_perform (m := m) does w job.docId
  refine ⟨(perform_ids does job.docId).symm ▸ h.keyed, fun row member => ?_, fun v job' stage' here => ?_, h.reads⟩
  · rcases List.mem_append.mp member with old | new
    · exact ChunkOf.remains (h.rows row old) remain
    · rcases operation_rows does with nothing | ⟨chunks, vectors, rfl, rows⟩
      · rw [nothing] at new
        cases new
      · rw [rows] at new
        obtain ⟨id, tenantId, member⟩ := chunkText_of_chunkRows new
        obtain ⟨doc, assigned⟩ := Assigned.remains (h.assigned w job _ busy) remain
        have splits : splitText {} (document job.filePath) = some chunks := h.reads w job _ busy
        exact ⟨doc, assigned.stored, assigned.id.trans id.symm, assigned.tenantId.trans tenantId.symm, chunks,
          assigned.ossPath ▸ splits, member⟩
  · exact Assigned.remains (h.assigned v job' stage' here) remain

theorem Provenance.embed (h : Provenance document m) (id : Uuid) (stage : Stage V) (vectors : List V) :
    Provenance document (m.embed id stage vectors) := by
  cases stage <;> exact ⟨h.keyed, h.rows, h.assigned, h.reads⟩

theorem assigned_keeps (h : ∃ doc, Assigned docs job doc) {worker : Worker V} (keeps : worker.Keeps job) {job' : Job}
    {stage' : Stage V} (goes : worker = .processing job' stage') : ∃ doc, Assigned docs job' doc := by
  obtain ⟨attempt, rfl⟩ := keeps job' stage' goes
  obtain ⟨doc, h⟩ := h
  exact ⟨doc, h.stored, h.id, h.tenantId, h.ossPath⟩

theorem provenance_run (h : Provenance document m) {w : Nat} (next : m.run document w answer = some m') :
    Provenance document m' := by
  unfold Pipeline.run at next
  split at next
  case h_2 => cases next
  case h_1 job stage busy =>
    obtain ⟨op, does, rfl⟩ := Option.map_eq_some_iff.mp next
    have performed := provenance_perform h busy does
    have assigned := performed.assigned w job stage busy
    cases answer with
    | returns vectors =>
        refine provenance_become (performed.embed job.docId stage vectors) w fun job' stage' goes => ⟨?_, ?_⟩
        · rw [embed_docs]
          exact assigned_keeps assigned (operation_next does vectors) goes
        · exact reads_next (h.reads w job stage busy) does vectors goes
    | raises error done =>
        have keeps := operation_failed_keeps does error
        cases done with
        | true => exact provenance_become performed w fun job' stage' goes =>
            ⟨assigned_keeps assigned keeps goes, reads_failed does error goes⟩
        | false => exact provenance_become h w fun job' stage' goes =>
            ⟨assigned_keeps (h.assigned w job stage busy) keeps goes, reads_failed does error goes⟩

/-! ## What a step leaves of the documents -/

theorem remains_updateSeen (rls : Bool) (tenantId id : Uuid) {set : DocRow → DocRow} (same : ∀ doc,
    (set doc).id = doc.id ∧ (set doc).tenantId = doc.tenantId ∧ (set doc).ossPath = doc.ossPath) :
    Remains m.docs (m.updateSeen rls tenantId id set) := by
  apply remains_map
  intro doc _
  split
  · exact same doc
  · exact ⟨rfl, rfl, rfl⟩

theorem DocRow.reset_same (doc : DocRow) :
    doc.reset.id = doc.id ∧ doc.reset.tenantId = doc.tenantId ∧ doc.reset.ossPath = doc.ossPath := ⟨rfl, rfl, rfl⟩

theorem DocRow.delete_same (now : Nat) (doc : DocRow) :
    (doc.delete now).id = doc.id ∧ (doc.delete now).tenantId = doc.tenantId ∧
      (doc.delete now).ossPath = doc.ossPath := by
  unfold delete
  split <;> exact ⟨rfl, rfl, rfl⟩

theorem remains_run {w : Nat} (next : m.run document w answer = some m') : Remains m.docs m'.docs := by
  obtain ⟨job, stage, op, worker, embedded, -, does, -, rfl⟩ := Pipeline.run_cases next
  cases answer.lands with
  | true => exact remains_perform does w job.docId
  | false => exact Remains.refl _

theorem remains_step {a : Act V} (next : m.step rls document a = some m') : Remains m.docs m'.docs := by
  cases a with
  | upload id tenantId ossPath =>
      obtain ⟨-, rfl⟩ := step_upload next
      exact remains_append _ _
  | start w =>
      obtain rfl := step_start next
      exact Remains.refl _
  | poll w skipped pick =>
      obtain ⟨-, -, rfl⟩ := step_poll next
      cases pick <;> exact Remains.refl _
  | run w answer => exact remains_run next
  | retry tenantId id =>
      obtain rfl := Option.some.inj next
      exact remains_updateSeen rls tenantId id DocRow.reset_same
  | delete tenantId id =>
      obtain rfl := Option.some.inj next
      exact remains_updateSeen rls tenantId id (DocRow.delete_same m.now)
  | cleanup i answer =>
      obtain ⟨collection, cleanups, rfl⟩ := step_cleanup next
      exact Remains.refl _
  | stop w | tick seconds =>
      obtain rfl := Option.some.inj next
      exact Remains.refl _

/-! ## The rows along a run -/

theorem collection_cleanup {i : Nat} (next : m.step rls document (.cleanup i answer) = some m') :
    ∀ row ∈ m'.collection, row ∈ m.collection := by
  obtain ⟨c, -, rfl⟩ := Option.map_eq_some_iff.mp next
  have fewer : ∀ row ∈ (if answer.lands then m.collection.filter fun row => row.docId ≠ c.docId else m.collection),
      row ∈ m.collection := by
    split
    · exact fun row member => List.mem_of_mem_filter member
    · exact fun row member => member
  cases answer with
  | returns vectors => exact fewer
  | raises error done =>
      dsimp only
      split <;> exact fewer

theorem provenance_step {a : Act V} (h : Provenance document m) (next : m.step rls document a = some m') :
    Provenance document m' := by
  have remain := remains_step next
  cases a with
  | upload id tenantId ossPath =>
      obtain ⟨fresh, rfl⟩ := step_upload next
      refine h.remains ?_ remain m.resets m.cleanups
      rw [List.map_append]
      exact List.Nodup.append h.keyed (List.nodup_singleton _) fun d old here =>
        fresh ((List.mem_singleton.mp here : d = id) ▸ old)
  | start w =>
      obtain rfl := step_start next
      exact provenance_become h w fun _ _ => nofun
  | stop w =>
      obtain rfl := Option.some.inj next
      exact provenance_become h w fun _ _ => nofun
  | poll w skipped pick =>
      obtain ⟨-, selects, rfl⟩ := step_poll next
      cases pick with
      | none => exact h
      | some doc =>
          have picked : Provenance document
              (m.become w (.processing ⟨doc.id, doc.tenantId, doc.ossPath, 1⟩ .parsing)) := by
            apply provenance_become h w
            rintro job stage ⟨⟩
            exact ⟨⟨doc, selects.1, rfl, rfl, rfl⟩, trivial⟩
          exact ⟨picked.keyed, picked.rows, picked.assigned, picked.reads⟩
  | run w answer => exact provenance_run h next
  | retry tenantId id =>
      obtain rfl := Option.some.inj next
      exact h.remains ((retry_ids rls tenantId id).symm ▸ h.keyed) remain _ m.cleanups
  | delete tenantId id =>
      obtain rfl := Option.some.inj next
      exact h.remains ((updateSeen_ids rls tenantId id (DocRow.delete_id m.now)).symm ▸ h.keyed) remain m.resets _
  | cleanup i answer =>
      have fewer := collection_cleanup next
      obtain ⟨collection, cleanups, rfl⟩ := step_cleanup next
      exact ⟨h.keyed, fun row member => h.rows row (fewer row member), h.assigned, h.reads⟩
  | tick seconds =>
      obtain rfl := Option.some.inj next
      exact ⟨h.keyed, h.rows, h.assigned, h.reads⟩

theorem provenance_start : Provenance document (Pipeline.start (V := V)) :=
  ⟨List.nodup_nil, fun _ => nofun, fun _ _ _ => nofun, fun _ _ _ => nofun⟩

/-- Every document of the new state is one of the old state or has just been uploaded. -/
def Brings (a : Act V) (docs docs' : List DocRow) : Prop := ∀ doc ∈ docs',
  (∃ old ∈ docs, doc.id = old.id ∧ doc.tenantId = old.tenantId ∧ doc.ossPath = old.ossPath) ∨
    a = .upload doc.id doc.tenantId doc.ossPath

theorem brings_self (a : Act V) (docs : List DocRow) : Brings a docs docs :=
  fun doc stored => Or.inl ⟨doc, stored, rfl, rfl, rfl⟩

theorem brings_updateSeen (a : Act V) (rls : Bool) (tenantId id : Uuid) {set : DocRow → DocRow} (same : ∀ doc,
    (set doc).id = doc.id ∧ (set doc).tenantId = doc.tenantId ∧ (set doc).ossPath = doc.ossPath) :
    Brings a m.docs (m.updateSeen rls tenantId id set) := by
  intro doc member
  rcases mem_updateSeen member with stored | ⟨old, stored, -, rfl⟩
  · exact brings_self a _ doc stored
  · exact Or.inl ⟨old, stored, same old⟩

theorem brings_run {a : Act V} {w : Nat} (next : m.run document w answer = some m') : Brings a m.docs m'.docs := by
  obtain ⟨job, stage, op, worker, embedded, -, does, -, rfl⟩ := Pipeline.run_cases next
  cases answer.lands with
  | false => exact brings_self a _
  | true =>
      intro doc member
      rcases mem_perform (w := w) member with ⟨stored, -⟩ | ⟨set, old, status, stored, -, rfl⟩
      · exact brings_self a _ doc stored
      · have advanced := operation_status does status old
        exact Or.inl ⟨old, stored, advanced.id, advanced.tenantId, advanced.ossPath⟩

theorem brings_step {a : Act V} (next : m.step rls document a = some m') : Brings a m.docs m'.docs := by
  cases a with
  | upload id tenantId ossPath =>
      obtain ⟨-, rfl⟩ := step_upload next
      intro doc member
      rcases List.mem_append.mp member with old | new
      · exact brings_self _ _ doc old
      · obtain rfl := List.mem_singleton.mp new
        exact Or.inr rfl
  | start w =>
      obtain rfl := step_start next
      exact brings_self _ _
  | poll w skipped pick =>
      obtain ⟨-, -, rfl⟩ := step_poll next
      cases pick <;> exact brings_self _ _
  | run w answer => exact brings_run next
  | retry tenantId id =>
      obtain rfl := Option.some.inj next
      exact brings_updateSeen _ rls tenantId id DocRow.reset_same
  | delete tenantId id =>
      obtain rfl := Option.some.inj next
      exact brings_updateSeen _ rls tenantId id (DocRow.delete_same m.now)
  | cleanup i answer =>
      obtain ⟨collection, cleanups, rfl⟩ := step_cleanup next
      exact brings_self _ _
  | stop w | tick seconds =>
      obtain rfl := Option.some.inj next
      exact brings_self _ _

theorem uploaded_of_run (acts : List (Act V)) (run : exec (Pipeline.step rls document) .start acts = some m) :
    Uploaded acts m := by
  have along : Along (Pipeline.step rls document) (fun _ a => a ∈ acts) .start acts :=
    along_of_mem (fun a member _ => member) _
  have start : Uploaded acts (Pipeline.start (V := V)) := fun _ => nofun
  refine Throughout.last (throughout_of_along (P := Uploaded acts) ?_ start along) run
  intro s a t known here next doc member
  rcases brings_step next doc member with ⟨old, stored, id, tenantId, ossPath⟩ | rfl
  · rw [id, tenantId, ossPath]
    exact known old stored
  · exact here

theorem provenance_of_run {acts : List (Act V)} (run : exec (Pipeline.step rls document) .start acts = some m) :
    Provenance document m :=
  (throughout_of_step (fun _ _ _ h next => provenance_step h next) provenance_start).last run

/-- A row that a search has found is still accounted for when the answer is looked at later. -/
theorem chunkOf_of_run {acts : List (Act V)} (found : ∃ doc, ChunkOf document m.docs row doc)
    (run : exec (Pipeline.step rls document) m acts = some m') : ∃ doc, ChunkOf document m'.docs row doc :=
  (throughout_of_step (P := fun p => ∃ doc, ChunkOf document p.docs row doc)
    (fun _ _ _ h next => ChunkOf.remains h (remains_step next)) found).last run

end

/-! ## A turn over the collection -/

section
open Feedback (uuidText)
open Agent (Services AgentState Source ragEngineNode)

/-- The hit names the document and has the text of the row. -/
structure Shows (row : ChunkRow V) (hit : Agent.Hit) : Prop where
  document : hit.document = some (uuidText row.docId)
  text : hit.text = some (String.ofList row.chunkText)

/-- The search finds rows of the tenant that its filter names. -/
def Searches (m : Pipeline V) (services : Services) : Prop :=
  ∀ vector tenantId attempt results, services.search vector tenantId attempt = some results →
    ∀ hits ∈ results, ∀ hit ∈ hits, ∃ row ∈ m.collection, uuidText row.tenantId = tenantId ∧ Shows row hit

/-- `SELECT id::text FROM knowledge_docs WHERE id = ANY($1) AND deleted_at IS NULL` -/
def activeIds (rls : Bool) (docs : List DocRow) (docIds : List (Option String)) (tenantId : String) : List String :=
  (docs.filter fun doc => docIds.contains (some (uuidText doc.id)) ∧ doc.deletedAt = none ∧
    (rls = true → uuidText doc.tenantId = tenantId)).map fun doc => uuidText doc.id

/-- The lookup answers from the table or raises. -/
def LooksUp (rls : Bool) (m : Pipeline V) (services : Services) : Prop :=
  ∃ pool, services.dbPool = some pool ∧ ∀ docIds tenantId, pool docIds tenantId = none ∨
    pool docIds tenantId = some (activeIds rls m.docs docIds tenantId)

/-- The passage is a chunk of a document that the tenant has uploaded and not deleted, and the source cites it. -/
def Quotes (document : String → Text) (acts : List (Act V)) (m : Pipeline V) (tenantId passage : String)
    (source : Source) : Prop :=
  ∃ doc ∈ m.docs, uuidText doc.tenantId = tenantId ∧ doc.deletedAt = none ∧
    .upload doc.id doc.tenantId doc.ossPath ∈ acts ∧
    (∃ chunks, splitText {} (document doc.ossPath) = some chunks ∧ passage.toList ∈ chunks) ∧
    source.id = some (uuidText doc.id) ∧ source.excerpt = some (String.ofList (passage.toList.take 200))

variable {rls : Bool} {document : String → Text} {searched m : Pipeline V} {services : Services}
  {state turn : AgentState}

theorem eq_of_uuidText {a b : Uuid} (first : a < 2 ^ 128) (second : b < 2 ^ 128) (same : uuidText a = uuidText b) :
    a = b := by
  have read := Feedback.hexUuid_uuidText a first
  rw [same, Feedback.hexUuid_uuidText b second] at read
  exact (Option.some.inj read).symm

theorem mem_activeIds {docs : List DocRow} {docIds : List (Option String)} {tenantId id : String}
    (member : id ∈ activeIds rls docs docIds tenantId) :
    ∃ doc ∈ docs, doc.deletedAt = none ∧ uuidText doc.id = id := by
  obtain ⟨doc, kept, rfl⟩ := List.mem_map.mp member
  obtain ⟨stored, facts⟩ := List.mem_filter.mp kept
  exact ⟨doc, stored, (of_decide_eq_true facts).2.1, rfl⟩

/-- What a turn cites comes from a hit of its search whose document was active. -/
theorem cited_of_turn (returned : ragEngineNode services state = some turn) :
    List.Forall₂ (fun passage source => ∃ active hit,
      Agent.getActiveDocIds services ((Agent.hitsOf services state).map Agent.Hit.document)
          (state.tenantId.getD "") = some active ∧
        hit ∈ Agent.hitsOf services state ∧ hit.text = some passage ∧ hit.document ∈ active ∧
        hit.source passage = some source) turn.ragContext turn.sources := by
  by_cases none : Agent.hitsOf services state = []
  · obtain ⟨empty, eq, contexts, sources⟩ := Agent.ragEngineNode_noHits none
    obtain rfl := Option.some.inj (eq.symm.trans returned)
    rw [contexts, sources]
    exact .nil
  · rw [Agent.ragEngineNode_hits none] at returned
    obtain ⟨active, lookup, returned⟩ := Option.bind_eq_some_iff.mp returned
    obtain ⟨chunks, built, returned⟩ := Option.bind_eq_some_iff.mp returned
    split at returned
    · obtain rfl := Option.some.inj returned
      exact .nil
    · obtain ⟨top, reranked, eq⟩ := Option.bind_eq_some_iff.mp returned
      obtain rfl := Option.some.inj eq
      rw [List.forall₂_map_left_iff, List.forall₂_map_right_iff, List.forall₂_same]
      rintro ⟨passage, source⟩ member
      obtain ⟨hit, found, facts⟩ := Agent.mem_chunksWithSources built (Agent.mem_of_reranked reranked member)
      exact ⟨active, hit, lookup, found, facts⟩

theorem mem_hitsOf {hit : Agent.Hit} (found : hit ∈ Agent.hitsOf services state) :
    ∃ vector attempt results, services.search vector (state.tenantId.getD "") attempt = some results ∧
      ∃ hits ∈ results, hit ∈ hits := by
  unfold Agent.hitsOf at found
  split at found
  · cases found
  · unfold Agent.searchHits at found
    split at found
    · cases found
    · rename_i vector embedded
      split at found
      · cases found
      · cases found
      · rename_i hits others answered
        split at answered
        · cases answered
        · obtain ⟨attempt, -, answered⟩ := List.exists_of_findSome?_eq_some answered
          exact ⟨vector, attempt, _, answered, hits, List.mem_cons_self, found⟩

/-- However the documents are uploaded, processed, reset, deleted and cleaned up before a search and between the search
and the lookup of the active documents, a turn is given passages of its own tenant's documents only. -/
theorem passages_ofTenant (rls : Bool) (document : String → Text) (before between : List (Act V))
    (ids : ∀ id tenantId ossPath, .upload id tenantId ossPath ∈ before ++ between → id < 2 ^ 128)
    (searched m : Pipeline V) (first : exec (Pipeline.step rls document) .start before = some searched)
    (second : exec (Pipeline.step rls document) searched between = some m) (services : Services)
    (searches : Searches searched services) (looksUp : LooksUp rls m services) (state turn : AgentState)
    (returned : ragEngineNode services state = some turn) :
    List.Forall₂ (Quotes document (before ++ between) m (state.tenantId.getD "")) turn.ragContext turn.sources := by
  have whole : exec (Pipeline.step rls document) .start (before ++ between) = some m := by
    rw [exec_append, first]
    exact second
  have uploaded := uploaded_of_run _ whole
  have keyed := (provenance_of_run whole).keyed
  refine (cited_of_turn returned).imp fun passage source cited => ?_
  obtain ⟨active, hit, lookup, found, text, inActive, sourced⟩ := cited
  obtain ⟨vector, attempt, results, answer, hits, inResults, inHits⟩ := mem_hitsOf found
  obtain ⟨row, stored, tenant, shows⟩ := searches vector _ attempt results answer hits inResults hit inHits
  obtain ⟨doc, chunkOf⟩ := chunkOf_of_run ((provenance_of_run first).rows row stored) second
  -- the active document with the hit's id is the one that the row comes from
  have notDeleted : doc.deletedAt = none := by
    obtain ⟨pool, wired, answers⟩ := looksUp
    unfold Agent.getActiveDocIds at lookup
    split at lookup
    · obtain rfl := Option.some.inj lookup
      cases inActive
    · simp only [wired] at lookup
      obtain ⟨known, asked, rfl⟩ := Option.map_eq_some_iff.mp lookup
      rcases answers _ _ with raises | answered
      · rw [raises] at asked
        cases asked
      · obtain rfl := Option.some.inj (answered.symm.trans asked)
        rw [shows.document] at inActive
        obtain ⟨id, member, eq⟩ := List.mem_map.mp inActive
        obtain rfl := Option.some.inj eq
        obtain ⟨other, there, kept, same⟩ := mem_activeIds member
        have ids' (d : DocRow) (h : d ∈ m.docs) : d.id < 2 ^ 128 := ids _ _ _ (uploaded d h)
        have one := eq_of_uuidText (ids' other there) (chunkOf.id ▸ ids' doc chunkOf.stored) same
        obtain rfl := List.inj_on_of_nodup_map keyed there chunkOf.stored (one.trans chunkOf.id.symm)
        exact kept
  obtain ⟨docId, named, rfl⟩ := Option.map_eq_some_iff.mp sourced
  obtain rfl := Option.some.inj (shows.document.symm.trans named)
  obtain rfl := Option.some.inj (shows.text.symm.trans text)
  refine ⟨doc, chunkOf.stored, chunkOf.tenantId ▸ tenant, notDeleted, uploaded doc chunkOf.stored, ?_, ?_, rfl⟩
  · rw [String.toList_ofList]
    exact chunkOf.chunk
  · exact congrArg (fun id => some (uuidText id)) chunkOf.id.symm

/-- Another tenant uploads a document between the search and the lookup. -/
def faqIndexed : List (Act Rat) := faqPicked ++ List.replicate 9 (.run 0 (.returns [1 / 2]))

def faqDocs : List DocRow :=
  [⟨7, 1, "1/docs/7/faq.txt", .completed, some 1, none, none, 0⟩,
    ⟨8, 2, "2/docs/8/tariffs.txt", .pending, none, none, none, 0⟩]

def faqHit : Agent.Hit := ⟨some (uuidText 7), some "你好", none, none, none, ⟨none, none⟩⟩

def overFaq : Services :=
  { Agent.searching with
    search := fun _ tenantId _ => some [if tenantId = uuidText 1 then [faqHit] else []]
    dbPool := some fun docIds tenantId => some (activeIds false faqDocs docIds tenantId) }

def askingFaq : AgentState := { Agent.asking with tenantId := some (uuidText 1) }

theorem passages_ofTenant_faq : ∃ m : Pipeline Rat, m.docs = faqDocs ∧
    List.Forall₂ (Quotes (fun _ => "你好".toList) (faqIndexed ++ [.upload 8 2 "2/docs/8/tariffs.txt"]) m (uuidText 1))
      ["你好"] [⟨some (uuidText 7), some "Document 00000000", none, some "你好", some 1⟩] := by
  obtain ⟨searched, first, rows⟩ : ∃ searched : Pipeline Rat,
      exec (Pipeline.step false fun _ => "你好".toList) .start faqIndexed = some searched ∧
        searched.collection = [⟨1, 7, "你好".toList, 1 / 2⟩] := ⟨_, rfl, rfl⟩
  obtain ⟨m, second, docs⟩ : ∃ m : Pipeline Rat, exec (Pipeline.step false fun _ => "你好".toList) searched
      [.upload 8 2 "2/docs/8/tariffs.txt"] = some m ∧ m.docs = faqDocs := by
    obtain rfl := Option.some.inj first
    exact ⟨_, rfl, rfl⟩
  refine ⟨m, docs, passages_ofTenant false _ faqIndexed [.upload 8 2 "2/docs/8/tariffs.txt"] ?_ searched m first second
    overFaq ?_ ?_ askingFaq ((ragEngineNode overFaq askingFaq).getD askingFaq) rfl⟩
  · intro id tenantId ossPath member
    simp [faqIndexed, faqPicked] at member
    rcases member with ⟨rfl, -, -⟩ | ⟨rfl, -, -⟩ <;> decide
  · intro vector tenantId attempt results answer hits member hit found
    obtain rfl := Option.some.inj answer
    obtain rfl := List.mem_singleton.mp member
    split at found
    · rename_i tenant
      obtain rfl := List.mem_singleton.mp found
      have indexed : ⟨1, 7, "你好".toList, 1 / 2⟩ ∈ searched.collection := by
        rw [rows]
        exact List.mem_cons_self
      exact ⟨_, indexed, tenant.symm, by decide +kernel, by decide +kernel⟩
    · cases found
  · exact ⟨_, rfl, fun docIds tenantId => Or.inr (docs ▸ rfl)⟩

end

end CuckooEcho.Knowledge
