import CuckooEcho.Knowledge.Worker
import Mathlib.Data.List.Nodup

namespace CuckooEcho.Knowledge
open Lib
variable {V : Type*}

/-! ## Completed documents -/

section
variable (document : String → Text) (m : Pipeline V)

/-- The collection has `n` rows of the document, one for each chunk of its text with the vector that `embed_batch`
returned for it. -/
def Indexed (id tenantId : Uuid) (ossPath : String) (n : Nat) : Prop :=
  ∃ chunks, splitText {} (document ossPath) = some chunks ∧ n = chunks.length ∧ (m.rowsOf id).length = n ∧
    m.rowsOf id = chunkRows id tenantId chunks (m.embedded id)

def IndexedOnce : Prop := ∀ row ∈ m.docs, row.status = .completed →
  ∃ n, row.chunkCount = some n ∧ Indexed document m row.id row.tenantId row.ossPath n

/-- One worker, and an admin who resets no document that is being processed and deletes none. -/
def OneWorker : Act V → Prop
  | .start w | .poll w _ _ | .stop w | .run w _ => w = 0
  | .retry _ id => (m.workers 0).docId ≠ some id
  | .delete _ _ | .cleanup _ _ => False
  | _ => True

/-- The collection has no rows yet of the document whose rows are added, and there is a vector for each chunk. -/
def AddsOnce (answer : Answer V) : Worker V → Prop
  | .processing job (.insert chunks vectors) =>
      answer.lands = true → m.rowsOf job.docId = [] ∧ chunks.length ≤ vectors.length
  | _ => True

def InsertsOnce : Act V → Prop
  | .run w answer => AddsOnce m answer (m.workers w)
  | _ => True

instance : ∀ a : Act V, Decidable (OneWorker m a)
  | .start w | .poll w _ _ | .stop w | .run w _ => inferInstanceAs (Decidable (w = 0))
  | .retry _ id => inferInstanceAs (Decidable ((m.workers 0).docId ≠ some id))
  | .delete _ _ | .cleanup _ _ => .isFalse id
  | .upload _ _ _ | .tick _ => .isTrue trivial

instance (answer : Answer V) : ∀ worker, Decidable (AddsOnce m answer worker)
  | .processing job (.insert chunks vectors) =>
      inferInstanceAs (Decidable (answer.lands = true → m.rowsOf job.docId = [] ∧ chunks.length ≤ vectors.length))
  | .stopped | .polling => .isTrue trivial
  | .processing _ .parsing | .processing _ .parse | .processing _ (.chunking _) | .processing _ (.split _)
  | .processing _ (.embedding _) | .processing _ (.embed _) | .processing _ (.storing _ _)
  | .processing _ (.complete _) | .processing _ (.raised _) => .isTrue trivial

instance : ∀ a : Act V, Decidable (InsertsOnce m a)
  | .run w answer => inferInstanceAs (Decidable (AddsOnce m answer (m.workers w)))
  | .upload _ _ _ | .start _ | .poll _ _ _ | .stop _ => .isTrue trivial
  | .retry _ _ | .delete _ _ | .cleanup _ _ | .tick _ => .isTrue trivial

/-! ## What the worker knows at each stage -/

def Incomplete (id : Uuid) : Prop := ∀ row ∈ m.docs, row.id = id → row.status ≠ .completed

def Fits (job : Job) : Stage V → Prop
  | .parsing | .raised _ => True
  | .parse => Incomplete m job.docId
  | .chunking text | .split text => Incomplete m job.docId ∧ text = document job.filePath
  | .embedding chunks | .embed chunks =>
      Incomplete m job.docId ∧ splitText {} (document job.filePath) = some chunks
  | .storing chunks vectors | .insert chunks vectors =>
      Incomplete m job.docId ∧ splitText {} (document job.filePath) = some chunks ∧ vectors = m.embedded job.docId
  | .complete n => Incomplete m job.docId ∧ Indexed document m job.docId job.tenantId job.filePath n

structure Selected (job : Job) : Prop where
  known : job.docId ∈ m.docs.map (·.id)
  row : ∀ row ∈ m.docs, row.id = job.docId → row.tenantId = job.tenantId ∧ row.ossPath = job.filePath

structure Indexing : Prop where
  once : IndexedOnce document m
  keyed : (m.docs.map (·.id)).Nodup
  selected : ∀ job stage, m.workers 0 = .processing job stage → Selected m job
  fits : ∀ job stage, m.workers 0 = .processing job stage → Fits document m job stage

end

section
variable {rls : Bool} {document : String → Text} {m m' : Pipeline V} {job : Job} {stage : Stage V} {op : Operation V}
  {answer : Answer V}

theorem indexing_start : Indexing document (Pipeline.start (V := V)) :=
  ⟨fun _ => nofun, List.nodup_nil, fun _ _ => nofun, fun _ _ => nofun⟩

theorem Indexed.congr {id tenantId : Uuid} {ossPath : String} {n : Nat} (h : Indexed document m id tenantId ossPath n)
    (rows : m'.rowsOf id = m.rowsOf id) (embedded : m'.embedded id = m.embedded id) :
    Indexed document m' id tenantId ossPath n := by
  unfold Indexed
  rw [rows, embedded]
  exact h

theorem Fits.congr (h : Fits document m job stage) (incomplete : Incomplete m job.docId → Incomplete m' job.docId)
    (rows : m'.rowsOf job.docId = m.rowsOf job.docId) (embedded : m'.embedded job.docId = m.embedded job.docId) :
    Fits document m' job stage := by
  cases stage with
  | parsing | raised => trivial
  | parse => exact incomplete h
  | chunking | split | embedding | embed => exact ⟨incomplete h.1, h.2⟩
  | storing | insert => exact ⟨incomplete h.1, h.2.1, h.2.2.trans embedded.symm⟩
  | complete => exact ⟨incomplete h.1, h.2.congr rows embedded⟩

/-- Rows that are new or changed belong to no document that is completed or being processed. -/
theorem Indexing.docs (h : Indexing document m) {docs : List DocRow} (keyed : (docs.map (·.id)).Nodup)
    (stay : ∀ d ∈ m.docs.map (·.id), d ∈ docs.map (·.id))
    (rows : ∀ row ∈ docs, row ∈ m.docs ∨ row.status ≠ .completed ∧ (m.workers 0).docId ≠ some row.id)
    (resets : Uuid → Nat) : Indexing document { m with docs, resets } := by
  have old : ∀ row ∈ docs, ∀ job stage, m.workers 0 = .processing job stage → row.id = job.docId → row ∈ m.docs := by
    intro row member job stage busy here
    rcases rows row member with old | ⟨-, other⟩
    · exact old
    · rw [busy, here] at other
      exact absurd rfl other
  refine ⟨fun row member completed => ?_, keyed, fun job stage busy => ?_, fun job stage busy => ?_⟩
  · rcases rows row member with old | ⟨open', -⟩
    · exact h.once row old completed
    · exact absurd completed open'
  · exact ⟨stay _ (h.selected job stage busy).known, fun row member here =>
      (h.selected job stage busy).row row (old row member job stage busy here) here⟩
  · exact (h.fits job stage busy).congr (fun incomplete row member here =>
      incomplete row (old row member job stage busy here) here) rfl rfl

theorem indexing_become (once : IndexedOnce document m) (keyed : (m.docs.map (·.id)).Nodup) {worker : Worker V}
    (selected : ∀ job stage, worker = .processing job stage → Selected m job ∧ Fits document m job stage) :
    Indexing document (m.become 0 worker) := by
  have new := Pipeline.become_self (m := m) 0 worker
  refine ⟨once, keyed, fun job stage busy => ?_, fun job stage busy => ?_⟩
  · obtain ⟨known, row⟩ := (selected job stage (new.symm.trans busy)).1
    exact ⟨known, row⟩
  · exact (selected job stage (new.symm.trans busy)).2.congr id rfl rfl

theorem once_perform (h : Indexing document m) (busy : m.workers 0 = .processing job stage)
    (does : operation document job stage = some op) : IndexedOnce document (m.perform 0 job.docId op) := by
  intro row member completed
  have fits := h.fits job stage busy
  rcases mem_perform member with ⟨stored, unchanged⟩ | ⟨set, old, status, stored, here, rfl⟩
  · obtain ⟨n, count, indexed⟩ := h.once row stored completed
    refine ⟨n, count, indexed.congr ?_ rfl⟩
    by_cases other : job.docId = row.id
    · rcases operation_rows does with nothing | ⟨chunks, vectors, rfl, -⟩
      · rw [rowsOf_perform, nothing, List.filter_nil, List.append_nil]
      · -- rows are added while the document is processing
        exact absurd completed (fits.1 row stored other.symm)
    · exact rowsOf_perform_of_ne does other
  · cases operation_sets does status with
    | processing text => cases completed
    | failed error => cases completed
    | completed n last =>
        subst last
        obtain rfl := Option.some.inj does
        obtain ⟨sameTenant, samePath⟩ := (h.selected job _ busy).row old stored here
        refine ⟨n, rfl, ?_⟩
        have indexed := fits.2
        rw [← here, ← sameTenant, ← samePath] at indexed
        exact indexed.congr (by rw [rowsOf_perform, List.filter_nil, List.append_nil]) rfl

theorem selected_perform (h : Selected m job) (does : operation document job stage = some op) (w : Nat) :
    Selected (m.perform w job.docId op) job := by
  refine ⟨(perform_ids does job.docId).symm ▸ h.known, fun row member here => ?_⟩
  rcases mem_perform member with ⟨stored, -⟩ | ⟨set, old, status, stored, same, rfl⟩
  · exact h.row row stored here
  · have advanced := operation_status does status old
    obtain ⟨tenant, path⟩ := h.row old stored same
    exact ⟨advanced.tenantId.trans tenant, advanced.ossPath.trans path⟩

theorem incomplete_perform (does : operation document job stage = some op) (before : ∀ n, stage ≠ .complete n)
    (incomplete : op.status = none → Incomplete m job.docId) (w : Nat) :
    Incomplete (m.perform w job.docId op) job.docId := by
  intro row member here
  rcases mem_perform member with ⟨stored, unchanged⟩ | ⟨set, old, status, -, -, rfl⟩
  · exact incomplete (unchanged here) row stored here
  · cases operation_sets does status with
    | processing text => exact DocStatus.noConfusion
    | failed error => exact DocStatus.noConfusion
    | completed n last => exact absurd last (before n)

theorem rowsOf_insert {id tenantId : Uuid} {chunks : List Text} {vectors : List V}
    (rows : op.rows = chunkRows id tenantId chunks vectors) (empty : m.rowsOf id = []) (w : Nat) :
    (m.perform w id op).rowsOf id = chunkRows id tenantId chunks vectors := by
  rw [rowsOf_perform, empty, List.nil_append, rows, filter_chunkRows]

theorem fits_next (h : Fits document m job stage) (does : operation document job stage = some op)
    (inserts : ∀ chunks vectors, stage = .insert chunks vectors →
      m.rowsOf job.docId = [] ∧ chunks.length ≤ vectors.length) (w : Nat) (vectors : List V) {job' : Job}
    {stage' : Stage V} (next : op.next vectors = .processing job' stage') :
    Fits document ((m.perform w job.docId op).embed job.docId stage vectors) job' stage' := by
  have incomplete := fun before old => incomplete_perform (m := m) does before old w
  cases stage with
  | parsing =>
      obtain rfl := Option.some.inj does
      obtain ⟨rfl, rfl⟩ := Worker.processing.inj next
      exact incomplete nofun nofun
  | parse =>
      obtain rfl := Option.some.inj does
      obtain ⟨rfl, rfl⟩ := Worker.processing.inj next
      exact ⟨incomplete nofun fun _ => h, rfl⟩
  | chunking text =>
      obtain rfl := Option.some.inj does
      obtain ⟨rfl, rfl⟩ := Worker.processing.inj next
      exact ⟨incomplete nofun fun _ => h.1, h.2⟩
  | split text =>
      obtain ⟨chunks, splits, rfl⟩ := Option.map_eq_some_iff.mp does
      obtain ⟨rfl, rfl⟩ := Worker.processing.inj next
      exact ⟨incomplete nofun fun _ => h.1, h.2 ▸ splits⟩
  | embedding chunks =>
      obtain rfl := Option.some.inj does
      obtain ⟨rfl, rfl⟩ := Worker.processing.inj next
      exact ⟨incomplete nofun fun _ => h.1, h.2⟩
  | embed chunks =>
      obtain rfl := Option.some.inj does
      obtain ⟨rfl, rfl⟩ := Worker.processing.inj next
      exact ⟨incomplete nofun fun _ => h.1, h.2, by simp only [Pipeline.embed, Function.update_self]⟩
  | storing chunks stored =>
      obtain rfl := Option.some.inj does
      obtain ⟨rfl, rfl⟩ := Worker.processing.inj next
      exact ⟨incomplete nofun fun _ => h.1, h.2⟩
  | insert chunks stored =>
      obtain rfl := Option.some.inj does
      obtain ⟨rfl, rfl⟩ := Worker.processing.inj next
      obtain ⟨empty, enough⟩ := inserts chunks stored rfl
      refine ⟨incomplete nofun fun _ => h.1, chunks, h.2.1, rfl, ?_, ?_⟩
      · refine (congrArg List.length (rowsOf_insert rfl empty w)).trans ?_
        exact (List.length_zipWith ..).trans (Nat.min_eq_left enough)
      · exact h.2.2 ▸ rowsOf_insert rfl empty w
  | complete n =>
      obtain rfl := Option.some.inj does
      cases next
  | raised error =>
      simp only [operation, Option.some.injEq] at does
      subst does
      split at next
      · obtain ⟨rfl, rfl⟩ := Worker.processing.inj next
        trivial
      · cases next

theorem once_embed (once : IndexedOnce document m) {id : Uuid}
    (incomplete : ∀ chunks, stage = .embed chunks → Incomplete m id) (vectors : List V) :
    IndexedOnce document (m.embed id stage vectors) := by
  cases stage with
  | embed chunks =>
      intro row member completed
      obtain ⟨n, count, indexed⟩ := once row member completed
      have other : row.id ≠ id := fun here => incomplete chunks rfl row member here completed
      refine ⟨n, count, indexed.congr rfl ?_⟩
      simp only [Pipeline.embed, Function.update_of_ne other]
  | _ => exact once

theorem embed_docs (id : Uuid) (stage : Stage V) (vectors : List V) : (m.embed id stage vectors).docs = m.docs := by
  cases stage <;> rfl

theorem selected_keeps (h : Selected m job) {worker : Worker V} (keeps : worker.Keeps job) {job' : Job}
    {stage' : Stage V} (goes : worker = .processing job' stage') : Selected m job' := by
  obtain ⟨attempt, rfl⟩ := keeps job' stage' goes
  exact ⟨h.known, h.row⟩

theorem indexing_run (h : Indexing document m) (inserts : InsertsOnce m (.run 0 answer))
    (next : m.run document 0 answer = some m') : Indexing document m' := by
  unfold Pipeline.run at next
  split at next
  case h_2 => cases next
  case h_1 job stage busy =>
    obtain ⟨op, does, rfl⟩ := Option.map_eq_some_iff.mp next
    have once := once_perform h busy does
    have keyed := (perform_ids (w := 0) does job.docId).symm ▸ h.keyed
    have selected := selected_perform (h.selected job stage busy) does 0
    have fits := h.fits job stage busy
    cases answer with
    | returns vectors =>
        refine indexing_become (once_embed once ?_ vectors) ?_ fun job' stage' goes => ⟨?_, ?_⟩
        · rintro chunks rfl
          exact incomplete_perform does nofun (fun _ => fits.1) 0
        · exact (embed_docs job.docId stage vectors).symm ▸ keyed
        · refine selected_keeps ⟨?_, ?_⟩ (operation_next does vectors) goes
          · exact (embed_docs job.docId stage vectors).symm ▸ selected.known
          · exact (embed_docs job.docId stage vectors).symm ▸ selected.row
        · refine fits_next fits does (fun chunks stored at' => ?_) 0 vectors goes
          subst at'
          simp only [InsertsOnce, busy, AddsOnce] at inserts
          exact inserts rfl
    | raises error done =>
        have keeps := operation_failed_keeps does error
        have raised : ∀ (p : Pipeline V) job' stage', op.failed error = .processing job' stage' →
            Fits document p job' stage' := by
          intro p job' stage' goes
          rcases operation_failed does error with goesOn | stops
          · obtain ⟨rfl, rfl⟩ := Worker.processing.inj (goesOn.symm.trans goes)
            trivial
          · cases stops.symm.trans goes
        cases done with
        | true => exact indexing_become once keyed fun job' stage' goes =>
            ⟨selected_keeps selected keeps goes, raised _ job' stage' goes⟩
        | false => exact indexing_become h.once h.keyed fun job' stage' goes =>
            ⟨selected_keeps (h.selected job stage busy) keeps goes, raised _ job' stage' goes⟩

theorem indexing_retry (h : Indexing document m) (rls : Bool) (tenantId id : Uuid)
    (idle : (m.workers 0).docId ≠ some id) : Indexing document (m.retry rls tenantId id) := by
  have ids := retry_ids (m := m) rls tenantId id
  refine h.docs (ids.symm ▸ h.keyed) (fun d known => ids.symm ▸ known) (fun row member => ?_) _
  rcases mem_updateSeen member with stored | ⟨old, -, rfl, rfl⟩
  · exact Or.inl stored
  · exact Or.inr ⟨DocStatus.noConfusion, idle⟩

theorem indexing_upload (h : Indexing document m) {row : DocRow} (fresh : row.id ∉ m.docs.map (·.id))
    (new : row.status ≠ .completed) : Indexing document { m with docs := m.docs ++ [row] } := by
  have known : ∀ d, (m.workers 0).docId = some d → d ∈ m.docs.map (·.id) := by
    intro d busy
    cases worker : m.workers 0 with
    | stopped | polling =>
        rw [worker] at busy
        cases busy
    | processing job stage =>
        rw [worker] at busy
        obtain rfl := Option.some.inj busy
        exact (h.selected job stage worker).known
  refine h.docs ?_ (fun d known => ?_) (fun other member => ?_) m.resets
  · rw [List.map_append]
    refine List.Nodup.append h.keyed (List.nodup_singleton _) fun d old here => fresh ?_
    exact (List.mem_singleton.mp here : d = row.id) ▸ old
  · rw [List.map_append]
    exact List.mem_append_left _ known
  · rcases List.mem_append.mp member with old | here
    · exact Or.inl old
    · obtain rfl := List.mem_singleton.mp here
      exact Or.inr ⟨new, fun busy => fresh (known _ busy)⟩

theorem Indexing.congr (h : Indexing document m) (docs : m'.docs = m.docs) (collection : m'.collection = m.collection)
    (workers : m'.workers = m.workers) (embedded : m'.embedded = m.embedded) : Indexing document m' := by
  cases m
  cases m'
  subst docs collection workers embedded
  exact ⟨h.once, h.keyed, fun job stage busy => ⟨(h.selected job stage busy).known, (h.selected job stage busy).row⟩,
    fun job stage busy => (h.fits job stage busy).congr id rfl rfl⟩

theorem indexing_pick (h : Indexing document m) {row : DocRow} (member : row ∈ m.docs) :
    Indexing document (m.pick 0 row) := by
  refine (indexing_become h.once h.keyed ?_).congr (m := m.become 0 _) rfl rfl rfl rfl
  rintro job stage ⟨⟩
  refine ⟨⟨List.mem_map_of_mem member, fun other stored same => ?_⟩, trivial⟩
  obtain rfl := List.inj_on_of_nodup_map h.keyed stored member same
  exact ⟨rfl, rfl⟩

theorem indexing_step {a : Act V} (h : Indexing document m) (one : OneWorker m a) (inserts : InsertsOnce m a)
    (next : m.step rls document a = some m') : Indexing document m' := by
  cases a with
  | upload id tenantId ossPath =>
      obtain ⟨fresh, rfl⟩ := step_upload next
      exact indexing_upload h fresh DocStatus.noConfusion
  | start w =>
      obtain rfl : w = 0 := one
      obtain rfl := step_start next
      exact indexing_become h.once h.keyed fun _ _ => nofun
  | stop w =>
      obtain rfl : w = 0 := one
      obtain rfl := Option.some.inj next
      exact indexing_become h.once h.keyed fun _ _ => nofun
  | poll w skipped pick =>
      obtain rfl : w = 0 := one
      obtain ⟨-, selects, rfl⟩ := step_poll next
      cases pick with
      | none => exact h
      | some row => exact indexing_pick h selects.1
  | run w answer =>
      obtain rfl : w = 0 := one
      exact indexing_run h inserts next
  | retry tenantId id =>
      obtain rfl := Option.some.inj next
      exact indexing_retry h rls tenantId id one
  | delete tenantId id => exact one.elim
  | cleanup i answer => exact one.elim
  | tick seconds =>
      obtain rfl := Option.some.inj next
      exact h.congr rfl rfl rfl rfl

end

/-- One worker indexes every completed document exactly once if no insert adds rows of a document that already has
some and `embed_batch` never returns fewer vectors than it was given chunks. -/
theorem indexedOnce_of_insertsOnce (rls : Bool) (document : String → Text) (acts : List (Act V))
    (along : Along (Pipeline.step rls document) (fun m a => OneWorker m a ∧ InsertsOnce m a) .start acts) :
    Throughout (Pipeline.step rls document) (IndexedOnce document) .start acts :=
  (throughout_of_along (fun _ _ _ h good next => indexing_step h good.1 good.2 next) indexing_start along).mono
    fun _ h => h.once

def faqPicked : List (Act Rat) :=
  [.upload 7 1 "1/docs/7/faq.txt", .start 0,
    .poll 0 [] (some ⟨7, 1, "1/docs/7/faq.txt", .pending, none, none, none, 0⟩)]

/-- Two paragraphs that come to a chunk each. -/
def guideText : Text := List.replicate 300 'a' ++ ['\n', '\n'] ++ List.replicate 300 'b'

/-- The first attempt fails when it parses the document. -/
def parsedAgain : List (Act Rat) :=
  faqPicked ++ [.run 0 (.returns []), .run 0 (.raises "timeout" false), .run 0 (.returns [])] ++
    List.replicate 9 (.run 0 (.returns [1 / 2, 1 / 3]))

theorem indexedOnce_of_insertsOnce_parsedAgain :
    Throughout (Pipeline.step false fun _ => guideText) (IndexedOnce fun _ => guideText) .start parsedAgain :=
  indexedOnce_of_insertsOnce false _ _ (by decide +kernel)

/-- The insert adds its row and raises: the second attempt adds the row again. -/
def insertsTwice : List (Act Rat) :=
  faqPicked ++ List.replicate 7 (.run 0 (.returns [1 / 2])) ++ [.run 0 (.raises "deadline exceeded" true)] ++
    List.replicate 10 (.run 0 (.returns [1 / 2]))

theorem insertsTwice_indexedTwice :
    ¬ ∀ (rls : Bool) (document : String → Text) (acts : List (Act Rat)),
      Along (Pipeline.step rls document) OneWorker .start acts →
        Throughout (Pipeline.step rls document) (IndexedOnce document) .start acts := by
  intro claim
  have once := (claim false (fun _ => "你好".toList) insertsTwice (by decide)).last rfl
  obtain ⟨n, count, chunks, -, -, rows, -⟩ := once _ (.head _) rfl
  obtain rfl : 1 = n := Option.some.inj count
  cases rows

end CuckooEcho.Knowledge
