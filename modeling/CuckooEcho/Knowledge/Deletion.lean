import CuckooEcho.Knowledge.Worker

namespace CuckooEcho.Knowledge
open Lib
variable {V : Type*}

/-! ## Deleted documents -/

section
variable (d : Uuid) (m : Pipeline V)

def Deleted : Prop := ∃ row ∈ m.docs, row.id = d ∧ row.deletedAt ≠ none

/-- The document is deleted, and every cleanup of it has ended. -/
structure Cleaned : Prop where
  deleted : Deleted d m
  ended : ∀ c ∈ m.cleanups, c.docId ≠ d

structure Quiet : Prop extends Cleaned d m where
  idle : ∀ w, (m.workers w).docId ≠ some d

/-- No worker selects the document after everything about its deletion has ended. -/
def LeavesQuiet : Act V → Prop
  | .poll _ _ (some row) => row.id = d → ¬ Quiet d m
  | _ => True

def Worker.inserts : Worker V → Option Uuid
  | .processing job (.insert _ _) => some job.docId
  | _ => none

def MilvusSucceeds : Act V → Prop
  | .cleanup _ (.raises _ _) => False
  | .run w (.raises _ _) => (m.workers w).inserts = none
  | _ => True

/-- After its last cleanup no rows of the document are added and it is not reset, and it is not pending then. -/
def CleanedLast : Act V → Prop
  | .run w answer => (m.workers w).inserts = some d → answer.lands = true → ¬ Cleaned d m
  | .retry _ id => id = d → ¬ Cleaned d m
  | .cleanup i _ => Deleted d m → (∀ c ∈ m.cleanups.eraseIdx i, c.docId ≠ d) →
      ∀ row ∈ m.docs, row.id = d → row.status ≠ .pending
  | _ => True

instance : ∀ a : Act V, Decidable (MilvusSucceeds m a)
  | .cleanup _ (.raises _ _) => .isFalse id
  | .run w (.raises _ _) => inferInstanceAs (Decidable ((m.workers w).inserts = none))
  | .cleanup _ (.returns _) | .run _ (.returns _) => .isTrue trivial
  | .upload _ _ _ | .start _ | .poll _ _ _ | .stop _ | .retry _ _ | .delete _ _ | .tick _ => .isTrue trivial

instance : Decidable (Deleted d m) := inferInstanceAs (Decidable (∃ row ∈ m.docs, _))

instance : Decidable (Cleaned d m) :=
  decidable_of_iff (Deleted d m ∧ ∀ c ∈ m.cleanups, c.docId ≠ d)
    ⟨fun h => ⟨h.1, h.2⟩, fun h => ⟨h.deleted, h.ended⟩⟩

instance : ∀ a : Act V, Decidable (CleanedLast d m a)
  | .run _ answer => inferInstanceAs (Decidable (_ → answer.lands = true → _))
  | .retry _ id => inferInstanceAs (Decidable (id = d → _))
  | .cleanup i _ => inferInstanceAs (Decidable (Deleted d m → (∀ c ∈ m.cleanups.eraseIdx i, _) → ∀ row ∈ m.docs, _))
  | .upload _ _ _ | .start _ | .poll _ _ _ | .stop _ | .delete _ _ | .tick _ => .isTrue trivial

def LeavesNothing : Prop :=
  Cleaned d m → m.rowsOf d = [] ∧ ∀ row ∈ m.docs, row.id = d → row.status ≠ .pending

end

section
variable {rls : Bool} {document : String → Text} {d : Uuid} {m m' : Pipeline V} {w : Nat} {answer : Answer V}

theorem LeavesNothing.congr (h : LeavesNothing d m) (docs : m'.docs = m.docs)
    (collection : m'.collection = m.collection) (cleanups : m'.cleanups = m.cleanups) : LeavesNothing d m' := by
  cases m
  cases m'
  subst docs collection cleanups
  exact fun cleaned => h ⟨cleaned.deleted, cleaned.ended⟩

theorem leavesNothing_upload (h : LeavesNothing d m) {row : DocRow} (fresh : row.id ∉ m.docs.map (·.id))
    (new : row.deletedAt = none) : LeavesNothing d { m with docs := m.docs ++ [row] } := by
  rintro ⟨⟨old, member, here, deleted⟩, ended⟩
  rcases List.mem_append.mp member with stored | isNew
  · obtain ⟨rows, taken⟩ := h ⟨⟨old, stored, here, deleted⟩, ended⟩
    refine ⟨rows, fun other member same => ?_⟩
    rcases List.mem_append.mp member with stored' | isNew
    · exact taken other stored' same
    · obtain rfl := List.mem_singleton.mp isNew
      exact absurd (List.mem_map.mpr ⟨old, stored, here.trans same.symm⟩) fresh
  · obtain rfl := List.mem_singleton.mp isNew
    exact absurd new deleted

theorem deleted_of_perform {job : Job} {stage : Stage V} {op : Operation V}
    (does : operation document job stage = some op) (deleted : Deleted d (m.perform w job.docId op)) : Deleted d m := by
  obtain ⟨row, member, here, gone⟩ := deleted
  rcases mem_perform member with ⟨stored, -⟩ | ⟨set, old, status, stored, -, rfl⟩
  · exact ⟨row, stored, here, gone⟩
  · have advanced := operation_status does status old
    exact ⟨old, stored, advanced.id.symm.trans here, advanced.deletedAt ▸ gone⟩

theorem leavesNothing_perform (h : LeavesNothing d m) {job : Job} {stage : Stage V} {op : Operation V}
    (does : operation document job stage = some op)
    (inserts : (Worker.processing job stage).inserts = some d → ¬ Cleaned d m) :
    LeavesNothing d (m.perform w job.docId op) := by
  intro cleaned
  have before : Cleaned d m := ⟨deleted_of_perform does cleaned.deleted, cleaned.ended⟩
  obtain ⟨rows, taken⟩ := h before
  refine ⟨?_, fun row member here => ?_⟩
  · by_cases same : job.docId = d
    · rcases operation_rows does with nothing | ⟨chunks, vectors, at', -⟩
      · rw [rowsOf_perform, nothing, List.filter_nil, List.append_nil, rows]
      · exact absurd before (inserts (by simp only [at', Worker.inserts, same]))
    · rw [rowsOf_perform_of_ne does same, rows]
  · rcases mem_perform member with ⟨stored, -⟩ | ⟨set, old, status, -, -, rfl⟩
    · exact taken row stored here
    · exact (operation_status does status old).status

theorem leavesNothing_run (h : LeavesNothing d m) (last : CleanedLast d m (.run w answer))
    (next : m.run document w answer = some m') : LeavesNothing d m' := by
  obtain ⟨job, stage, op, worker, embedded, busy, does, -, rfl⟩ := Pipeline.run_cases next
  split
  case isTrue lands =>
    exact (leavesNothing_perform (w := w) h does fun inserts => last (busy ▸ inserts) lands).congr rfl rfl rfl
  case isFalse => exact h.congr rfl rfl rfl

theorem leavesNothing_retry (h : LeavesNothing d m) (rls : Bool) {tenantId id : Uuid}
    (last : CleanedLast d m (.retry tenantId id)) : LeavesNothing d (m.retry rls tenantId id) := by
  rintro ⟨⟨row, member, here, deleted⟩, ended⟩
  have before : Cleaned d m := by
    rcases mem_updateSeen member with stored | ⟨old, stored, -, rfl⟩
    · exact ⟨⟨row, stored, here, deleted⟩, ended⟩
    · exact ⟨⟨old, stored, here, deleted⟩, ended⟩
  obtain ⟨rows, taken⟩ := h before
  refine ⟨rows, fun row member here => ?_⟩
  rcases mem_updateSeen member with stored | ⟨old, -, same, rfl⟩
  · exact taken row stored here
  · exact absurd before (last (same.symm.trans here))

theorem leavesNothing_delete (h : LeavesNothing d m) (rls : Bool) (tenantId id : Uuid) :
    LeavesNothing d { m with
      docs := m.updateSeen rls tenantId id (·.delete m.now), cleanups := m.cleanups ++ [⟨id, 0⟩] } := by
  rintro ⟨⟨row, member, here, deleted⟩, ended⟩
  have other : id ≠ d := ended ⟨id, 0⟩ (List.mem_append_right _ (.head _))
  have kept : ∀ row ∈ m.updateSeen rls tenantId id (·.delete m.now), row.id = d → row ∈ m.docs := by
    intro row member here
    rcases mem_updateSeen member with stored | ⟨old, -, same, rfl⟩
    · exact stored
    · exact absurd (same.symm.trans ((DocRow.delete_id m.now old).symm.trans here)) other
  obtain ⟨rows, taken⟩ := h ⟨⟨row, kept row member here, here, deleted⟩,
    fun c member => ended c (List.mem_append_left _ member)⟩
  exact ⟨rows, fun row member here => taken row (kept row member here) here⟩

theorem leavesNothing_cleanup (h : LeavesNothing d m) {i : Nat} (last : CleanedLast d m (.cleanup i answer))
    (succeeds : MilvusSucceeds m (.cleanup i answer)) (next : m.cleanup i answer = some m') : LeavesNothing d m' := by
  cases answer with
  | raises error done => exact succeeds.elim
  | returns vectors =>
      obtain ⟨c, here, rfl⟩ := Option.map_eq_some_iff.mp next
      rintro ⟨deleted, ended⟩
      by_cases same : c.docId = d
      · refine ⟨?_, last deleted ended⟩
        refine List.filter_eq_nil_iff.mpr fun row member ofDoc => ?_
        have other := of_decide_eq_true (List.mem_filter.mp member).2
        exact other ((of_decide_eq_true ofDoc).trans same.symm)
      · have before : ∀ c' ∈ m.cleanups, c'.docId ≠ d := by
          intro c' member
          obtain ⟨j, there⟩ := List.mem_iff_getElem?.mp member
          by_cases at' : j = i
          · subst at'
            obtain rfl := Option.some.inj (here.symm.trans there)
            exact same
          · exact ended c' (List.mem_eraseIdx_iff_getElem?.mpr ⟨j, at', there⟩)
        obtain ⟨rows, taken⟩ := h ⟨deleted, before⟩
        refine ⟨?_, taken⟩
        refine List.eq_nil_of_sublist_nil ?_
        exact rows ▸ List.filter_sublist.filter _

theorem leavesNothing_step {a : Act V} (h : LeavesNothing d m) (succeeds : MilvusSucceeds m a)
    (last : CleanedLast d m a) (next : m.step rls document a = some m') : LeavesNothing d m' := by
  cases a with
  | upload id tenantId ossPath =>
      obtain ⟨fresh, rfl⟩ := step_upload next
      exact leavesNothing_upload h fresh rfl
  | start w =>
      obtain rfl := step_start next
      exact h.congr rfl rfl rfl
  | stop w =>
      obtain rfl := Option.some.inj next
      exact h.congr rfl rfl rfl
  | poll w skipped pick =>
      obtain ⟨-, -, rfl⟩ := step_poll next
      cases pick <;> exact h.congr rfl rfl rfl
  | run w answer => exact leavesNothing_run h last next
  | retry tenantId id =>
      obtain rfl := Option.some.inj next
      exact leavesNothing_retry h rls last
  | delete tenantId id =>
      obtain rfl := Option.some.inj next
      exact leavesNothing_delete h rls tenantId id
  | cleanup i answer => exact leavesNothing_cleanup h last succeeds next
  | tick seconds =>
      obtain rfl := Option.some.inj next
      exact h.congr rfl rfl rfl

theorem leavesQuiet_of_leavesNothing {a : Act V} (h : LeavesNothing d m)
    (next : m.step rls document a = some m') : LeavesQuiet d m a := by
  cases a with
  | poll w skipped pick =>
      cases pick with
      | none => trivial
      | some row =>
          intro here quiet
          obtain ⟨-, ⟨member, pending, -⟩, -⟩ := step_poll next
          exact (h quiet.toCleaned).2 row member here pending
  | _ => trivial

end

/-- A deleted document leaves no rows and is not selected again if, after its last cleanup, no rows of it are added
and it is not reset, and if it is not pending when that cleanup ends. -/
theorem nothingLeft_of_cleanedLast (rls : Bool) (document : String → Text) (d : Uuid) (acts : List (Act V))
    (along : Along (Pipeline.step rls document) (fun m a => MilvusSucceeds m a ∧ CleanedLast d m a) .start acts) :
    Throughout (Pipeline.step rls document) (fun m => Quiet d m → m.rowsOf d = []) .start acts ∧
      Along (Pipeline.step rls document) (LeavesQuiet d) .start acts := by
  have start : LeavesNothing d (Pipeline.start (V := V)) := fun cleaned => nomatch cleaned.deleted
  constructor
  · refine (throughout_of_along ?_ start along).mono fun m h quiet => (h quiet.toCleaned).1
    exact fun m a m' h good next => leavesNothing_step h good.1 good.2 next
  · refine along_of_along (LeavesNothing d) ?_ ?_ start along
    · exact fun m a m' h _ next => leavesQuiet_of_leavesNothing h next
    · exact fun m a m' h good next => leavesNothing_step h good.1 good.2 next

def faqEmbedded : List (Act Rat) :=
  [.upload 7 1 "1/docs/7/faq.txt", .start 0,
    .poll 0 [] (some ⟨7, 1, "1/docs/7/faq.txt", .pending, none, none, none, 0⟩)] ++
  List.replicate 7 (.run 0 (.returns [1 / 2]))

theorem nothingLeft_of_cleanedLast_faq :
    Throughout (Pipeline.step false fun _ => "你好".toList) (fun m => Quiet 7 m → m.rowsOf 7 = []) .start
        (faqEmbedded ++ [.delete 1 7, .run 0 (.returns []), .cleanup 0 (.returns []), .run 0 (.returns [])]) ∧
      Along (Pipeline.step false fun _ => "你好".toList) (LeavesQuiet 7) .start
        (faqEmbedded ++ [.delete 1 7, .run 0 (.returns []), .cleanup 0 (.returns []), .run 0 (.returns [])]) :=
  nothingLeft_of_cleanedLast false _ 7 _ (by decide)

/-- The insert takes effect after the cleanup has ended. -/
def insertsAfterCleanup : List (Act Rat) :=
  faqEmbedded ++ [.delete 1 7, .cleanup 0 (.returns []), .run 0 (.returns []), .run 0 (.returns [])]

theorem insertsAfterCleanup_leavesRows :
    ¬ ∀ (rls : Bool) (document : String → Text) (d : Uuid) (acts : List (Act Rat)),
      Along (Pipeline.step rls document) MilvusSucceeds .start acts →
        Throughout (Pipeline.step rls document) (fun m => Quiet d m → m.rowsOf d = []) .start acts ∧
          Along (Pipeline.step rls document) (LeavesQuiet d) .start acts := by
  intro claim
  have quiet := (claim false (fun _ => "你好".toList) 7 insertsAfterCleanup (by decide)).1.last rfl
  have idle : Quiet 7 _ → False := fun ended => nomatch quiet ended
  refine idle ⟨by decide, fun w => ?_⟩
  cases w <;> exact nofun

end CuckooEcho.Knowledge
