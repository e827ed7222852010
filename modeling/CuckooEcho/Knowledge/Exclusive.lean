import CuckooEcho.Knowledge.Worker

namespace CuckooEcho.Knowledge
open Lib
variable {V : Type*}

/-! ## Exclusive processing -/

/-- No document is processed by two workers unless it was reset between their picks. -/
def Exclusive (m : Pipeline V) : Prop := ∀ w w' d, w ≠ w' →
  (m.workers w).docId = some d → (m.workers w').docId = some d → m.resetsAtPick w ≠ m.resetsAtPick w'

/-- The workers that have selected the document since its last reset have changed its status. -/
def SelectsUnclaimed (m : Pipeline V) : Act V → Prop
  | .poll _ _ (some row) => ∀ w, (m.workers w).docId = some row.id → m.resetsAtPick w = m.resets row.id →
      m.marked w = true
  | _ => True

/-- Once its worker has changed the status, the document is not pending until it is reset. -/
structure Tracked (m : Pipeline V) (w : Nat) (d : Uuid) : Prop where
  known : d ∈ m.docs.map (·.id)
  picked : m.resetsAtPick w ≤ m.resets d
  taken : m.marked w = true → m.resetsAtPick w = m.resets d → ∀ row ∈ m.docs, row.id = d → row.status ≠ .pending

structure Claims (m : Pipeline V) : Prop where
  exclusive : Exclusive m
  tracked : ∀ w d, (m.workers w).docId = some d → Tracked m w d

section
variable {rls : Bool} {document : String → Text} {m m' : Pipeline V} {w : Nat}

theorem claims_start : Claims (Pipeline.start (V := V)) :=
  ⟨fun _ _ _ _ => nofun, fun _ _ => nofun⟩

theorem Claims.congr (h : Claims m) (docs : m'.docs = m.docs) (workers : m'.workers = m.workers)
    (resets : m'.resets = m.resets) (resetsAtPick : m'.resetsAtPick = m.resetsAtPick)
    (marked : m'.marked = m.marked) : Claims m' := by
  cases m
  cases m'
  subst docs workers resets resetsAtPick marked
  exact ⟨h.exclusive, fun w d busy => ⟨(h.tracked w d busy).known, (h.tracked w d busy).picked,
    (h.tracked w d busy).taken⟩⟩

theorem claims_become (h : Claims m) {worker : Worker V}
    (keeps : ∀ d, worker.docId = some d → (m.workers w).docId = some d) : Claims (m.become w worker) := by
  have before : ∀ v d, ((m.become w worker).workers v).docId = some d → (m.workers v).docId = some d := by
    intro v d busy
    by_cases same : v = w
    · subst same
      simp only [Pipeline.become, Function.update_self] at busy
      exact keeps d busy
    · simpa only [Pipeline.become, Function.update_of_ne same] using busy
  exact ⟨fun v v' d other busy busy' => h.exclusive v v' d other (before v d busy) (before v' d busy'),
    fun v d busy => ⟨(h.tracked v d (before v d busy)).known, (h.tracked v d (before v d busy)).picked,
      (h.tracked v d (before v d busy)).taken⟩⟩

theorem claims_upload (h : Claims m) {row : DocRow} (fresh : row.id ∉ m.docs.map (·.id)) :
    Claims { m with docs := m.docs ++ [row] } := by
  refine ⟨h.exclusive, fun w d busy => ?_⟩
  obtain ⟨known, picked, taken⟩ := h.tracked w d busy
  refine ⟨?_, picked, fun marked since other member here => ?_⟩
  · rw [List.map_append]
    exact List.mem_append_left _ known
  · rcases List.mem_append.mp member with old | new
    · exact taken marked since other old here
    · obtain rfl := List.mem_singleton.mp new
      exact absurd (here ▸ known) fresh

theorem pick_self (w : Nat) (row : DocRow) : ((m.pick w row).workers w).docId = some row.id ∧
    (m.pick w row).resetsAtPick w = m.resets row.id ∧ (m.pick w row).marked w = false := by
  simp only [Pipeline.pick, Pipeline.become, Function.update_self, Worker.docId, and_self]

theorem pick_of_ne {v : Nat} (other : v ≠ w) (row : DocRow) : (m.pick w row).workers v = m.workers v ∧
    (m.pick w row).resetsAtPick v = m.resetsAtPick v ∧ (m.pick w row).marked v = m.marked v :=
  ⟨Function.update_of_ne other .., Function.update_of_ne other .., Function.update_of_ne other ..⟩

theorem claims_pick (h : Claims m) {row : DocRow} (member : row ∈ m.docs) (pending : row.status = .pending)
    (unclaimed : ∀ v, (m.workers v).docId = some row.id → m.resetsAtPick v = m.resets row.id → m.marked v = true) :
    Claims (m.pick w row) := by
  -- another worker's pick since the last reset would have changed the status
  have since : ∀ v, (m.workers v).docId = some row.id → m.resetsAtPick v ≠ m.resets row.id := by
    intro v busy same
    exact (h.tracked v row.id busy).taken (unclaimed v busy same) same row member rfl pending
  obtain ⟨picks, now, unmarked⟩ := pick_self (m := m) w row
  have apart : ∀ v d, v ≠ w → ((m.pick w row).workers w).docId = some d → ((m.pick w row).workers v).docId = some d →
      (m.pick w row).resetsAtPick w ≠ (m.pick w row).resetsAtPick v := by
    intro v d other busy busy'
    obtain ⟨still, before, -⟩ := pick_of_ne (m := m) other row
    obtain rfl := Option.some.inj (picks.symm.trans busy)
    rw [now, before]
    exact (since v (still ▸ busy')).symm
  constructor
  · intro v v' d other busy busy'
    by_cases here : v = w
    · subst here
      exact apart v' d other.symm busy busy'
    · by_cases here' : v' = w
      · subst here'
        exact (apart v d here busy' busy).symm
      · obtain ⟨still, before, -⟩ := pick_of_ne (m := m) here row
        obtain ⟨still', before', -⟩ := pick_of_ne (m := m) here' row
        rw [before, before']
        exact h.exclusive v v' d other (still ▸ busy) (still' ▸ busy')
  · intro v d busy
    by_cases here : v = w
    · subst here
      obtain rfl := Option.some.inj (picks.symm.trans busy)
      refine ⟨List.mem_map_of_mem member, now.le, fun marked => ?_⟩
      cases unmarked.symm.trans marked
    · obtain ⟨still, before, mark⟩ := pick_of_ne (m := m) here row
      obtain ⟨known, picked, taken⟩ := h.tracked v d (still ▸ busy)
      exact ⟨known, before ▸ picked, fun marked same => taken (mark ▸ marked) (before ▸ same)⟩

theorem claims_perform (h : Claims m) {job : Job} {stage : Stage V} {op : Operation V}
    (busy : (m.workers w).docId = some job.docId) (does : operation document job stage = some op) :
    Claims (m.perform w job.docId op) := by
  refine ⟨h.exclusive, fun v d busy' => ?_⟩
  obtain ⟨known, picked, taken⟩ := h.tracked v d busy'
  refine ⟨(perform_ids does job.docId).symm ▸ known, picked, fun marked since row member here => ?_⟩
  rcases mem_perform member with ⟨old, unchanged⟩ | ⟨set, old, status, -, -, rfl⟩
  · refine taken ?_ since row old here
    by_cases same : v = w
    · subst same
      obtain rfl := Option.some.inj (busy'.symm.trans busy)
      simpa only [Pipeline.perform, unchanged here, Option.isSome_none, Bool.false_eq_true, if_false] using marked
    · simp only [Pipeline.perform] at marked
      split at marked
      · rwa [Function.update_of_ne same] at marked
      · exact marked
  · exact (operation_status does status old).status

theorem claims_run (h : Claims m) {answer : Answer V} (next : m.run document w answer = some m') : Claims m' := by
  obtain ⟨job, stage, op, worker, embedded, busy, does, keeps, rfl⟩ := Pipeline.run_cases next
  have here : (m.workers w).docId = some job.docId := congrArg Worker.docId busy
  have goesOn : ∀ d, worker.docId = some d → (m.workers w).docId = some d := fun d also => keeps.docId also ▸ here
  split
  · have performed := claims_perform h here does
    exact (claims_become performed goesOn).congr rfl rfl rfl rfl rfl
  · exact (claims_become h goesOn).congr rfl rfl rfl rfl rfl

theorem retry_resets (rls : Bool) (tenantId id d : Uuid) :
    ((∃ row ∈ m.docs, row.id = id ∧ (rls = true → row.tenantId = tenantId)) ∧ d = id ∧
      (m.retry rls tenantId id).resets d = m.resets d + 1) ∨
    ((∀ row ∈ m.docs, row.id = d → ¬ (row.id = id ∧ (rls = true → row.tenantId = tenantId))) ∧
      (m.retry rls tenantId id).resets d = m.resets d) := by
  simp only [Pipeline.retry]
  split
  case isTrue found =>
    by_cases same : d = id
    · subst same
      exact Or.inl ⟨by simpa only [List.any_eq_true, decide_eq_true_eq] using found, rfl, Function.update_self ..⟩
    · exact Or.inr ⟨fun row _ here seen => same (here.symm.trans seen.1), Function.update_of_ne same ..⟩
  case isFalse missing =>
    simp only [List.any_eq_true, decide_eq_true_eq, not_exists, not_and] at missing
    exact Or.inr ⟨fun row member _ seen => missing row member seen.1 seen.2, rfl⟩

theorem claims_retry (h : Claims m) (rls : Bool) (tenantId id : Uuid) : Claims (m.retry rls tenantId id) := by
  refine ⟨h.exclusive, fun w d busy => ?_⟩
  obtain ⟨known, picked, taken⟩ := h.tracked w d busy
  have ids := retry_ids (m := m) rls tenantId id
  rcases retry_resets (m := m) rls tenantId id d with ⟨-, -, reset⟩ | ⟨unseen, same⟩
  · refine ⟨ids.symm ▸ known, reset ▸ Nat.le_succ_of_le picked, fun _ since => ?_⟩
    rw [reset] at since
    exact absurd since (Nat.lt_succ_of_le picked).ne
  · refine ⟨ids.symm ▸ known, same.symm ▸ picked, fun marked since row member here => ?_⟩
    obtain ⟨old, stored, rfl⟩ := List.mem_map.mp member
    have kept : old.id = d := by
      split at here <;> exact here
    rw [if_neg (unseen old stored kept)]
    exact taken marked (since.trans same) old stored kept

theorem claims_delete (h : Claims m) (rls : Bool) (tenantId id : Uuid) (cleanups : List Cleanup) :
    Claims { m with docs := m.updateSeen rls tenantId id (·.delete m.now), cleanups } := by
  refine ⟨h.exclusive, fun w d busy => ?_⟩
  obtain ⟨known, picked, taken⟩ := h.tracked w d busy
  refine ⟨(updateSeen_ids rls tenantId id (DocRow.delete_id m.now)).symm ▸ known, picked,
    fun marked since row member here => ?_⟩
  rcases mem_updateSeen member with stored | ⟨old, stored, -, rfl⟩
  · exact taken marked since row stored here
  · rw [DocRow.delete_status]
    exact taken marked since old stored ((DocRow.delete_id m.now old).symm.trans here)

theorem claims_step {a : Act V} (h : Claims m) (good : SelectsUnclaimed m a)
    (next : m.step rls document a = some m') : Claims m' := by
  cases a with
  | upload id tenantId ossPath =>
      obtain ⟨fresh, rfl⟩ := step_upload next
      exact claims_upload h fresh
  | start w =>
      obtain rfl := step_start next
      exact claims_become h nofun
  | stop w =>
      obtain rfl := Option.some.inj next
      exact claims_become h nofun
  | poll w skipped pick =>
      obtain ⟨-, selects, rfl⟩ := step_poll next
      cases pick with
      | none => exact h
      | some row => exact claims_pick h selects.1 selects.2.1 good
  | run w answer => exact claims_run h next
  | retry tenantId id =>
      obtain rfl := Option.some.inj next
      exact claims_retry h rls tenantId id
  | delete tenantId id =>
      obtain rfl := Option.some.inj next
      exact claims_delete h rls tenantId id _
  | cleanup i answer =>
      obtain ⟨collection, cleanups, rfl⟩ := step_cleanup next
      exact h.congr rfl rfl rfl rfl rfl
  | tick seconds =>
      obtain rfl := Option.some.inj next
      exact h.congr rfl rfl rfl rfl rfl

theorem selectsUnclaimed_of_exclusive {a : Act V} (next : m.step rls document a = some m')
    (exclusive : Exclusive m') : SelectsUnclaimed m a := by
  cases a with
  | poll w skipped pick =>
      cases pick with
      | none => trivial
      | some row =>
          intro v busy same
          obtain ⟨idle, -, rfl⟩ := step_poll next
          have other : v ≠ w := by
            rintro rfl
            rw [idle] at busy
            cases busy
          obtain ⟨picks, now, -⟩ := pick_self (m := m) w row
          obtain ⟨still, before, -⟩ := pick_of_ne (m := m) other row
          refine absurd ?_ (exclusive v w row.id other (still ▸ busy) picks)
          exact before.trans (same.trans now.symm)
  | _ => trivial

end

/-- Processing is exclusive in exactly the runs in which no worker selects a document that another one has selected
since its last reset without having changed its status. -/
theorem exclusive_iff_selectsUnclaimed (rls : Bool) (document : String → Text) (acts : List (Act V)) :
    Throughout (Pipeline.step rls document) Exclusive .start acts ↔
      Along (Pipeline.step rls document) SelectsUnclaimed .start acts :=
  throughout_iff_along_any Claims (fun _ h => h.exclusive) (fun _ _ _ h good next => claims_step h good next)
    (fun _ _ _ _ next exclusive => selectsUnclaimed_of_exclusive next exclusive) claims_start

def faq : DocRow := ⟨7, 1, "1/docs/7/faq.txt", .pending, none, none, none, 0⟩

/-- The first worker's lock on the row ends with its statement, before the worker changes the status. -/
def bothSelect : List (Act Rat) :=
  [.upload 7 1 "1/docs/7/faq.txt", .start 0, .start 1, .poll 0 [] (some faq), .poll 1 [] (some faq)]

theorem bothSelect_notExclusive :
    ¬ ∀ (rls : Bool) (document : String → Text) (acts : List (Act Rat)),
      Throughout (Pipeline.step rls document) Exclusive .start acts := by
  intro claim
  have exclusive := (claim false (fun _ => "你好".toList) bothSelect).last rfl
  exact exclusive 0 1 7 (by decide) rfl rfl rfl

end CuckooEcho.Knowledge
