import CuckooEcho.Knowledge.Coverage
import CuckooEcho.Knowledge.Worker
import CuckooEcho.Lib.Inevitable
import Mathlib.Algebra.Order.BigOperators.Group.Finset
import Mathlib.Data.List.MinMax

namespace CuckooEcho.Knowledge
open Lib

/-! ## Documents come to an end -/

section
variable {V : Type*}

/-- No worker stops: none is shut down, no `SELECT` of its poll loop raises, and no update in the handler of an
attempt's exception does. -/
def StaysUp (m : Pipeline V) : Act V → Prop
  | .stop _ => False
  | .run w (.raises _ _) => ∀ job error, m.workers w ≠ .processing job (.raised error)
  | _ => True

/-- A worker picks a document or goes on with the one that it has. -/
def Works (m : Pipeline V) : Act V → Prop
  | .poll _ _ pick => pick ≠ none
  | .run w answer => StaysUp m (.run w answer)
  | _ => False

/-- Every document is completed or failed, and every worker waits for more. -/
structure Settled (before after : Pipeline V) : Prop where
  ids : after.docs.map (·.id) = before.docs.map (·.id)
  status : ∀ row ∈ after.docs, row.status = .completed ∨ row.status = .failed
  idle : ∀ w, after.workers w = .polling ∨ after.workers w = .stopped

/-! ### What an attempt has ahead of it -/

def Stage.ahead : Stage V → Nat
  | .parsing => 10
  | .parse => 9
  | .chunking _ => 8
  | .split _ => 7
  | .embedding _ => 6
  | .embed _ => 5
  | .storing .. => 4
  | .insert .. => 3
  | .complete _ => 2
  | .raised _ => 1

def work (job : Job) (stage : Stage V) : Nat := 11 * (maxRetries - job.attempt) + stage.ahead

/-- How a worker goes on after a stage. -/
inductive Follows (job : Job) (stage : Stage V) : Worker V → Prop
  | idle : Follows job stage .polling
  | later (job' : Job) (stage' : Stage V) (same : job'.docId = job.docId) (less : work job' stage' < work job stage) :
      Follows job stage (.processing job' stage')

variable {document : String → Text} {job : Job} {stage : Stage V} {op : Operation V} {m m' : Pipeline V} {w : Nat}
  {answer : Answer V}

theorem Stage.ahead_bounds (stage : Stage V) : 1 ≤ stage.ahead ∧ stage.ahead ≤ 10 := by
  cases stage <;> simp [ahead]

theorem work_le (job : Job) (stage : Stage V) : work job stage ≤ 43 := by
  have bound := stage.ahead_bounds.2
  unfold work maxRetries
  omega

theorem follows_of_ahead {later : Stage V} (less : later.ahead < stage.ahead) :
    Follows job stage (.processing job later) :=
  .later job later rfl (Nat.add_lt_add_left less _)

theorem next_follows (does : operation document job stage = some op) (vectors : List V) :
    Follows job stage (op.next vectors) := by
  cases stage with
  | split text =>
      obtain ⟨chunks, -, rfl⟩ := Option.map_eq_some_iff.mp does
      exact follows_of_ahead (by simp [Stage.ahead])
  | raised error =>
      simp only [operation, Option.some.injEq] at does
      subst does
      split
      case isTrue again =>
        refine .later _ _ rfl ?_
        simp only [work, Stage.ahead, maxRetries] at again ⊢
        omega
      case isFalse => exact .idle
  | complete chunkCount =>
      obtain rfl := Option.some.inj does
      exact .idle
  | _ =>
      obtain rfl := Option.some.inj does
      exact follows_of_ahead (by simp [Stage.ahead])

theorem failed_eq (does : operation document job stage = some op) (handled : ∀ error, stage ≠ .raised error)
    (error : String) : op.failed error = .processing job (.raised error) := by
  cases stage with
  | raised message => exact absurd rfl (handled message)
  | split text =>
      obtain ⟨chunks, -, rfl⟩ := Option.map_eq_some_iff.mp does
      rfl
  | _ =>
      obtain rfl := Option.some.inj does
      rfl

theorem failed_follows (does : operation document job stage = some op) (handled : ∀ error, stage ≠ .raised error)
    (error : String) : Follows job stage (op.failed error) := by
  rw [failed_eq does handled]
  apply follows_of_ahead
  cases stage with
  | raised message => exact absurd rfl (handled message)
  | _ => simp [Stage.ahead]

/-- A worker that is done with a document has marked it as completed or failed. -/
theorem next_polling (does : operation document job stage = some op) {vectors : List V}
    (idle : op.next vectors = .polling) :
    ∃ set, op.status = some set ∧ ∀ row, (set row).status = .completed ∨ (set row).status = .failed := by
  cases stage with
  | split text =>
      obtain ⟨chunks, -, rfl⟩ := Option.map_eq_some_iff.mp does
      cases idle
  | raised error =>
      simp only [operation, Option.some.injEq] at does
      subst does
      split at idle
      case isTrue => cases idle
      case isFalse last => exact ⟨_, by simp only [if_neg last]; rfl, fun _ => Or.inr rfl⟩
  | complete chunkCount =>
      obtain rfl := Option.some.inj does
      exact ⟨_, rfl, fun _ => Or.inl rfl⟩
  | _ =>
      obtain rfl := Option.some.inj does
      cases idle

/-- What an operation of a worker that goes on does to the documents. -/
inductive Runs (m : Pipeline V) (w : Nat) (m' : Pipeline V) : Prop
  | silent (job job' : Job) (stage stage' : Stage V) (busy : m.workers w = .processing job stage)
      (same : job'.docId = job.docId) (less : work job' stage' < work job stage) (docs : m'.docs = m.docs)
      (workers : m'.workers = Function.update m.workers w (.processing job' stage'))
  | writes (job : Job) (stage : Stage V) (worker : Worker V) (busy : m.workers w = .processing job stage)
      (follows : Follows job stage worker) (set : DocRow → DocRow) (advances : ∀ row, Advanced row (set row))
      (ends : worker = .polling → ∀ row, (set row).status = .completed ∨ (set row).status = .failed)
      (docs : m'.docs = updateDoc m.docs job.docId set) (workers : m'.workers = Function.update m.workers w worker)

theorem perform_docs_of_none (quiet : op.status = none) (w : Nat) (id : Uuid) : (m.perform w id op).docs = m.docs := by
  simp only [Pipeline.perform, quiet, Option.elim_none]

theorem perform_docs_of_some {set : DocRow → DocRow} (marks : op.status = some set) (w : Nat) (id : Uuid) :
    (m.perform w id op).docs = updateDoc m.docs id set := by
  simp only [Pipeline.perform, marks, Option.elim_some]

theorem runs_of_returns (busy : m.workers w = .processing job stage) (does : operation document job stage = some op)
    (vectors : List V) :
    Runs m w (((m.perform w job.docId op).embed job.docId stage vectors).become w (op.next vectors)) := by
  have docs : (((m.perform w job.docId op).embed job.docId stage vectors).become w (op.next vectors)).docs =
      (m.perform w job.docId op).docs := by cases stage <;> rfl
  have workers : (((m.perform w job.docId op).embed job.docId stage vectors).become w (op.next vectors)).workers =
      Function.update m.workers w (op.next vectors) := by cases stage <;> rfl
  have follows := next_follows does vectors
  cases status : op.status with
  | none =>
      cases next : op.next vectors with
      | stopped =>
          rw [next] at follows
          cases follows
      | polling =>
          obtain ⟨set, marks, -⟩ := next_polling does next
          cases status.symm.trans marks
      | processing job' stage' =>
          rw [next] at follows workers
          obtain ⟨⟩ | ⟨_, _, same, less⟩ := follows
          exact .silent job job' stage stage' busy same less (docs.trans (perform_docs_of_none status w _))
            (next ▸ workers)
  | some set =>
      refine .writes job stage (op.next vectors) busy follows set (operation_status does status) (fun idle => ?_)
        (docs.trans (perform_docs_of_some status w _)) workers
      obtain ⟨set', marks, ends⟩ := next_polling does idle
      obtain rfl := Option.some.inj (status.symm.trans marks)
      exact ends

theorem runs_of_raises (busy : m.workers w = .processing job stage) (does : operation document job stage = some op)
    (handled : ∀ error, stage ≠ .raised error) (error : String) (done : Bool) :
    Runs m w ((if done then m.perform w job.docId op else m).become w (op.failed error)) := by
  have follows := failed_follows does handled error
  have failed := failed_eq does handled error
  rw [failed] at follows
  rw [failed]
  have silent (docs : (if done then m.perform w job.docId op else m).docs = m.docs)
      (workers : (if done then m.perform w job.docId op else m).workers = m.workers) :
      Runs m w ((if done then m.perform w job.docId op else m).become w (.processing job (.raised error))) := by
    obtain ⟨⟩ | ⟨_, _, same, less⟩ := follows
    exact .silent job job stage _ busy same less docs (congrArg (Function.update · w _) workers)
  cases done with
  | false => exact silent rfl rfl
  | true =>
      cases status : op.status with
      | none => exact silent (perform_docs_of_none status w _) rfl
      | some set =>
          exact .writes job stage _ busy follows set (operation_status does status) nofun
            (perform_docs_of_some status w _) rfl

theorem runs_of_run (next : m.run document w answer = some m') (up : StaysUp m (.run w answer)) : Runs m w m' := by
  unfold Pipeline.run at next
  split at next
  case h_2 => cases next
  case h_1 job stage busy =>
    obtain ⟨op, does, rfl⟩ := Option.map_eq_some_iff.mp next
    cases answer with
    | returns vectors => exact runs_of_returns busy does vectors
    | raises error done =>
        refine runs_of_raises busy does (fun message here => ?_) error done
        exact up job message (here ▸ busy)

/-! ### Every step lowers the measure -/

def pendingIn (docs : List DocRow) (id : Uuid) : Bool := docs.any fun row => row.id = id ∧ row.status = .pending

/-- A worker with a document that is still pending can only go on by marking it. -/
def Worker.rank (pending : Uuid → Bool) : Worker V → Nat
  | .stopped => 0
  | .polling => 44
  | .processing job stage => (if pending job.docId then 0 else 45) + work job stage

def Pipeline.ahead (n : Nat) (m : Pipeline V) : Nat × Nat :=
  (m.docs.countP fun row => row.status = .pending, ∑ w ∈ Finset.range n, (m.workers w).rank (pendingIn m.docs))

theorem sum_update_lt {n : Nat} {workers : Nat → Worker V} {worker : Worker V} {pending : Uuid → Bool} (inside : w < n)
    (less : worker.rank pending < (workers w).rank pending) :
    ∑ v ∈ Finset.range n, (Function.update workers w worker v).rank pending <
      ∑ v ∈ Finset.range n, (workers v).rank pending := by
  apply Finset.sum_lt_sum
  · intro v _
    by_cases same : v = w
    · subst same
      simpa using less.le
    · simp [same]
  · exact ⟨w, Finset.mem_range.mpr inside, by simpa using less⟩

theorem updateDoc_cons (row : DocRow) (docs : List DocRow) (id : Uuid) (set : DocRow → DocRow) :
    updateDoc (row :: docs) id set = (if row.id = id then set row else row) :: updateDoc docs id set := rfl

theorem countP_updateDoc (docs : List DocRow) (id : Uuid) {set : DocRow → DocRow}
    (advances : ∀ row, Advanced row (set row)) :
    (updateDoc docs id set).countP (fun row => row.status = .pending) +
      docs.countP (fun row => row.id = id ∧ row.status = .pending) = docs.countP fun row => row.status = .pending := by
  induction docs with
  | nil => rfl
  | cons row docs ih =>
      have left := (advances row).status
      rw [updateDoc_cons, List.countP_cons, List.countP_cons, List.countP_cons]
      by_cases here : row.id = id
      · simp only [here, if_true, true_and, decide_eq_true_eq, left, if_false]
        omega
      · simp only [here, if_false, false_and, decide_false, Bool.false_eq_true]
        omega

theorem pendingIn_eq_false {docs : List DocRow} {id : Uuid} :
    pendingIn docs id = false ↔ docs.countP (fun row => row.id = id ∧ row.status = .pending) = 0 := by
  simp [pendingIn, List.countP_eq_zero]

theorem pendingIn_cons (row : DocRow) (docs : List DocRow) (id : Uuid) :
    pendingIn (row :: docs) id = (decide (row.id = id ∧ row.status = .pending) || pendingIn docs id) := rfl

theorem pendingIn_updateDoc {docs : List DocRow} {id : Uuid} {set : DocRow → DocRow}
    (advances : ∀ row, Advanced row (set row)) (done : pendingIn docs id = false) :
    pendingIn (updateDoc docs id set) = pendingIn docs := by
  funext other
  induction docs with
  | nil => rfl
  | cons row docs ih =>
      rw [pendingIn_cons, Bool.or_eq_false_iff, decide_eq_false_iff_not] at done
      rw [updateDoc_cons, pendingIn_cons, pendingIn_cons, ih done.2]
      by_cases here : row.id = id
      · have before : row.status ≠ .pending := fun still => done.1 ⟨here, still⟩
        simp [here, before, (advances row).status]
      · simp [here]

theorem lower_of_rank {n : Nat} {worker : Worker V} (inside : w < n) (docs : m'.docs = m.docs)
    (workers : m'.workers = Function.update m.workers w worker)
    (less : worker.rank (pendingIn m.docs) < (m.workers w).rank (pendingIn m.docs)) :
    Prod.Lex (· < ·) (· < ·) (m'.ahead n) (m.ahead n) := by
  unfold Pipeline.ahead
  rw [docs, workers]
  exact .right _ (sum_update_lt inside less)

theorem Runs.lower {n : Nat} (runs : Runs m w m') (inside : w < n) :
    Prod.Lex (· < ·) (· < ·) (m'.ahead n) (m.ahead n) := by
  cases runs with
  | silent job job' stage stage' busy same less docs workers =>
      refine lower_of_rank inside docs workers ?_
      simp only [busy, Worker.rank, same]
      exact Nat.add_lt_add_left less _
  | writes job stage worker busy follows set advances ends docs workers =>
      have counted := countP_updateDoc m.docs job.docId advances
      cases pending : pendingIn m.docs job.docId with
      | true =>
          have fewer : 0 < m.docs.countP fun row => row.id = job.docId ∧ row.status = .pending := by
            apply Nat.pos_of_ne_zero
            intro zero
            rw [pendingIn_eq_false.mpr zero] at pending
            cases pending
          refine .left _ _ ?_
          rw [docs]
          omega
      | false =>
          have kept := pendingIn_updateDoc advances pending
          have none_left := pendingIn_eq_false.mp pending
          have less : worker.rank (pendingIn m.docs) < (m.workers w).rank (pendingIn m.docs) := by
            rw [busy]
            cases follows with
            | idle =>
                simp only [Worker.rank, pending, Bool.false_eq_true, if_false]
                omega
            | later job' stage' same less =>
                simp only [Worker.rank, same]
                exact Nat.add_lt_add_left less _
          unfold Pipeline.ahead
          rw [docs, workers, kept, show (updateDoc m.docs job.docId set).countP (fun row => row.status = .pending) =
            m.docs.countP fun row => row.status = .pending by omega]
          exact .right _ (sum_update_lt inside less)

theorem pick_lower {n : Nat} {row : DocRow} (inside : w < n) (polling : m.workers w = .polling) (member : row ∈ m.docs)
    (pending : row.status = .pending) : Prod.Lex (· < ·) (· < ·) ((m.pick w row).ahead n) (m.ahead n) := by
  refine lower_of_rank inside rfl rfl ?_
  have here : pendingIn m.docs row.id = true :=
    List.any_eq_true.mpr ⟨row, member, decide_eq_true ⟨rfl, pending⟩⟩
  have short := work_le ⟨row.id, row.tenantId, row.ossPath, 1⟩ (.parsing : Stage V)
  simp only [polling, Worker.rank, here, if_true]
  omega

/-! ### A document in work has a worker -/

/-- Each document in work is in the hands of a worker. -/
def Attended (m : Pipeline V) : Prop :=
  ∀ row ∈ m.docs, row.status = .processing → ∃ w, (m.workers w).docId = some row.id

theorem attended_start : Attended (Pipeline.start (V := V)) := nofun

theorem Attended.docs (h : Attended m) (workers : m'.workers = m.workers)
    (kept : ∀ row ∈ m'.docs, row.status = .processing → ∃ old ∈ m.docs, old.id = row.id ∧ old.status = .processing) :
    Attended m' := by
  intro row member busy
  obtain ⟨old, before, same, still⟩ := kept row member busy
  rw [workers, ← same]
  exact h old before still

theorem Attended.update (h : Attended m) {worker : Worker V} (workers : m'.workers = Function.update m.workers w worker)
    (kept : ∀ row ∈ m'.docs, row.status = .processing → worker.docId = some row.id ∨
      (m.workers w).docId ≠ some row.id ∧ ∃ old ∈ m.docs, old.id = row.id ∧ old.status = .processing) :
    Attended m' := by
  intro row member busy
  rw [workers]
  rcases kept row member busy with here | ⟨apart, old, before, same, still⟩
  · exact ⟨w, by rwa [Function.update_self]⟩
  · obtain ⟨v, holds⟩ := h old before still
    rw [same] at holds
    have other : v ≠ w := by
      rintro rfl
      exact apart holds
    exact ⟨v, by rwa [Function.update_of_ne other]⟩

theorem Attended.runs (h : Attended m) (runs : Runs m w m') : Attended m' := by
  cases runs with
  | silent job job' stage stage' busy same less docs workers =>
      refine h.update workers fun row member processing => ?_
      by_cases own : row.id = job.docId
      · exact Or.inl (by rw [Worker.docId, same, own])
      · refine Or.inr ⟨?_, row, docs ▸ member, rfl, processing⟩
        rw [busy]
        exact fun here => own (Option.some.inj here).symm
  | writes job stage worker busy follows set advances ends docs workers =>
      refine h.update workers fun row member processing => ?_
      rw [docs] at member
      obtain ⟨old, before, rfl⟩ := List.mem_map.mp member
      split at processing
      case isTrue own =>
        have sameId : (set old).id = job.docId := (advances old).id.trans own
        rw [if_pos own, sameId]
        cases follows with
        | idle => rcases ends rfl old with done | done <;> simp [done] at processing
        | later job' stage' same less => exact Or.inl (congrArg some same)
      case isFalse other =>
        rw [if_neg other]
        refine Or.inr ⟨?_, old, before, rfl, processing⟩
        rw [busy]
        exact fun here => other (Option.some.inj here).symm

theorem attended_updateSeen (h : Attended m) (rls : Bool) (tenantId id : Uuid) {set : DocRow → DocRow}
    (ids : ∀ row, (set row).id = row.id) (kept : ∀ row, (set row).status = .processing → row.status = .processing)
    (workers : m'.workers = m.workers) (docs : m'.docs = m.updateSeen rls tenantId id set) : Attended m' := by
  refine h.docs workers fun row member processing => ?_
  rw [docs] at member
  rcases mem_updateSeen member with here | ⟨old, before, -, rfl⟩
  · exact ⟨row, here, rfl, processing⟩
  · exact ⟨old, before, (ids old).symm, kept old processing⟩

theorem Attended.step {rls : Bool} {a : Act V} (h : Attended m) (up : StaysUp m a)
    (next : m.step rls document a = some m') : Attended m' := by
  have same (docs : m'.docs = m.docs) (workers : m'.workers = m.workers) : Attended m' :=
    h.docs workers fun row member processing => ⟨row, docs ▸ member, rfl, processing⟩
  have takes {v : Nat} {worker : Worker V} (idle : (m.workers v).docId = none) (docs : m'.docs = m.docs)
      (workers : m'.workers = Function.update m.workers v worker) : Attended m' :=
    h.update workers fun row member processing => Or.inr ⟨by simp [idle], row, docs ▸ member, rfl, processing⟩
  cases a with
  | upload id tenantId ossPath =>
      obtain ⟨-, rfl⟩ := step_upload next
      refine h.docs rfl fun row member processing => ?_
      rcases List.mem_append.mp member with before | new
      · exact ⟨row, before, rfl, processing⟩
      · rw [List.mem_singleton.mp new] at processing
        cases processing
  | start v =>
      obtain rfl := step_start next
      have idle : (m.workers v).docId = none := by
        simp only [Pipeline.step] at next
        split at next
        case h_1 stopped => rw [stopped]; rfl
        case h_2 => cases next
      exact takes idle rfl rfl
  | poll v skipped pick =>
      obtain ⟨polling, -, rfl⟩ := step_poll next
      cases pick with
      | none => exact h
      | some row => exact takes (by rw [polling]; rfl) rfl rfl
  | stop v => exact up.elim
  | run v answer => exact h.runs (runs_of_run next up)
  | retry tenantId id =>
      obtain rfl := Option.some.inj next
      have pending (row : DocRow) : row.reset.status ≠ .processing := by
        intro processing
        cases processing
      exact attended_updateSeen h rls tenantId id (fun row => show row.reset.id = row.id from rfl)
        (fun row processing => absurd processing (pending row)) rfl rfl
  | delete tenantId id =>
      obtain rfl := Option.some.inj next
      exact attended_updateSeen h rls tenantId id (DocRow.delete_id m.now)
        (fun row processing => (DocRow.delete_status m.now row).symm.trans processing) rfl rfl
  | cleanup i answer =>
      obtain ⟨collection, cleanups, rfl⟩ := step_cleanup next
      exact same rfl rfl
  | tick seconds =>
      obtain rfl := Option.some.inj next
      exact same rfl rfl

/-! ### The workers come to an end -/

theorem splitText_returns (text : Text) : ∃ chunks, splitText {} text = some chunks := by
  obtain ⟨chunks, split, covers⟩ := recursiveSplit_covers (o := {}) (by decide) content_separator text.strip
  obtain ⟨out, returned, -⟩ := splitText_spec text split covers
  exact ⟨out, returned⟩

theorem operation_isSome (document : String → Text) (job : Job) (stage : Stage V) :
    ∃ op, operation document job stage = some op := by
  cases stage with
  | split text =>
      obtain ⟨chunks, split⟩ := splitText_returns text
      exact ⟨_, by rw [operation, split]; rfl⟩
  | _ => exact ⟨_, rfl⟩

/-- What the workers keep, of the documents and of themselves, from a state that they start in. -/
structure Working (n : Nat) (before m : Pipeline V) : Prop where
  attended : Attended m
  stopped : ∀ w, n ≤ w → m.workers w = .stopped
  up : ∃ w, m.workers w ≠ .stopped
  ids : m.docs.map (·.id) = before.docs.map (·.id)

theorem updateDoc_ids_of_advanced {docs : List DocRow} {set : DocRow → DocRow}
    (advances : ∀ row, Advanced row (set row)) (id : Uuid) : (updateDoc docs id set).map (·.id) = docs.map (·.id) :=
  updateDoc_ids id fun row => (advances row).id

theorem Follows.up {worker : Worker V} (follows : Follows job stage worker) : worker ≠ .stopped := by
  cases follows <;> nofun

theorem Working.goes_on {n : Nat} {before : Pipeline V} (h : Working n before m) {a : Act V} (works : Works m a)
    (next : m.step false document a = some m') :
    Working n before m' ∧ Prod.Lex (· < ·) (· < ·) (m'.ahead n) (m.ahead n) := by
  have inside {v : Nat} (busy : m.workers v ≠ .stopped) : v < n := by
    by_contra beyond
    exact busy (h.stopped v (not_lt.mp beyond))
  have kept {v : Nat} {worker : Worker V} (attended : Attended m') (busy : m.workers v ≠ .stopped)
      (workers : m'.workers = Function.update m.workers v worker) (up : worker ≠ .stopped)
      (ids : m'.docs.map (·.id) = m.docs.map (·.id)) : Working n before m' := by
    refine ⟨attended, fun u beyond => ?_, ⟨v, by rwa [workers, Function.update_self]⟩, ids.trans h.ids⟩
    have other : u ≠ v := by
      rintro rfl
      exact absurd (inside busy) (not_lt.mpr beyond)
    rw [workers, Function.update_of_ne other]
    exact h.stopped u beyond
  cases a with
  | poll v skipped pick =>
      have attended := h.attended.step (a := .poll v skipped pick) trivial next
      obtain ⟨polling, selects, rfl⟩ := step_poll next
      have busy : m.workers v ≠ .stopped := by simp [polling]
      cases pick with
      | none => exact absurd rfl works
      | some row => exact ⟨kept attended busy rfl nofun rfl, pick_lower (inside busy) polling selects.1 selects.2.1⟩
  | run v answer =>
      have runs := runs_of_run next works
      have attended := h.attended.runs runs
      cases runs with
      | silent job job' stage stage' holds same less docs workers =>
          have busy : m.workers v ≠ .stopped := by simp [holds]
          exact ⟨kept attended busy workers nofun (by rw [docs]),
            Runs.lower (.silent job job' stage stage' holds same less docs workers) (inside busy)⟩
      | writes job stage worker holds follows set advances ends docs workers =>
          have busy : m.workers v ≠ .stopped := by simp [holds]
          exact ⟨kept attended busy workers follows.up (by rw [docs, updateDoc_ids_of_advanced advances]),
            Runs.lower (.writes job stage worker holds follows set advances ends docs workers) (inside busy)⟩
  | upload | start | stop | retry | delete | cleanup | tick => exact works.elim

/-- The earliest of the documents that are pending can be picked. -/
theorem exists_selects {docs : List DocRow} {row : DocRow} (member : row ∈ docs) (pending : row.status = .pending) :
    ∃ first, Selects docs [] (some first) := by
  have here : row ∈ docs.filter fun row => row.status = .pending :=
    List.mem_filter.mpr ⟨member, decide_eq_true pending⟩
  cases first : List.argmin DocRow.createdAt (docs.filter fun row => row.status = .pending) with
  | none =>
      rw [List.argmin_eq_none.mp first] at here
      exact absurd here List.not_mem_nil
  | some earliest =>
      obtain ⟨stored, waits⟩ := List.mem_filter.mp (List.argmin_mem first)
      refine ⟨earliest, stored, of_decide_eq_true waits, List.not_mem_nil, fun other there pending _ => ?_⟩
      exact List.le_of_mem_argmin (List.mem_filter.mpr ⟨there, decide_eq_true pending⟩) first

theorem Working.settled {n : Nat} {before : Pipeline V} (h : Working n before m)
    (done : ∀ a, Works m a → m.step false document a = none) : Settled before m := by
  have idle (w : Nat) : m.workers w = .polling ∨ m.workers w = .stopped := by
    cases holds : m.workers w with
    | stopped => exact Or.inr rfl
    | polling => exact Or.inl rfl
    | processing job stage =>
        obtain ⟨op, does⟩ := operation_isSome document job stage
        have stuck := done (.run w (.returns [])) trivial
        simp [Pipeline.step, Pipeline.run, holds, does] at stuck
  obtain ⟨w, up⟩ := h.up
  have polling := (idle w).resolve_right up
  refine ⟨h.ids, fun row member => ?_, idle⟩
  cases status : row.status with
  | completed => exact Or.inl rfl
  | failed => exact Or.inr rfl
  | pending =>
      obtain ⟨first, selects⟩ := exists_selects member status
      have stuck := done (.poll w [] (some first)) (Option.some_ne_none first)
      simp [Pipeline.step, polling, selects] at stuck
  | processing =>
      obtain ⟨v, holds⟩ := h.attended row member status
      rcases idle v with here | here <;> simp [here, Worker.docId] at holds

/-! ### Only a reset helps a document that its worker has left -/

/-- Documents have ids of their own, and only finitely many workers have been started. -/
structure Regular (m : Pipeline V) : Prop where
  keyed : (m.docs.map (·.id)).Nodup
  finite : ∃ n, ∀ w, n ≤ w → m.workers w = .stopped

theorem regular_start : Regular (Pipeline.start (V := V)) := ⟨List.nodup_nil, 0, fun _ _ => rfl⟩

theorem Regular.docs (h : Regular m) (ids : m'.docs.map (·.id) = m.docs.map (·.id)) (workers : m'.workers = m.workers) :
    Regular m' := ⟨ids ▸ h.keyed, workers ▸ h.finite⟩

theorem Regular.update (h : Regular m) {worker : Worker V} (ids : m'.docs.map (·.id) = m.docs.map (·.id))
    (workers : m'.workers = Function.update m.workers w worker) : Regular m' := by
  obtain ⟨n, stopped⟩ := h.finite
  refine ⟨ids ▸ h.keyed, max n (w + 1), fun v beyond => ?_⟩
  have other : v ≠ w := by omega
  rw [workers, Function.update_of_ne other]
  exact stopped v (le_trans (le_max_left _ _) beyond)

theorem Regular.step {rls : Bool} {a : Act V} (h : Regular m) (next : m.step rls document a = some m') :
    Regular m' := by
  cases a with
  | upload id tenantId ossPath =>
      obtain ⟨fresh, rfl⟩ := step_upload next
      refine ⟨?_, h.finite⟩
      rw [List.map_append, List.map_singleton, ← List.concat_eq_append]
      exact h.keyed.concat fresh
  | start v =>
      obtain rfl := step_start next
      exact h.update rfl rfl
  | poll v skipped pick =>
      obtain ⟨-, -, rfl⟩ := step_poll next
      cases pick with
      | none => exact h
      | some row => exact h.update rfl rfl
  | stop v =>
      obtain rfl := Option.some.inj next
      exact h.update rfl rfl
  | run v answer =>
      obtain ⟨job, stage, op, worker, embedded, -, does, -, rfl⟩ := Pipeline.run_cases next
      refine h.update ?_ rfl
      cases answer.lands with
      | true => exact perform_ids (w := v) does job.docId
      | false => rfl
  | retry tenantId id =>
      obtain rfl := Option.some.inj next
      exact h.docs (retry_ids rls tenantId id) rfl
  | delete tenantId id =>
      obtain rfl := Option.some.inj next
      exact h.docs (updateSeen_ids rls tenantId id (DocRow.delete_id m.now)) rfl
  | cleanup i answer =>
      obtain ⟨collection, cleanups, rfl⟩ := step_cleanup next
      exact h.docs rfl rfl
  | tick seconds =>
      obtain rfl := Option.some.inj next
      exact h.docs rfl rfl

/-- The document is in work, but in nobody's hands. -/
structure Left (d : Uuid) (m : Pipeline V) : Prop where
  keyed : (m.docs.map (·.id)).Nodup
  processing : ∃ row ∈ m.docs, row.id = d ∧ row.status = .processing
  unheld : ∀ w, (m.workers w).docId ≠ some d

theorem Left.update {d : Uuid} (h : Left d m) {worker : Worker V} (ids : m'.docs.map (·.id) = m.docs.map (·.id))
    (rows : ∀ row ∈ m.docs, row.id = d → row ∈ m'.docs) (workers : m'.workers = Function.update m.workers w worker)
    (apart : worker.docId ≠ some d) : Left d m' := by
  obtain ⟨row, member, own, processing⟩ := h.processing
  refine ⟨ids ▸ h.keyed, ⟨row, rows row member own, own, processing⟩, fun v => ?_⟩
  rw [workers]
  by_cases same : v = w
  · subst same
    rwa [Function.update_self]
  · rw [Function.update_of_ne same]
    exact h.unheld v

theorem Left.goes_on {d : Uuid} (h : Left d m) {a : Act V} (works : Works m a)
    (next : m.step false document a = some m') : Left d m' := by
  cases a with
  | poll v skipped pick =>
      obtain ⟨-, selects, rfl⟩ := step_poll next
      cases pick with
      | none => exact h
      | some row =>
          refine h.update rfl (fun _ member _ => member) rfl fun picked => ?_
          obtain ⟨other, member, own, processing⟩ := h.processing
          have same : other = row :=
            List.inj_on_of_nodup_map h.keyed member selects.1 (own.trans (Option.some.inj picked).symm)
          rw [same, selects.2.1] at processing
          cases processing
  | run v answer =>
      have held {job : Job} {stage : Stage V} (holds : m.workers v = .processing job stage) : job.docId ≠ d := by
        have apart := h.unheld v
        rw [holds] at apart
        exact fun same => apart (congrArg some same)
      cases runs_of_run next works with
      | silent job job' stage stage' holds same less docs workers =>
          refine h.update (by rw [docs]) (fun _ member _ => docs ▸ member) workers fun here => held holds ?_
          exact same.symm.trans (Option.some.inj here)
      | writes job stage worker holds follows set advances ends docs workers =>
          refine h.update (by rw [docs, updateDoc_ids_of_advanced advances]) (fun row member own => ?_) workers ?_
          · rw [docs]
            refine List.mem_map.mpr ⟨row, member, if_neg fun here => held holds ?_⟩
            exact here.symm.trans own
          · cases follows with
            | idle => nofun
            | later job' stage' same less =>
                exact fun here => held holds (same.symm.trans (Option.some.inj here))
  | upload | start | stop | retry | delete | cleanup | tick => exact works.elim

/-- The documents that have been uploaded are inevitably completed or failed, in whatever order the workers go on and
whatever their attempts are answered, exactly when none of them is in work without a worker. The workers' role is one
that row-level security does not bind. -/
theorem settles_iff_attended (document : String → Text) {acts : List (Act V)}
    (run : exec (Pipeline.step false document) .start acts = some m) (started : ∃ w, m.workers w ≠ .stopped) :
    Inevitable (Pipeline.step false document) Works (Settled m) m ↔ Attended m := by
  have regular : Regular m :=
    (throughout_of_step (fun _ _ _ h next => h.step next) regular_start).last run
  constructor
  · intro settles row member processing
    by_contra unheld
    have left : Left row.id m :=
      ⟨regular.keyed, ⟨row, member, rfl, processing⟩, fun w holds => unheld ⟨w, holds⟩⟩
    obtain ⟨after, still, settled⟩ := settles.reached (fun _ _ _ h works next => h.goes_on works next) left
    obtain ⟨stuck, here, -, processing⟩ := still.processing
    rcases settled.status stuck here with done | done <;> simp [done] at processing
  · intro attended
    obtain ⟨n, stopped⟩ := regular.finite
    exact inevitable_of_measure (Prod.lex ⟨_, wellFounded_lt⟩ ⟨_, wellFounded_lt⟩).wf (Pipeline.ahead n)
      (Working n m) (fun _ _ _ h works next => h.goes_on works next) (fun _ h done => h.settled done)
      ⟨attended, stopped, started, rfl⟩

/-- As long as no worker stops, no document is left. -/
theorem attended_of_up {rls : Bool} {acts : List (Act V)} (run : exec (Pipeline.step rls document) .start acts = some m)
    (up : Along (Pipeline.step rls document) StaysUp .start acts) : Attended m :=
  (throughout_of_along (fun _ _ _ h good next => h.step good next) attended_start up).last run

def guide : DocRow := ⟨7, 1, "1/docs/7/guide.txt", .pending, none, none, none, 0⟩

/-- Two workers have picked the document before either has marked it. -/
def guidePickedTwice : List (Act Rat) :=
  [.upload 7 1 "1/docs/7/guide.txt", .start 0, .start 1, .poll 0 [] (some guide), .poll 1 [] (some guide),
    .run 0 (.returns [])]

theorem settles_iff_attended_guide : ∃ m : Pipeline Rat,
    exec (Pipeline.step false fun _ => "你好".toList) .start guidePickedTwice = some m ∧
      Inevitable (Pipeline.step false fun _ => "你好".toList) Works (Settled m) m := by
  obtain ⟨m, run, started⟩ : ∃ m : Pipeline Rat,
      exec (Pipeline.step false fun _ => "你好".toList) .start guidePickedTwice = some m ∧
        m.workers 1 ≠ .stopped := ⟨_, rfl, nofun⟩
  refine ⟨m, run, (settles_iff_attended _ run ⟨1, started⟩).mpr (attended_of_up run ?_)⟩
  apply along_of_mem
  intro a member s
  simp only [guidePickedTwice, List.mem_cons, List.not_mem_nil, or_false] at member
  rcases member with rfl | rfl | rfl | rfl | rfl | rfl <;> exact trivial

end

end CuckooEcho.Knowledge
