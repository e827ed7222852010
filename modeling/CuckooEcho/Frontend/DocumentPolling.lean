import CuckooEcho.Frontend.KnowledgeDocs
import CuckooEcho.Lib.Run

namespace CuckooEcho.Frontend.DocumentPolling
open Lib FieldMapper KnowledgeDocs

/-! ## `useProcessingPoller` -/

/-- The `id` of a document; `none` is `undefined`, which is a key of a `Map` like any other. -/
abbrev DocId := Option Value

def docId (d : Object) : DocId := d.get "id"

def unsettled (d : Object) : Bool :=
  d.get "status" = some (.text "pending") || d.get "status" = some (.text "processing")

def settled (d : Object) : Bool :=
  d.get "status" = some (.text "completed") || d.get "status" = some (.text "failed")

/-- A timer that has neither fired nor been cleared. -/
structure Timer where
  handle : Nat
  docId : DocId
  delay : Nat
  deriving DecidableEq, Repr

/-- The callback of a timer that has fired, until it has set the next delay. -/
structure Poll where
  docId : DocId
  delay : Nat
  fetched : Bool
  deriving DecidableEq, Repr

/-- `changed` says that the documents are others than those that the effect has run for. -/
structure Poller where
  documents : List Object
  changed : Bool
  timers : List Timer
  timersRef : Dict DocId Nat
  delaysRef : Dict DocId Nat
  created : Nat
  polls : List Poll

namespace Poller

/-- The page is opened; its effect has not run yet. -/
def initial : Poller := ⟨[], true, [], .empty, .empty, 0, []⟩

variable (m : Poller)

def clearTimers : Poller :=
  { m with timers := m.timers.filter (·.handle ∉ m.timersRef.values), timersRef := .empty }

def poll (id : DocId) : Poller :=
  { m with
    timers := m.timers ++ [⟨m.created, id, (m.delaysRef.get id).getD 3000⟩]
    timersRef := m.timersRef.set id m.created
    created := m.created + 1 }

def watch (id : DocId) : Poller :=
  { m with delaysRef := if (m.delaysRef.get id).isSome then m.delaysRef else m.delaysRef.set id 3000 }.poll id

def isOver (id : DocId) : Bool := (m.documents.find? fun d => docId d = id).all settled

def cleanDelays : Poller := { m with delaysRef := m.delaysRef.eraseAll (m.delaysRef.keys.filter m.isOver) }

def processing : List DocId := (m.documents.filter unsettled).map docId

/-- What the last effect has left behind is cleared twice, by its cleanup and by this one. -/
def effect : Poller :=
  { (m.processing.foldl watch m.clearTimers.clearTimers).cleanDelays with changed := false }

inductive Act
  | fire (handle : Nat)
  | answer (i : Nat) (documents : List Object)
  | fail (i : Nat)
  | resume (i : Nat)
  | change (documents : List Object)
  | effect

def step : Act → Option Poller
  | .fire handle => (m.timers.find? (·.handle = handle)).map fun t =>
      { m with timers := m.timers.filter (·.handle ≠ handle), polls := m.polls ++ [⟨t.docId, t.delay, false⟩] }
  | .answer i documents => (m.polls[i]?.filter fun p => !p.fetched).map fun p =>
      { m with documents, changed := true, polls := m.polls.set i { p with fetched := true } }
  | .fail i => (m.polls[i]?.filter fun p => !p.fetched).map fun p =>
      { m with polls := m.polls.set i { p with fetched := true } }
  | .resume i => (m.polls[i]?.filter (·.fetched)).map fun p =>
      { m with delaysRef := m.delaysRef.set p.docId (min (p.delay * 2) 15000), polls := m.polls.eraseIdx i }
  -- an upload, a retry or a deletion
  | .change documents => some { m with documents, changed := true }
  | .effect => if m.changed then some m.effect else none

/-! ### Which timers can be cleared -/

/-- Leaving the page clears every timer. -/
def StopsOnLeaving (m : Poller) : Prop := m.clearTimers.timers = []

/-- No document has two timers. -/
def PollsOnce (m : Poller) : Prop := (m.timers.map (·.docId)).Nodup

/-- The documents that are still in work are told apart by their ids when their timers are started. -/
def Distinct (m : Poller) : Act → Prop
  | .effect => m.processing.Nodup
  | _ => True

/-- Handles are not used twice, and an entry of the `Map` is of a timer for the document that it is kept under. -/
structure Handles (m : Poller) : Prop where
  nodup : (m.timers.map (·.handle)).Nodup
  old : ∀ t ∈ m.timers, t.handle < m.created
  refs : ∀ id handle, m.timersRef.get id = some handle →
    handle < m.created ∧ ∀ t ∈ m.timers, t.handle = handle → t.docId = id

/-- Every timer is the one that the `Map` has for its document. -/
def Tracked (m : Poller) : Prop := ∀ t ∈ m.timers, m.timersRef.get t.docId = some t.handle

variable {m} {m' : Poller} {id : DocId} {ids : List DocId}

theorem handles_initial : Handles initial := ⟨List.nodup_nil, nofun, nofun⟩

theorem tracked_initial : Tracked initial := nofun

theorem stopsOnLeaving_iff_tracked (h : Handles m) : m.StopsOnLeaving ↔ m.Tracked := by
  rw [StopsOnLeaving, clearTimers, List.filter_eq_nil_iff]
  refine forall₂_congr fun t member => ?_
  rw [decide_eq_true_iff, not_not, Dict.mem_values]
  constructor
  · rintro ⟨id, found⟩
    obtain rfl := (h.refs id t.handle found).2 t member rfl
    exact found
  · exact fun found => ⟨_, found⟩

theorem pollsOnce_of_tracked (h : Handles m) (tracked : m.Tracked) : m.PollsOnce := by
  refine List.Nodup.of_map (fun id => m.timersRef.get id) ?_
  have handles : (m.timers.map (·.docId)).map (fun id => m.timersRef.get id) =
      (m.timers.map (·.handle)).map some := by
    rw [List.map_map, List.map_map]
    exact List.map_congr_left tracked
  rw [handles]
  exact h.nodup.map fun _ _ same => Option.some.inj same

/-- Two timers of one document cannot both be cleared. -/
theorem pollsOnce_of_stopsOnLeaving (h : Handles m) (stops : m.StopsOnLeaving) : m.PollsOnce :=
  pollsOnce_of_tracked h ((stopsOnLeaving_iff_tracked h).mp stops)

/-! ### What the effect starts -/

theorem Handles.clearTimers (h : Handles m) : Handles m.clearTimers :=
  ⟨h.nodup.sublist (List.filter_sublist.map _), fun t member => h.old t (List.mem_filter.mp member).1, nofun⟩

theorem Handles.watch (h : Handles m) (id : DocId) : Handles (m.watch id) := by
  have apart (t : Timer) (member : t ∈ m.timers) : t.handle ≠ m.created := Nat.ne_of_lt (h.old t member)
  refine ⟨?_, ?_, fun id' handle found => ?_⟩
  · have fresh : m.created ∉ m.timers.map (·.handle) := by
      intro here
      obtain ⟨t, member, same⟩ := List.mem_map.mp here
      exact apart t member same
    change ((m.timers ++ [_]).map _).Nodup
    rw [List.map_append, List.map_singleton, ← List.concat_eq_append]
    exact h.nodup.concat fresh
  · refine List.forall_mem_append.mpr ⟨fun t member => Nat.lt_succ_of_lt (h.old t member), ?_⟩
    exact List.forall_mem_singleton.mpr (Nat.lt_succ_self m.created)
  · change (m.timersRef.set id m.created).get id' = some handle at found
    rw [Dict.get_set] at found
    split at found
    case isTrue here =>
      obtain rfl := Option.some.inj found
      refine ⟨Nat.lt_succ_self _, List.forall_mem_append.mpr ⟨fun t member same => ?_, ?_⟩⟩
      · exact absurd same (apart t member)
      · exact List.forall_mem_singleton.mpr fun _ => here.symm
    case isFalse =>
      obtain ⟨old, own⟩ := h.refs id' handle found
      refine ⟨Nat.lt_succ_of_lt old, List.forall_mem_append.mpr ⟨own, ?_⟩⟩
      exact List.forall_mem_singleton.mpr fun same => absurd same (Nat.ne_of_gt old)

theorem Handles.watchAll (h : Handles m) (ids : List DocId) : Handles (ids.foldl Poller.watch m) := by
  induction ids generalizing m with
  | nil => exact h
  | cons id ids ih => exact ih (h.watch id)

theorem docIds_watchAll (ids : List DocId) :
    (ids.foldl watch m).timers.map (·.docId) = m.timers.map (·.docId) ++ ids := by
  induction ids generalizing m with
  | nil => exact (List.append_nil _).symm
  | cons id ids ih =>
      rw [List.foldl_cons, ih]
      simp [watch, poll]

theorem documents_watchAll (ids : List DocId) : (ids.foldl watch m).documents = m.documents := by
  induction ids generalizing m with
  | nil => rfl
  | cons id ids ih => exact ih

theorem processing_effect : m.effect.processing = m.processing := by
  have same : m.effect.documents = m.documents := documents_watchAll m.processing
  rw [processing, same, ← processing]

theorem Tracked.watch (tracked : m.Tracked) (new : id ∉ m.timers.map (·.docId)) : (m.watch id).Tracked := by
  intro t member
  change (m.timersRef.set id m.created).get t.docId = _
  rw [Dict.get_set]
  rcases List.mem_append.mp member with before | last
  · have other : t.docId ≠ id := by
      rintro rfl
      exact new (List.mem_map_of_mem before)
    rw [if_neg other]
    exact tracked t before
  · obtain rfl := List.mem_singleton.mp last
    exact if_pos rfl

theorem Tracked.watchAll (tracked : m.Tracked) (distinct : (m.timers.map (·.docId) ++ ids).Nodup) :
    (ids.foldl Poller.watch m).Tracked := by
  induction ids generalizing m with
  | nil => exact tracked
  | cons id ids ih =>
      have new : id ∉ m.timers.map (·.docId) := fun here =>
        (List.nodup_append.mp distinct).2.2 id here id List.mem_cons_self rfl
      refine ih (tracked.watch new) ?_
      have grown : (m.watch id).timers.map (·.docId) = m.timers.map (·.docId) ++ [id] := docIds_watchAll [id]
      rwa [grown, List.append_assoc]

theorem cleared (h : Handles m) (tracked : m.Tracked) : m.clearTimers.clearTimers.timers = [] := by
  have once : m.clearTimers.timers = [] := (stopsOnLeaving_iff_tracked h).mpr tracked
  rw [clearTimers, once, List.filter_nil]

theorem docIds_effect (h : Handles m) (tracked : m.Tracked) : m.effect.timers.map (·.docId) = m.processing := by
  change (m.processing.foldl watch m.clearTimers.clearTimers).timers.map _ = _
  rw [docIds_watchAll, cleared h tracked, List.map_nil, List.nil_append]

theorem Handles.effect (h : Handles m) : Handles m.effect := by
  have started := h.clearTimers.clearTimers.watchAll m.processing
  exact ⟨started.nodup, started.old, started.refs⟩

theorem Tracked.effect (h : Handles m) (tracked : m.Tracked) (distinct : m.processing.Nodup) : m.effect.Tracked := by
  refine Tracked.watchAll ?_ ?_
  · rw [Tracked, cleared h tracked]
    exact nofun
  · rwa [cleared h tracked, List.map_nil, List.nil_append]

/-! ### Runs -/

/-- What the other steps do to the timers. -/
theorem step_timers {act : Act} (other : act ≠ .effect) (next : m.step act = some m') :
    m'.timersRef = m.timersRef ∧ m'.created = m.created ∧
      (m'.timers = m.timers ∨ ∃ handle, act = .fire handle ∧ m'.timers = m.timers.filter (·.handle ≠ handle)) := by
  cases act with
  | fire handle =>
      obtain ⟨t, -, rfl⟩ := Option.map_eq_some_iff.mp next
      exact ⟨rfl, rfl, Or.inr ⟨handle, rfl, rfl⟩⟩
  | answer i documents | fail i | resume i =>
      obtain ⟨p, -, rfl⟩ := Option.map_eq_some_iff.mp next
      exact ⟨rfl, rfl, Or.inl rfl⟩
  | change documents =>
      obtain rfl := Option.some.inj next
      exact ⟨rfl, rfl, Or.inl rfl⟩
  | effect => exact absurd rfl other

theorem step_effect (next : m.step .effect = some m') : m' = m.effect := by
  simp only [step, Option.ite_none_right_eq_some, Option.some.injEq] at next
  exact next.2.symm

theorem sublist_of_step {act : Act} (other : act ≠ .effect) (next : m.step act = some m') :
    m'.timers.Sublist m.timers := by
  rcases (step_timers other next).2.2 with same | ⟨handle, -, fired⟩
  · rw [same]
  · rw [fired]
    exact List.filter_sublist

/-- The invariant of the runs whose timers are started for distinct ids. -/
structure Sound (m : Poller) : Prop where
  handles : Handles m
  tracked : m.Tracked

theorem sound_initial : Sound initial := ⟨handles_initial, tracked_initial⟩

theorem Handles.step {act : Act} (h : Handles m) (next : m.step act = some m') : Handles m' := by
  by_cases effect : act = .effect
  · subst effect
    exact step_effect next ▸ h.effect
  · obtain ⟨refs, created, -⟩ := step_timers effect next
    have fewer := sublist_of_step effect next
    refine ⟨h.nodup.sublist (fewer.map _), fun t member => created ▸ h.old t (fewer.subset member), ?_⟩
    rw [refs, created]
    intro id handle found
    exact ⟨(h.refs id handle found).1, fun t member => (h.refs id handle found).2 t (fewer.subset member)⟩

theorem Sound.step {act : Act} (h : Sound m) (distinct : m.Distinct act) (next : m.step act = some m') : Sound m' := by
  refine ⟨h.handles.step next, ?_⟩
  by_cases effect : act = .effect
  · subst effect
    exact step_effect next ▸ h.tracked.effect h.handles distinct
  · obtain ⟨refs, -, -⟩ := step_timers effect next
    intro t member
    rw [refs]
    exact h.tracked t ((sublist_of_step effect next).subset member)

theorem distinct_of_pollsOnce {act : Act} (h : Sound m) (next : m.step act = some m') (once : m'.PollsOnce) :
    m.Distinct act := by
  cases act with
  | effect =>
      obtain rfl := step_effect next
      rwa [PollsOnce, docIds_effect h.handles h.tracked] at once
  | _ => trivial

/-! ### Polling goes on -/

/-- The effect is to run, or each document in work has a timer or a poll under way. -/
def KeepsWatching (m : Poller) : Prop := m.changed = false → ∀ id ∈ m.processing,
  (∃ t ∈ m.timers, t.docId = id) ∨ ∃ p ∈ m.polls, p.docId = id ∧ p.fetched = false

def Succeeds (_ : Poller) : Act → Prop
  | .fail _ => False
  | _ => True

theorem keepsWatching_step {act : Act} (h : Handles m) (watching : m.KeepsWatching) (succeeds : m.Succeeds act)
    (next : m.step act = some m') : m'.KeepsWatching := by
  cases act with
  | fire handle =>
      obtain ⟨fired, found, rfl⟩ := Option.map_eq_some_iff.mp next
      intro same id working
      have named : fired.handle = handle := by simpa using List.find?_some found
      rcases watching same id working with ⟨t, member, own⟩ | ⟨p, member, own⟩
      · by_cases this : t.handle = handle
        · have only : t = fired :=
            List.inj_on_of_nodup_map h.nodup member (List.mem_of_find?_eq_some found) (this.trans named.symm)
          exact Or.inr ⟨_, List.mem_append_right _ List.mem_cons_self, only ▸ own, rfl⟩
        · exact Or.inl ⟨t, List.mem_filter.mpr ⟨member, decide_eq_true this⟩, own⟩
      · exact Or.inr ⟨p, List.mem_append_left _ member, own⟩
  | answer i documents =>
      obtain ⟨p, -, rfl⟩ := Option.map_eq_some_iff.mp next
      exact nofun
  | fail i => exact succeeds.elim
  | resume i =>
      obtain ⟨p, found, rfl⟩ := Option.map_eq_some_iff.mp next
      intro same id working
      rcases watching same id working with timer | ⟨q, member, own, waits⟩
      · exact Or.inl timer
      · refine Or.inr ⟨q, ?_, own, waits⟩
        obtain ⟨here, fetched⟩ := Option.filter_eq_some_iff.mp found
        obtain ⟨j, there⟩ := List.getElem?_of_mem member
        refine List.mem_eraseIdx_iff_getElem?.mpr ⟨j, fun same => ?_, there⟩
        rw [same, here, Option.some.injEq] at there
        rw [there, waits] at fetched
        cases fetched
  | change documents =>
      obtain rfl := Option.some.inj next
      exact nofun
  | effect =>
      obtain rfl := step_effect next
      intro _ id working
      rw [processing_effect] at working
      have started : id ∈ m.effect.timers.map (·.docId) := by
        change id ∈ (m.processing.foldl watch m.clearTimers.clearTimers).timers.map _
        rw [docIds_watchAll]
        exact List.mem_append_right _ working
      obtain ⟨t, member, own⟩ := List.mem_map.mp started
      exact Or.inl ⟨t, member, own⟩

/-- Leaving the page clears all timers, and no document has two, in exactly the runs in which the documents in work
are told apart by their ids whenever their timers are started; and as long as no poll fails, polling goes on. -/
theorem polls_iff_distinct (acts : List Act) :
    (Throughout step StopsOnLeaving initial acts ↔ Along step Distinct initial acts) ∧
      (Throughout step PollsOnce initial acts ↔ Along step Distinct initial acts) ∧
      (Along step Succeeds initial acts → Throughout step KeepsWatching initial acts) := by
  refine ⟨?_, ?_, fun succeeds => ?_⟩
  · exact throughout_iff_along_any Sound (fun _ h => (stopsOnLeaving_iff_tracked h.handles).mpr h.tracked)
      (fun _ _ _ h distinct next => h.step distinct next)
      (fun _ _ _ h next stops => distinct_of_pollsOnce h next
        (pollsOnce_of_stopsOnLeaving (h.handles.step next) stops)) sound_initial
  · exact throughout_iff_along_any Sound (fun _ h => pollsOnce_of_tracked h.handles h.tracked)
      (fun _ _ _ h distinct next => h.step distinct next)
      (fun _ _ _ h next once => distinct_of_pollsOnce h next once) sound_initial
  · have both := throughout_of_along (P := fun m => Handles m ∧ m.KeepsWatching)
      (fun _ _ _ h good next => ⟨h.1.step next, keepsWatching_step h.1 h.2 good next⟩)
      (s := initial) ⟨handles_initial, nofun⟩ succeeds
    exact both.mono fun _ h => h.2

/-! ### With the lists of the admin service -/

section
variable (camelCase : String → String) (overview missedQueries : Object → Object)

/-- The documents are those of the admin service's list, or what a deletion leaves of them. -/
def Lists (m : Poller) : Act → Prop
  | .answer _ documents | .change documents =>
      (∃ rows, documents = fetchDocuments camelCase overview missedQueries rows) ∨
        ∃ id, documents = deleteDocument id m.documents
  | _ => True

end

/-- Nothing that the page knows of has an id. -/
structure Nameless (m : Poller) : Prop where
  documents : ∀ d ∈ m.documents, docId d = none
  refs : ∀ id handle, m.timersRef.get id = some handle → id = none

def AtMostOne (m : Poller) : Act → Prop
  | .effect => m.processing.length ≤ 1
  | _ => True

def MoreThan (n : Nat) (m : Poller) : Act → Prop
  | .effect => n < m.processing.length
  | _ => True

instance decidableAtMostOne (m : Poller) : (act : Act) → Decidable (m.AtMostOne act)
  | .effect => inferInstanceAs (Decidable (_ ≤ 1))
  | .fire _ | .answer _ _ | .fail _ | .resume _ | .change _ => inferInstanceAs (Decidable True)

instance decidableMoreThan (n : Nat) (m : Poller) : (act : Act) → Decidable (MoreThan n m act)
  | .effect => inferInstanceAs (Decidable (n < _))
  | .fire _ | .answer _ _ | .fail _ | .resume _ | .change _ => inferInstanceAs (Decidable True)

def Act.isEffect : Act → Bool
  | .effect => true
  | _ => false

def Act.isFire : Act → Bool
  | .fire _ => true
  | _ => false

variable {camelCase : String → String} {overview missedQueries : Object → Object}

theorem nameless_initial : Nameless initial := ⟨nofun, nofun⟩

theorem docId_fetchDocuments (converts : ConvertsSnake camelCase) (rows : List DocRow) :
    ∀ d ∈ fetchDocuments camelCase overview missedQueries rows, docId d = none := by
  rw [fetchDocuments_eq]
  intro d member
  obtain ⟨row, -, rfl⟩ := List.mem_map.mp member
  exact get_toCamelCase_listed converts row

theorem refs_watchAll (ids : List DocId) {id : DocId} {handle : Nat}
    (found : (ids.foldl watch m).timersRef.get id = some handle) : id ∈ ids ∨ m.timersRef.get id = some handle := by
  induction ids generalizing m with
  | nil => exact Or.inr found
  | cons first ids ih =>
      rcases ih found with later | before
      · exact Or.inl (List.mem_cons_of_mem _ later)
      · change (m.timersRef.set first m.created).get id = some handle at before
        rw [Dict.get_set] at before
        split at before
        case isTrue here => exact Or.inl (here ▸ List.mem_cons_self)
        case isFalse => exact Or.inr before

theorem Nameless.processing (h : Nameless m) : ∀ id ∈ m.processing, id = none := by
  intro id member
  obtain ⟨d, here, rfl⟩ := List.mem_map.mp member
  exact h.documents d (List.mem_filter.mp here).1

theorem Nameless.change (h : Nameless m) (converts : ConvertsSnake camelCase) {documents : List Object}
    (lists : Lists camelCase overview missedQueries m (.change documents)) : ∀ d ∈ documents, docId d = none := by
  rcases lists with ⟨rows, rfl⟩ | ⟨id, rfl⟩
  · exact docId_fetchDocuments converts rows
  · intro d member
    exact h.documents d (List.mem_filter.mp member).1

theorem Nameless.step {act : Act} (h : Nameless m) (converts : ConvertsSnake camelCase)
    (lists : Lists camelCase overview missedQueries m act) (next : m.step act = some m') : Nameless m' := by
  cases act with
  | fire handle =>
      obtain ⟨t, -, rfl⟩ := Option.map_eq_some_iff.mp next
      exact ⟨h.documents, h.refs⟩
  | answer i documents =>
      obtain ⟨p, -, rfl⟩ := Option.map_eq_some_iff.mp next
      exact ⟨h.change converts lists, h.refs⟩
  | fail i | resume i =>
      obtain ⟨p, -, rfl⟩ := Option.map_eq_some_iff.mp next
      exact ⟨h.documents, h.refs⟩
  | change documents =>
      obtain rfl := Option.some.inj next
      exact ⟨h.change converts lists, h.refs⟩
  | effect =>
      obtain rfl := step_effect next
      refine ⟨fun d member => h.documents d ?_, fun id handle found => ?_⟩
      · have same : m.effect.documents = m.documents := documents_watchAll m.processing
        exact same ▸ member
      · rcases refs_watchAll m.processing found with here | before
        · exact h.processing id here
        · cases before

theorem Nameless.distinct_iff (h : Nameless m) (act : Act) : m.Distinct act ↔ m.AtMostOne act := by
  cases act with
  | effect =>
      have only : m.processing = List.replicate m.processing.length none :=
        List.eq_replicate_iff.mpr ⟨rfl, h.processing⟩
      rw [Distinct, AtMostOne, only, List.nodup_replicate, List.length_replicate]
  | _ => exact Iff.rfl

/-- All timers but those of one handle are all but at most one. -/
theorem Handles.length_filter (h : Handles m) {kept : Timer → Bool} (handle : Nat)
    (only : ∀ t ∈ m.timers, kept t = false → t.handle = handle) :
    m.timers.length ≤ (m.timers.filter kept).length + 1 := by
  have few : (m.timers.filter fun t => !kept t).length ≤ 1 := by
    have nodup : ((m.timers.filter fun t => !kept t).map (·.handle)).Nodup :=
      h.nodup.sublist (List.filter_sublist.map _)
    have same : ∀ t ∈ m.timers.filter fun t => !kept t, t.handle = handle := by
      intro t member
      obtain ⟨here, dropped⟩ := List.mem_filter.mp member
      exact only t here (Bool.not_eq_true' (kept t) ▸ dropped)
    rw [List.eq_replicate_iff.mpr ⟨List.length_map _, List.forall_mem_map.mpr same⟩] at nodup
    exact List.nodup_replicate.mp nodup
  rw [List.length_eq_length_filter_add kept]
  exact Nat.add_le_add_left few _

/-- Of all timers, only the one that was started last is known. -/
theorem Nameless.length_clearTimers (h : Nameless m) (handles : Handles m) :
    m.timers.length ≤ m.clearTimers.timers.length + 1 := by
  apply handles.length_filter ((m.timersRef.get none).getD 0)
  intro t _ cleared
  have known : t.handle ∈ m.timersRef.values := by simpa using cleared
  obtain ⟨id, found⟩ := Dict.mem_values.mp known
  rw [← h.refs id _ found, found, Option.getD_some]

theorem length_effect : m.effect.timers.length = m.clearTimers.timers.length + m.processing.length := by
  have twice : m.clearTimers.clearTimers.timers = m.clearTimers.timers :=
    List.filter_eq_self.mpr fun t _ => decide_eq_true List.not_mem_nil
  have started := congrArg List.length (docIds_watchAll (m := m.clearTimers.clearTimers) m.processing)
  rwa [twice, List.length_map, List.length_append, List.length_map] at started

theorem length_step {act : Act} {n : Nat} (h : Nameless m) (handles : Handles m) (many : m.MoreThan n act)
    (next : m.step act = some m') :
    m.timers.length + n * act.isEffect.toNat ≤ m'.timers.length + act.isFire.toNat := by
  by_cases effect : act = .effect
  · subst effect
    obtain rfl := step_effect next
    have kept := h.length_clearTimers handles
    have started : n < m.processing.length := many
    simp only [length_effect, Act.isEffect, Act.isFire, Bool.toNat_true, Bool.toNat_false]
    omega
  · have uncounted : act.isEffect = false := by
      cases act with
      | effect => exact absurd rfl effect
      | _ => rfl
    rw [uncounted, Bool.toNat_false, Nat.mul_zero, Nat.add_zero]
    rcases (step_timers effect next).2.2 with same | ⟨handle, rfl, fired⟩
    · rw [same]
      exact Nat.le_add_right _ _
    · rw [fired]
      exact handles.length_filter handle fun t _ gone => by simpa using gone

theorem countP_cons_toNat (counted : Act → Bool) (act : Act) (acts : List Act) :
    (act :: acts).countP counted = acts.countP counted + (counted act).toNat := by
  rw [List.countP_cons]
  cases counted act with
  | false => rfl
  | true => rfl

theorem length_of_run {acts : List Act} {n : Nat} (converts : ConvertsSnake camelCase)
    (lists : Along step (Lists camelCase overview missedQueries) m acts) (h : Nameless m) (handles : Handles m)
    (many : Along step (MoreThan n) m acts) (run : exec step m acts = some m') :
    m.timers.length + n * acts.countP Act.isEffect ≤ m'.timers.length + acts.countP Act.isFire := by
  induction acts generalizing m with
  | nil =>
      obtain rfl := Option.some.inj run
      exact Nat.le_refl _
  | cons act acts ih =>
      obtain ⟨mid, next, run⟩ := Option.bind_eq_some_iff.mp run
      obtain ⟨listed, lists⟩ := lists mid next
      obtain ⟨here, many⟩ := many mid next
      have first := length_step h handles here next
      have rest := ih lists (h.step converts listed next) (handles.step next) many run
      rw [countP_cons_toNat, countP_cons_toNat, Nat.mul_add]
      omega

/-- Leaving the page clears all timers in exactly the runs in which never more than one document is in work when the
timers are started. Where they are more than `n` each time, each effect adds at least `n` timers, and only firing ends
them. -/
theorem polls_pile_up (converts : ConvertsSnake camelCase) (acts : List Act)
    (lists : Along step (Lists camelCase overview missedQueries) initial acts) :
    (Throughout step StopsOnLeaving initial acts ↔ Along step AtMostOne initial acts) ∧
      ∀ n m, exec step initial acts = some m → Along step (MoreThan n) initial acts →
        n * acts.countP Act.isEffect ≤ m.timers.length + acts.countP Act.isFire := by
  refine ⟨?_, fun n m run many => ?_⟩
  · refine throughout_iff_along (fun m => Sound m ∧ Nameless m) ?_ ?_ ?_ ⟨sound_initial, nameless_initial⟩ lists
    · exact fun _ h => (stopsOnLeaving_iff_tracked h.1.handles).mpr h.1.tracked
    · intro m act m' ⟨sound, nameless⟩ listed few next
      exact ⟨sound.step ((nameless.distinct_iff act).mpr few) next, nameless.step converts listed next⟩
    · intro m act m' ⟨sound, nameless⟩ _ next stops
      have once := pollsOnce_of_stopsOnLeaving (sound.handles.step next) stops
      exact (nameless.distinct_iff act).mp (distinct_of_pollsOnce sound next once)
  · have grown := length_of_run converts lists nameless_initial handles_initial many run
    rwa [show initial.timers.length = 0 from rfl, Nat.zero_add] at grown

def pending : DocRow := { guide with status := "pending" }

/-- The list is loaded twice while two documents are pending. -/
def loadedTwice : List Act :=
  let documents := fetchDocuments ofSnake (fun data => data) (fun data => data) [pending, pending]
  [.change documents, .effect, .change documents, .effect]

theorem polls_pile_up_pending :
    ¬ Throughout step StopsOnLeaving initial loadedTwice ∧
      ∀ m, exec step initial loadedTwice = some m → 2 ≤ m.timers.length := by
  have lists : Along step (Lists ofSnake (fun data => data) (fun data => data)) initial loadedTwice := by
    have loaded (m : Poller) : Lists ofSnake (fun data => data) (fun data => data) m (.change (fetchDocuments ofSnake
        (fun data => data) (fun data => data) [pending, pending])) := Or.inl ⟨_, rfl⟩
    apply along_of_mem
    intro act member m
    simp only [loadedTwice, List.mem_cons, List.not_mem_nil, or_false] at member
    rcases member with rfl | rfl | rfl | rfl
    · exact loaded m
    · trivial
    · exact loaded m
    · trivial
  obtain ⟨leaving, piled⟩ := polls_pile_up (fun _ _ => rfl) loadedTwice lists
  constructor
  · rw [leaving]
    decide +kernel
  · exact fun m run => piled 1 m run (by decide +kernel)

end Poller

end CuckooEcho.Frontend.DocumentPolling
