import CuckooEcho.Frontend.ChatStore

namespace CuckooEcho.Frontend
open Lib

/-! ## Which thread is shown when every load has settled -/

namespace Loads

/-- The thread selected last is shown, with the reply to its own request. -/
def LastSelectedWins (m : Loads) : Prop :=
  ∀ id threadId, m.lastCall = some (id, threadId) →
    m.store.activeThreadId = some threadId ∧ (id, threadId, m.store.messages) ∈ m.served

/-- The reply that arrives last is one for the thread selected last, and has the messages of the reply to the last
call. -/
def LastSelectedAnswersLast (m : Loads) : Prop :=
  ∀ id threadId, m.lastCall = some (id, threadId) →
    ∃ messages, (m.served.head?.map Prod.snd) = some (threadId, messages) ∧ (id, threadId, messages) ∈ m.served

variable {m m' : Loads}

theorem find_eq_some {id : Nat} {stage : LoadStage} {l : Load} (found : m.find id stage = some l) :
    l ∈ m.pending ∧ l.id = id ∧ l.stage = stage :=
  ⟨List.mem_of_find?_eq_some found, by simpa using List.find?_some found⟩

/-! ### The last reply is on display -/

/-- Unless a request is on its way or has failed, the store shows the reply that has arrived last. -/
def Shown (m : Loads) : Prop :=
  (∃ l ∈ m.pending, l.stage = .fetching) ∨ 0 < m.failures ∨
    ∀ reply ∈ m.served.head?, m.store.activeThreadId = some reply.2.1 ∧ m.store.messages = reply.2.2

theorem Shown.step (h : Shown m) {act : Act} (next : m.step act = some m') : Shown m' := by
  cases act with
  | loadThread threadId =>
      obtain rfl := Option.some.inj next
      obtain ⟨l, pending, fetching⟩ | failed | shown := h
      · exact .inl ⟨l, List.mem_cons_of_mem _ pending, fetching⟩
      · exact .inr (.inl failed)
      · exact .inr (.inr shown)
  | cacheRead id cached =>
      obtain ⟨l, -, rfl⟩ := Option.map_eq_some_iff.mp next
      exact .inl ⟨_, List.mem_cons_self, rfl⟩
  | serverReply id reply now =>
      obtain ⟨l, -, rfl⟩ := Option.map_eq_some_iff.mp next
      refine .inr (.inr fun reply here => ?_)
      obtain rfl := Option.some.inj here
      exact ⟨rfl, rfl⟩
  | fail id stage =>
      obtain ⟨l, -, rfl⟩ := Option.map_eq_some_iff.mp next
      exact .inr (.inl m.failures.succ_pos)

theorem shown_of_run {store : ChatState} {acts : List Act} (run : exec step (.initial store) acts = some m)
    (settled : m.pending = []) (successful : m.failures = 0) :
    ∀ reply ∈ m.served.head?, m.store.activeThreadId = some reply.2.1 ∧ m.store.messages = reply.2.2 := by
  have start : Shown (.initial store) := .inr (.inr (fun _ here => nomatch here))
  have shown : Throughout step Shown (.initial store) acts :=
    throughout_of_step (fun _ _ _ h next => h.step next) start
  obtain ⟨l, pending, -⟩ | failed | shown := shown.last run
  · rw [settled] at pending
    cases pending
  · exact absurd successful (Nat.ne_of_gt failed)
  · exact shown

/-! ### Every call is answered once -/

/-- The calls that have not failed are on their way or answered, and none is answered twice. -/
structure Accounted (m : Loads) : Prop where
  started : ∀ l ∈ m.pending, l.id < m.calls
  distinct : (m.pending.map Load.id).Nodup
  answered : (m.served.map Prod.fst).Nodup
  closed : ∀ reply ∈ m.served, reply.1 < m.calls ∧ ∀ l ∈ m.pending, l.id ≠ reply.1
  last : ∀ id threadId, m.lastCall = some (id, threadId) →
    (∃ l ∈ m.pending, l.id = id ∧ l.threadId = threadId) ∨ 0 < m.failures ∨
      ∃ messages, (id, threadId, messages) ∈ m.served

theorem mem_without {id : Nat} {l : Load} : l ∈ m.without id ↔ l ∈ m.pending ∧ l.id ≠ id := by
  simp [without]

theorem without_distinct (h : Accounted m) (id : Nat) : ((m.without id).map Load.id).Nodup :=
  h.distinct.sublist (List.filter_sublist.map _)

theorem Accounted.unique (h : Accounted m) {l k : Load} (mem : l ∈ m.pending) (mem' : k ∈ m.pending)
    (same : l.id = k.id) : l = k :=
  List.inj_on_of_nodup_map h.distinct mem mem' same

theorem Accounted.loadThread (h : Accounted m) (threadId : String) : Accounted (m.loadThread threadId) where
  started := by
    intro l mem
    obtain rfl | mem := List.mem_cons.mp mem
    · exact Nat.lt_succ_self _
    · exact Nat.lt_succ_of_lt (h.started l mem)
  distinct := by
    refine List.nodup_cons.mpr ⟨fun mem => ?_, h.distinct⟩
    obtain ⟨l, mem, same⟩ := List.mem_map.mp mem
    exact Nat.ne_of_lt (h.started l mem) same
  answered := h.answered
  closed := by
    intro reply mem
    obtain ⟨below, free⟩ := h.closed reply mem
    refine ⟨Nat.lt_succ_of_lt below, fun l pending => ?_⟩
    obtain rfl | pending := List.mem_cons.mp pending
    · exact Nat.ne_of_gt below
    · exact free l pending
  last := by
    intro id thread here
    obtain ⟨rfl, rfl⟩ := Prod.mk.inj (Option.some.inj here)
    exact .inl ⟨_, List.mem_cons_self, rfl, rfl⟩

theorem Accounted.cacheRead (h : Accounted m) {l : Load} (pending : l ∈ m.pending) (cached : Option (List Message)) :
    Accounted (m.cacheRead l cached) where
  started := by
    intro k mem
    obtain rfl | mem := List.mem_cons.mp mem
    · exact h.started l pending
    · exact h.started k (mem_without.mp mem).1
  distinct := by
    refine List.nodup_cons.mpr ⟨fun mem => ?_, without_distinct h _⟩
    obtain ⟨k, mem, same⟩ := List.mem_map.mp mem
    exact (mem_without.mp mem).2 same
  answered := h.answered
  closed := by
    intro reply mem
    obtain ⟨below, free⟩ := h.closed reply mem
    refine ⟨below, fun k mem' => ?_⟩
    obtain rfl | mem' := List.mem_cons.mp mem'
    · exact free l pending
    · exact free k (mem_without.mp mem').1
  last := by
    intro id thread here
    obtain ⟨k, mem, rfl, rfl⟩ | later := h.last id thread here
    · by_cases same : k.id = l.id
      · obtain rfl := h.unique mem pending same
        exact .inl ⟨_, List.mem_cons_self, rfl, rfl⟩
      · exact .inl ⟨k, List.mem_cons_of_mem _ (mem_without.mpr ⟨mem, same⟩), rfl, rfl⟩
    · exact .inr later

theorem Accounted.serverReply (h : Accounted m) {l : Load} (pending : l ∈ m.pending) (reply : Reply) (now : String) :
    Accounted (m.serverReply l reply now) where
  started := fun k mem => h.started k (mem_without.mp mem).1
  distinct := without_distinct h _
  answered := by
    refine List.nodup_cons.mpr ⟨fun mem => ?_, h.answered⟩
    obtain ⟨other, mem, same⟩ := List.mem_map.mp mem
    exact (h.closed other mem).2 l pending same.symm
  closed := by
    intro other mem
    obtain rfl | mem := List.mem_cons.mp mem
    · exact ⟨h.started l pending, fun k mem => (mem_without.mp mem).2⟩
    · obtain ⟨below, free⟩ := h.closed other mem
      exact ⟨below, fun k mem => free k (mem_without.mp mem).1⟩
  last := by
    intro id thread here
    obtain ⟨k, mem, rfl, rfl⟩ | failed | ⟨messages, mem⟩ := h.last id thread here
    · by_cases same : k.id = l.id
      · obtain rfl := h.unique mem pending same
        exact .inr (.inr ⟨_, List.mem_cons_self⟩)
      · exact .inl ⟨k, mem_without.mpr ⟨mem, same⟩, rfl, rfl⟩
    · exact .inr (.inl failed)
    · exact .inr (.inr ⟨messages, List.mem_cons_of_mem _ mem⟩)

theorem Accounted.fail (h : Accounted m) (l : Load) : Accounted (m.fail l) where
  started := fun k mem => h.started k (mem_without.mp mem).1
  distinct := without_distinct h _
  answered := h.answered
  closed := by
    intro other mem
    obtain ⟨below, free⟩ := h.closed other mem
    exact ⟨below, fun k mem => free k (mem_without.mp mem).1⟩
  last := fun _ _ _ => .inr (.inl m.failures.succ_pos)

theorem Accounted.step (h : Accounted m) {act : Act} (next : m.step act = some m') : Accounted m' := by
  cases act with
  | loadThread threadId => exact Option.some.inj next ▸ h.loadThread threadId
  | cacheRead id cached =>
      obtain ⟨l, found, rfl⟩ := Option.map_eq_some_iff.mp next
      exact h.cacheRead (find_eq_some found).1 cached
  | serverReply id reply now =>
      obtain ⟨l, found, rfl⟩ := Option.map_eq_some_iff.mp next
      exact h.serverReply (find_eq_some found).1 reply now
  | fail id stage =>
      obtain ⟨l, -, rfl⟩ := Option.map_eq_some_iff.mp next
      exact h.fail l

theorem accounted_of_run {store : ChatState} {acts : List Act} (run : exec step (.initial store) acts = some m) :
    Accounted m := by
  have start : Accounted (.initial store) :=
    { started := fun _ mem => nomatch mem
      distinct := List.nodup_nil
      answered := List.nodup_nil
      closed := fun _ mem => nomatch mem
      last := fun _ _ here => nomatch here }
  have accounted : Throughout step Accounted (.initial store) acts :=
    throughout_of_step (fun _ _ _ h next => h.step next) start
  exact accounted.last run

/-- When all calls have settled without failure, the last one has exactly one reply. -/
theorem lastCall_answered {store : ChatState} {acts : List Act} (run : exec step (.initial store) acts = some m)
    (settled : m.pending = []) (successful : m.failures = 0) {id : Nat} {threadId : String}
    (last : m.lastCall = some (id, threadId)) :
    ∃! messages, (id, threadId, messages) ∈ m.served := by
  have h := accounted_of_run run
  obtain ⟨l, pending, -⟩ | failed | ⟨messages, mem⟩ := h.last id threadId last
  · rw [settled] at pending
    cases pending
  · exact absurd successful (Nat.ne_of_gt failed)
  · refine ⟨messages, mem, fun other mem' => ?_⟩
    have same := List.inj_on_of_nodup_map h.answered mem' mem rfl
    exact (Prod.mk.inj (Prod.mk.inj same).2).2

/-! ### The thread selected last -/

/-- When all calls have settled without failure, the thread selected last is shown if and only if a reply for it is
the last to arrive, and has the messages of the reply to the last call. -/
theorem lastSelectedWins_iff {store : ChatState} {acts : List Act} (run : exec step (.initial store) acts = some m)
    (settled : m.pending = []) (successful : m.failures = 0) : m.LastSelectedWins ↔ m.LastSelectedAnswersLast := by
  have shown := shown_of_run run settled successful
  constructor
  · intro wins id threadId last
    obtain ⟨active, mem⟩ := wins id threadId last
    refine ⟨m.store.messages, ?_, mem⟩
    cases replies : m.served with
    | nil =>
        rw [replies] at mem
        cases mem
    | cons reply served =>
        obtain ⟨thread, messages⟩ := shown reply (by rw [replies]; rfl)
        have same : reply.2 = (threadId, m.store.messages) :=
          Prod.ext (Option.some.inj (thread.symm.trans active)) messages.symm
        rw [← same]
        rfl
  · intro answers id threadId last
    obtain ⟨messages, head, mem⟩ := answers id threadId last
    obtain ⟨reply, first, same⟩ := Option.map_eq_some_iff.mp head
    obtain ⟨active, messagesEq⟩ := shown reply first
    rw [same] at active messagesEq
    exact ⟨active, messagesEq ▸ mem⟩

/-- Two threads selected one after the other, the replies in the order given. -/
def switching (first second : Nat) : List Act :=
  [.loadThread "thread-a", .loadThread "thread-b", .cacheRead 0 none, .cacheRead 1 none,
    .serverReply first (.messages []) "09:00:00", .serverReply second (.messages []) "09:00:01"]

def switched (shown : String) (served : List (Nat × String × List Message)) : Loads where
  store := { activeThreadId := some shown }
  pending := []
  calls := 2
  lastCall := some (1, "thread-b")
  served := served
  failures := 0

theorem lastSelectedWins_iff_inOrder :
    (switched "thread-b" [(1, "thread-b", []), (0, "thread-a", [])]).LastSelectedWins := by
  have run : exec step (.initial {}) (switching 0 1) =
      some (switched "thread-b" [(1, "thread-b", []), (0, "thread-a", [])]) := rfl
  refine (lastSelectedWins_iff run rfl rfl).mpr fun id threadId last => ?_
  obtain ⟨rfl, rfl⟩ := Prod.mk.inj (Option.some.inj last)
  exact ⟨[], rfl, List.mem_cons_self⟩

theorem outOfOrder_not_lastSelectedWins :
    ¬ ∀ (store : ChatState) (acts : List Act) (m : Loads), exec step (.initial store) acts = some m →
      m.pending = [] → m.failures = 0 → m.LastSelectedWins := by
  intro claim
  have run : exec step (.initial {}) (switching 1 0) =
      some (switched "thread-a" [(0, "thread-a", []), (1, "thread-b", [])]) := rfl
  have active := (claim _ _ _ run rfl rfl 1 "thread-b" rfl).1
  exact absurd active (by decide)

end Loads

end CuckooEcho.Frontend
