import CuckooEcho.Frontend.ChatStore
import CuckooEcho.Lib.StableMerge

namespace CuckooEcho.Frontend
open Lib

namespace ChatState

/-- Where one of the dates cannot be read the difference is no number, which sorting takes for a tie. -/
def compareCreatedAt (getTime : String → Option Int) (a b : Message) : Int :=
  match getTime a.createdAt, getTime b.createdAt with
  | some s, some t => s - t
  | _, _ => 0

def unconfirmedOptimistic (localMessages serverMessages : List Message) : List Message :=
  let serverIds := serverMessages.map Message.id
  localMessages.filter fun m => m.isOptimistic && ! serverIds.contains m.id

def reconcileMessages (getTime : String → Option Int) (serverMessages : List Message) (store : ChatState) : ChatState :=
  let merged := serverMessages ++ unconfirmedOptimistic store.messages serverMessages
  let sorted := merged.insertionSort fun a b => compareCreatedAt getTime a b ≤ 0
  { store with messages := keepFirst Message.id [] sorted }

def ValidDate (getTime : String → Option Int) (m : Message) : Prop := (getTime m.createdAt).isSome

instance (getTime : String → Option Int) (m : Message) : Decidable (ValidDate getTime m) :=
  inferInstanceAs (Decidable (_ = true))

def SortedByDate (getTime : String → Option Int) (messages : List Message) : Prop :=
  messages.Pairwise fun a b => ∃ s ∈ getTime a.createdAt, ∃ t ∈ getTime b.createdAt, s ≤ t

/-- What reconciling with the server's messages is for. -/
structure Reconciled (getTime : String → Option Int) (serverMessages : List Message) (store store' : ChatState) : Prop where
  sorted : SortedByDate getTime store'.messages
  distinct : (store'.messages.map Message.id).Nodup
  ids : ∀ id, id ∈ store'.messages.map Message.id ↔ id ∈ serverMessages.map Message.id ∨
    ∃ m ∈ store.messages, m.isOptimistic = true ∧ m.id ∉ serverMessages.map Message.id ∧ m.id = id
  again : store'.reconcileMessages getTime serverMessages = store'

variable {getTime : String → Option Int} {store : ChatState} {localMessages serverMessages : List Message}

theorem mem_unconfirmedOptimistic {m : Message} :
    m ∈ unconfirmedOptimistic localMessages serverMessages ↔
      m ∈ localMessages ∧ m.isOptimistic = true ∧ m.id ∉ serverMessages.map Message.id := by
  simp [unconfirmedOptimistic]

def time (getTime : String → Option Int) (m : Message) : Int := (getTime m.createdAt).getD 0

theorem compareCreatedAt_le {a b : Message} (left : ValidDate getTime a) (right : ValidDate getTime b) :
    compareCreatedAt getTime a b ≤ 0 ↔ time getTime a ≤ time getTime b := by
  obtain ⟨s, hs⟩ := Option.isSome_iff_exists.mp left
  obtain ⟨t, ht⟩ := Option.isSome_iff_exists.mp right
  simp only [compareCreatedAt, time, hs, ht, Option.getD_some]
  omega

theorem messages_reconcileMessages
    (valid : ∀ m ∈ serverMessages ++ unconfirmedOptimistic store.messages serverMessages, ValidDate getTime m) :
    (store.reconcileMessages getTime serverMessages).messages =
      mergeByTime Message.id (time getTime) serverMessages
        (unconfirmedOptimistic store.messages serverMessages) := by
  have same := List.map_insertionSort (fun a b => compareCreatedAt getTime a b ≤ 0)
    (fun a b => time getTime a ≤ time getTime b) id _
    fun a left b right => compareCreatedAt_le (valid a left) (valid b right)
  rw [List.map_id, List.map_id] at same
  exact congrArg (keepFirst Message.id []) same

theorem mem_of_mem_mergeByTime {m : Message} {optimistic : List Message}
    (member : m ∈ mergeByTime Message.id (time getTime) serverMessages optimistic) : m ∈ serverMessages ++ optimistic :=
  (List.mem_insertionSort _).mp ((keepFirst_sublist _).subset member)

/-- What is still optimistic after reconciling is what the server does not know. -/
theorem unconfirmedOptimistic_merged :
    unconfirmedOptimistic (mergeByTime Message.id (time getTime) serverMessages
        (unconfirmedOptimistic localMessages serverMessages)) serverMessages =
      (mergeByTime Message.id (time getTime) serverMessages (unconfirmedOptimistic localMessages serverMessages)).filter
        fun m => ! (serverMessages.map Message.id).contains m.id := by
  apply List.filter_congr
  intro m member
  by_cases known : m.id ∈ serverMessages.map Message.id
  · rw [List.contains_iff_mem.mpr known, Bool.not_true, Bool.and_false]
  · have optimistic : m ∈ unconfirmedOptimistic localMessages serverMessages :=
      (List.mem_append.mp (mem_of_mem_mergeByTime member)).resolve_left fun here =>
        known (List.mem_map_of_mem here)
    rw [(mem_unconfirmedOptimistic.mp optimistic).2.1, Bool.true_and]

theorem reconcileMessages_again
    (valid : ∀ m ∈ serverMessages ++ unconfirmedOptimistic store.messages serverMessages, ValidDate getTime m) :
    (store.reconcileMessages getTime serverMessages).reconcileMessages getTime serverMessages =
      store.reconcileMessages getTime serverMessages := by
  have first := messages_reconcileMessages valid
  have valid' : ∀ m ∈ serverMessages ++
      unconfirmedOptimistic (store.reconcileMessages getTime serverMessages).messages serverMessages,
      ValidDate getTime m := by
    intro m member
    rcases List.mem_append.mp member with here | there
    · exact valid m (List.mem_append_left _ here)
    · rw [first] at there
      exact valid m (mem_of_mem_mergeByTime (mem_unconfirmedOptimistic.mp there).1)
  have second := messages_reconcileMessages valid'
  rw [first, unconfirmedOptimistic_merged, mergeByTime_again] at second
  · have same : (store.reconcileMessages getTime serverMessages).messages =
        ((store.reconcileMessages getTime serverMessages).reconcileMessages getTime serverMessages).messages :=
      first.trans second.symm
    exact congrArg (fun messages => { store with messages }) same.symm
  · intro m here
    exact List.contains_iff_mem.mpr (List.mem_map_of_mem here)
  · intro m there
    simpa using (mem_unconfirmedOptimistic.mp there).2.2

/-- Reconciling loses and repeats no message, sorts them, and settles in one call. -/
theorem reconcileMessages_reconciled (getTime : String → Option Int) (store : ChatState) (serverMessages : List Message)
    (valid : ∀ m ∈ serverMessages ++ unconfirmedOptimistic store.messages serverMessages, ValidDate getTime m) :
    Reconciled getTime serverMessages store (store.reconcileMessages getTime serverMessages) := by
  have eq := messages_reconcileMessages valid
  constructor
  · rw [SortedByDate, eq]
    refine (sorted_mergeByTime _ _).imp_of_mem fun {a b} left right le => ?_
    obtain ⟨s, hs⟩ := Option.isSome_iff_exists.mp (valid a (mem_of_mem_mergeByTime left))
    obtain ⟨t, ht⟩ := Option.isSome_iff_exists.mp (valid b (mem_of_mem_mergeByTime right))
    exact ⟨s, hs, t, ht, by simpa [time, hs, ht] using le⟩
  · rw [eq]
    exact nodup_map_keepFirst _
  · intro id
    rw [eq, mem_map_mergeByTime, List.map_append, List.mem_append]
    refine or_congr_right ?_
    simp only [List.mem_map, mem_unconfirmedOptimistic, and_assoc]
  · exact reconcileMessages_again valid

/-- Dates as the witness has them. -/
def seconds (createdAt : String) : Option Int :=
  if createdAt = "1970-01-01T00:00:01.000Z" then some 1000
  else if createdAt = "1970-01-01T00:00:02.000Z" then some 2000
  else none

def confirmed : Message := ⟨"m1", "t", .user, "hi", none, none, "1970-01-01T00:00:01.000Z", false⟩

def answer : Message := ⟨"m2", "t", .assistant, "hello", none, none, "1970-01-01T00:00:02.000Z", false⟩

def pending : Message := ⟨"temp_1", "t", .user, "and", none, none, "1970-01-01T00:00:02.000Z", true⟩

theorem reconcileMessages_reconciled_pending :
    Reconciled seconds [answer, confirmed, answer] ⟨[confirmed, pending, pending], some "t", false, ""⟩
      ⟨[confirmed, answer, pending], some "t", false, ""⟩ :=
  reconcileMessages_reconciled seconds ⟨[confirmed, pending, pending], some "t", false, ""⟩
    [answer, confirmed, answer] (by decide)

end ChatState

end CuckooEcho.Frontend
