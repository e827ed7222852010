import CuckooEcho.Frontend.SseClient
import CuckooEcho.Lib.Json.Stringify
import CuckooEcho.Lib.OrderedStore
import CuckooEcho.Lib.Ranking
import Mathlib.Data.List.Lex

namespace CuckooEcho.Frontend
open Lib Json

/-! ## The cache of threads -/

structure CacheConfig where
  maxSizeBytes : Nat := 10 * 1024 * 1024
  maxMessages : Nat := 50
  maxThreads : Nat := 20
  ttlDays : Nat := 7
  deriving DecidableEq, Repr

structure CachedThread where
  id : JsString
  threadMeta : Value
  messages : List Value
  cachedAt : Int
  sizeBytes : Nat

/-- The store of the browser returns its entries in the order of their keys. -/
abbrev CacheStore := OrderedStore JsString CachedThread

abbrev CacheEntry := JsString × CachedThread

/-- `messages.slice(-count)`. -/
def sliceLast {α : Type*} (count : Nat) (messages : List α) : List α :=
  if count = 0 then messages else messages.drop (messages.length - count)

def serialized (threadMeta : Value) (messages : List Value) : JsString :=
  (Value.obj [(ascii "meta", threadMeta), (ascii "messages", .arr messages)]).stringify

/-- The arguments of a call of `saveThread`, and the time of the clock. -/
structure Save where
  threadId : JsString
  threadMeta : Value
  messages : List Value
  now : Int

variable (config : CacheConfig)

def cachedThread (save : Save) : CachedThread :=
  let trimmed := sliceLast config.maxMessages save.messages
  { id := save.threadId
    threadMeta := save.threadMeta
    messages := trimmed
    cachedAt := save.now
    sizeBytes := (serialized save.threadMeta trimmed).length }

def totalSize (entries : List CacheEntry) : Nat := entries.foldl (fun sum e => sum + e.2.sizeBytes) 0

def oldestFirst (store : CacheStore) : List CacheEntry :=
  store.entries.insertionSort fun a b => a.2.cachedAt - b.2.cachedAt ≤ 0

/-- The loop of `evictIfNeeded`, with the size of what is still cached. -/
def evictLoop : Nat → List CacheEntry → CacheStore → CacheStore
  | _, [], store => store
  | total, (key, thread) :: rest, store =>
      if total ≤ config.maxSizeBytes then store
      else evictLoop (total - thread.sizeBytes) rest (store.del key)

def evictIfNeeded (store : CacheStore) : CacheStore :=
  if totalSize store.entries ≤ config.maxSizeBytes then store
  else evictLoop config (totalSize store.entries) (oldestFirst store) store

/-- The store after the call has put its thread, and before it evicts any. -/
def putThread (save : Save) (store : CacheStore) : CacheStore := store.put save.threadId (cachedThread config save)

def saveThread (save : Save) (store : CacheStore) : CacheStore := evictIfNeeded config (putThread config save store)

/-- Calls that do not overlap. -/
def saveThreads (saves : List Save) : CacheStore :=
  saves.foldl (fun store save => saveThread config save store) OrderedStore.empty

/-! ## What a call evicts -/

def Older (a b : CacheEntry) : Prop :=
  a.2.cachedAt < b.2.cachedAt ∨ (a.2.cachedAt = b.2.cachedAt ∧ a.1 < b.1)

def recordedSize (entries : List CacheEntry) : Nat := (entries.map fun e => e.2.sizeBytes).sum

/-- The oldest entries are gone, and no fewer of them would do. -/
structure EvictsOldest (limit : Nat) (before after : CacheStore) (oldest kept : List CacheEntry) : Prop where
  all : (oldest ++ kept).Perm before.entries
  order : (oldest ++ kept).Pairwise Older
  left : after.entries.Perm kept
  fits : recordedSize after.entries ≤ limit
  shortest : ∀ fewer < oldest.length, limit < recordedSize ((oldest ++ kept).drop fewer)

variable {config} {store : CacheStore}

theorem totalSize_eq (entries : List CacheEntry) : totalSize entries = recordedSize entries := by
  have from_start (start : Nat) :
      entries.foldl (fun sum e => sum + e.2.sizeBytes) start = start + recordedSize entries := by
    induction entries generalizing start with
    | nil => rfl
    | cons e entries ih =>
        rw [List.foldl_cons, ih, Nat.add_assoc]
        rfl
  exact (from_start 0).trans (Nat.zero_add _)

theorem recordedSize_perm {entries entries' : List CacheEntry} (perm : entries.Perm entries') :
    recordedSize entries = recordedSize entries' := (perm.map _).sum_eq

theorem oldestFirst_perm (store : CacheStore) : (oldestFirst store).Perm store.entries := List.perm_insertionSort _ _

theorem oldestFirst_sorted (store : CacheStore) : (oldestFirst store).Pairwise Older := by
  have ascending (a b : CacheEntry) : a.2.cachedAt - b.2.cachedAt ≤ 0 ↔ a.2.cachedAt ≤ b.2.cachedAt := by omega
  have sorted : (oldestFirst store).Pairwise
      (Precedes (fun e : CacheEntry => OrderDual.toDual e.2.cachedAt) fun a b => a.1 < b.1) :=
    pairwise_precedes_insertionSort ascending store.sorted
  exact sorted.imp fun precedes => precedes

/-- The loop deletes the threads that must go. -/
theorem evictLoop_eq (total : Nat) (entries : List CacheEntry) (store : CacheStore) :
    evictLoop config total entries store =
      ((shed (fun e => e.2.sizeBytes) config.maxSizeBytes total entries).map Prod.fst).foldl OrderedStore.del store := by
  induction entries generalizing total store with
  | nil => rfl
  | cons e entries ih =>
      rw [evictLoop, shed]
      split
      · rfl
      · exact ih _ _

theorem evictIfNeeded_eq (store : CacheStore) :
    evictIfNeeded config store =
      ((shed (fun e => e.2.sizeBytes) config.maxSizeBytes (recordedSize store.entries)
        (oldestFirst store)).map Prod.fst).foldl OrderedStore.del store := by
  rw [evictIfNeeded, evictLoop_eq, totalSize_eq]
  split
  · rename_i fits
    cases oldestFirst store with
    | nil => rfl
    | cons e entries => rw [shed, if_pos fits]; rfl
  · rfl

/-- What is left are the threads after the first few of the oldest. -/
theorem entries_evictIfNeeded (config : CacheConfig) (store : CacheStore) :
    ∃ n ≤ (oldestFirst store).length, (evictIfNeeded config store).entries.Perm ((oldestFirst store).drop n) ∧
      Sheds (fun e : CacheEntry => e.2.sizeBytes) config.maxSizeBytes (oldestFirst store) n := by
  obtain ⟨n, bound, eq, sheds⟩ :=
    exists_sheds (fun e : CacheEntry => e.2.sizeBytes) config.maxSizeBytes (oldestFirst store)
  refine ⟨n, bound, ?_, sheds⟩
  have total : recordedSize store.entries = ((oldestFirst store).map fun e => e.2.sizeBytes).sum :=
    (recordedSize_perm (oldestFirst_perm store)).symm
  rw [evictIfNeeded_eq, total, eq]
  apply OrderedStore.foldl_del_perm
  rw [List.take_append_drop]
  exact oldestFirst_perm store

theorem evictIfNeeded_evictsOldest (store : CacheStore) :
    ∃ oldest kept, EvictsOldest config.maxSizeBytes store (evictIfNeeded config store) oldest kept := by
  obtain ⟨n, bound, left, fits, needed⟩ := entries_evictIfNeeded config store
  refine ⟨(oldestFirst store).take n, (oldestFirst store).drop n, ?_, ?_, left, ?_, ?_⟩
  · rw [List.take_append_drop]
    exact oldestFirst_perm store
  · rw [List.take_append_drop]
    exact oldestFirst_sorted store
  · rw [recordedSize_perm left]
    exact fits
  · intro fewer below
    rw [List.take_append_drop]
    exact needed fewer (Nat.lt_of_lt_of_le below (List.length_take_le _ _))

/-- After each call the recorded sizes fit, and the call has evicted the shortest run of the oldest threads that
makes them fit. -/
theorem saveThread_evicts_oldest (config : CacheConfig) (saves : List Save) (save : Save) :
    ∃ oldest kept, EvictsOldest config.maxSizeBytes (putThread config save (saveThreads config saves))
      (saveThreads config (saves ++ [save])) oldest kept := by
  rw [saveThreads, saveThreads, List.foldl_append]
  exact evictIfNeeded_evictsOldest _

end CuckooEcho.Frontend
