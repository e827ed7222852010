import CuckooEcho.Frontend.ThreadCache
import Mathlib.Algebra.Order.BigOperators.Group.List
import Mathlib.Algebra.Order.Group.Nat
import Mathlib.Data.List.Perm.Subperm

namespace CuckooEcho.Frontend
open Lib Json

/-! ## Reading the cache of threads -/

def ttlMs (config : CacheConfig) : Int := config.ttlDays * 24 * 60 * 60 * 1000

def expired (config : CacheConfig) (now : Int) (thread : CachedThread) : Bool :=
  thread.cachedAt + ttlMs config < now

def loadThread (config : CacheConfig) (threadId : JsString) (now : Int) (store : CacheStore) :
    Option CachedThread × CacheStore :=
  match store.get threadId with
  | none => (none, store)
  | some cached => if expired config now cached then (none, store.del threadId) else (some cached, store)

def clearExpired (config : CacheConfig) (now : Int) (store : CacheStore) : CacheStore :=
  store.entries.foldl (fun left e => if expired config now e.2 then left.del e.1 else left) store

def deleteThread (threadId : JsString) (store : CacheStore) : CacheStore := store.del threadId

inductive CacheCall
  | saveThread (save : Save)
  | loadThread (threadId : JsString) (now : Int)
  | clearExpired (now : Int)
  | deleteThread (threadId : JsString)

def CacheCall.run (config : CacheConfig) (store : CacheStore) : CacheCall → CacheStore
  | .saveThread save => Frontend.saveThread config save store
  | .loadThread threadId now => (Frontend.loadThread config threadId now store).2
  | .clearExpired now => Frontend.clearExpired config now store
  | .deleteThread threadId => Frontend.deleteThread threadId store

/-- Calls that do not overlap. -/
def cacheAfter (config : CacheConfig) (calls : List CacheCall) : CacheStore :=
  calls.foldl (CacheCall.run config) OrderedStore.empty

/-! ## What the calls have saved -/

def CacheCall.saved : CacheCall → Option Save
  | .saveThread save => some save
  | _ => none

/-- The time that the call reads, unless it reads none. -/
def CacheCall.now : CacheCall → Option Int
  | .saveThread save => some save.now
  | .loadThread _ now | .clearExpired now => some now
  | .deleteThread _ => none

/-- The last save of the thread, unless the thread has been deleted since. -/
def lastSave (threadId : JsString) (calls : List CacheCall) : Option Save :=
  calls.foldl (fun last call =>
    match call with
    | .saveThread save => if save.threadId = threadId then some save else last
    | .deleteThread deleted => if deleted = threadId then none else last
    | .loadThread _ _ | .clearExpired _ => last) none

/-- What a cache without a limit has of the thread. -/
def remembered (config : CacheConfig) (calls : List CacheCall) (threadId : JsString) (now : Int) :
    Option CachedThread :=
  ((lastSave threadId calls).map (cachedThread config)).filter fun thread => !expired config now thread

/-- The sizes of what has been saved since the time. -/
def sizeSince (config : CacheConfig) (calls : List CacheCall) (time : Int) : Nat :=
  (((calls.filterMap CacheCall.saved).filter (time ≤ ·.now)).map fun save => (cachedThread config save).sizeBytes).sum

variable {config : CacheConfig} {store : CacheStore} {calls : List CacheCall} {threadId : JsString}

theorem mem_clearExpired {now : Int} {e : CacheEntry} :
    e ∈ (clearExpired config now store).entries ↔ e ∈ store.entries ∧ expired config now e.2 = false := by
  have loop (entries : List CacheEntry) (left : CacheStore) :
      entries.foldl (fun left e => if expired config now e.2 then left.del e.1 else left) left =
        ((entries.filter fun e => expired config now e.2).map Prod.fst).foldl OrderedStore.del left := by
    induction entries generalizing left with
    | nil => rfl
    | cons e entries ih =>
        rw [List.foldl_cons, ih, List.filter_cons]
        split <;> rfl
  rw [clearExpired, loop, OrderedStore.mem_foldl_del, and_congr_right_iff]
  intro member
  constructor
  · intro kept
    by_contra gone
    refine kept (List.mem_map_of_mem (List.mem_filter.mpr ⟨member, ?_⟩))
    simpa using gone
  · intro kept gone
    obtain ⟨e', here, same⟩ := List.mem_map.mp gone
    obtain ⟨present, expires⟩ := List.mem_filter.mp here
    have equal := List.inj_on_of_nodup_map store.nodup_keys present member same
    rw [equal, kept] at expires
    simp at expires

theorem mem_loadThread {now : Int} {e : CacheEntry} : e ∈ (loadThread config threadId now store).2.entries ↔
    e ∈ store.entries ∧ (e.1 = threadId → expired config now e.2 = false) := by
  unfold loadThread
  cases found : store.get threadId with
  | none =>
      refine (and_iff_left_of_imp fun member same => ?_).symm
      have present := OrderedStore.get_eq_some.mpr (show (e.1, e.2) ∈ store.entries from member)
      simp [same, found] at present
  | some cached =>
      have here := OrderedStore.get_eq_some.mp found
      have own (member : e ∈ store.entries) (same : e.1 = threadId) : e.2 = cached := by
        subst same
        exact OrderedStore.eq_of_mem member here
      by_cases gone : expired config now cached = true
      · simp only [gone, if_true, OrderedStore.mem_del, and_congr_right_iff]
        intro member
        refine ⟨fun other same => absurd same other, fun kept same => ?_⟩
        rw [own member same, gone] at kept
        exact absurd (kept same) Bool.true_eq_false.mp
      · simp only [gone]
        exact (and_iff_left_of_imp fun member same => by rw [own member same]; simpa using gone).symm

/-! ## What an eviction leaves -/

theorem mem_of_mem_evictIfNeeded {e : CacheEntry} (member : e ∈ (evictIfNeeded config store).entries) :
    e ∈ store.entries := by
  obtain ⟨n, -, left, -⟩ := entries_evictIfNeeded config store
  exact (oldestFirst_perm store).mem_iff.mp (List.mem_of_mem_drop (left.mem_iff.mp member))

theorem recordedSize_le {entries entries' : List CacheEntry} (sublist : entries.Sublist entries') :
    recordedSize entries ≤ recordedSize entries' := (sublist.map _).sum_le_sum fun _ _ => Nat.zero_le _

/-- A thread stays while all that is not older than it fits. -/
theorem mem_evictIfNeeded_of_fits {e : CacheEntry} (member : e ∈ store.entries)
    (fits : recordedSize (store.entries.filter (e.2.cachedAt ≤ ·.2.cachedAt)) ≤ config.maxSizeBytes) :
    e ∈ (evictIfNeeded config store).entries := by
  obtain ⟨n, -, left, sheds⟩ := entries_evictIfNeeded config store
  obtain ⟨older, newer, split⟩ := List.append_of_mem ((oldestFirst_perm store).mem_iff.mpr member)
  have sorted := oldestFirst_sorted store
  rw [split] at sorted
  have young : (e :: newer).filter (e.2.cachedAt ≤ ·.2.cachedAt) = e :: newer := by
    refine List.filter_eq_self.mpr (List.forall_mem_cons.mpr ⟨by simp, fun f later => ?_⟩)
    have order := (List.pairwise_cons.mp (List.pairwise_append.mp sorted).2.1).1 f later
    rcases order with before | ⟨same, -⟩
    · simpa using before.le
    · simp [same]
  have suffix : e :: newer <:+ oldestFirst store := ⟨older, split.symm⟩
  have small : recordedSize (e :: newer) ≤ config.maxSizeBytes := by
    refine le_trans ?_ fits
    rw [← recordedSize_perm ((oldestFirst_perm store).filter _), ← young]
    exact recordedSize_le (suffix.sublist.filter _)
  exact left.mem_iff.mpr ((sheds.suffix_drop suffix small).subset List.mem_cons_self)

/-! ## Runs of calls -/

theorem lastSave_concat (threadId : JsString) (calls : List CacheCall) (call : CacheCall) :
    lastSave threadId (calls ++ [call]) =
      match call with
      | .saveThread save => if save.threadId = threadId then some save else lastSave threadId calls
      | .deleteThread deleted => if deleted = threadId then none else lastSave threadId calls
      | .loadThread _ _ | .clearExpired _ => lastSave threadId calls := by
  rw [lastSave, List.foldl_concat]
  rfl

theorem cacheAfter_concat (config : CacheConfig) (calls : List CacheCall) (call : CacheCall) :
    cacheAfter config (calls ++ [call]) = call.run config (cacheAfter config calls) := List.foldl_concat ..

theorem lastSave_saved {save : Save} (last : lastSave threadId calls = some save) :
    save ∈ calls.filterMap CacheCall.saved ∧ save.threadId = threadId := by
  induction calls using List.reverseRecOn with
  | nil => simp [lastSave] at last
  | append_singleton calls call ih =>
      rw [lastSave_concat] at last
      rw [List.filterMap_append]
      have earlier (last : lastSave threadId calls = some save) :
          save ∈ calls.filterMap CacheCall.saved ++ [call].filterMap CacheCall.saved ∧ save.threadId = threadId :=
        (ih last).imp_left (List.mem_append_left _)
      cases call with
      | saveThread now =>
          by_cases own : now.threadId = threadId
          · obtain rfl := Option.some.inj ((if_pos own).symm.trans last)
            exact ⟨List.mem_append_right _ (by simp [CacheCall.saved]), own⟩
          · exact earlier ((if_neg own).symm.trans last)
      | deleteThread deleted =>
          by_cases own : deleted = threadId
          · exact absurd ((if_pos own).symm.trans last) (by simp)
          · exact earlier ((if_neg own).symm.trans last)
      | loadThread _ _ | clearExpired _ => exact earlier last

/-- Every thread in the store is the last save of its id. -/
def Backed (config : CacheConfig) (calls : List CacheCall) (store : CacheStore) : Prop :=
  ∀ e ∈ store.entries, ∃ save, lastSave e.1 calls = some save ∧ e.2 = cachedThread config save

theorem backed_putThread (backed : Backed config calls store) (save : Save) :
    Backed config (calls ++ [.saveThread save]) (putThread config save store) := by
  intro e member
  rw [lastSave_concat]
  rcases OrderedStore.mem_put.mp member with rfl | ⟨old, other⟩
  · exact ⟨save, if_pos rfl, rfl⟩
  · obtain ⟨before, last, eq⟩ := backed e old
    exact ⟨before, (if_neg (Ne.symm other)).trans last, eq⟩

theorem backed_cacheAfter (config : CacheConfig) (calls : List CacheCall) :
    Backed config calls (cacheAfter config calls) := by
  induction calls using List.reverseRecOn with
  | nil => exact fun e none => absurd none List.not_mem_nil
  | append_singleton calls call ih =>
      rw [cacheAfter_concat]
      cases call with
      | saveThread save => exact fun e member => backed_putThread ih save e (mem_of_mem_evictIfNeeded member)
      | deleteThread deleted =>
          intro e member
          obtain ⟨old, other⟩ := OrderedStore.mem_del.mp member
          obtain ⟨before, last, eq⟩ := ih e old
          refine ⟨before, ?_, eq⟩
          rw [lastSave_concat]
          exact (if_neg (Ne.symm other)).trans last
      | loadThread _ _ =>
          intro e member
          rw [lastSave_concat]
          exact ih e (mem_loadThread.mp member).1
      | clearExpired _ =>
          intro e member
          rw [lastSave_concat]
          exact ih e (mem_clearExpired.mp member).1

/-- What is cached and not older than a time takes no more than what has been saved since. -/
theorem Backed.recordedSize_since (backed : Backed config calls store) (time : Int) :
    recordedSize (store.entries.filter (time ≤ ·.2.cachedAt)) ≤ sizeSince config calls time := by
  let young := store.entries.filter (time ≤ ·.2.cachedAt)
  let saves := (young.map Prod.fst).filterMap fun threadId => lastSave threadId calls
  have sizes (entries : List CacheEntry) (cached : ∀ e ∈ entries, e ∈ store.entries) :
      recordedSize entries = (((entries.map Prod.fst).filterMap fun threadId => lastSave threadId calls).map
        fun save => (cachedThread config save).sizeBytes).sum := by
    induction entries with
    | nil => rfl
    | cons e entries ih =>
        obtain ⟨here, later⟩ := List.forall_mem_cons.mp cached
        obtain ⟨save, last, eq⟩ := backed e here
        have first : ((e :: entries).map Prod.fst).filterMap (fun threadId => lastSave threadId calls) =
            save :: (entries.map Prod.fst).filterMap fun threadId => lastSave threadId calls := by
          simp [last]
        rw [first, List.map_cons, List.sum_cons, ← ih later, ← eq]
        rfl
  have distinct : saves.Nodup := by
    have keys : (young.map Prod.fst).Nodup :=
      (OrderedStore.nodup_keys _).sublist (List.filter_sublist.map Prod.fst)
    refine keys.filterMap fun k k' save last last' => ?_
    rw [← (lastSave_saved last).2, (lastSave_saved last').2]
  have among : saves ⊆ (calls.filterMap CacheCall.saved).filter (time ≤ ·.now) := by
    intro save member
    obtain ⟨threadId, here, last⟩ := List.mem_filterMap.mp member
    obtain ⟨e, member, rfl⟩ := List.mem_map.mp here
    obtain ⟨cached, recent⟩ := List.mem_filter.mp member
    obtain ⟨save', last', eq⟩ := backed e cached
    obtain rfl := Option.some.inj (last.symm.trans last')
    rw [eq] at recent
    exact List.mem_filter.mpr ⟨(lastSave_saved last).1, recent⟩
  rw [sizes _ fun e member => (List.mem_filter.mp member).1]
  obtain ⟨rest, perm, sublist⟩ := List.subperm_of_subset distinct among
  rw [← (perm.map _).sum_eq]
  exact (sublist.map _).sum_le_sum fun _ _ => Nat.zero_le _

theorem sizeSince_concat (config : CacheConfig) (calls : List CacheCall) (call : CacheCall) (time : Int) :
    sizeSince config calls time ≤ sizeSince config (calls ++ [call]) time := by
  unfold sizeSince
  rw [List.filterMap_append, List.filter_append, List.map_append, List.sum_append]
  exact Nat.le_add_right _ _

/-- The last save of a thread is cached while all that has been saved since fits and no call has found it expired. -/
theorem mem_of_lastSave {save : Save} (last : lastSave threadId calls = some save)
    (fits : sizeSince config calls save.now ≤ config.maxSizeBytes)
    (fresh : ∀ call ∈ calls, ∀ now ∈ call.now, expired config now (cachedThread config save) = false) :
    (threadId, cachedThread config save) ∈ (cacheAfter config calls).entries := by
  induction calls using List.reverseRecOn with
  | nil => simp [lastSave] at last
  | append_singleton calls call ih =>
      have before (last : lastSave threadId calls = some save) :
          (threadId, cachedThread config save) ∈ (cacheAfter config calls).entries :=
        ih last ((sizeSince_concat ..).trans fits) fun call' here => fresh call' (List.mem_append_left _ here)
      have now := fresh call (List.mem_append_right _ (List.mem_singleton.mpr rfl))
      rw [lastSave_concat] at last
      rw [cacheAfter_concat]
      cases call with
      | saveThread other =>
          have backed := backed_putThread (backed_cacheAfter config calls) other
          refine mem_evictIfNeeded_of_fits ?_ ((backed.recordedSize_since save.now).trans fits)
          by_cases own : other.threadId = threadId
          · obtain rfl := Option.some.inj ((if_pos own).symm.trans last)
            exact OrderedStore.mem_put.mpr (Or.inl (by rw [own]))
          · exact OrderedStore.mem_put.mpr (Or.inr ⟨before ((if_neg own).symm.trans last), Ne.symm own⟩)
      | deleteThread deleted =>
          by_cases own : deleted = threadId
          · exact absurd ((if_pos own).symm.trans last) (by simp)
          · exact OrderedStore.mem_del.mpr ⟨before ((if_neg own).symm.trans last), Ne.symm own⟩
      | loadThread _ time => exact mem_loadThread.mpr ⟨before last, fun _ => now time rfl⟩
      | clearExpired time => exact mem_clearExpired.mpr ⟨before last, now time rfl⟩

/-! ## What a load returns -/

theorem loadThread_eq (config : CacheConfig) (threadId : JsString) (now : Int) (store : CacheStore) :
    (loadThread config threadId now store).1 =
      (store.get threadId).filter fun thread => !expired config now thread := by
  unfold loadThread
  cases found : store.get threadId with
  | none => rfl
  | some cached => by_cases gone : expired config now cached = true <;> simp [Option.filter, gone]

/-- A load returns the thread as it was saved last or nothing: nothing that is older than its time to live, has been
deleted or has been saved over since. It returns the last save if all that has been saved since, and no earlier than
it, fits. -/
theorem loadThread_remembers (config : CacheConfig) (calls : List CacheCall) (threadId : JsString) (now : Int) :
    let loaded := (loadThread config threadId now (cacheAfter config calls)).1
    (loaded = none ∨ loaded = remembered config calls threadId now) ∧
      ((∀ call ∈ calls, ∀ time ∈ call.now, time ≤ now) →
        (∀ save ∈ lastSave threadId calls, sizeSince config calls save.now ≤ config.maxSizeBytes) →
        loaded = remembered config calls threadId now) := by
  dsimp only
  rw [loadThread_eq]
  have safe : ((cacheAfter config calls).get threadId).filter (fun thread => !expired config now thread) = none ∨
      ((cacheAfter config calls).get threadId).filter (fun thread => !expired config now thread) =
        remembered config calls threadId now := by
    cases found : (cacheAfter config calls).get threadId with
    | none => exact Or.inl rfl
    | some cached =>
        obtain ⟨save, last, rfl⟩ := backed_cacheAfter config calls _ (OrderedStore.get_eq_some.mp found)
        refine Or.inr ?_
        rw [remembered, last]
        rfl
  refine ⟨safe, fun clock fits => ?_⟩
  rcases safe with missed | found
  · rw [missed]
    cases last : lastSave threadId calls with
    | none => rw [remembered, last]; rfl
    | some save =>
        rw [remembered, last, Option.map_some]
        by_cases gone : expired config now (cachedThread config save) = true
        · simp [Option.filter, gone]
        · have member := mem_of_lastSave last (fits save last) fun call here time read => by
            have early := clock call here time read
            simp only [expired, decide_eq_true_eq, decide_eq_false_iff_not] at gone ⊢
            omega
          rw [OrderedStore.get_eq_some.mpr member] at missed
          exact missed.symm
  · exact found

end CuckooEcho.Frontend
