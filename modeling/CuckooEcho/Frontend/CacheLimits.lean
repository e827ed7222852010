import CuckooEcho.Frontend.ThreadCache
import CuckooEcho.Lib.Run
import Mathlib.Algebra.Order.BigOperators.Group.List
import Mathlib.Algebra.Order.Group.Nat

namespace CuckooEcho.Frontend
open Lib Json

/-! ## The limits of the cache -/

def totalBytes (entries : List CacheEntry) : Nat :=
  (entries.map fun e => utf8Size (serialized e.2.threadMeta e.2.messages)).sum

structure Honours (config : CacheConfig) (store : CacheStore) : Prop where
  threads : store.entries.length ≤ config.maxThreads
  messages : ∀ e ∈ store.entries, e.2.messages.length ≤ config.maxMessages
  bytes : totalBytes store.entries ≤ config.maxSizeBytes

def saveStep (config : CacheConfig) (store : CacheStore) (save : Save) : Option CacheStore :=
  some (saveThread config save store)

/-- The call finds room for one more thread or evicts one, does not keep the messages that a limit of none is to cut
off, and keeps no threads that fit in code units but not in bytes. -/
structure Within (config : CacheConfig) (store : CacheStore) (save : Save) : Prop where
  threads : save.threadId ∈ store.keys ∨ store.entries.length < config.maxThreads ∨
    config.maxSizeBytes < recordedSize (putThread config save store).entries
  messages : config.maxMessages ≠ 0 ∨ save.messages = [] ∨
    ∀ newest, newest <:+ oldestFirst (putThread config save store) →
      (save.threadId, cachedThread config save) ∈ newest → config.maxSizeBytes < recordedSize newest
  bytes : ∀ newest, newest <:+ oldestFirst (putThread config save store) →
    recordedSize newest ≤ config.maxSizeBytes → totalBytes newest ≤ config.maxSizeBytes

variable {config : CacheConfig} {store : CacheStore} {save : Save}

theorem length_sliceLast_le {α : Type*} {count : Nat} (some : count ≠ 0) (messages : List α) :
    (sliceLast count messages).length ≤ count := by
  rw [sliceLast, if_neg some, List.length_drop]
  omega

theorem sliceLast_zero {α : Type*} (messages : List α) : sliceLast 0 messages = messages := rfl

theorem totalBytes_perm {entries entries' : List CacheEntry} (perm : entries.Perm entries') :
    totalBytes entries = totalBytes entries' := (perm.map _).sum_eq

theorem totalBytes_le {entries entries' : List CacheEntry} (sublist : entries.Sublist entries') :
    totalBytes entries ≤ totalBytes entries' := (sublist.map _).sum_le_sum fun _ _ => Nat.zero_le _

/-- What a call leaves: the end of the order by age that its eviction keeps. -/
structure Saved (config : CacheConfig) (store : CacheStore) (save : Save) (n : Nat) : Prop where
  left : (saveThread config save store).entries.Perm ((oldestFirst (putThread config save store)).drop n)
  sheds : Sheds (fun e : CacheEntry => e.2.sizeBytes) config.maxSizeBytes (oldestFirst (putThread config save store)) n
  length : (saveThread config save store).entries.length = (store.del save.threadId).entries.length + 1 - n

theorem exists_saved (config : CacheConfig) (store : CacheStore) (save : Save) : ∃ n, Saved config store save n := by
  obtain ⟨n, -, left, sheds⟩ := entries_evictIfNeeded config (putThread config save store)
  refine ⟨n, left, sheds, left.length_eq.trans ?_⟩
  rw [List.length_drop, (oldestFirst_perm _).length_eq, putThread, OrderedStore.length_put]

namespace Saved
variable {n : Nat}

theorem fits (h : Saved config store save n) :
    recordedSize ((oldestFirst (putThread config save store)).drop n) ≤ config.maxSizeBytes := h.sheds.fits

theorem nothing_evicted (h : Saved config store save n)
    (fits : recordedSize (putThread config save store).entries ≤ config.maxSizeBytes) : n = 0 := by
  by_contra evicted
  have needed := h.sheds.needed 0 (Nat.pos_of_ne_zero evicted)
  rw [List.drop_zero] at needed
  rw [← recordedSize_perm (oldestFirst_perm (putThread config save store))] at fits
  exact absurd fits (Nat.not_le_of_lt needed)

theorem mem (h : Saved config store save n) {e : CacheEntry} (member : e ∈ (saveThread config save store).entries) :
    e = (save.threadId, cachedThread config save) ∨ e ∈ store.entries := by
  have here := List.mem_of_mem_drop (h.left.mem_iff.mp member)
  exact (OrderedStore.mem_put.mp ((oldestFirst_perm _).mem_iff.mp here)).imp id And.left

theorem threads_le (h : Saved config store save n) (before : store.entries.length ≤ config.maxThreads)
    (room : save.threadId ∈ store.keys ∨ store.entries.length < config.maxThreads ∨
      config.maxSizeBytes < recordedSize (putThread config save store).entries) :
    (saveThread config save store).entries.length ≤ config.maxThreads := by
  have fewer : (store.del save.threadId).entries.length ≤ store.entries.length := List.length_filter_le _ _
  rw [h.length]
  rcases room with present | less | full
  · have replaced := OrderedStore.length_del_lt present
    omega
  · omega
  · have evicted : n ≠ 0 := by
      rintro rfl
      have fits := h.fits
      rw [List.drop_zero, recordedSize_perm (oldestFirst_perm _)] at fits
      exact absurd fits (Nat.not_le_of_lt full)
    omega

theorem room_of_threads_le (h : Saved config store save n)
    (after : (saveThread config save store).entries.length ≤ config.maxThreads) :
    save.threadId ∈ store.keys ∨ store.entries.length < config.maxThreads ∨
      config.maxSizeBytes < recordedSize (putThread config save store).entries := by
  by_contra full
  obtain ⟨absent, full⟩ := not_or.mp full
  obtain ⟨full, fits⟩ := not_or.mp full
  rw [h.length, h.nothing_evicted (Nat.le_of_not_lt fits), OrderedStore.del_of_not_mem absent] at after
  omega

theorem newest_mem (h : Saved config store save n) {newest : List CacheEntry}
    (suffix : newest <:+ oldestFirst (putThread config save store))
    (fits : recordedSize newest ≤ config.maxSizeBytes) {e : CacheEntry} (member : e ∈ newest) :
    e ∈ (saveThread config save store).entries :=
  h.left.mem_iff.mpr ((h.sheds.suffix_drop suffix fits).subset member)

theorem newest_bytes (h : Saved config store save n) {newest : List CacheEntry}
    (suffix : newest <:+ oldestFirst (putThread config save store))
    (fits : recordedSize newest ≤ config.maxSizeBytes) :
    totalBytes newest ≤ totalBytes (saveThread config save store).entries := by
  rw [totalBytes_perm h.left]
  exact totalBytes_le (h.sheds.suffix_drop suffix fits).sublist

end Saved

theorem honours_saveThread (before : Honours config store) (within : Within config store save) :
    Honours config (saveThread config save store) := by
  obtain ⟨n, saved⟩ := exists_saved config store save
  refine ⟨saved.threads_le before.threads within.threads, fun e member => ?_, ?_⟩
  · obtain rfl | old := saved.mem member
    · rcases within.messages with some | none | gone
      · exact length_sliceLast_le some _
      · simp [cachedThread, none, sliceLast]
      · have kept := saved.left.mem_iff.mp member
        exact absurd saved.fits (Nat.not_le_of_lt (gone _ (List.drop_suffix _ _) kept))
    · exact before.messages e old
  · rw [totalBytes_perm saved.left]
    exact within.bytes _ (List.drop_suffix _ _) saved.fits

theorem within_of_honours (after : Honours config (saveThread config save store)) : Within config store save := by
  obtain ⟨n, saved⟩ := exists_saved config store save
  refine ⟨saved.room_of_threads_le after.threads, ?_, fun newest suffix fits => ?_⟩
  · by_cases some : config.maxMessages ≠ 0
    · exact .inl some
    by_cases none : save.messages = []
    · exact .inr (.inl none)
    refine .inr (.inr fun newest suffix member => Nat.lt_of_not_le fun fits => none ?_)
    have bound := after.messages _ (saved.newest_mem suffix fits member)
    have limit := not_not.mp some
    rw [cachedThread, limit, sliceLast_zero] at bound
    exact List.length_eq_zero_iff.mp (Nat.le_zero.mp bound)
  · exact (saved.newest_bytes suffix fits).trans after.bytes

theorem honours_empty (config : CacheConfig) : Honours config OrderedStore.empty :=
  ⟨Nat.zero_le _, fun _ none => absurd none List.not_mem_nil, Nat.zero_le _⟩

/-- The limits are honoured throughout exactly the runs whose calls stay within them of themselves: nothing counts
threads, a limit of no messages cuts off none, and sizes are counted in code units. -/
theorem honours_iff_within (config : CacheConfig) (saves : List Save) :
    Throughout (saveStep config) (Honours config) OrderedStore.empty saves ↔
      Along (saveStep config) (Within config) OrderedStore.empty saves := by
  refine throughout_iff_along_any (Honours config) (fun _ honours => honours) ?_ ?_ (honours_empty config)
  · intro store save store' before within next
    obtain rfl := Option.some.inj next
    exact honours_saveThread before within
  · intro store save store' _ next after
    obtain rfl := Option.some.inj next
    exact within_of_honours after

/-- One thread more than the default configuration allows. -/
def twentyOne : List Save := (List.range 21).map fun n => ⟨[0x61 + n], .null, [], n⟩

theorem twentyOne_not_honours :
    ¬ ∀ (config : CacheConfig) (saves : List Save),
      Throughout (saveStep config) (Honours config) OrderedStore.empty saves := by
  intro claim
  have count : (exec (saveStep {}) OrderedStore.empty twentyOne).map (fun store => store.entries.length) = some 21 := by
    decide +kernel
  obtain ⟨store, run, length⟩ := Option.map_eq_some_iff.mp count
  have threads := ((claim {} twentyOne).last run).threads
  rw [length] at threads
  exact absurd threads (by decide)

end CuckooEcho.Frontend
