import CuckooEcho.Lib.Run
import CuckooEcho.Shared.CacheBackend
import Mathlib.Algebra.Order.Ring.Rat
import Mathlib.Logic.Function.Basic
import Mathlib.Tactic.NormNum

namespace CuckooEcho.Shared.CacheEquivalence
open Lib

/-! ## One sequence of calls on both backends -/

/-- The last write of a key that was not deleted since, with what the object held then. `cleared` says that all
was cleared since. -/
structure Written (Object Json : Type*) where
  object : Object
  value : Option Json
  ttl : Option Nat
  time : Rat
  cleared : Bool := false

structure System (Object Json Bytes : Type*) where
  now : Rat
  contents : Object → Option Json
  memory : MemoryCache Object
  redis : RedisCacheBackend Bytes
  written : String → Option (Written Object Json) := fun _ => none
  answers : List (CacheAnswer Json × CacheAnswer Json) := []

/-- Between the calls time passes, and whoever holds an object may change what is in it. -/
inductive Act (Object Json : Type*)
  | elapse (seconds : Rat)
  | mutate (contents : Object → Option Json)
  | call (call : CacheCall Object)

section
variable {Object Json Bytes : Type*} (orjson : Orjson Json Bytes) (glob : String → String → Bool)

def write (contents : Object → Option Json) (now : Rat) (ttl : Option Nat)
    (written : String → Option (Written Object Json)) (item : String × Object) :
    String → Option (Written Object Json) :=
  Function.update written item.1 (some { object := item.2, value := contents item.2, ttl := truthy ttl, time := now })

/-- Clearing reaches what is in Redis only if the pattern matches its key. -/
def unlisted (keyPrefix : String) (written : String → Option (Written Object Json)) (key : String) :
    Option (Written Object Json) :=
  if glob (keyPrefix ++ "*") (keyPrefix ++ key) then none
  else (written key).map fun w => { w with cleared := true }

namespace System

def record (s : System Object Json Bytes) : CacheCall Object → String → Option (Written Object Json)
  | .set key value ttl => write s.contents s.now ttl s.written (key, value)
  | .setMany mapping ttl => mapping.items.foldl (write s.contents s.now ttl) s.written
  | .delete key => Function.update s.written key none
  | .clear => unlisted glob s.redis.keyPrefix s.written
  | _ => s.written

def step (s : System Object Json Bytes) : Act Object Json → Option (System Object Json Bytes)
  | .elapse seconds => if 0 ≤ seconds then some { s with now := s.now + seconds } else none
  | .mutate contents => some { s with contents }
  | .call call =>
      let memory := s.memory.call s.contents s.now call
      let redis := s.redis.call orjson glob s.contents s.now call
      some { s with
        memory := memory.2
        redis := redis.2
        written := s.record glob call
        answers := (memory.1, redis.1) :: s.answers }

def start (now : Rat) (contents : Object → Option Json) (defaultTtl : Int) (keyPrefix : String) :
    System Object Json Bytes where
  now := now
  contents := contents
  memory := { defaultTtl }
  redis := { keyPrefix }

def SameAnswers (s : System Object Json Bytes) : Prop := ∀ answer ∈ s.answers, answer.1 = answer.2

end System

/-! ### Where the backends differ -/

namespace Written
variable (w : Written Object Json) (now : Rat) (defaultTtl : Int)

/-- Its time to live ends at this moment: memory still has it, Redis no longer. -/
def Ending : Prop := w.cleared = false ∧ ∃ ttl : Nat, w.ttl = some ttl ∧ now = w.time + ttl

/-- It was given no time to live: Redis keeps it, memory only for the default. -/
def Outlived : Prop := w.ttl = none ∧ w.time + defaultTtl < now

/-- Redis still has what was to be cleared. -/
def Uncleared : Prop := w.cleared = true ∧ ∀ ttl : Nat, w.ttl = some ttl → now < w.time + ttl

def Kept : Prop :=
  w.cleared = false ∧ (∀ ttl : Nat, w.ttl = some ttl → now < w.time + ttl) ∧
    (w.ttl = none → now ≤ w.time + defaultTtl)

/-- That one backend has the key and the other has not does not show where the value is `None`. -/
structure SameValue (contents : Object → Option Json) : Prop where
  ending : w.Ending now → contents w.object = none
  outlived : w.Outlived now defaultTtl → w.value = none
  uncleared : w.Uncleared now → w.value = none
  unchanged : w.Kept now defaultTtl → contents w.object = w.value

structure SameFound : Prop where
  ending : ¬ w.Ending now
  outlived : ¬ w.Outlived now defaultTtl
  uncleared : ¬ w.Uncleared now

end Written

def System.Unaffected (s : System Object Json Bytes) : Act Object Json → Prop
  | .call (.get key) => ∀ w, s.written key = some w → w.SameValue s.now s.memory.defaultTtl s.contents
  | .call (.getMany keys) =>
      ∀ key ∈ keys, ∀ w, s.written key = some w → w.SameValue s.now s.memory.defaultTtl s.contents
  | .call (.existsKey key) => ∀ w, s.written key = some w → w.SameFound s.now s.memory.defaultTtl
  | _ => True

/-! ### What is there at a time -/

namespace Written

def inMemory (w : Written Object Json) (defaultTtl : Int) (t : Rat) : Bool :=
  !w.cleared && decide (t ≤ w.time + w.ttl.elim (defaultTtl : Rat) fun ttl => (ttl : Rat))

def inRedis (w : Written Object Json) (t : Rat) : Bool := w.ttl.all fun ttl : Nat => t < w.time + ttl

variable {w : Written Object Json} {now : Rat} {defaultTtl : Int}

theorem inMemory_iff : w.inMemory defaultTtl now ↔
    w.cleared = false ∧ now ≤ w.time + w.ttl.elim (defaultTtl : Rat) fun ttl => (ttl : Rat) := by
  simp [inMemory]

theorem inRedis_iff : w.inRedis now ↔ ∀ ttl : Nat, w.ttl = some ttl → now < w.time + ttl := by
  unfold inRedis
  cases w.ttl with
  | none => simp
  | some ttl => simp

theorem kept_iff : w.Kept now defaultTtl ↔ w.inMemory defaultTtl now ∧ w.inRedis now := by
  rw [Kept, inMemory_iff, inRedis_iff, and_assoc]
  refine and_congr_right fun _ => ?_
  cases w.ttl with
  | none => simp
  | some ttl =>
      simp only [Option.some.injEq, forall_eq', reduceCtorEq, false_implies, and_true, Option.elim_some]
      exact ⟨fun before => ⟨before.le, before⟩, fun h => h.2⟩

theorem ending_iff : w.Ending now ↔ w.inMemory defaultTtl now ∧ ¬ w.inRedis now := by
  rw [Ending, inMemory_iff, inRedis_iff, and_assoc]
  refine and_congr_right fun _ => ?_
  cases w.ttl with
  | none => simp
  | some ttl =>
      simp only [Option.some.injEq, exists_eq_left', forall_eq', Option.elim_some, not_lt]
      exact le_antisymm_iff

theorem outlived_or_uncleared_iff :
    w.Outlived now defaultTtl ∨ w.Uncleared now ↔ ¬ w.inMemory defaultTtl now ∧ w.inRedis now := by
  rw [Outlived, Uncleared, inMemory_iff, inRedis_iff]
  cases w.ttl with
  | none =>
      cases w.cleared with
      | false => simp
      | true => simp
  | some ttl =>
      cases w.cleared with
      | false =>
          simp only [reduceCtorEq, false_and, or_self, true_and, Option.elim_some, not_le, Option.some.injEq,
            forall_eq', false_iff, not_and]
          exact fun past before => lt_asymm past before
      | true => simp

theorem sameValue_iff {contents : Object → Option Json} :
    w.SameValue now defaultTtl contents ↔
      (if w.inMemory defaultTtl now then contents w.object else none) = if w.inRedis now then w.value else none := by
  constructor
  · intro h
    by_cases memory : w.inMemory defaultTtl now
    · by_cases redis : w.inRedis now
      · rw [if_pos memory, if_pos redis, h.unchanged (kept_iff.mpr ⟨memory, redis⟩)]
      · rw [if_pos memory, if_neg redis, h.ending (ending_iff.mpr ⟨memory, redis⟩)]
    · by_cases redis : w.inRedis now
      · rw [if_neg memory, if_pos redis]
        rcases outlived_or_uncleared_iff.mpr ⟨memory, redis⟩ with outlived | uncleared
        · rw [h.outlived outlived]
        · rw [h.uncleared uncleared]
      · rw [if_neg memory, if_neg redis]
  · intro same
    have onlyRedis (there : w.Outlived now defaultTtl ∨ w.Uncleared now) : w.value = none := by
      obtain ⟨memory, redis⟩ := outlived_or_uncleared_iff.mp there
      rw [if_neg memory, if_pos redis] at same
      exact same.symm
    refine ⟨fun ending => ?_, fun outlived => onlyRedis (Or.inl outlived),
      fun uncleared => onlyRedis (Or.inr uncleared), fun kept => ?_⟩
    · obtain ⟨memory, redis⟩ := ending_iff.mp ending
      rwa [if_pos memory, if_neg redis] at same
    · obtain ⟨memory, redis⟩ := kept_iff.mp kept
      rwa [if_pos memory, if_pos redis] at same

theorem sameFound_iff : w.SameFound now defaultTtl ↔ w.inMemory defaultTtl now = w.inRedis now := by
  rw [Bool.eq_iff_iff]
  constructor
  · intro h
    constructor
    · intro memory
      by_contra redis
      exact h.ending (ending_iff.mpr ⟨memory, redis⟩)
    · intro redis
      by_contra memory
      exact (outlived_or_uncleared_iff.mpr ⟨memory, redis⟩).elim h.outlived h.uncleared
  · intro same
    have onlyRedis : ¬ (w.Outlived now defaultTtl ∨ w.Uncleared now) := by
      intro there
      obtain ⟨memory, redis⟩ := outlived_or_uncleared_iff.mp there
      exact memory (same.mpr redis)
    refine ⟨fun ending => ?_, fun outlived => onlyRedis (Or.inl outlived),
      fun uncleared => onlyRedis (Or.inr uncleared)⟩
    obtain ⟨memory, redis⟩ := ending_iff.mp ending
    exact redis (same.mp memory)

end Written

/-! ### What the backends hold follows from what was written -/

structure Tracks (orjson : Orjson Json Bytes) (now : Rat) (memory : MemoryCache Object)
    (redis : RedisCacheBackend Bytes) (written : String → Option (Written Object Json)) : Prop where
  memory : ∀ t, now ≤ t → ∀ key, memory.find t key =
    (written key).bind fun w => if w.inMemory memory.defaultTtl t then some w.object else none
  redis : ∀ t, now ≤ t → ∀ key, redis.redis.get t (redis.fullKey key) =
    (written key).bind fun w => if w.inRedis t then some (orjson.dumps w.value) else none

section
variable {orjson : Orjson Json Bytes} {glob : String → String → Bool} {contents : Object → Option Json}
  {now : Rat} {memory : MemoryCache Object} {redis : RedisCacheBackend Bytes}
  {written : String → Option (Written Object Json)}

theorem Tracks.later (h : Tracks orjson now memory redis written) {t : Rat} (later : now ≤ t) :
    Tracks orjson t memory redis written :=
  ⟨fun u after => h.memory u (later.trans after), fun u after => h.redis u (later.trans after)⟩

theorem Tracks.sweep (h : Tracks orjson now memory redis written) (key : String) :
    Tracks orjson now (memory.sweep now key) redis written := by
  refine ⟨fun t after key' => ?_, h.redis⟩
  rw [MemoryCache.find_sweep _ _ after, MemoryCache.sweep_defaultTtl]
  exact h.memory t after key'

theorem Tracks.sweeps (h : Tracks orjson now memory redis written) (keys : List String) :
    Tracks orjson now (keys.foldl (MemoryCache.sweep now) memory) redis written := by
  induction keys generalizing memory with
  | nil => exact h
  | cons key keys ih => exact ih (h.sweep key)

theorem Tracks.set (h : Tracks orjson now memory redis written) (ttl : Option Nat) (item : String × Object) :
    Tracks orjson now (memory.set now item.1 item.2 ttl) (redis.set orjson contents now item.1 item.2 ttl)
      (write contents now ttl written item) := by
  refine ⟨fun t after key => ?_, fun t after key => ?_⟩
  · rw [MemoryCache.find_set, write, Function.update_apply]
    by_cases same : key = item.1
    · rw [if_pos same, if_pos same, Option.bind_some]
      simp only [Written.inMemory_iff, true_and]
      rfl
    · rw [if_neg same, if_neg same]
      exact h.memory t after key
  · rw [RedisCacheBackend.set_fullKey, RedisCacheBackend.get_set, write, Function.update_apply]
    by_cases same : key = item.1
    · rw [if_pos same, if_pos same, Option.bind_some]
      rfl
    · rw [if_neg same, if_neg same]
      exact h.redis t after key

theorem Tracks.setMany (h : Tracks orjson now memory redis written) (ttl : Option Nat)
    (items : List (String × Object)) :
    Tracks orjson now (items.foldl (fun cache (key, value) => cache.set now key value ttl) memory)
      (items.foldl (fun cache (key, value) => cache.set orjson contents now key value ttl) redis)
      (items.foldl (write contents now ttl) written) := by
  induction items generalizing memory redis written with
  | nil => exact h
  | cons item items ih => exact ih (h.set ttl item)

theorem Tracks.delete (h : Tracks orjson now memory redis written) (key : String) :
    Tracks orjson now (memory.delete key) (redis.delete key) (Function.update written key none) := by
  refine ⟨fun t after key' => ?_, fun t after key' => ?_⟩
  · rw [MemoryCache.find_delete, Function.update_apply]
    by_cases same : key' = key
    · rw [if_pos same, if_pos same, Option.bind_none]
    · rw [if_neg same, if_neg same]
      exact h.memory t after key'
  · change (redis.redis.delete [redis.fullKey key]).get t (redis.fullKey key') = _
    rw [Redis.get_delete, Function.update_apply]
    simp only [List.mem_singleton, RedisCacheBackend.fullKey_inj]
    by_cases same : key' = key
    · rw [if_pos same, if_pos same, Option.bind_none]
    · rw [if_neg same, if_neg same]
      exact h.redis t after key'

theorem Tracks.clear (h : Tracks orjson now memory redis written) :
    Tracks orjson now memory.clear (redis.clear glob now) (unlisted glob redis.keyPrefix written) := by
  refine ⟨fun t after key => ?_, fun t after key => ?_⟩
  · rw [unlisted]
    split
    · rfl
    · cases written key with
      | none => rfl
      | some w => simp [Written.inMemory, MemoryCache.clear, MemoryCache.find]
  · rw [RedisCacheBackend.clear_fullKey, RedisCacheBackend.get_clear _ after, h.redis t after, unlisted,
      RedisCacheBackend.fullKey]
    split
    · rfl
    · cases written key with
      | none => rfl
      | some w => rfl

/-! ### What the backends answer -/

theorem Tracks.value_iff (h : Tracks orjson now memory redis written) (roundTrips : orjson.RoundTrips)
    (key : String) : (memory.find now key).bind contents = redis.get orjson now key ↔
      ∀ w, written key = some w → w.SameValue now memory.defaultTtl contents := by
  rw [RedisCacheBackend.get_eq, h.memory now le_rfl, h.redis now le_rfl]
  cases written key with
  | none => simp
  | some w =>
      simp only [Option.bind_some, Option.some.injEq, forall_eq', Written.sameValue_iff]
      have inMemory : (if w.inMemory memory.defaultTtl now then some w.object else none).bind contents =
          if w.inMemory memory.defaultTtl now then contents w.object else none := by
        split
        · rfl
        · rfl
      have inRedis : (if w.inRedis now then some (orjson.dumps w.value) else none).bind orjson.loads =
          if w.inRedis now then w.value else none := by
        split
        · exact roundTrips w.value
        · rfl
      rw [inMemory, inRedis]

theorem Tracks.found_iff (h : Tracks orjson now memory redis written) (key : String) :
    (memory.find now key).isSome = redis.existsKey now key ↔
      ∀ w, written key = some w → w.SameFound now memory.defaultTtl := by
  have existing : redis.existsKey now key = (redis.redis.get now (redis.fullKey key)).isSome := by
    unfold RedisCacheBackend.existsKey Redis.existing
    split
    · rename_i here
      exact here.symm
    · rename_i gone
      exact (Bool.eq_false_iff.mpr gone).symm
  rw [existing, h.memory now le_rfl, h.redis now le_rfl]
  cases written key with
  | none => simp
  | some w =>
      simp only [Option.bind_some, Option.some.injEq, forall_eq', Written.sameFound_iff]
      cases w.inMemory memory.defaultTtl now <;> cases w.inRedis now <;> simp

end

namespace System
variable {orjson : Orjson Json Bytes} {glob : String → String → Bool} {s t : System Object Json Bytes}

def Tracked (orjson : Orjson Json Bytes) (s : System Object Json Bytes) : Prop :=
  Tracks orjson s.now s.memory s.redis s.written

theorem step_elapse {seconds : Rat} (forward : 0 ≤ seconds) :
    s.step orjson glob (.elapse seconds) = some { s with now := s.now + seconds } :=
  if_pos forward

theorem tracked_start (now : Rat) (contents : Object → Option Json) (defaultTtl : Int) (keyPrefix : String) :
    Tracked orjson (start now contents defaultTtl keyPrefix : System Object Json Bytes) :=
  ⟨fun _ _ _ => rfl, fun _ _ _ => rfl⟩

theorem Tracked.step (h : s.Tracked orjson) {a : Act Object Json} (next : s.step orjson glob a = some t) :
    t.Tracked orjson := by
  cases a with
  | elapse seconds =>
      obtain ⟨forward, next⟩ := Option.ite_none_right_eq_some.mp next
      obtain rfl := Option.some.inj next
      exact h.later (le_add_of_nonneg_right forward)
  | mutate contents =>
      obtain rfl := Option.some.inj next
      exact h
  | call call =>
      obtain rfl := Option.some.inj next
      unfold Tracked
      cases call with
      | get key =>
          simp only [MemoryCache.call, RedisCacheBackend.call, MemoryCache.get_eq]
          exact h.sweep key
      | set key value ttl => exact h.set ttl (key, value)
      | delete key => exact h.delete key
      | existsKey key =>
          simp only [MemoryCache.call, RedisCacheBackend.call, MemoryCache.existsKey_eq]
          exact h.sweep key
      | getMany keys =>
          simp only [MemoryCache.call, RedisCacheBackend.call, MemoryCache.getMany_eq]
          exact h.sweeps keys
      | setMany mapping ttl => exact h.setMany ttl mapping.items
      | clear => exact h.clear

theorem Tracked.answer_iff (h : s.Tracked orjson) (roundTrips : orjson.RoundTrips) (call : CacheCall Object) :
    (s.memory.call s.contents s.now call).1 = (s.redis.call orjson glob s.contents s.now call).1 ↔
      s.Unaffected (.call call) := by
  cases call with
  | get key =>
      simp only [MemoryCache.call, RedisCacheBackend.call, MemoryCache.get_eq, CacheAnswer.value.injEq]
      exact h.value_iff roundTrips key
  | existsKey key =>
      simp only [MemoryCache.call, RedisCacheBackend.call, MemoryCache.existsKey_eq, CacheAnswer.found.injEq]
      exact h.found_iff key
  | getMany keys =>
      simp only [MemoryCache.call, RedisCacheBackend.call, MemoryCache.getMany_eq,
        RedisCacheBackend.getMany_eq, CacheAnswer.values.injEq, Dict.setAll_map_inj]
      exact forall₂_congr fun key _ => h.value_iff roundTrips key
  | set key value ttl => exact iff_of_true rfl trivial
  | delete key => exact iff_of_true rfl trivial
  | setMany mapping ttl => exact iff_of_true rfl trivial
  | clear => exact iff_of_true rfl trivial

end System

/-- The backends answer a run alike exactly if no lookup of it finds a key where they differ. -/
theorem interchangeable_iff (orjson : Orjson Json Bytes) (roundTrips : orjson.RoundTrips)
    (glob : String → String → Bool) (now : Rat) (contents : Object → Option Json) (defaultTtl : Int)
    (keyPrefix : String) (acts : List (Act Object Json)) :
    Throughout (System.step orjson glob) System.SameAnswers (.start now contents defaultTtl keyPrefix) acts ↔
      Along (System.step orjson glob) System.Unaffected (.start now contents defaultTtl keyPrefix) acts := by
  refine throughout_iff_along_any (fun s : System Object Json Bytes => s.Tracked orjson ∧ s.SameAnswers)
    (fun _ h => h.2) ?_ ?_ ⟨System.tracked_start .., List.forall_mem_nil _⟩
  · intro s a t ⟨tracked, same⟩ ok next
    refine ⟨tracked.step next, ?_⟩
    cases a with
    | elapse seconds => exact (Option.some.inj (Option.ite_none_right_eq_some.mp next).2) ▸ same
    | mutate contents => exact Option.some.inj next ▸ same
    | call call =>
        obtain rfl := Option.some.inj next
        exact List.forall_mem_cons.mpr ⟨(tracked.answer_iff roundTrips call).mpr ok, same⟩
  · intro s a t ⟨tracked, _⟩ next same
    cases a with
    | elapse seconds => trivial
    | mutate contents => trivial
    | call call =>
        obtain rfl := Option.some.inj next
        exact (tracked.answer_iff roundTrips call).mp (List.forall_mem_cons.mp same).1

end

/-! ### A value without a time to live -/

def boolJson : Orjson Bool String where
  dumps
    | none => "null"
    | some true => "true"
    | some false => "false"
  loads text := if text = "true" then some true else if text = "false" then some false else none

theorem boolJson_roundTrips : boolJson.RoundTrips := by
  intro value
  match value with
  | none => rfl
  | some true => rfl
  | some false => rfl

/-- A star behind ordinary characters. -/
def startsWith (pattern key : String) : Bool := pattern.toList.dropLast.isPrefixOf key.toList

def fresh : System Unit Bool String := .start 0 (fun _ => some true) 3600 "cache:"

theorem interchangeable_of_ttl : Throughout (System.step boolJson startsWith) System.SameAnswers fresh
    [.call (.set "k" () (some 60)), .elapse 59, .call (.get "k"), .elapse 2, .call (.existsKey "k")] := by
  refine (interchangeable_iff boolJson boolJson_roundTrips startsWith ..).mpr ?_
  refine along_cons rfl trivial (along_cons (System.step_elapse (by norm_num)) trivial (along_cons rfl ?_
    (along_cons (System.step_elapse (by norm_num)) trivial (along_cons rfl ?_ trivial))))
  · rintro w ⟨⟩
    refine ⟨?_, ?_, ?_, ?_⟩
    · rintro ⟨-, ttl, ⟨⟩, now⟩
      norm_num [System.start] at now
    · rintro ⟨⟨⟩, -⟩
    · rintro ⟨⟨⟩, -⟩
    · exact fun _ => rfl
  · rintro w ⟨⟩
    refine ⟨?_, ?_, ?_⟩
    · rintro ⟨-, ttl, ⟨⟩, now⟩
      norm_num [System.start] at now
    · rintro ⟨⟨⟩, -⟩
    · rintro ⟨⟨⟩, -⟩

theorem unexpiring_differs : ¬ Throughout (System.step boolJson startsWith) System.SameAnswers fresh
    [.call (.set "k" () none), .elapse 3601, .call (.get "k")] := by
  intro same
  have written := same.2 _ rfl
  have waited := written.2 _ (System.step_elapse (by norm_num))
  have answered := (waited.2 _ rfl).start
  have alike := CacheAnswer.value.inj (List.forall_mem_cons.mp answered).1
  have memory : ((fresh.memory.set 0 "k" () none).get (fun _ => some true) (0 + 3601) "k").1 =
      (none : Option Bool) := by
    rw [MemoryCache.get_eq, MemoryCache.find_set, if_pos rfl, if_neg]
    · rfl
    · norm_num [fresh, System.start, truthy]
  have redis : (fresh.redis.set boolJson (fun _ => some true) 0 "k" () none).get boolJson (0 + 3601) "k" =
      some true := by
    rw [RedisCacheBackend.get_eq, RedisCacheBackend.set_fullKey, RedisCacheBackend.get_set, if_pos rfl]
    rfl
  exact absurd (memory.symm.trans (alike.trans redis)) (by simp)

end CuckooEcho.Shared.CacheEquivalence
