import CuckooEcho.Lib.Dict
import Mathlib.Algebra.Order.Ring.Rat

namespace CuckooEcho.Shared
open Lib

/-! ## The cache backends

A value is a reference to an object, whose contents are JSON or `None`; an answer is what its caller reads. -/

inductive CacheCall (Object : Type*)
  | get (key : String)
  | set (key : String) (value : Object) (ttl : Option Nat)
  | delete (key : String)
  | existsKey (key : String)
  | getMany (keys : List String)
  | setMany (mapping : Dict String Object) (ttl : Option Nat)
  | clear

inductive CacheAnswer (Json : Type*)
  | value (value : Option Json)
  | found (found : Bool)
  | values (result : Dict String (Option Json))
  | done

/-- An absent time to live and one of zero are both falsy. -/
def truthy (ttl : Option Nat) : Option Nat := ttl.filter (· ≠ 0)

/-! ### In memory -/

structure MemoryCache (Object : Type*) where
  store : Dict String (Object × Option Rat) := .empty
  defaultTtl : Int := 3600

namespace MemoryCache
variable {Object Json : Type*} (contents : Object → Option Json) (now : Rat)

def expired (expiry : Option Rat) : Bool := expiry.any (· < now)

def get (cache : MemoryCache Object) (key : String) : Option Json × MemoryCache Object :=
  match cache.store.get key with
  | none => (none, cache)
  | some (value, expiry) =>
      if expired now expiry then (none, { cache with store := cache.store.erase key })
      else (contents value, cache)

def set (cache : MemoryCache Object) (key : String) (value : Object) (ttl : Option Nat) : MemoryCache Object :=
  let expiry := now + (truthy ttl).elim (cache.defaultTtl : Rat) fun ttl => (ttl : Rat)
  { cache with store := cache.store.set key (value, some expiry) }

def delete (cache : MemoryCache Object) (key : String) : MemoryCache Object :=
  { cache with store := cache.store.erase key }

def existsKey (cache : MemoryCache Object) (key : String) : Bool × MemoryCache Object :=
  match cache.store.get key with
  | none => (false, cache)
  | some (_, expiry) =>
      if expired now expiry then (false, { cache with store := cache.store.erase key })
      else (true, cache)

def getMany (cache : MemoryCache Object) (keys : List String) :
    Dict String (Option Json) × MemoryCache Object :=
  keys.foldl (fun (result, cache) key =>
    let (value, cache) := cache.get contents now key
    (result.set key value, cache)) (.empty, cache)

def setMany (cache : MemoryCache Object) (mapping : Dict String Object) (ttl : Option Nat) : MemoryCache Object :=
  mapping.items.foldl (fun cache (key, value) => cache.set now key value ttl) cache

def clear (cache : MemoryCache Object) : MemoryCache Object := { cache with store := .empty }

def call (cache : MemoryCache Object) : CacheCall Object → CacheAnswer Json × MemoryCache Object
  | .get key =>
      let (value, cache) := cache.get contents now key
      (.value value, cache)
  | .set key value ttl => (.done, cache.set now key value ttl)
  | .delete key => (.done, cache.delete key)
  | .existsKey key =>
      let (found, cache) := cache.existsKey now key
      (.found found, cache)
  | .getMany keys =>
      let (result, cache) := cache.getMany contents now keys
      (.values result, cache)
  | .setMany mapping ttl => (.done, cache.setMany now mapping ttl)
  | .clear => (.done, cache.clear)

end MemoryCache

/-! ### In Redis -/

structure Orjson (Json Bytes : Type*) where
  dumps : Option Json → Bytes
  loads : Bytes → Option Json

def Orjson.RoundTrips {Json Bytes : Type*} (orjson : Orjson Json Bytes) : Prop :=
  ∀ value, orjson.loads (orjson.dumps value) = value

/-- A key that was set with a time to live is gone from the instant on that stands beside its value. -/
structure Redis (Bytes : Type*) where
  entries : Dict String (Bytes × Option Rat) := .empty

namespace Redis
variable {Bytes : Type*} (now : Rat)

def alive (entry : Bytes × Option Rat) : Bool := entry.2.all (now < ·)

def get (redis : Redis Bytes) (key : String) : Option Bytes :=
  ((redis.entries.get key).filter (alive now)).map Prod.fst

def mget (redis : Redis Bytes) (keys : List String) : List (Option Bytes) := keys.map (redis.get now)

def existing (redis : Redis Bytes) (key : String) : Nat := if (redis.get now key).isSome then 1 else 0

def set (redis : Redis Bytes) (key : String) (value : Bytes) : Redis Bytes :=
  ⟨redis.entries.set key (value, none)⟩

def setex (redis : Redis Bytes) (key : String) (ttl : Nat) (value : Bytes) : Redis Bytes :=
  ⟨redis.entries.set key (value, some (now + ttl))⟩

def delete (redis : Redis Bytes) (keys : List String) : Redis Bytes := ⟨redis.entries.eraseAll keys⟩

/-- `glob` says which keys a pattern matches. -/
def keys (glob : String → String → Bool) (redis : Redis Bytes) (pattern : String) : List String :=
  ((redis.entries.items.filter fun item => alive now item.2).map Prod.fst).filter (glob pattern)

end Redis

structure RedisCacheBackend (Bytes : Type*) where
  redis : Redis Bytes := {}
  keyPrefix : String := "cache:"

namespace RedisCacheBackend
variable {Object Json Bytes : Type*} (orjson : Orjson Json Bytes) (glob : String → String → Bool)
  (contents : Object → Option Json) (now : Rat)

def fullKey (cache : RedisCacheBackend Bytes) (key : String) : String := cache.keyPrefix ++ key

def get (cache : RedisCacheBackend Bytes) (key : String) : Option Json :=
  match cache.redis.get now (cache.fullKey key) with
  | none => none
  | some value => orjson.loads value

def set (cache : RedisCacheBackend Bytes) (key : String) (value : Object) (ttl : Option Nat) :
    RedisCacheBackend Bytes :=
  let serialized := orjson.dumps (contents value)
  match truthy ttl with
  | some ttl => { cache with redis := cache.redis.setex now (cache.fullKey key) ttl serialized }
  | none => { cache with redis := cache.redis.set (cache.fullKey key) serialized }

def delete (cache : RedisCacheBackend Bytes) (key : String) : RedisCacheBackend Bytes :=
  { cache with redis := cache.redis.delete [cache.fullKey key] }

def existsKey (cache : RedisCacheBackend Bytes) (key : String) : Bool :=
  0 < cache.redis.existing now (cache.fullKey key)

def getMany (cache : RedisCacheBackend Bytes) (keys : List String) : Dict String (Option Json) :=
  let values := cache.redis.mget now (keys.map cache.fullKey)
  (keys.zip values).foldl (fun result (key, value) => result.set key (value.bind orjson.loads)) .empty

/-- The pipeline is executed at one instant. -/
def setMany (cache : RedisCacheBackend Bytes) (mapping : Dict String Object) (ttl : Option Nat) :
    RedisCacheBackend Bytes :=
  mapping.items.foldl (fun cache (key, value) => cache.set orjson contents now key value ttl) cache

def clear (cache : RedisCacheBackend Bytes) : RedisCacheBackend Bytes :=
  match cache.redis.keys now glob (cache.keyPrefix ++ "*") with
  | [] => cache
  | keys => { cache with redis := cache.redis.delete keys }

def call (cache : RedisCacheBackend Bytes) : CacheCall Object → CacheAnswer Json × RedisCacheBackend Bytes
  | .get key => (.value (cache.get orjson now key), cache)
  | .set key value ttl => (.done, cache.set orjson contents now key value ttl)
  | .delete key => (.done, cache.delete key)
  | .existsKey key => (.found (cache.existsKey now key), cache)
  | .getMany keys => (.values (cache.getMany orjson now keys), cache)
  | .setMany mapping ttl => (.done, cache.setMany orjson contents now mapping ttl)
  | .clear => (.done, cache.clear glob now)

end RedisCacheBackend

/-! ## What a lookup finds -/

namespace MemoryCache
variable {Object Json : Type*} {contents : Object → Option Json} {now t : Rat}

def find (cache : MemoryCache Object) (t : Rat) (key : String) : Option Object :=
  ((cache.store.get key).filter fun entry => !expired t entry.2).map Prod.fst

/-- What a lookup leaves: a key that has expired is deleted. -/
def sweep (now : Rat) (cache : MemoryCache Object) (key : String) : MemoryCache Object :=
  if (cache.store.get key).any fun entry => expired now entry.2 then { cache with store := cache.store.erase key }
  else cache

theorem expired_mono {expiry : Option Rat} (later : now ≤ t) (gone : expired now expiry) : expired t expiry := by
  obtain ⟨instant, here, past⟩ := (Option.any_eq_true ..).mp gone
  refine (Option.any_eq_true ..).mpr ⟨instant, here, ?_⟩
  exact decide_eq_true (lt_of_lt_of_le (of_decide_eq_true past) later)

theorem get_eq (cache : MemoryCache Object) (key : String) :
    cache.get contents now key = ((cache.find now key).bind contents, cache.sweep now key) := by
  unfold get find sweep
  cases cache.store.get key with
  | none => rfl
  | some entry =>
      by_cases gone : expired now entry.2
      · simp [gone, Option.filter_some]
      · simp [gone, Option.filter_some]

theorem existsKey_eq (cache : MemoryCache Object) (key : String) :
    cache.existsKey now key = ((cache.find now key).isSome, cache.sweep now key) := by
  unfold existsKey find sweep
  cases cache.store.get key with
  | none => rfl
  | some entry =>
      by_cases gone : expired now entry.2
      · simp [gone]
      · simp [gone]

theorem find_sweep (cache : MemoryCache Object) (key : String) (later : now ≤ t) (key' : String) :
    (cache.sweep now key).find t key' = cache.find t key' := by
  unfold sweep
  split
  · rename_i gone
    obtain ⟨entry, here, gone⟩ := (Option.any_eq_true ..).mp gone
    unfold find
    dsimp only
    rw [Dict.get_erase]
    by_cases same : key' = key
    · rw [if_pos same, same, here, Option.filter_some, expired_mono later gone]
      rfl
    · rw [if_neg same]
  · rfl

@[simp] theorem sweep_defaultTtl (cache : MemoryCache Object) (key : String) :
    (cache.sweep now key).defaultTtl = cache.defaultTtl := by
  unfold sweep
  split
  · rfl
  · rfl

theorem getMany_eq (cache : MemoryCache Object) (keys : List String) :
    cache.getMany contents now keys =
      (Dict.empty.setAll (keys.map fun key => (key, (cache.find now key).bind contents)),
        keys.foldl (sweep now) cache) := by
  unfold getMany
  generalize (Dict.empty : Dict String (Option Json)) = result
  induction keys generalizing cache result with
  | nil => rfl
  | cons key keys ih =>
      rw [List.foldl_cons]
      dsimp only
      rw [get_eq, ih]
      simp only [find_sweep cache key le_rfl]
      rfl

theorem find_set (cache : MemoryCache Object) (key : String) (value : Object) (ttl : Option Nat) (key' : String) :
    (cache.set now key value ttl).find t key' =
      if key' = key then
        if t ≤ now + (truthy ttl).elim (cache.defaultTtl : Rat) fun ttl => (ttl : Rat) then some value else none
      else cache.find t key' := by
  unfold find set
  dsimp only
  rw [Dict.get_set]
  by_cases same : key' = key
  · rw [if_pos same, if_pos same, Option.filter_some]
    simp only [expired, Option.any_some, ← not_le, decide_not, Bool.not_not, decide_eq_true_eq]
    split
    · rfl
    · rfl
  · rw [if_neg same, if_neg same]

theorem find_delete (cache : MemoryCache Object) (key key' : String) :
    (cache.delete key).find t key' = if key' = key then none else cache.find t key' := by
  unfold find delete
  dsimp only
  rw [Dict.get_erase]
  by_cases same : key' = key
  · rw [if_pos same, if_pos same]
    rfl
  · rw [if_neg same, if_neg same]

end MemoryCache

namespace Redis
variable {Bytes : Type*} {now t : Rat}

theorem get_mono {redis : Redis Bytes} {key : String} (later : now ≤ t) (gone : redis.get now key = none) :
    redis.get t key = none := by
  unfold get at gone ⊢
  rw [Option.map_eq_none_iff, Option.filter_eq_none_iff] at gone ⊢
  intro entry here living
  refine gone entry here ?_
  unfold alive at living ⊢
  cases gone : entry.2 with
  | none => rfl
  | some deadline =>
      rw [gone] at living
      exact decide_eq_true (lt_of_le_of_lt later (of_decide_eq_true living))

theorem get_entry (redis : Redis Bytes) (key : String) (entry : Bytes × Option Rat) (key' : String) :
    (Redis.mk (redis.entries.set key entry)).get t key' =
      if key' = key then if alive t entry then some entry.1 else none else redis.get t key' := by
  unfold get
  dsimp only
  rw [Dict.get_set]
  by_cases same : key' = key
  · rw [if_pos same, if_pos same, Option.filter_some]
    split
    · rfl
    · rfl
  · rw [if_neg same, if_neg same]

theorem get_delete (redis : Redis Bytes) (keys : List String) (key' : String) :
    (redis.delete keys).get t key' = if key' ∈ keys then none else redis.get t key' := by
  unfold get delete
  dsimp only
  rw [Dict.get_eraseAll]
  split
  · rfl
  · rfl

theorem mem_keys {glob : String → String → Bool} {redis : Redis Bytes} {pattern key : String} :
    key ∈ redis.keys now glob pattern ↔ (redis.get now key).isSome ∧ glob pattern key := by
  unfold keys get
  rw [List.mem_filter, Option.isSome_map, Option.isSome_filter, Option.any_eq_true]
  refine and_congr_left fun _ => ⟨fun member => ?_, fun found => ?_⟩
  · obtain ⟨item, kept, rfl⟩ := List.mem_map.mp member
    obtain ⟨kept, living⟩ := List.mem_filter.mp kept
    exact ⟨item.2, Dict.get_eq_some.mpr kept, living⟩
  · obtain ⟨entry, here, living⟩ := found
    exact List.mem_map.mpr ⟨(key, entry), List.mem_filter.mpr ⟨Dict.get_eq_some.mp here, living⟩, rfl⟩

end Redis

namespace RedisCacheBackend
variable {Object Json Bytes : Type*} {orjson : Orjson Json Bytes} {glob : String → String → Bool}
  {contents : Object → Option Json} {now t : Rat}

theorem fullKey_inj (cache : RedisCacheBackend Bytes) {key key' : String} :
    cache.fullKey key' = cache.fullKey key ↔ key' = key :=
  String.append_right_inj _

@[simp] theorem set_fullKey (cache : RedisCacheBackend Bytes) (key : String) (value : Object) (ttl : Option Nat)
    (key' : String) : (cache.set orjson contents now key value ttl).fullKey key' = cache.fullKey key' := by
  unfold set
  split
  · rfl
  · rfl

@[simp] theorem clear_fullKey (cache : RedisCacheBackend Bytes) (key : String) :
    (cache.clear glob now).fullKey key = cache.fullKey key := by
  unfold clear
  split
  · rfl
  · rfl

theorem get_eq (cache : RedisCacheBackend Bytes) (key : String) :
    cache.get orjson now key = (cache.redis.get now (cache.fullKey key)).bind orjson.loads := by
  unfold get
  cases cache.redis.get now (cache.fullKey key) with
  | none => rfl
  | some value => rfl

theorem getMany_eq (cache : RedisCacheBackend Bytes) (keys : List String) :
    cache.getMany orjson now keys = Dict.empty.setAll (keys.map fun key => (key, cache.get orjson now key)) := by
  have paired : keys.zip (cache.redis.mget now (keys.map cache.fullKey)) =
      keys.map fun key => (key, cache.redis.get now (cache.fullKey key)) := by
    rw [Redis.mget, List.map_map, ← List.zip_map', List.map_id']
    rfl
  unfold getMany Dict.setAll
  dsimp only
  rw [paired, List.foldl_map, List.foldl_map]
  simp only [get_eq]

theorem get_set (cache : RedisCacheBackend Bytes) (key : String) (value : Object) (ttl : Option Nat)
    (key' : String) :
    (cache.set orjson contents now key value ttl).redis.get t (cache.fullKey key') =
      if key' = key then
        if (truthy ttl).all fun ttl : Nat => t < now + ttl then some (orjson.dumps (contents value)) else none
      else cache.redis.get t (cache.fullKey key') := by
  unfold set
  cases truthy ttl with
  | none =>
      change (Redis.mk (cache.redis.entries.set _ _)).get t _ = _
      rw [Redis.get_entry]
      simp only [fullKey_inj]
      rfl
  | some ttl =>
      change (Redis.mk (cache.redis.entries.set _ _)).get t _ = _
      rw [Redis.get_entry]
      simp only [fullKey_inj]
      rfl

theorem get_clear (cache : RedisCacheBackend Bytes) (later : now ≤ t) (key : String) :
    (cache.clear glob now).redis.get t key =
      if glob (cache.keyPrefix ++ "*") key then none else cache.redis.get t key := by
  have deleted : (cache.clear glob now).redis =
      cache.redis.delete (cache.redis.keys now glob (cache.keyPrefix ++ "*")) := by
    unfold clear
    split
    · rename_i none
      rw [none]
      rfl
    · rfl
  rw [deleted, Redis.get_delete]
  simp only [Redis.mem_keys]
  by_cases found : (cache.redis.get now key).isSome
  · simp only [found, true_and]
  · rw [if_neg fun h => found h.1, Redis.get_mono later (by simpa using found), ite_self]

end RedisCacheBackend

end CuckooEcho.Shared
