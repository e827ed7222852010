import CuckooEcho.Lib.Run
import CuckooEcho.Shared.CacheBackend
import Mathlib.Logic.Function.Basic

namespace CuckooEcho.Agent.SharedContext
open Lib Shared

/-! ## `SharedContext` over a `MemoryCache` -/

def GLOBAL_PREFIX : String := "ctx:global:"
def ROLE_PREFIX : String := "ctx:role:"

def globalKey (key : String) : String := GLOBAL_PREFIX ++ key

def roleKey (role key : String) : String := ROLE_PREFIX ++ role ++ ":" ++ key

/-- JSON values and their texts; `loads` is `none` where it raises a `JSONDecodeError`. -/
structure Json (J : Type) where
  dumps : J → String
  loads : String → Option J
  ofText : String → J

def Json.RoundTrips {J : Type} (json : Json J) : Prop := ∀ value, json.loads (json.dumps value) = some value

/-- `ttl or self._default_ttl` -/
def expiry (now : Rat) (defaultTtl ttl : Int) : Rat := now + if ttl = 0 then (defaultTtl : Rat) else ttl

/-- `MemoryCache.set`, for a time to live of either sign. -/
def cacheSet (cache : MemoryCache String) (now : Rat) (key text : String) (ttl : Int) : MemoryCache String :=
  { cache with store := cache.store.set key (text, some (expiry now cache.defaultTtl ttl)) }

theorem cacheSet_natCast (cache : MemoryCache String) (now : Rat) (key text : String) (ttl : Nat) :
    cacheSet cache now key text ttl = cache.set now key text (some ttl) := by
  by_cases zero : ttl = 0
  · simp [cacheSet, MemoryCache.set, expiry, truthy, zero, Option.filter_some]
  · simp [cacheSet, MemoryCache.set, expiry, truthy, zero, Option.filter_some]

section
variable {J : Type} (json : Json J)

def decode (text : Option String) : Option J := text.map fun val => (json.loads val).getD (json.ofText val)

def setGlobal (cache : MemoryCache String) (now : Rat) (key : String) (value : J) (ttl : Int) : MemoryCache String :=
  cacheSet cache now (globalKey key) (json.dumps value) ttl

def getGlobal (cache : MemoryCache String) (now : Rat) (key : String) : Option J × MemoryCache String :=
  let (val, cache) := cache.get some now (globalKey key)
  (decode json val, cache)

def setRole (cache : MemoryCache String) (now : Rat) (role key : String) (value : J) (ttl : Int) : MemoryCache String :=
  cacheSet cache now (roleKey role key) (json.dumps value) ttl

def getRole (cache : MemoryCache String) (now : Rat) (role key : String) : Option J × MemoryCache String :=
  let (val, cache) := cache.get some now (roleKey role key)
  (decode json val, cache)

/-- What is found under the placeholder is not used. -/
def clearRole (cache : MemoryCache String) (now : Rat) (role : String) : MemoryCache String :=
  (cache.getMany some now [ROLE_PREFIX ++ role ++ ":" ++ "placeholder"]).2

end

/-! ### Contexts as they are meant

Every role has its own keys, and a value until it expires. -/

structure Entry (J : Type) where
  value : J
  expiry : Rat
  deriving DecidableEq

abbrev Contexts (J : Type) := String → String → Option (Entry J)

namespace Contexts
variable {J : Type} (contexts : Contexts J)

def set (role key : String) (entry : Entry J) : Contexts J := fun role' key' =>
  if role' = role ∧ key' = key then some entry else contexts role' key'

def clear (role : String) : Contexts J := fun role' key' => if role' = role then none else contexts role' key'

def get (now : Rat) (role key : String) : Option J :=
  ((contexts role key).filter fun entry => now ≤ entry.expiry).map Entry.value

end Contexts

/-! ### Sequences of calls -/

inductive Call (J : Type)
  | elapse (seconds : Rat)
  | setGlobal (key : String) (value : J) (ttl : Int)
  | getGlobal (key : String)
  | setRole (role key : String) (value : J) (ttl : Int)
  | getRole (role key : String)
  | clearRole (role : String)

/-- The last two fields only record: the contexts as they are meant, and what each `get_role` returned beside what it
is meant to return. -/
structure System (J : Type) where
  now : Rat
  cache : MemoryCache String
  contexts : Contexts J := fun _ _ => none
  answers : List (Option J × Option J) := []

def start {J : Type} (now : Rat) (defaultTtl : Int) : System J where
  now := now
  cache := { defaultTtl }

def step {J : Type} (json : Json J) (s : System J) : Call J → Option (System J)
  | .elapse seconds => if 0 ≤ seconds then some { s with now := s.now + seconds } else none
  | .setGlobal key value ttl => some { s with cache := setGlobal json s.cache s.now key value ttl }
  | .getGlobal key => some { s with cache := (getGlobal json s.cache s.now key).2 }
  | .setRole role key value ttl =>
      some { s with
        cache := setRole json s.cache s.now role key value ttl
        contexts := s.contexts.set role key ⟨value, expiry s.now s.cache.defaultTtl ttl⟩ }
  | .getRole role key =>
      some { s with
        cache := (getRole json s.cache s.now role key).2
        answers := s.answers ++ [((getRole json s.cache s.now role key).1, s.contexts.get s.now role key)] }
  | .clearRole role =>
      some { s with cache := clearRole s.cache s.now role, contexts := s.contexts.clear role }

def System.Isolated {J : Type} (s : System J) : Prop := ∀ answer ∈ s.answers, answer.1 = answer.2

/-! ### Where the cache can be used for them -/

section
variable {J : Type}

def System.Live (s : System J) (role key : String) : Prop := ∃ entry, s.contexts role key = some entry ∧ s.now ≤ entry.expiry

/-- No other role and key of the same text has a value. -/
def System.Alone (s : System J) (role key : String) : Prop :=
  ∀ role' key', roleKey role' key' = roleKey role key → s.Live role' key' → role' = role ∧ key' = key

def System.Separate (s : System J) : Call J → Prop
  | .setRole role key _ _ => s.Alone role key
  | .getRole role key => s.Alone role key
  | .clearRole role => ∀ key, ¬ s.Live role key
  | _ => True

/-- From now on the cache has a text under a role and key just when some role and key of the same text has a value. -/
structure Represents (json : Json J) (now : Rat) (cache : MemoryCache String) (contexts : Contexts J) : Prop where
  found : ∀ t, now ≤ t → ∀ role key entry, contexts role key = some entry → t ≤ entry.expiry →
    cache.find t (roleKey role key) = some (json.dumps entry.value)
  source : ∀ t, now ≤ t → ∀ role key text, cache.find t (roleKey role key) = some text →
    ∃ role' key' entry, roleKey role' key' = roleKey role key ∧ contexts role' key' = some entry ∧
      t ≤ entry.expiry ∧ json.dumps entry.value = text

end

theorem find_cacheSet {now t : Rat} (cache : MemoryCache String) (key text : String) (ttl : Int) (key' : String) :
    (cacheSet cache now key text ttl).find t key' =
      if key' = key then if t ≤ expiry now cache.defaultTtl ttl then some text else none else cache.find t key' := by
  unfold cacheSet MemoryCache.find
  dsimp only
  rw [Dict.get_set]
  by_cases same : key' = key
  · rw [if_pos same, if_pos same, Option.filter_some]
    simp only [MemoryCache.expired, Option.any_some, ← not_le, decide_not, Bool.not_not, decide_eq_true_eq]
    split
    · rfl
    · rfl
  · rw [if_neg same, if_neg same]

theorem globalKey_ne_roleKey (key role key' : String) : roleKey role key' ≠ globalKey key := by
  intro same
  have texts := congrArg String.toList same
  simp [roleKey, globalKey, ROLE_PREFIX, GLOBAL_PREFIX, String.toList_append] at texts

namespace Represents
variable {J : Type} {json : Json J} {now t : Rat} {cache cache' : MemoryCache String} {contexts : Contexts J}

theorem start (now : Rat) (defaultTtl : Int) : Represents json now { defaultTtl } fun _ _ => none where
  found _ _ _ _ _ none := by cases none
  source _ _ _ _ _ found := by cases found

theorem of_find (h : Represents json now cache contexts)
    (same : ∀ t, now ≤ t → ∀ role key, cache'.find t (roleKey role key) = cache.find t (roleKey role key)) :
    Represents json now cache' contexts where
  found t later role key entry here alive := (same t later role key).trans (h.found t later role key entry here alive)
  source t later role key text found := h.source t later role key text ((same t later role key).symm.trans found)

theorem later (h : Represents json now cache contexts) (later : now ≤ t) : Represents json t cache contexts where
  found u after := h.found u (later.trans after)
  source u after := h.source u (later.trans after)

theorem sweep (h : Represents json now cache contexts) (key : String) :
    Represents json now (cache.sweep now key) contexts :=
  h.of_find fun _ later _ _ => MemoryCache.find_sweep cache key later _

theorem setGlobal (h : Represents json now cache contexts) (key : String) (value : J) (ttl : Int) :
    Represents json now (SharedContext.setGlobal json cache now key value ttl) contexts :=
  h.of_find fun _ _ role key' => by
    rw [SharedContext.setGlobal, find_cacheSet, if_neg (globalKey_ne_roleKey key role key')]

theorem setRole (h : Represents json now cache contexts) {role key : String}
    (alone : ∀ role' key' entry, roleKey role' key' = roleKey role key → contexts role' key' = some entry →
      now ≤ entry.expiry → role' = role ∧ key' = key) (value : J) (ttl : Int) :
    Represents json now (SharedContext.setRole json cache now role key value ttl)
      (contexts.set role key ⟨value, expiry now cache.defaultTtl ttl⟩) where
  found t later role' key' entry here alive := by
    rw [SharedContext.setRole, find_cacheSet]
    rw [Contexts.set] at here
    split at here
    · rename_i same
      rw [same.1, same.2, if_pos rfl]
      rw [← Option.some.inj here] at alive ⊢
      exact if_pos alive
    · rename_i different
      rw [if_neg, h.found t later role' key' entry here alive]
      exact fun text => different (alone role' key' entry text here (later.trans alive))
  source t later role' key' text found := by
    rw [SharedContext.setRole, find_cacheSet] at found
    split at found
    · rename_i same
      obtain ⟨alive, eq⟩ := Option.ite_none_right_eq_some.mp found
      exact ⟨role, key, _, same.symm, if_pos ⟨rfl, rfl⟩, alive, Option.some.inj eq⟩
    · rename_i different
      obtain ⟨role₀, key₀, entry, text₀, here, rest⟩ := h.source t later role' key' text found
      refine ⟨role₀, key₀, entry, text₀, ?_, rest⟩
      rw [Contexts.set, if_neg, here]
      rintro ⟨rfl, rfl⟩
      exact different text₀.symm

theorem getRole_eq (h : Represents json now cache contexts) (roundTrips : json.RoundTrips) {role key : String}
    (alone : ∀ role' key' entry, roleKey role' key' = roleKey role key → contexts role' key' = some entry →
      now ≤ entry.expiry → role' = role ∧ key' = key) :
    SharedContext.getRole json cache now role key =
      (contexts.get now role key, cache.sweep now (roleKey role key)) := by
  rw [SharedContext.getRole, MemoryCache.get_eq]
  dsimp only
  congr 1
  cases found : cache.find now (roleKey role key) with
  | none =>
      have unset : contexts.get now role key = none := by
        rw [Contexts.get, Option.map_eq_none_iff, Option.filter_eq_none_iff]
        intro entry here alive
        cases found.symm.trans (h.found now le_rfl role key entry here (of_decide_eq_true alive))
      exact unset.symm
  | some text =>
      obtain ⟨role', key', entry, same, here, alive, rfl⟩ := h.source now le_rfl role key text found
      obtain ⟨rfl, rfl⟩ := alone role' key' entry same here alive
      rw [Contexts.get, here, Option.filter_some, if_pos (decide_eq_true alive), Option.bind_some, decode,
        Option.map_some, roundTrips]
      rfl

theorem clearRole (h : Represents json now cache contexts) {role : String}
    (unset : ∀ key entry, contexts role key = some entry → ¬ now ≤ entry.expiry) :
    Represents json now (SharedContext.clearRole cache now role) (contexts.clear role) := by
  have same : SharedContext.clearRole cache now role = cache.sweep now (ROLE_PREFIX ++ role ++ ":" ++ "placeholder") := by
    rw [SharedContext.clearRole, MemoryCache.getMany_eq]
    rfl
  rw [same]
  have swept := h.sweep (ROLE_PREFIX ++ role ++ ":" ++ "placeholder")
  refine ⟨?_, ?_⟩
  · intro t later role' key entry here alive
    rw [Contexts.clear] at here
    split at here
    · cases here
    · exact swept.found t later role' key entry here alive
  · intro t later role' key text found
    obtain ⟨role₀, key₀, entry, text₀, here, alive, eq⟩ := swept.source t later role' key text found
    refine ⟨role₀, key₀, entry, text₀, ?_, alive, eq⟩
    rw [Contexts.clear, if_neg, here]
    rintro rfl
    exact unset key₀ entry here (later.trans alive)

end Represents

/-! ### Runs -/

section
variable {J : Type} {json : Json J}

structure System.Sound (json : Json J) (s : System J) : Prop where
  represents : Represents json s.now s.cache s.contexts
  isolated : s.Isolated

theorem sound_step (roundTrips : json.RoundTrips) (s : System J) (call : Call J) (s' : System J) (sound : s.Sound json)
    (separate : s.Separate call) (next : step json s call = some s') : s'.Sound json := by
  obtain ⟨represents, isolated⟩ := sound
  cases call with
  | elapse seconds =>
      obtain ⟨forward, rfl⟩ := Option.ite_none_right_eq_some.mp next |>.imp_right Option.some.inj
      exact ⟨represents.later (le_add_of_nonneg_right forward), isolated⟩
  | setGlobal key value ttl =>
      obtain rfl := Option.some.inj next
      exact ⟨represents.setGlobal key value ttl, isolated⟩
  | getGlobal key =>
      obtain rfl := Option.some.inj next
      refine ⟨?_, isolated⟩
      rw [getGlobal, MemoryCache.get_eq]
      exact represents.sweep (globalKey key)
  | setRole role key value ttl =>
      obtain rfl := Option.some.inj next
      refine ⟨represents.setRole ?_ value ttl, isolated⟩
      exact fun role' key' entry same here alive => separate role' key' same ⟨entry, here, alive⟩
  | getRole role key =>
      obtain rfl := Option.some.inj next
      have answered := represents.getRole_eq roundTrips
        fun role' key' entry same here alive => separate role' key' same ⟨entry, here, alive⟩
      refine ⟨?_, List.forall_mem_append.mpr ⟨isolated, List.forall_mem_singleton.mpr ?_⟩⟩
      · rw [answered]
        exact represents.sweep (roleKey role key)
      · rw [answered]
  | clearRole role =>
      obtain rfl := Option.some.inj next
      exact ⟨represents.clearRole fun key entry here alive => separate key ⟨entry, here, alive⟩, isolated⟩

/-- Roles are isolated, and cleared, as long as the texts of their keys do not meet and no role that is cleared has
values. -/
theorem throughout_isolated (json : Json J) (roundTrips : json.RoundTrips) (now : Rat) (defaultTtl : Int)
    (calls : List (Call J)) (separate : Along (step json) System.Separate (start now defaultTtl) calls) :
    Throughout (step json) System.Isolated (start now defaultTtl) calls := by
  have begins : (start (J := J) now defaultTtl).Sound json :=
    ⟨Represents.start now defaultTtl, fun answer none => absurd none List.not_mem_nil⟩
  exact (throughout_of_along (sound_step roundTrips) begins separate).mono fun s sound => sound.isolated

end

def boolJson : Json Bool where
  dumps value := if value then "true" else "false"
  loads text := if text = "true" then some true else if text = "false" then some false else none
  ofText _ := false

theorem boolJson_roundTrips : boolJson.RoundTrips := by
  intro value
  cases value with
  | false => decide
  | true => decide

/-- The router's language has expired when the role is cleared. -/
def cleared : List (Call Bool) :=
  [.setRole "router" "language" true 60, .setRole "writer" "language" false 600, .getRole "router" "language",
    .elapse 61, .clearRole "router", .getRole "router" "language", .getRole "writer" "language"]

/-- What the two roles have set. -/
def languages : Contexts Bool :=
  Contexts.set (Contexts.set (fun _ _ => none) "router" "language" ⟨true, expiry 0 3600 60⟩) "writer" "language"
    ⟨false, expiry 0 3600 600⟩

theorem languages_cases {role key : String} {entry : Entry Bool} (here : languages role key = some entry) :
    (role = "writer" ∧ key = "language") ∨ (role = "router" ∧ key = "language" ∧ entry.expiry = 60) := by
  rw [languages, Contexts.set] at here
  split at here
  · exact Or.inl ‹_›
  · obtain ⟨⟨own, same⟩, eq⟩ := Option.ite_none_right_eq_some.mp here
    obtain rfl := Option.some.inj eq
    exact Or.inr ⟨own, same, by decide +kernel⟩

theorem alone_language {s : System Bool} (known : ∀ role key entry, s.contexts role key = some entry →
    languages role key = some entry) {role : String} (own : role = "router" ∨ role = "writer") :
    s.Alone role "language" := by
  rintro role' key' same ⟨entry, here, -⟩
  have apart : roleKey "writer" "language" ≠ roleKey "router" "language" := by decide
  rcases languages_cases (known _ _ _ here) with ⟨rfl, rfl⟩ | ⟨rfl, rfl, -⟩ <;> rcases own with rfl | rfl
  · exact absurd same apart
  · exact ⟨rfl, rfl⟩
  · exact ⟨rfl, rfl⟩
  · exact absurd same.symm apart

theorem step_elapse {s : System Bool} {seconds : Rat} (forward : 0 ≤ seconds) :
    step boolJson s (.elapse seconds) = some { s with now := s.now + seconds } := if_pos forward

theorem throughout_isolated_cleared : Throughout (step boolJson) System.Isolated (start 0 3600) cleared := by
  apply throughout_isolated boolJson boolJson_roundTrips 0 3600 cleared
  have first (role key : String) (entry : Entry Bool)
      (here : Contexts.set (fun _ _ => none) "router" "language" ⟨true, expiry 0 3600 60⟩ role key = some entry) :
      languages role key = some entry := by
    obtain ⟨⟨rfl, rfl⟩, -⟩ := Option.ite_none_right_eq_some.mp here
    exact here
  have left (role key : String) (entry : Entry Bool) (here : languages.clear "router" role key = some entry) :
      languages role key = some entry := (Option.ite_none_left_eq_some.mp here).2
  apply along_cons rfl
  · exact alone_language (by rintro _ _ _ ⟨⟩) (Or.inl rfl)
  apply along_cons rfl
  · exact alone_language first (Or.inr rfl)
  apply along_cons rfl
  · exact alone_language (fun _ _ _ here => here) (Or.inl rfl)
  apply along_cons (step_elapse (show (0 : Rat) ≤ 61 by decide))
  · trivial
  apply along_cons rfl
  · rintro key ⟨entry, here, alive⟩
    have known : languages "router" key = some entry := here
    rcases languages_cases known with ⟨other, -⟩ | ⟨-, -, expiry⟩
    · exact absurd other (by decide)
    · rw [expiry] at alive
      exact absurd alive (by decide +kernel)
  apply along_cons rfl
  · exact alone_language left (Or.inl rfl)
  apply along_cons rfl
  · exact alone_language left (Or.inr rfl)
  trivial

/-- The role `a` with the key `b:c`, and the role `a:b` with the key `c`. -/
def twoRoles : List (Call Bool) := [.setRole "a" "b:c" true 60, .getRole "a:b" "c"]

theorem role_reads_other : ¬ ∀ (json : Json Bool) (now : Rat) (defaultTtl : Int) (calls : List (Call Bool)),
    json.RoundTrips → Throughout (step json) System.Isolated (start now defaultTtl) calls := by
  intro claim
  have isolated := (claim boolJson 0 3600 twoRoles boolJson_roundTrips).last rfl
  have answer := isolated _ (List.mem_singleton_self _)
  exact absurd answer (by decide +kernel)

end CuckooEcho.Agent.SharedContext
