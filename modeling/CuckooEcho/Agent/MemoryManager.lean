import CuckooEcho.Lib.Run
import CuckooEcho.Shared.ContextCompressor
import Mathlib.Algebra.Field.Rat

namespace CuckooEcho.Agent.Memories
open Lib Shared.ContextCompressor

/-! ## `MemoryManager` -/

inductive MemoryType
  | episodic | semantic | procedural
  deriving DecidableEq, Repr

/-- Times are in microseconds. The serial number stands for the object: every call of `store_memory` makes a new one.
Scores are numbers of any ordered type: no law of arithmetic is used of them, so they may be rounded. -/
structure Memory (F : Type*) where
  serial : Nat
  userId : String
  memoryType : MemoryType
  content : Dict String PyValue
  importance : F
  createdAt : Int
  expiresAt : Option Int
  metadata : Dict String PyValue := Dict.empty

section
variable {F : Type*} [LinearOrder F] [Zero F] [One F] [Add F] [Mul F] [Div F] [OfNat F 24] [OfNat F 3600]
variable [OfScientific F] (lower : String → String) (totalSeconds : Int → F) (power : F → F)

/-- `power` is `decay_factor ** ·`. -/
def recencyScore (now createdAt : Int) : F :=
  let ageHours := totalSeconds (now - createdAt) / 3600
  power (ageHours / 24)

/-- `none` where `lower` is called on a text that is no string. -/
def relevance (memory : Memory F) (query : Option String) : Option F :=
  match query.filter (· ≠ "") with
  | none => some 0.5
  | some query =>
      match (memory.content.get "text").filter PyValue.truthy with
      | none => some 0.5
      | some (.str text) => some (if contains (lower query) (lower text) then 0.9 else 0.5)
      | some _ => none

/-- `ImportanceScorer.score` -/
def score (now : Int) (query : Option String) (memory : Memory F) : Option F := do
  let explicit := memory.importance
  let recency := recencyScore totalSeconds power now memory.createdAt
  let implicit := if (memory.metadata.get "repeated_mention").any PyValue.truthy then 0.5 + 0.2 else 0.5
  let relevance ← relevance lower memory query
  let total := explicit * 0.3 + implicit * 0.2 + recency * 0.2 + relevance * 0.3
  return min 1 (max 0 total)

end

structure MemoryManager (F : Type*) where
  db : Bool
  vectorStore : Bool
  now : Int
  sessionBuffer : Dict String (List (Memory F)) := Dict.empty
  stored : Nat := 0

section
variable {F : Type*}

/-- The two searches are not implemented. -/
def semanticSearch (_userId _query : String) (_limit : Int) : List (Memory F) := []

def dbSearch (_userId : String) (_memoryType : Option MemoryType) (_limit : Int) : List (Memory F) := []

/-- `l[:limit]` -/
def sliceTo {α : Type*} (l : List α) (limit : Int) : List α :=
  l.take (if 0 ≤ limit then limit else l.length + limit).toNat

namespace MemoryManager

def storeMemory (s : MemoryManager F) (userId : String) (memoryType : MemoryType) (content : Dict String PyValue)
    (importance : F) (sessionId : Option String) (expiresAt : Option Int) : MemoryManager F :=
  let memory : Memory F := { serial := s.stored, userId, memoryType, content, importance, createdAt := s.now, expiresAt }
  let sessionBuffer := match sessionId.filter (· ≠ "") with
    | none => s.sessionBuffer
    | some sessionId => s.sessionBuffer.set sessionId ((s.sessionBuffer.get sessionId).getD [] ++ [memory])
  { s with sessionBuffer, stored := s.stored + 1 }

def generateSummary (memories : List (Memory F)) : String := "Conversation with " ++ toString memories.length ++ " messages"

def consolidate [OfScientific F] (s : MemoryManager F) (userId sessionId : String) : MemoryManager F :=
  match s.sessionBuffer.get sessionId with
  | none => s
  | some memories =>
      let episodic := memories.filter (·.memoryType = .episodic)
      let s := if episodic.isEmpty then s else
        let content := (Dict.empty.set "type" (.str "conversation_summary")).set "summary" (.str (generateSummary episodic))
        s.storeMemory userId .semantic content 0.6 none none
      { s with sessionBuffer := s.sessionBuffer.erase sessionId }

/-- What `retrieve_memories` chooses from. -/
def results (s : MemoryManager F) (userId : String) (query : Option String) (memoryType : Option MemoryType)
    (limit : Int) (sessionId : Option String) : List (Memory F) :=
  let buffered := ((sessionId.filter (· ≠ "")).bind s.sessionBuffer.get).getD []
  let vectorResults := match query.filter (· ≠ "") with
    | some query => if s.vectorStore then semanticSearch userId query limit else []
    | none => []
  let dbResults := if s.db then dbSearch userId memoryType limit else []
  buffered ++ vectorResults ++ dbResults

/-- `none` when a memory cannot be scored; `clock` is what `datetime.now()` returns for each memory. -/
def retrieveMemories [LinearOrder F] [Zero F] [One F] [Add F] [Mul F] [Div F] [OfNat F 24] [OfNat F 3600]
    [OfScientific F] (lower : String → String) (totalSeconds : Int → F) (power : F → F) (clock : Nat → Int)
    (s : MemoryManager F) (userId : String) (query : Option String) (memoryType : Option MemoryType) (limit : Int)
    (sessionId : Option String) : Option (List (Memory F)) := do
  let scored ← (s.results userId query memoryType limit sessionId).zipIdx.mapM fun (m, i) => do
    return (m, ← score lower totalSeconds power (clock i) query m)
  let sorted := scored.insertionSort fun a b => b.2 ≤ a.2
  return (sliceTo sorted limit).map Prod.fst

end MemoryManager

/-! ### Sequences of calls -/

inductive Call (F : Type*)
  | elapse (microseconds : Nat)
  | storeMemory (userId : String) (memoryType : MemoryType) (content : Dict String PyValue) (importance : F)
      (sessionId : Option String) (expiresAt : Option Int)
  | consolidate (userId sessionId : String)

def start (db vectorStore : Bool) (now : Int) : MemoryManager F := { db, vectorStore, now }

/-- The memories of a session are different objects, in the order in which they were stored. -/
structure Ordered (s : MemoryManager F) : Prop where
  increasing : ∀ id memories, s.sessionBuffer.get id = some memories → memories.Pairwise fun a b => a.serial < b.serial
  stored : ∀ id memories, s.sessionBuffer.get id = some memories → ∀ m ∈ memories, m.serial < s.stored

theorem ordered_start (db vectorStore : Bool) (now : Int) : Ordered (start db vectorStore now : MemoryManager F) where
  increasing _ _ none := by cases none
  stored _ _ none := by cases none

theorem Ordered.of_session {s : MemoryManager F} (ordered : Ordered s) (session : String) :
    ((s.sessionBuffer.get session).getD []).Pairwise (fun a b => a.serial < b.serial) ∧
      ∀ m ∈ (s.sessionBuffer.get session).getD [], m.serial < s.stored := by
  cases found : s.sessionBuffer.get session with
  | none => exact ⟨List.Pairwise.nil, fun m none => absurd none List.not_mem_nil⟩
  | some memories => exact ⟨ordered.increasing session memories found, ordered.stored session memories found⟩

theorem ordered_storeMemory {s : MemoryManager F} (ordered : Ordered s) (userId : String) (memoryType : MemoryType)
    (content : Dict String PyValue) (importance : F) (sessionId : Option String) (expiresAt : Option Int) :
    Ordered (s.storeMemory userId memoryType content importance sessionId expiresAt) := by
  unfold MemoryManager.storeMemory
  cases sessionId.filter (· ≠ "") with
  | none => exact ⟨ordered.increasing, fun id memories found m member =>
      Nat.lt_succ_of_lt (ordered.stored id memories found m member)⟩
  | some session =>
      obtain ⟨sorted, before⟩ := ordered.of_session session
      constructor
      · intro id memories found
        rw [Dict.get_set] at found
        split at found
        · rw [← Option.some.inj found]
          apply List.pairwise_append.mpr
          exact ⟨sorted, List.pairwise_singleton _ _, fun a member b last => List.mem_singleton.mp last ▸ before a member⟩
        · exact ordered.increasing id memories found
      · intro id memories found m member
        rw [Dict.get_set] at found
        split at found
        · rw [← Option.some.inj found] at member
          rcases List.mem_append.mp member with old | new
          · exact Nat.lt_succ_of_lt (before m old)
          · rw [List.mem_singleton.mp new]
            exact Nat.lt_succ_self s.stored
        · exact Nat.lt_succ_of_lt (ordered.stored id memories found m member)

/-! ### What is retrieved -/

def buffered (s : MemoryManager F) (sessionId : Option String) : List (Memory F) :=
  ((sessionId.filter (· ≠ "")).bind s.sessionBuffer.get).getD []

theorem results_eq {s : MemoryManager F} {userId : String} {query : Option String} {memoryType : Option MemoryType}
    {limit : Int} {sessionId : Option String} :
    s.results userId query memoryType limit sessionId = buffered s sessionId := by
  have nothing : (match query.filter (· ≠ "") with
      | some query => if s.vectorStore then semanticSearch (F := F) userId query limit else []
      | none => []) = [] := by
    split
    · exact ite_self _
    · rfl
  simp only [MemoryManager.results, nothing, dbSearch, ite_self, List.append_nil]
  rfl

theorem increasing_buffered {s : MemoryManager F} (ordered : Ordered s) (sessionId : Option String) :
    (buffered s sessionId).Pairwise fun a b => a.serial < b.serial := by
  unfold buffered
  cases found : (sessionId.filter (· ≠ "")).bind s.sessionBuffer.get with
  | none => exact List.Pairwise.nil
  | some memories =>
      obtain ⟨id, -, here⟩ := Option.bind_eq_some_iff.mp found
      exact ordered.increasing id memories here

theorem sliceTo_natCast {α : Type*} (l : List α) (n : Nat) : sliceTo l n = l.take n := by
  rw [sliceTo, if_pos (Int.natCast_nonneg n), Int.toNat_natCast]

/-! ### Every sequence of calls -/

variable [OfScientific F]

def step (s : MemoryManager F) : Call F → Option (MemoryManager F)
  | .elapse microseconds => some { s with now := s.now + microseconds }
  | .storeMemory userId memoryType content importance sessionId expiresAt =>
      some (s.storeMemory userId memoryType content importance sessionId expiresAt)
  | .consolidate userId sessionId => some (s.consolidate userId sessionId)

theorem ordered_consolidate {s : MemoryManager F} (ordered : Ordered s) (userId sessionId : String) :
    Ordered (s.consolidate userId sessionId) := by
  have erased {s : MemoryManager F} (ordered : Ordered s) :
      Ordered { s with sessionBuffer := s.sessionBuffer.erase sessionId } := by
    constructor
    · intro id memories found
      rw [Dict.get_erase] at found
      exact ordered.increasing id memories (Option.ite_none_left_eq_some.mp found).2
    · intro id memories found
      rw [Dict.get_erase] at found
      exact ordered.stored id memories (Option.ite_none_left_eq_some.mp found).2
  unfold MemoryManager.consolidate
  cases s.sessionBuffer.get sessionId with
  | none => exact ordered
  | some memories =>
      dsimp only
      apply erased
      split
      · exact ordered
      · exact ordered_storeMemory ordered ..

theorem ordered_of_exec {s t : MemoryManager F} {calls : List (Call F)} (ordered : Ordered s)
    (run : exec step s calls = some t) : Ordered t := by
  refine Throughout.last (throughout_of_step ?_ ordered) run
  intro s call s' ordered next
  cases call with
  | elapse microseconds =>
      obtain rfl := Option.some.inj next
      exact ⟨ordered.increasing, ordered.stored⟩
  | storeMemory userId memoryType content importance sessionId expiresAt =>
      obtain rfl := Option.some.inj next
      exact ordered_storeMemory ordered ..
  | consolidate userId sessionId =>
      obtain rfl := Option.some.inj next
      exact ordered_consolidate ordered userId sessionId

end

section
variable {F : Type*}

/-! ### Whether memories stay with their owners -/

structure Proper (now : Int) (userId : String) (memoryType : Option MemoryType) (limit : Int)
    (result : List (Memory F)) : Prop where
  owner : ∀ m ∈ result, m.userId = userId
  type : ∀ m ∈ result, ∀ t, memoryType = some t → m.memoryType = t
  current : ∀ m ∈ result, ∀ instant, m.expiresAt = some instant → now ≤ instant
  once : (result.map Memory.serial).Nodup
  bounded : result.length ≤ limit

def Foreign (now : Int) (userId : String) (memoryType : Option MemoryType) (m : Memory F) : Prop :=
  m.userId ≠ userId ∨ (∃ t, memoryType = some t ∧ m.memoryType ≠ t) ∨ ∃ instant, m.expiresAt = some instant ∧ instant < now

variable {userId : String} {memoryType : Option MemoryType}

theorem not_foreign_iff {now : Int} {m : Memory F} : ¬ Foreign now userId memoryType m ↔
    m.userId = userId ∧ (∀ t, memoryType = some t → m.memoryType = t) ∧
      ∀ instant, m.expiresAt = some instant → now ≤ instant := by
  simp [Foreign]

/-! ### What comes first -/

variable [LinearOrder F]

/-- A greater score, or the same and stored earlier. -/
abbrev Outranks : Memory F × F → Memory F × F → Prop := Precedes Prod.snd fun a b => a.1.serial < b.1.serial

instance : DecidableRel (Outranks (F := F)) := fun _ _ => inferInstanceAs (Decidable (_ ∨ _))

def rankOf (scored : List (Memory F × F)) (x : Memory F × F) : Nat := scored.countP fun other => Outranks other x

theorem outranks_asymm (a b : Memory F × F) (first : Outranks a b) : ¬ Outranks b a := by
  rintro (less | ⟨same, before⟩)
  · exact absurd first.le (not_le.mpr less)
  · rcases first with less | ⟨-, before'⟩
    · exact absurd same less.ne
    · exact Nat.lt_asymm before before'

def sorted (scored : List (Memory F × F)) : List (Memory F × F) := scored.insertionSort fun a b => b.2 ≤ a.2

theorem mem_take_sorted {scored : List (Memory F × F)} {x : Memory F × F} (member : x ∈ scored)
    (increasing : scored.Pairwise fun a b => a.1.serial < b.1.serial) (n : Nat) :
    x ∈ (sorted scored).take n ↔ rankOf scored x < n := by
  have pairwise : (sorted scored).Pairwise Outranks := pairwise_precedes_insertionSort (fun _ _ => Iff.rfl) increasing
  have perm : (sorted scored).Perm scored := List.perm_insertionSort _ scored
  rw [mem_take_iff_countP outranks_asymm pairwise (perm.mem_iff.mpr member), rankOf, ← perm.countP_eq]

theorem proper_take_iff {scored : List (Memory F × F)} {now : Int}
    (increasing : scored.Pairwise fun a b => a.1.serial < b.1.serial) (n : Nat) :
    Proper now userId memoryType n (((sorted scored).take n).map Prod.fst) ↔
      ∀ x ∈ scored, Foreign now userId memoryType x.1 → n ≤ rankOf scored x := by
  have perm : (sorted scored).Perm scored := List.perm_insertionSort _ scored
  constructor
  · intro proper x member foreign
    by_contra few
    have returned : x.1 ∈ ((sorted scored).take n).map Prod.fst :=
      List.mem_map_of_mem ((mem_take_sorted member increasing n).mpr (Nat.lt_of_not_le few))
    exact not_foreign_iff.mpr ⟨proper.owner _ returned, proper.type _ returned, proper.current _ returned⟩ foreign
  · intro displaced
    have own : ∀ m ∈ ((sorted scored).take n).map Prod.fst, ¬ Foreign now userId memoryType m := by
      intro m returned foreign
      obtain ⟨x, first, rfl⟩ := List.mem_map.mp returned
      have member := perm.mem_iff.mp (List.mem_of_mem_take first)
      exact absurd ((mem_take_sorted member increasing n).mp first) (Nat.not_lt.mpr (displaced x member foreign))
    refine ⟨fun m member => (not_foreign_iff.mp (own m member)).1, fun m member => (not_foreign_iff.mp (own m member)).2.1,
      fun m member => (not_foreign_iff.mp (own m member)).2.2, ?_, ?_⟩
    · have nodup : (scored.map fun x => x.1.serial).Nodup := List.pairwise_map.mpr (increasing.imp fun less => less.ne)
      rw [List.map_map]
      exact ((perm.map fun x => x.1.serial).nodup_iff.mpr nodup).sublist ((List.take_sublist n _).map _)
    · rw [List.length_map]
      exact_mod_cast List.length_take_le n _

/-! ### What is scored -/

variable [Zero F] [One F] [Add F] [Mul F] [Div F] [OfNat F 24] [OfNat F 3600] [OfScientific F]

section
variable (lower : String → String) (totalSeconds : Int → F) (power : F → F) (clock : Nat → Int)

def scoreOf (now : Int) (query : Option String) (memory : Memory F) : F :=
  (score lower totalSeconds power now query memory).getD 0

def scoredOf (query : Option String) (memories : List (Memory F)) : List (Memory F × F) :=
  memories.zipIdx.map fun (m, i) => (m, scoreOf lower totalSeconds power (clock i) query m)

theorem fst_scoredOf (query : Option String) (memories : List (Memory F)) :
    (scoredOf lower totalSeconds power clock query memories).map Prod.fst = memories := by
  rw [scoredOf, List.map_map]
  exact List.zipIdx_map_fst 0 memories

theorem increasing_scoredOf (query : Option String) {memories : List (Memory F)}
    (increasing : memories.Pairwise fun a b => a.serial < b.serial) :
    (scoredOf lower totalSeconds power clock query memories).Pairwise fun a b => a.1.serial < b.1.serial := by
  rw [← fst_scoredOf lower totalSeconds power clock query memories] at increasing
  exact List.Pairwise.of_map Prod.fst (fun a b less => less) increasing

/-- Some memory of the session cannot be scored; or every memory that is not to be returned has as many as the limit
before it. -/
def Displaced (s : MemoryManager F) (userId : String) (query : Option String) (memoryType : Option MemoryType)
    (limit : Int) (sessionId : Option String) : Prop :=
  (∃ m ∈ buffered s sessionId, relevance lower m query = none) ∨
    0 ≤ limit ∧ ∀ x ∈ scoredOf lower totalSeconds power clock query (buffered s sessionId),
      Foreign s.now userId memoryType x.1 →
        limit ≤ rankOf (scoredOf lower totalSeconds power clock query (buffered s sessionId)) x

end

variable {lower : String → String} {totalSeconds : Int → F} {power : F → F} {clock : Nat → Int} {s : MemoryManager F}
  {query : Option String} {limit : Int} {sessionId : Option String}

theorem mapM_score {items : List (Memory F × Nat)} (readable : ∀ x ∈ items, (relevance lower x.1 query).isSome) :
    (items.mapM fun (m, i) => do return (m, ← score lower totalSeconds power (clock i) query m)) =
      some (items.map fun (m, i) => (m, scoreOf lower totalSeconds power (clock i) query m)) := by
  induction items with
  | nil => rfl
  | cons x items ih =>
      obtain ⟨here, later⟩ := List.forall_mem_cons.mp readable
      obtain ⟨r, known⟩ := Option.isSome_iff_exists.mp here
      rw [List.mapM_cons, ih later]
      simp [scoreOf, score, known]

theorem mapM_score_eq_none {items : List (Memory F × Nat)} {x : Memory F × Nat} (member : x ∈ items)
    (unreadable : relevance lower x.1 query = none) :
    (items.mapM fun (m, i) => do return (m, ← score lower totalSeconds power (clock i) query m)) = none := by
  induction items with
  | nil => exact absurd member List.not_mem_nil
  | cons first items ih =>
      obtain ⟨m, i⟩ := first
      rw [List.mapM_cons]
      rcases List.mem_cons.mp member with rfl | later
      · simp [score, unreadable]
      · rw [ih later]
        dsimp only
        cases score lower totalSeconds power (clock i) query m with
        | none => rfl
        | some n => rfl

theorem retrieveMemories_eq (readable : ∀ m ∈ buffered s sessionId, (relevance lower m query).isSome) :
    s.retrieveMemories lower totalSeconds power clock userId query memoryType limit sessionId =
      some ((sliceTo (sorted (scoredOf lower totalSeconds power clock query (buffered s sessionId))) limit).map
        Prod.fst) := by
  have each : ∀ x ∈ (buffered s sessionId).zipIdx, (relevance lower x.1 query).isSome := fun x member =>
    readable x.1 (List.fst_mem_of_mem_zipIdx member)
  rw [MemoryManager.retrieveMemories, results_eq, mapM_score each, Option.bind_eq_bind, Option.bind_some]
  rfl

theorem retrieveMemories_eq_none (unreadable : ∃ m ∈ buffered s sessionId, relevance lower m query = none) :
    s.retrieveMemories lower totalSeconds power clock userId query memoryType limit sessionId = none := by
  obtain ⟨m, member, unreadable⟩ := unreadable
  obtain ⟨i, bound, rfl⟩ := List.getElem_of_mem member
  rw [MemoryManager.retrieveMemories, results_eq,
    mapM_score_eq_none (List.mk_mem_zipIdx_iff_getElem?.mpr (List.getElem?_eq_getElem bound)) unreadable]
  rfl

/-- After every sequence of calls: what is retrieved is the user's own, of the type and current, exactly if nothing else
of the session comes among the first `limit`. -/
theorem retrieveMemories_proper_iff (lower : String → String) (totalSeconds : Int → F) (power : F → F)
    (clock : Nat → Int) (db vectorStore : Bool) (now : Int) (calls : List (Call F)) (s : MemoryManager F)
    (run : exec step (start db vectorStore now) calls = some s) (userId : String) (query : Option String)
    (memoryType : Option MemoryType) (limit : Int) (sessionId : Option String) :
    (∀ result,
      s.retrieveMemories lower totalSeconds power clock userId query memoryType limit sessionId = some result →
        Proper s.now userId memoryType limit result) ↔
      Displaced lower totalSeconds power clock s userId query memoryType limit sessionId := by
  have increasing := increasing_scoredOf lower totalSeconds power clock query
    (increasing_buffered (ordered_of_exec (ordered_start db vectorStore now) run) sessionId)
  by_cases unreadable : ∃ m ∈ buffered s sessionId, relevance lower m query = none
  · rw [retrieveMemories_eq_none unreadable]
    exact iff_of_true (fun _ none => by cases none) (Or.inl unreadable)
  · have readable : ∀ m ∈ buffered s sessionId, (relevance lower m query).isSome := by
      intro m member
      by_contra missing
      exact unreadable ⟨m, member, by simpa using missing⟩
    rw [Displaced, or_iff_right unreadable, retrieveMemories_eq readable]
    simp only [Option.some.injEq, forall_eq']
    cases limit with
    | ofNat n =>
        rw [Int.ofNat_eq_natCast, sliceTo_natCast, proper_take_iff increasing n]
        simp
    | negSucc n =>
        constructor
        · intro proper
          have bounded := proper.bounded
          omega
        · rintro ⟨nonneg, -⟩
          omega

end

def note : Dict String PyValue := Dict.empty.set "text" (.str "my address")

def seconds (microseconds : Int) : Rat := microseconds / 1000000

/-- Alice stores a memory in the session `s`. -/
def alone : MemoryManager Rat := (start false false 0).storeMemory "alice" .episodic note 0.9 (some "s") none

/-- So does Bob, and Alice's is the more important. -/
def both : MemoryManager Rat := alone.storeMemory "bob" .episodic note 0.5 (some "s") none

/-- Of the two, Alice gets her own. -/
theorem retrieveMemories_proper_iff_both : ∃ result,
    both.retrieveMemories id seconds (fun _ => 1) (fun _ => 0) "alice" none none 1 (some "s") = some result ∧
      Proper 0 "alice" none 1 result := by
  have returns :
      (both.retrieveMemories id seconds (fun _ => 1) (fun _ => 0) "alice" none none 1 (some "s")).isSome := by
    decide +kernel
  obtain ⟨result, found⟩ := Option.isSome_iff_exists.mp returns
  refine ⟨result, found, ?_⟩
  refine (retrieveMemories_proper_iff id seconds (fun _ => 1) (fun _ => 0) false false 0
    [.storeMemory "alice" .episodic note 0.9 (some "s") none, .storeMemory "bob" .episodic note 0.5 (some "s") none]
    both rfl "alice" none none 1 (some "s")).mpr (Or.inr ⟨by decide, ?_⟩) result found
  intro x member foreign
  obtain rfl | last := List.mem_cons.mp member
  · exact absurd foreign (not_foreign_iff.mpr ⟨rfl, by simp, by rintro instant ⟨⟩⟩)
  · obtain rfl := List.mem_singleton.mp last
    decide +kernel

/-- Bob asks for his memories with the same session. -/
theorem memory_of_other : ¬ ∀ (lower : String → String) (totalSeconds : Int → Rat) (power : Rat → Rat)
    (clock : Nat → Int) (db vectorStore : Bool) (now : Int) (calls : List (Call Rat)) (s : MemoryManager Rat),
    exec step (start db vectorStore now) calls = some s →
    ∀ (userId : String) (query : Option String) (memoryType : Option MemoryType) (limit : Int)
      (sessionId : Option String) (result : List (Memory Rat)),
      s.retrieveMemories lower totalSeconds power clock userId query memoryType limit sessionId = some result →
        Proper s.now userId memoryType limit result := by
  intro claim
  have proper := claim id seconds (fun _ => 1) (fun _ => 0) false false 0
    [.storeMemory "alice" .episodic note 0.9 (some "s") none] alone rfl "bob" none none 10 (some "s") _ rfl
  exact absurd (proper.owner _ (List.mem_singleton_self _)) (by decide)

end CuckooEcho.Agent.Memories
