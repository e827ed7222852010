import CuckooEcho.Shared.SemanticCache
import CuckooEcho.Lib.Run
import Mathlib.Algebra.Order.Ring.Unbundled.Rat
import Mathlib.Data.List.MinMax

namespace CuckooEcho.Shared.CacheValidity
open Lib

/-! ## The services behind the cache -/

def cacheTtlHours : Nat := 24

structure Embedding where
  vector : String → List Rat
  similarity : List Rat → List Rat → Rat

namespace Embedding
variable (model : Embedding)

def MostSimilar (vector : List Rat) (rows : List CacheRow) : List (Rat × CacheRow) → Prop
  | [] => rows = []
  | (score, row) :: _ =>
      row ∈ rows ∧ score = model.similarity vector row.queryVector ∧
        ∀ other ∈ rows, model.similarity vector other.queryVector ≤ score

/-- Whenever they answer, the service embeds and Milvus finds the most similar row. -/
structure Behaves (cache : SemanticCache) : Prop where
  embeds : ∀ embed ∈ cache.embeddingService, ∀ query, ∀ vector ∈ embed query, vector = model.vector query
  searches : ∀ milvus ∈ cache.milvusClient, ∀ vector rows, ∀ hits ∈ milvus.search vector rows,
    model.MostSimilar vector rows hits

end Embedding

/-! ## Runs of calls -/

inductive Call
  | store (query response tenantId : String)
  | invalidate (tenantId : String)
  | lookup (query tenantId : String)
  deriving DecidableEq, Repr

/-- A call, with the services and the time that it meets. -/
structure Op (model : Embedding) where
  cache : SemanticCache
  behaves : model.Behaves cache
  call : Call

/-- The rows in Milvus, and those that are stored and not invalidated since. The two differ when a deletion
fails. -/
structure System where
  rows : List CacheRow
  entries : List CacheRow

variable {model : Embedding}

def step (s : System) (op : Op model) : Option System :=
  match op.call with
  | .store query response tenantId =>
      some ⟨cacheStore op.cache s.rows query response tenantId, cacheStore op.cache s.entries query response tenantId⟩
  | .invalidate tenantId =>
      some ⟨cacheInvalidate op.cache s.rows tenantId, s.entries.filter fun row => row.tenantId ≠ tenantId⟩
  | .lookup _ _ => some s

def start : System := ⟨[], []⟩

/-! ## What a store adds -/

theorem cacheStore_eq (cache : SemanticCache) (rows : List CacheRow) (query response tenantId : String) :
    cacheStore cache rows query response tenantId = rows ++ cacheStore cache [] query response tenantId := by
  unfold cacheStore
  split
  · split
    · rfl
    · exact (List.append_nil rows).symm
  · exact (List.append_nil rows).symm

def Op.stores (op : Op model) : List CacheRow :=
  match op.call with
  | .store query response tenantId => cacheStore op.cache [] query response tenantId
  | .invalidate _ | .lookup _ _ => []

theorem mem_cacheStore {cache : SemanticCache} {query response tenantId : String} {row : CacheRow}
    (stored : row ∈ cacheStore cache [] query response tenantId) :
    ∃ embed ∈ cache.embeddingService, ∃ vector ∈ embed query, row = ⟨tenantId, query, response, vector, cache.time⟩ := by
  unfold cacheStore at stored
  split at stored
  · rename_i milvus vector _ embedded
    obtain ⟨embed, wired, embedded⟩ := Option.bind_eq_some_iff.mp embedded
    split at stored
    · exact ⟨embed, wired, vector, embedded, List.mem_singleton.mp stored⟩
    · cases stored
  · cases stored

theorem cacheInvalidate_cases (cache : SemanticCache) (rows : List CacheRow) (tenantId : String) :
    cacheInvalidate cache rows tenantId = rows.filter (fun row => row.tenantId ≠ tenantId) ∨
      cacheInvalidate cache rows tenantId = rows := by
  unfold cacheInvalidate
  split
  · split
    · exact Or.inl rfl
    · exact Or.inr rfl
  · exact Or.inr rfl

inductive Moved (s : System) (op : Op model) : System → Prop
  | stored (kind : ∀ tenantId, op.call ≠ .invalidate tenantId) :
      Moved s op ⟨s.rows ++ op.stores, s.entries ++ op.stores⟩
  | invalidated {tenantId : String} (kind : op.call = .invalidate tenantId) {rows : List CacheRow}
      (kept : ∀ row ∈ s.rows, row.tenantId ≠ tenantId → row ∈ rows) (fewer : ∀ row ∈ rows, row ∈ s.rows) :
      Moved s op ⟨rows, s.entries.filter fun row => row.tenantId ≠ tenantId⟩

theorem moved_of_step {s t : System} {op : Op model} (next : step s op = some t) : Moved s op t := by
  unfold step at next
  cases kind : op.call with
  | store query response tenantId =>
      simp only [kind] at next
      rw [cacheStore_eq, cacheStore_eq op.cache s.entries] at next
      obtain rfl := Option.some.inj next
      have added : cacheStore op.cache [] query response tenantId = op.stores := by simp [Op.stores, kind]
      rw [added]
      exact .stored fun tenantId => by rw [kind]; exact Call.noConfusion
  | invalidate tenantId =>
      simp only [kind] at next
      obtain rfl := Option.some.inj next
      refine .invalidated kind ?_ ?_
      · intro row here other
        rcases cacheInvalidate_cases op.cache s.rows tenantId with deleted | failed
        · rw [deleted]
          exact List.mem_filter.mpr ⟨here, decide_eq_true other⟩
        · rwa [failed]
      · intro row here
        rcases cacheInvalidate_cases op.cache s.rows tenantId with deleted | failed
        · rw [deleted] at here
          exact (List.mem_filter.mp here).1
        · rwa [failed] at here
  | lookup query tenantId =>
      simp only [kind] at next
      obtain rfl := Option.some.inj next
      have none : op.stores = [] := by simp [Op.stores, kind]
      have moved : Moved s op ⟨s.rows ++ op.stores, s.entries ++ op.stores⟩ :=
        .stored fun tenantId => by rw [kind]; exact Call.noConfusion
      rwa [none, List.append_nil, List.append_nil] at moved

/-- The entries are what the calls of the run have stored and no later call has invalidated. -/
theorem mem_entries_iff {ops : List (Op model)} {s : System} (run : exec step start ops = some s) (row : CacheRow) :
    row ∈ s.entries ↔
      Since (fun op => row ∈ op.stores) (fun later => later.call ≠ .invalidate row.tenantId) ops := by
  induction ops using List.reverseRecOn generalizing s with
  | nil =>
      obtain rfl := Option.some.inj run
      exact iff_of_false List.not_mem_nil not_since_nil
  | append_singleton ops last ih =>
      rw [exec_append] at run
      obtain ⟨mid, earlier, run⟩ := Option.bind_eq_some_iff.mp run
      obtain ⟨t, next, same⟩ := Option.bind_eq_some_iff.mp run
      obtain rfl := Option.some.inj same
      rw [since_concat, ← ih earlier]
      cases moved_of_step next with
      | stored kind =>
          rw [List.mem_append]
          exact or_congr_left (iff_self_and.mpr fun _ => kind row.tenantId)
      | @invalidated tenantId kind rows kept fewer =>
          have none : last.stores = [] := by simp [Op.stores, kind]
          rw [none, kind, List.mem_filter, decide_eq_true_eq]
          simp [eq_comm]

/-! ## Lookups -/

/-- The entry is the tenant's, is not too old and was stored for a similar query. -/
def Usable (model : Embedding) (cache : SemanticCache) (query tenantId : String) (entry : CacheRow) : Prop :=
  entry.tenantId = tenantId ∧ cache.time < entry.createdAt + cacheTtlHours * 3600 ∧
    similarityThreshold ≤ model.similarity (model.vector query) (model.vector entry.queryText)

/-- A lookup returns the response of a usable entry, and returns one if there is any. -/
structure ValidLookup (s : System) (model : Embedding) (cache : SemanticCache) (query tenantId : String) : Prop where
  sound : ∀ response ∈ cacheLookup cache s.rows query tenantId,
    ∃ entry ∈ s.entries, Usable model cache query tenantId entry ∧ entry.responseText = response
  complete : (∃ entry ∈ s.entries, Usable model cache query tenantId entry) →
    ∃ entry ∈ s.entries, Usable model cache query tenantId entry ∧
      cacheLookup cache s.rows query tenantId = some entry.responseText

def Valid (s : System) (op : Op model) : Prop :=
  match op.call with
  | .lookup query tenantId => ValidLookup s model op.cache query tenantId
  | .store .. | .invalidate _ => True

/-- What Milvus answers to a lookup. -/
def foundHits (cache : SemanticCache) (rows : List CacheRow) (query tenantId : String) :
    Option (List (Rat × CacheRow)) := do
  let milvus ← cache.milvusClient
  let embed ← cache.embeddingService
  let vector ← embed query
  milvus.search vector (rows.filter fun row => row.tenantId = tenantId)

theorem cacheLookup_eq (cache : SemanticCache) (rows : List CacheRow) (query tenantId : String) :
    cacheLookup cache rows query tenantId = (foundHits cache rows query tenantId).bind firstHit := by
  simp [cacheLookup, foundHits, Option.bind_assoc]

/-- The row that Milvus finds similar enough has a response, and it or another usable entry with this response is
stored. Nothing else is lost: where the lookup fails, or that row has no response, no entry is usable. -/
def FindsUsable (s : System) (model : Embedding) (cache : SemanticCache) (query tenantId : String) : Prop :=
  match foundHits cache s.rows query tenantId with
  | none => ∀ entry ∈ s.entries, ¬ Usable model cache query tenantId entry
  | some [] => True
  | some ((score, row) :: _) =>
      similarityThreshold ≤ score →
        if row.responseText = "" then ∀ entry ∈ s.entries, ¬ Usable model cache query tenantId entry
        else ∃ entry ∈ s.entries, Usable model cache query tenantId entry ∧ entry.responseText = row.responseText

def StillFresh (s : System) (op : Op model) : Prop :=
  match op.call with
  | .lookup query tenantId => FindsUsable s model op.cache query tenantId
  | .store .. | .invalidate _ => True

/-- The entries are in Milvus, and every row there has the vector of its query. -/
structure Stored (model : Embedding) (s : System) : Prop where
  inMilvus : ∀ entry ∈ s.entries, entry ∈ s.rows
  vectors : ∀ row ∈ s.rows, row.queryVector = model.vector row.queryText

theorem Stored.step {s t : System} {op : Op model} (h : Stored model s) (next : step s op = some t) :
    Stored model t := by
  cases moved_of_step next with
  | stored kind =>
      refine ⟨fun entry here => ?_, fun row here => ?_⟩
      · exact (List.mem_append.mp here).elim (fun old => List.mem_append_left _ (h.inMilvus entry old))
          (List.mem_append_right _)
      · rcases List.mem_append.mp here with old | new
        · exact h.vectors row old
        · unfold Op.stores at new
          split at new
          · obtain ⟨embed, wired, vector, embedded, rfl⟩ := mem_cacheStore new
            exact op.behaves.embeds embed wired _ vector embedded
          · cases new
          · cases new
  | invalidated kind kept fewer =>
      refine ⟨fun entry here => ?_, fun row here => h.vectors row (fewer row here)⟩
      obtain ⟨entered, other⟩ := List.mem_filter.mp here
      exact kept entry (h.inMilvus entry entered) (of_decide_eq_true other)

theorem validLookup_of_miss {s : System} {cache : SemanticCache} {query tenantId : String}
    (miss : cacheLookup cache s.rows query tenantId = none) :
    ValidLookup s model cache query tenantId ↔ ∀ entry ∈ s.entries, ¬ Usable model cache query tenantId entry := by
  constructor
  · intro valid entry here usable
    obtain ⟨other, -, -, hit⟩ := valid.complete ⟨entry, here, usable⟩
    exact absurd (miss.symm.trans hit) (by simp)
  · intro none
    refine ⟨fun response hit => absurd (miss.symm.trans hit) (by simp), ?_⟩
    rintro ⟨entry, here, usable⟩
    exact absurd usable (none entry here)

theorem validLookup_of_hit {s : System} {cache : SemanticCache} {query tenantId response : String}
    (hit : cacheLookup cache s.rows query tenantId = some response) :
    ValidLookup s model cache query tenantId ↔
      ∃ entry ∈ s.entries, Usable model cache query tenantId entry ∧ entry.responseText = response := by
  constructor
  · exact fun valid => valid.sound response hit
  · rintro ⟨entry, here, usable, same⟩
    refine ⟨fun other returned => ?_, fun _ => ⟨entry, here, usable, by rw [hit, same]⟩⟩
    obtain rfl := Option.some.inj (hit.symm.trans returned)
    exact ⟨entry, here, usable, same⟩

theorem mostSimilar_foundHits {cache : SemanticCache} {rows : List CacheRow} {query tenantId : String}
    {hits : List (Rat × CacheRow)} (behaves : model.Behaves cache)
    (found : foundHits cache rows query tenantId = some hits) :
    model.MostSimilar (model.vector query) (rows.filter fun row => row.tenantId = tenantId) hits := by
  obtain ⟨milvus, client, found⟩ := Option.bind_eq_some_iff.mp found
  obtain ⟨embed, service, found⟩ := Option.bind_eq_some_iff.mp found
  obtain ⟨vector, embedded, searched⟩ := Option.bind_eq_some_iff.mp found
  rw [← behaves.embeds embed service query vector embedded]
  exact behaves.searches milvus client vector _ hits searched

theorem validLookup_iff {s : System} {cache : SemanticCache} (behaves : model.Behaves cache) (stored : Stored model s)
    (query tenantId : String) :
    ValidLookup s model cache query tenantId ↔ FindsUsable s model cache query tenantId := by
  have lookup := cacheLookup_eq cache s.rows query tenantId
  unfold FindsUsable
  -- a usable entry is among the rows that Milvus searches
  have among {entry : CacheRow} (here : entry ∈ s.entries) (usable : Usable model cache query tenantId entry) :
      entry ∈ s.rows.filter fun row => row.tenantId = tenantId :=
    List.mem_filter.mpr ⟨stored.inMilvus entry here, decide_eq_true usable.1⟩
  cases found : foundHits cache s.rows query tenantId with
  | none =>
      rw [found] at lookup
      exact validLookup_of_miss lookup
  | some hits =>
      have best := mostSimilar_foundHits behaves found
      rw [found] at lookup
      cases hits with
      | nil =>
          have none : s.rows.filter (fun row => row.tenantId = tenantId) = [] := best
          refine iff_of_true ((validLookup_of_miss lookup).mpr fun entry here usable => ?_) trivial
          exact absurd (among here usable) (by rw [none]; exact List.not_mem_nil)
      | cons hit hits =>
          obtain ⟨score, row⟩ := hit
          obtain ⟨-, -, most⟩ := best
          dsimp only
          by_cases similar : similarityThreshold ≤ score
          · rw [imp_iff_right similar]
            by_cases empty : row.responseText = ""
            · have miss : cacheLookup cache s.rows query tenantId = none := by simp [lookup, firstHit, empty]
              rw [if_pos empty]
              exact validLookup_of_miss miss
            · have answered : cacheLookup cache s.rows query tenantId = some row.responseText := by
                simp [lookup, firstHit, similar, empty]
              rw [if_neg empty]
              exact validLookup_of_hit answered
          · have miss : cacheLookup cache s.rows query tenantId = none := by simp [lookup, firstHit, similar]
            refine iff_of_true ((validLookup_of_miss miss).mpr fun entry here usable => ?_) (absurd · similar)
            have below := most entry (among here usable)
            rw [stored.vectors entry (stored.inMilvus entry here)] at below
            exact similar (usable.2.2.trans below)

/-- The lookups of a run are valid exactly if none of them meets an entry that has outlived its hours, outlasted an
invalidation or lost its response. -/
theorem valid_along_iff (model : Embedding) (ops : List (Op model)) :
    Along step Valid start ops ↔ Along step StillFresh start ops := by
  have begins : Stored model start := ⟨fun _ none => absurd none List.not_mem_nil, fun _ none => absurd none List.not_mem_nil⟩
  refine along_iff_along (Stored model) (fun s op stored => ?_) (fun s op t stored _ next => stored.step next) begins
  unfold Valid StillFresh
  split
  · exact validLookup_iff op.behaves stored _ _
  · exact Iff.rfl
  · exact Iff.rfl

/-! ## An answer that outlives its hours -/

def exactMilvus (model : Embedding) : Milvus where
  search vector rows := some ((rows.argmax fun row => model.similarity vector row.queryVector).toList.map
    fun row => (model.similarity vector row.queryVector, row))
  inserts := true
  deletes := true

def exactCache (model : Embedding) (time : Nat) : SemanticCache :=
  { milvusClient := some (exactMilvus model), embeddingService := some fun text => some (model.vector text), time }

theorem exactCache_behaves (model : Embedding) (time : Nat) : model.Behaves (exactCache model time) where
  embeds embed wired query vector embedded := by
    obtain rfl := Option.some.inj wired
    exact (Option.some.inj embedded).symm
  searches milvus wired vector rows hits found := by
    obtain rfl := Option.some.inj wired
    obtain rfl := Option.some.inj found
    cases best : rows.argmax fun row => model.similarity vector row.queryVector with
    | none => exact List.argmax_eq_none.mp best
    | some row =>
        refine ⟨List.argmax_mem best, rfl, fun other here => ?_⟩
        have unbeaten := List.not_lt_of_mem_argmax here best
        exact not_lt.mp unbeaten

def sameText : Embedding where
  vector text := [text.length]
  similarity v w := if v = w then 1 else 0

def opAt (time : Nat) (call : Call) : Op sameText := ⟨exactCache sameText time, exactCache_behaves sameText time, call⟩

/-- A day passes between the store and the lookup. -/
def dayOld : List (Op sameText) :=
  [opAt 0 (.store "营业时间" "今天九点关门" "shop"), opAt 86400 (.lookup "营业时间" "shop")]

theorem dayOld_returned : ¬ ∀ (model : Embedding) (ops : List (Op model)), Along step Valid start ops := by
  intro claim
  have stored := (claim sameText dayOld _ rfl).2
  obtain ⟨entry, here, usable, -⟩ := (stored _ rfl).1.sound "今天九点关门" (by decide +kernel)
  obtain rfl := List.mem_singleton.mp here
  exact absurd usable.2.1 (by decide)

end CuckooEcho.Shared.CacheValidity
