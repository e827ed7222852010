import Mathlib.Data.Rat.Defs

namespace CuckooEcho.Shared

/-! ## The semantic cache -/

structure CacheRow where
  tenantId : String
  queryText : String
  responseText : String
  queryVector : List Rat
  createdAt : Nat
  deriving DecidableEq, Repr

/-- What Milvus answers at one moment: the hits among the rows that pass the filter, `none` for an
exception, and whether a row is inserted and rows are deleted. -/
structure Milvus where
  search : List Rat → List CacheRow → Option (List (Rat × CacheRow))
  inserts : Bool
  deletes : Bool

/-- What the module is wired to, and the time. -/
structure SemanticCache where
  milvusClient : Option Milvus
  embeddingService : Option (String → Option (List Rat))
  time : Nat

def similarityThreshold : Rat := 95 / 100

def firstHit : List (Rat × CacheRow) → Option String
  | [] => none
  | (score, row) :: _ =>
      if similarityThreshold ≤ score ∧ row.responseText ≠ "" then some row.responseText else none

/-- An exception is a miss. -/
def cacheLookup (cache : SemanticCache) (rows : List CacheRow) (query tenantId : String) : Option String := do
  let milvus ← cache.milvusClient
  let embed ← cache.embeddingService
  let vector ← embed query
  let hits ← milvus.search vector (rows.filter fun row => row.tenantId = tenantId)
  firstHit hits

def cacheStore (cache : SemanticCache) (rows : List CacheRow) (query response tenantId : String) :
    List CacheRow :=
  -- An exception leaves the rows as they are
  match cache.milvusClient, cache.embeddingService.bind fun embed => embed query with
  | some milvus, some vector =>
      if milvus.inserts then rows ++ [⟨tenantId, query, response, vector, cache.time⟩] else rows
  | _, _ => rows

def cacheInvalidate (cache : SemanticCache) (rows : List CacheRow) (tenantId : String) : List CacheRow :=
  match cache.milvusClient with
  | some milvus => if milvus.deletes then rows.filter fun row => row.tenantId ≠ tenantId else rows
  | none => rows

end CuckooEcho.Shared
