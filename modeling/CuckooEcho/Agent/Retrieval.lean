import CuckooEcho.Agent.Router
import Mathlib.Data.List.Sort

namespace CuckooEcho.Agent
open Lib

/-! ## Searching with retries -/

def maxRetries : Nat := 3

/-- The first attempt that does not raise, `none` when they all do. -/
def retryWithBackoff {α : Type} (attempt : Nat → Option α) : Option α :=
  (List.range (maxRetries + 1)).findSome? attempt

/-! ## Hits and their sources -/

/-- `r.get(..) or r.get("entity", {}).get(..)` -/
def orEntity (own entity : Option String) : Option String :=
  match own with
  | some value => if value = "" then entity else some value
  | none => entity

def Hit.document (hit : Hit) : Option String := orEntity hit.docId hit.entity.docId

def Hit.text (hit : Hit) : Option String := orEntity hit.chunkText hit.entity.chunkText

def getActiveDocIds (services : Services) (docIds : List (Option String)) (tenantId : String) :
    Option (List (Option String)) :=
  if docIds = [] then some []
  else match services.dbPool with
  -- without a pool no id counts as deleted
  | none => some docIds
  | some pool => (pool docIds tenantId).map fun ids => ids.map some

def Hit.source (hit : Hit) (text : String) : Option Source :=
  -- The default title is computed whether it is needed or not, and raises without a document id
  hit.document.map fun docId =>
    { id := some docId
      title := hit.docTitle.getD (some ("Document " ++ String.ofList (docId.toList.take 8)))
      url := hit.docUrl
      excerpt := some (String.ofList (text.toList.take 200))
      confidence := hit.score.getD (some 1) }

def chunksWithSources (active : List (Option String)) : List Hit → Option (List (String × Source))
  | [] => some []
  | hit :: hits =>
      match hit.text with
      | some text =>
          if hit.document ∈ active ∧ text ≠ "" then do
            -- building a source may raise
            let source ← hit.source text
            let others ← chunksWithSources active hits
            return (text, source) :: others
          else chunksWithSources active hits
      | none => chunksWithSources active hits

/-! ## Reranking -/

def byScore (a b : Rat × String × Source) : Prop := b.1 ≤ a.1

instance : DecidableRel byScore := fun a b => inferInstanceAs (Decidable (b.1 ≤ a.1))

def rerankChunks (services : Services) (query : String) (chunks : List (String × Source)) :
    Option (List (String × Source)) :=
  match services.reranker with
  | none => some (chunks.take 3)
  | some score =>
      match score query (chunks.map (·.1)) with
      | .timeout => some (chunks.take 3)
      | .raises => none
      | .scores values =>
          some ((((values.zip chunks).insertionSort byScore).take 3).map (·.2))

/-! ## `rag_engine_node` -/

def noAnswer (state : AgentState) : AgentState :=
  { state with ragContext := [], sources := [], userIntent := some "no_answer" }

def cacheHit (services : Services) (state : AgentState) : Option String :=
  if lastText state.messages = "" ∨ state.tenantId.getD "" = "" then none
  else (services.cacheLookup (lastText state.messages) (state.tenantId.getD "")).filter (· ≠ "")

def retrieve (services : Services) (query tenantId : String) (state : AgentState) : Option AgentState :=
  match services.embeddingService.bind fun embed => embed query with
  | none => some (noAnswer state)
  | some vector =>
      match (if services.circuitOpen then some [] else retryWithBackoff (services.search vector tenantId)) with
      | none | some [] | some ([] :: _) => some (noAnswer state)
      | some (hits :: _) => do
          let active ← getActiveDocIds services (hits.map Hit.document) tenantId
          let chunks ← chunksWithSources active hits
          if chunks = [] then return noAnswer state
          let top ← rerankChunks services query chunks
          return { state with ragContext := top.map (·.1), sources := top.map (·.2) }

def ragEngineNode (services : Services) (state : AgentState) : Option AgentState :=
  let query := lastText state.messages
  let tenantId := state.tenantId.getD ""
  if state.messages = [] then some (noAnswer state)
  else if query = "" ∨ tenantId = "" then some (noAnswer state)
  else match cacheHit services state with
    | some cached => some { state with ragContext := [], sources := [], llmResponse := cached }
    | none => retrieve services query tenantId state

theorem retrieve_writes {services : Services} {query tenantId : String} {s t : AgentState}
    (h : retrieve services query tenantId s = some t) :
    ∃ ragContext sources userIntent, t = { s with ragContext, sources, userIntent } := by
  unfold retrieve at h
  split at h
  · exact ⟨_, _, _, (Option.some.inj h).symm⟩
  · split at h
    · exact ⟨_, _, _, (Option.some.inj h).symm⟩
    · exact ⟨_, _, _, (Option.some.inj h).symm⟩
    · exact ⟨_, _, _, (Option.some.inj h).symm⟩
    · obtain ⟨active, -, h⟩ := Option.bind_eq_some_iff.mp h
      obtain ⟨chunks, -, h⟩ := Option.bind_eq_some_iff.mp h
      split at h
      · exact ⟨_, _, _, (Option.some.inj h).symm⟩
      · obtain ⟨top, -, h⟩ := Option.bind_eq_some_iff.mp h
        exact ⟨_, _, _, (Option.some.inj h).symm⟩

/-- The reply is the cached one after a hit and otherwise the one that was there. -/
theorem ragEngineNode_writes {services : Services} {s t : AgentState} (h : ragEngineNode services s = some t) :
    ∃ ragContext sources userIntent, t = { s with
      ragContext, sources, userIntent, llmResponse := (cacheHit services s).getD s.llmResponse } := by
  unfold ragEngineNode at h
  by_cases empty : s.messages = []
  · have noHit : cacheHit services s = none := by simp [cacheHit, lastText, empty]
    simp only [empty, ↓reduceIte, Option.some.injEq] at h
    exact ⟨_, _, _, by rw [← h, noHit]; rfl⟩
  · by_cases blank : lastText s.messages = "" ∨ s.tenantId.getD "" = ""
    · have noHit : cacheHit services s = none := by simp [cacheHit, blank]
      simp only [empty, blank, ↓reduceIte, Option.some.injEq] at h
      exact ⟨_, _, _, by rw [← h, noHit]; rfl⟩
    · simp only [empty, blank, ↓reduceIte] at h
      cases hit : cacheHit services s with
      | some cached =>
          simp only [hit, Option.some.injEq] at h
          exact ⟨_, _, _, by rw [← h]; rfl⟩
      | none =>
          simp only [hit] at h
          obtain ⟨ragContext, sources, userIntent, rfl⟩ := retrieve_writes h
          exact ⟨ragContext, sources, userIntent, rfl⟩

end CuckooEcho.Agent
