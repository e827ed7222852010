import CuckooEcho.Agent.Retrieval
import CuckooEcho.Lib.Ranking
import Mathlib.Algebra.Order.Ring.Unbundled.Rat

namespace CuckooEcho.Agent
open Lib

/-! ## The hits of a search and the candidates among them -/

/-- What the search finds for a query, and nothing when it fails. -/
def searchHits (services : Services) (query tenantId : String) : List Hit :=
  match services.embeddingService.bind fun embed => embed query with
  | none => []
  | some vector =>
      match (if services.circuitOpen then some [] else retryWithBackoff (services.search vector tenantId)) with
      | none | some [] => []
      | some (hits :: _) => hits

/-- The hits that a turn has to work with; the search is not made without a query or after a cache hit. -/
def hitsOf (services : Services) (state : AgentState) : List Hit :=
  if lastText state.messages = "" ∨ state.tenantId.getD "" = "" ∨ cacheHit services state ≠ none then []
  else searchHits services (lastText state.messages) (state.tenantId.getD "")

def Hit.context (hit : Hit) : String := hit.text.getD ""

def candidates (active : List (Option String)) (hits : List Hit) : List Hit :=
  hits.filter fun hit => active.contains hit.document && hit.context != ""

def cite (services : Services) (query tenantId : String) (state : AgentState) (hits : List Hit) :
    Option AgentState := do
  let active ← getActiveDocIds services (hits.map Hit.document) tenantId
  let chunks ← chunksWithSources active hits
  if chunks = [] then return noAnswer state
  let top ← rerankChunks services query chunks
  return { state with ragContext := top.map (·.1), sources := top.map (·.2) }

section
variable {services : Services} {query tenantId : String} {state after : AgentState}

theorem retrieve_eq (services : Services) (query tenantId : String) (state : AgentState) :
    retrieve services query tenantId state =
      if searchHits services query tenantId = [] then some (noAnswer state)
      else cite services query tenantId state (searchHits services query tenantId) := by
  unfold retrieve searchHits
  cases services.embeddingService.bind fun embed => embed query with
  | none => rfl
  | some vector =>
      dsimp only
      split
      · rename_i failed
        simp [failed]
      · rename_i empty
        simp [empty]
      · rename_i none
        simp [none]
      · rename_i hits _ nonempty found
        have some : hits ≠ [] := nonempty
        simp [found, some, cite]

theorem ragEngineNode_hits (hits : hitsOf services state ≠ []) :
    ragEngineNode services state =
      cite services (lastText state.messages) (state.tenantId.getD "") state (hitsOf services state) := by
  unfold hitsOf at hits ⊢
  split at hits
  · exact absurd rfl hits
  · rename_i searched
    obtain ⟨asked, tenant, miss⟩ := not_or.mp searched |>.imp_right not_or.mp
    rw [if_neg searched]
    have messages : state.messages ≠ [] := fun empty => asked (by rw [empty]; rfl)
    have blank : ¬ (lastText state.messages = "" ∨ state.tenantId.getD "" = "") := not_or.mpr ⟨asked, tenant⟩
    simp only [ragEngineNode, messages, blank, ↓reduceIte, not_not.mp miss, retrieve_eq, hits]

theorem ragEngineNode_noHits (none : hitsOf services state = []) :
    ∃ after, ragEngineNode services state = some after ∧ after.ragContext = [] ∧ after.sources = [] := by
  unfold ragEngineNode
  dsimp only
  split
  · exact ⟨_, rfl, rfl, rfl⟩
  · split
    · exact ⟨_, rfl, rfl, rfl⟩
    · rename_i asked
      obtain ⟨query, tenant⟩ := not_or.mp asked
      split
      · exact ⟨_, rfl, rfl, rfl⟩
      · rename_i miss
        have found : searchHits services (lastText state.messages) (state.tenantId.getD "") = [] := by
          rwa [hitsOf, if_neg] at none
          simp [query, tenant, miss]
        rw [retrieve_eq, if_pos found]
        exact ⟨_, rfl, rfl, rfl⟩

/-! ## The chunks and their sources -/

theorem passages_of_chunks {active : List (Option String)} {hits : List Hit} {chunks : List (String × Source)}
    (built : chunksWithSources active hits = some chunks) :
    chunks.map (fun chunk => (chunk.1, chunk.2.id)) =
      (candidates active hits).map fun hit => (hit.context, hit.document) := by
  induction hits generalizing chunks with
  | nil =>
      obtain rfl := Option.some.inj built
      rfl
  | cons hit hits ih =>
      unfold chunksWithSources at built
      cases text : hit.text with
      | none =>
          have empty : hit.context = "" := by simp [Hit.context, text]
          rw [text] at built
          rw [candidates, List.filter_cons_of_neg (by simp [empty])]
          exact ih built
      | some chunk =>
          have context : hit.context = chunk := by simp [Hit.context, text]
          simp only [text] at built
          split at built
          · rename_i usable
            obtain ⟨source, sourced, built⟩ := Option.bind_eq_some_iff.mp built
            obtain ⟨others, rest, eq⟩ := Option.bind_eq_some_iff.mp built
            obtain rfl := Option.some.inj eq
            obtain ⟨document, named, rfl⟩ := Option.map_eq_some_iff.mp sourced
            rw [candidates, List.filter_cons_of_pos (by simpa [context] using usable), List.map_cons, List.map_cons,
              ih rest, context, named]
            rfl
          · rename_i unusable
            rw [candidates, List.filter_cons_of_neg (by simpa [context] using unusable)]
            exact ih built

theorem texts_of_chunks {active : List (Option String)} {hits : List Hit} {chunks : List (String × Source)}
    (built : chunksWithSources active hits = some chunks) :
    chunks.map (·.1) = (candidates active hits).map Hit.context := by
  have passages := congrArg (List.map Prod.fst) (passages_of_chunks built)
  rwa [List.map_map, List.map_map] at passages

theorem documents_of_chunks {active : List (Option String)} {hits : List Hit} {chunks : List (String × Source)}
    (built : chunksWithSources active hits = some chunks) :
    chunks.map (·.2.id) = (candidates active hits).map Hit.document := by
  have passages := congrArg (List.map Prod.snd) (passages_of_chunks built)
  rwa [List.map_map, List.map_map] at passages

theorem mem_chunksWithSources {active : List (Option String)} {hits : List Hit} {chunks : List (String × Source)}
    (built : chunksWithSources active hits = some chunks) {text : String} {source : Source}
    (member : (text, source) ∈ chunks) :
    ∃ hit ∈ hits, hit.text = some text ∧ hit.document ∈ active ∧ hit.source text = some source := by
  induction hits generalizing chunks with
  | nil =>
      obtain rfl := Option.some.inj built
      cases member
  | cons hit hits ih =>
      have later {others : List (String × Source)} (rest : chunksWithSources active hits = some others)
          (member : (text, source) ∈ others) :
          ∃ h ∈ hit :: hits, h.text = some text ∧ h.document ∈ active ∧ h.source text = some source := by
        obtain ⟨found, inHits, facts⟩ := ih rest member
        exact ⟨found, List.mem_cons_of_mem _ inHits, facts⟩
      unfold chunksWithSources at built
      cases shown : hit.text with
      | none =>
          simp only [shown] at built
          exact later built member
      | some chunk =>
          simp only [shown] at built
          split at built
          · rename_i usable
            obtain ⟨cited, sourced, built⟩ := Option.bind_eq_some_iff.mp built
            obtain ⟨others, rest, eq⟩ := Option.bind_eq_some_iff.mp built
            obtain rfl := Option.some.inj eq
            rcases List.mem_cons.mp member with here | there
            · obtain ⟨rfl, rfl⟩ := Prod.mk.inj here
              exact ⟨hit, List.mem_cons_self, shown, usable.1, sourced⟩
            · exact later rest there
          · exact later built member

theorem chunks_isSome_iff {active : List (Option String)} {hits : List Hit} :
    (chunksWithSources active hits).isSome ↔ ∀ hit ∈ candidates active hits, hit.document ≠ none := by
  induction hits with
  | nil => simp [chunksWithSources, candidates]
  | cons hit hits ih =>
      unfold chunksWithSources
      cases text : hit.text with
      | none =>
          have empty : hit.context = "" := by simp [Hit.context, text]
          rw [candidates, List.filter_cons_of_neg (by simp [empty])]
          exact ih
      | some chunk =>
          have context : hit.context = chunk := by simp [Hit.context, text]
          dsimp only
          split
          · rename_i usable
            rw [candidates, List.filter_cons_of_pos (by simpa [context] using usable), List.forall_mem_cons]
            cases named : hit.document with
            | none => simp [Hit.source, named]
            | some document =>
                rw [and_iff_right (by simp), ← candidates, ← ih]
                simp [Hit.source, named, Option.isSome_iff_exists, Option.bind_eq_some_iff]
          · rename_i unusable
            rw [candidates, List.filter_cons_of_neg (by simpa [context] using unusable)]
            exact ih

/-! ## The order of the chunks -/

/-- Which of two candidates comes first: the one with the better score, or the earlier hit when there are none. -/
def RanksBefore (services : Services) (query : String) (texts : List String) : ℕ → ℕ → Prop :=
  match services.reranker with
  | none => (· < ·)
  | some score =>
      match score query texts with
      | .scores values => Precedes (fun i => values.getD i 0) (· < ·)
      | .timeout | .raises => (· < ·)

def OneScorePerPair (services : Services) : Prop :=
  ∀ score, services.reranker = some score → ∀ query texts values, score query texts = .scores values →
    values.length = texts.length

theorem take_eq_positions {α : Type} (l : List α) (count : ℕ) :
    (l.take count).map some = ((List.range l.length).take count).map (l[·]?) := by
  have whole : l.map some = (List.range l.length).map (l[·]?) := by
    apply List.ext_getElem (by simp)
    intro i here there
    simp at here
    simp [here]
  rw [List.map_take, List.map_take, whole]

theorem ranking_of_scores {values : List Rat} {chunks : List (String × Source)} (same : values.length = chunks.length) :
    ∃ order, Leads (Precedes (fun i => values.getD i 0) (· < ·)) chunks.length 3 order ∧
      ((((values.zip chunks).insertionSort byScore).take 3).map (·.2)).map some = order.map (chunks[·]?) := by
  have length : (values.zip chunks).length = chunks.length := by rw [List.length_zip, same, Nat.min_self]
  have place (i : ℕ) : chunks[i]? = ((values.zip chunks)[i]?).map Prod.snd := by
    rw [← List.getElem?_map, List.map_snd_zip same.ge]
  have scored {i : ℕ} {e : Rat × String × Source} (here : (values.zip chunks)[i]? = some e) :
      values.getD i 0 = e.1 := by
    have first : (((values.zip chunks).map Prod.fst)[i]?) = some e.1 := by rw [List.getElem?_map, here]; rfl
    rw [List.map_fst_zip same.le] at first
    rw [List.getD_eq_getElem?_getD, first]
    rfl
  obtain ⟨order, perm, positions, sorted⟩ :=
    exists_ranking Prod.fst (r := byScore) (fun _ _ => Iff.rfl) (values.zip chunks)
  rw [length] at perm
  refine ⟨order.take 3, leads_take (sorted.imp_of_mem fun {i j} first second precedes => ?_) perm 3, ?_⟩
  · have member {k : ℕ} (inOrder : k ∈ order) : ∃ e, (values.zip chunks)[k]? = some e := by
      have bound : k < (values.zip chunks).length := by rw [length]; exact List.mem_range.mp (perm.mem_iff.mp inOrder)
      exact ⟨_, List.getElem?_eq_getElem bound⟩
    obtain ⟨a, here⟩ := member first
    obtain ⟨b, there⟩ := member second
    have compared := precedes a here b there
    rw [← scored here, ← scored there] at compared
    exact compared
  · have all := congrArg (List.map (Option.map Prod.snd)) positions
    rw [List.map_map, List.map_map] at all
    rw [List.map_take, List.map_take, List.map_take, List.map_map]
    refine (congrArg (List.take 3) all).trans ?_
    simp only [Function.comp_def, place]

theorem mem_of_reranked {chunks top : List (String × Source)} (reranked : rerankChunks services query chunks = some top)
    {chunk : String × Source} (member : chunk ∈ top) : chunk ∈ chunks := by
  have taken (eq : some (chunks.take 3) = some top) : chunk ∈ chunks :=
    List.mem_of_mem_take (Option.some.inj eq ▸ member)
  unfold rerankChunks at reranked
  split at reranked
  · exact taken reranked
  · split at reranked
    · exact taken reranked
    · cases reranked
    · obtain rfl := Option.some.inj reranked
      obtain ⟨scored, inTop, rfl⟩ := List.mem_map.mp member
      have inZip := (List.perm_insertionSort byScore _).subset (List.mem_of_mem_take inTop)
      exact (List.of_mem_zip inZip).2

theorem ranking_of_reranked {chunks top : List (String × Source)} (onePerPair : OneScorePerPair services)
    (reranked : rerankChunks services query chunks = some top) :
    ∃ order, Leads (RanksBefore services query (chunks.map (·.1))) chunks.length 3 order ∧
      top.map some = order.map (chunks[·]?) := by
  unfold rerankChunks at reranked
  unfold RanksBefore
  cases wired : services.reranker with
  | none =>
      simp only [wired] at reranked
      obtain rfl := Option.some.inj reranked
      exact ⟨_, leads_range _ 3, take_eq_positions chunks 3⟩
  | some score =>
      simp only [wired] at reranked ⊢
      cases answer : score query (chunks.map (·.1)) with
      | scores values =>
          simp only [answer] at reranked ⊢
          obtain rfl := Option.some.inj reranked
          apply ranking_of_scores
          rw [onePerPair score wired query _ values answer, List.length_map]
      | timeout =>
          simp only [answer] at reranked ⊢
          obtain rfl := Option.some.inj reranked
          exact ⟨_, leads_range _ 3, take_eq_positions chunks 3⟩
      | raises =>
          simp only [answer] at reranked
          cases reranked

/-! ## Contexts and sources -/

/-- Positions among the candidates, best first, whose texts and documents are the contexts and the sources. -/
structure Cites (services : Services) (query : String) (found : List Hit) (after : AgentState) (order : List ℕ) :
    Prop where
  leads : Leads (RanksBefore services query (found.map Hit.context)) found.length 3 order
  contexts : after.ragContext.map some = order.map fun i => (found[i]?).map Hit.context
  documents : (after.sources.map (·.id)).map some = order.map fun i => (found[i]?).map Hit.document

structure Faithful (services : Services) (query : String) (hits : List Hit) (active : List (Option String))
    (after : AgentState) : Prop where
  sameLength : after.ragContext.length = after.sources.length
  atMostThree : after.ragContext.length ≤ 3
  notDeleted : ∀ source ∈ after.sources, source.id ∈ active
  cited : ∃ order, Cites services query (candidates active hits) after order

theorem cite_faithful {hits : List Hit} (onePerPair : OneScorePerPair services)
    (cited : cite services query tenantId state hits = some after) (found : after.ragContext ≠ []) :
    ∃ active, getActiveDocIds services (hits.map Hit.document) tenantId = some active ∧
      Faithful services query hits active after := by
  obtain ⟨active, lookup, cited⟩ := Option.bind_eq_some_iff.mp cited
  obtain ⟨chunks, built, cited⟩ := Option.bind_eq_some_iff.mp cited
  split at cited
  · obtain rfl := Option.some.inj cited
    exact absurd rfl found
  · obtain ⟨top, reranked, eq⟩ := Option.bind_eq_some_iff.mp cited
    obtain rfl := Option.some.inj eq
    obtain ⟨order, leads, positions⟩ := ranking_of_reranked onePerPair reranked
    have texts := texts_of_chunks built
    have documents := documents_of_chunks built
    have count : chunks.length = (candidates active hits).length := by simpa using congrArg List.length texts
    -- the first components of the top chunks are texts of candidates, the second ones their documents
    have cites : Cites services query (candidates active hits)
        { state with ragContext := top.map (·.1), sources := top.map (·.2) } order := by
      refine ⟨?_, ?_, ?_⟩
      · rw [← texts, ← count]
        exact leads
      · have firsts := congrArg (List.map (Option.map Prod.fst)) positions
        simpa [Function.comp_def, ← List.getElem?_map, texts] using firsts
      · have seconds := congrArg (List.map (Option.map fun chunk : String × Source => chunk.2.id)) positions
        simpa [Function.comp_def, ← List.getElem?_map, documents] using seconds
    refine ⟨active, lookup, by simp, ?_, ?_, order, cites⟩
    · have bound := leads.length
      have size : top.length = order.length := by simpa using congrArg List.length positions
      show (top.map (·.1)).length ≤ 3
      rw [List.length_map]
      omega
    · intro source member
      have named : some source.id ∈ order.map fun i => ((candidates active hits)[i]?).map Hit.document :=
        cites.documents ▸ List.mem_map_of_mem (List.mem_map_of_mem member)
      obtain ⟨i, -, eq⟩ := List.mem_map.mp named
      obtain ⟨hit, here, same⟩ := Option.map_eq_some_iff.mp eq
      have usable := (List.mem_filter.mp (List.mem_of_getElem? here)).2
      rw [← same]
      simp at usable
      exact usable.1

theorem ragEngineNode_faithful (onePerPair : OneScorePerPair services)
    (returned : ragEngineNode services state = some after) (found : after.ragContext ≠ []) :
    ∃ active, getActiveDocIds services ((hitsOf services state).map Hit.document) (state.tenantId.getD "") = some active ∧
      Faithful services (lastText state.messages) (hitsOf services state) active after := by
  by_cases hits : hitsOf services state = []
  · obtain ⟨empty, eq, none, -⟩ := ragEngineNode_noHits hits
    obtain rfl := Option.some.inj (eq.symm.trans returned)
    exact absurd none found
  · rw [ragEngineNode_hits hits] at returned
    exact cite_faithful onePerPair returned found

/-! ## Failures -/

def Degrades (services : Services) (state : AgentState) : Prop :=
  ∃ after, ragEngineNode services state = some after ∧ after.ragContext.length = after.sources.length

/-- The steps that no `try` guards: the lookup of the active documents, the default title, which is cut from the
document's id, and the reranker unless it times out. -/
def UnguardedSucceed (services : Services) (query tenantId : String) (hits : List Hit) : Prop :=
  ∃ active, getActiveDocIds services (hits.map Hit.document) tenantId = some active ∧
    (∀ hit ∈ candidates active hits, hit.document ≠ none) ∧
    (candidates active hits = [] ∨
      ∀ score, services.reranker = some score → score query ((candidates active hits).map Hit.context) ≠ .raises)

theorem rerankChunks_isSome_iff {chunks : List (String × Source)} :
    (rerankChunks services query chunks).isSome ↔
      ∀ score, services.reranker = some score → score query (chunks.map (·.1)) ≠ .raises := by
  unfold rerankChunks
  cases services.reranker with
  | none => simp
  | some score =>
      simp only [Option.some.injEq, forall_eq']
      cases score query (chunks.map (·.1)) <;> simp

theorem cite_degrades_iff {hits : List Hit} :
    (∃ after, cite services query tenantId state hits = some after ∧
        after.ragContext.length = after.sources.length) ↔
      UnguardedSucceed services query tenantId hits := by
  constructor
  · rintro ⟨after, cited, -⟩
    obtain ⟨active, lookup, cited⟩ := Option.bind_eq_some_iff.mp cited
    obtain ⟨chunks, built, cited⟩ := Option.bind_eq_some_iff.mp cited
    have texts := texts_of_chunks built
    refine ⟨active, lookup, chunks_isSome_iff.mp (by rw [built]; rfl), ?_⟩
    split at cited
    · rename_i none
      rw [none] at texts
      exact Or.inl (List.map_eq_nil_iff.mp texts.symm)
    · obtain ⟨top, reranked, -⟩ := Option.bind_eq_some_iff.mp cited
      rw [← texts]
      exact Or.inr (rerankChunks_isSome_iff.mp (by rw [reranked]; rfl))
  · rintro ⟨active, lookup, named, scored⟩
    obtain ⟨chunks, built⟩ := Option.isSome_iff_exists.mp (chunks_isSome_iff.mpr named)
    have texts := texts_of_chunks built
    by_cases none : chunks = []
    · exact ⟨noAnswer state, by simp [cite, lookup, built, none], rfl⟩
    · have some : candidates active hits ≠ [] := by
        intro empty
        rw [empty] at texts
        exact none (List.map_eq_nil_iff.mp texts)
      have answers := scored.resolve_left some
      rw [← texts] at answers
      obtain ⟨top, reranked⟩ := Option.isSome_iff_exists.mp (rerankChunks_isSome_iff.mpr answers)
      refine ⟨{ state with ragContext := top.map (·.1), sources := top.map (·.2) }, ?_, by simp⟩
      simp [cite, lookup, built, none, reranked]

end

theorem degrades_iff (services : Services) (state : AgentState) :
    Degrades services state ↔ hitsOf services state = [] ∨
      UnguardedSucceed services (lastText state.messages) (state.tenantId.getD "") (hitsOf services state) := by
  unfold Degrades
  by_cases none : hitsOf services state = []
  · obtain ⟨after, returned, contexts, sources⟩ := ragEngineNode_noHits none
    exact iff_of_true ⟨after, returned, by rw [contexts, sources]; rfl⟩ (Or.inl none)
  · rw [or_iff_right none, ragEngineNode_hits none]
    exact cite_degrades_iff

/-! ## A search in which the lookup fails, and one that is reranked -/

def refundHit : Hit := ⟨some "doc-1", some "Refunds take five days.", some (some "Refunds"), none, none, ⟨none, none⟩⟩

def returnsHit : Hit := ⟨none, none, none, none, some (some (9 / 10)), ⟨some "doc-2", some "Returns are free."⟩⟩

def searching : Services :=
  { offline with
    embeddingService := some fun _ => some [1]
    search := fun _ _ _ => some [[refundHit, returnsHit]]
    dbPool := some fun _ _ => some ["doc-1", "doc-2"] }

def asking : AgentState := { tenantId := some "shop", messages := [userMessage "How do I return it?"] }

/-- Postgres is down for the lookup. -/
theorem searching_raises : ¬ ∀ (services : Services) (state : AgentState), Degrades services state := by
  intro claim
  obtain ⟨after, returned, -⟩ := claim { searching with dbPool := some fun _ _ => none } asking
  have raises : ragEngineNode { searching with dbPool := some fun _ _ => none } asking = none := rfl
  exact absurd (raises.symm.trans returned) (by simp)

/-- The shorter text has the better score. -/
def reranking : Services :=
  { searching with reranker := some fun _ texts => .scores (texts.map fun text => -(text.length : Rat)) }

theorem ragEngineNode_faithful_reranking :
    (∃ active, getActiveDocIds reranking ((hitsOf reranking asking).map Hit.document) "shop" = some active ∧
      Faithful reranking (lastText asking.messages) (hitsOf reranking asking) active
        ((ragEngineNode reranking asking).getD asking)) := by
  have onePerPair : OneScorePerPair reranking := by
    intro score wired query texts values answer
    obtain rfl := Option.some.inj wired
    injection answer with same
    rw [← same, List.length_map]
  exact ragEngineNode_faithful onePerPair rfl (by decide)

end CuckooEcho.Agent
