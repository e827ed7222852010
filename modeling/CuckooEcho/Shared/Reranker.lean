import CuckooEcho.Lib.Python
import CuckooEcho.Lib.Selection
import CuckooEcho.Lib.Text
import Mathlib.Algebra.Order.Field.Rat
import Mathlib.Data.Finset.Card

namespace CuckooEcho.Shared.Reranker
open Lib Lib.Selection

/-! ## Maximal marginal relevance -/

/-- The keys that are read, where a dictionary has them, and the names of the others. -/
structure Document where
  id : Option String := none
  text : Option String := none
  score : Option Rat := none
  metadata : Option (List (String × PyValue)) := none
  others : List String := []

/-- A dictionary without keys is not truthy. -/
def Document.truthy (doc : Document) : Bool :=
  doc.id.isSome || doc.text.isSome || doc.score.isSome || doc.metadata.isSome || !doc.others.isEmpty

def Document.textOrEmpty (doc : Document) : String := doc.text.getD ""

structure RerankedResult where
  docId : String
  text : String
  originalScore : Rat
  rerankScore : Rat
  metadata : List (String × PyValue)

def Document.result (doc : Document) (rerankScore : Rat) : RerankedResult where
  docId := doc.id.getD ""
  text := doc.textOrEmpty
  originalScore := doc.score.getD 0
  rerankScore := rerankScore
  metadata := doc.metadata.getD []

section
variable (lower : String → String)

def terms (text : String) : Finset Text := (Text.words (lower text).toList).toFinset

def computeRelevance (query document : String) : Rat :=
  let queryTerms := terms lower query
  let docTerms := terms lower document
  if queryTerms = ∅ ∨ docTerms = ∅ then 0 else (queryTerms ∩ docTerms).card / queryTerms.card

def computeSimilarity (text1 text2 : String) : Rat :=
  let terms1 := terms lower text1
  let terms2 := terms lower text2
  if terms1 = ∅ ∨ terms2 = ∅ then 0
  else if terms1 ∪ terms2 = ∅ then 0 else (terms1 ∩ terms2).card / (terms1 ∪ terms2).card

/-- Nothing has been selected, and there is no greatest similarity, before the first round. -/
def mmrScore (query : String) (lambdaMult : Rat) (selected : List RerankedResult) (doc : Document) : Rat :=
  let relevance := computeRelevance lower query doc.textOrEmpty
  let maxSim := (selected.map fun s => computeSimilarity lower doc.textOrEmpty s.text).max?
  let diversity := maxSim.elim 0 fun maxSim => 1 - maxSim
  lambdaMult * relevance + (1 - lambdaMult) * diversity

/-- One round of the loop: the inner loop and what becomes of the best document, `none` where the loop is left. -/
def selectBest (query : String) (lambdaMult : Rat) (selected : List RerankedResult) (remaining : List Document) :
    Option (RerankedResult × Nat) :=
  (scan (mmrScore lower query lambdaMult selected) none 0 remaining).bind fun best =>
    if best.item.truthy then some (best.item.result best.score, best.index) else none

/-- Every round selects one document or leaves the loop, so that `limit` rounds are left at the start. -/
def mmrDiversity (query : String) (documents : List Document) (limit : Nat := 10) (lambdaMult : Rat := 1 / 2) :
    List RerankedResult :=
  if documents = [] then [] else selectUpTo (selectBest lower query lambdaMult) limit [] documents

end

section
variable {lower : String → String} {query : String} {lambdaMult : Rat}

def ResultOf (result : RerankedResult) (doc : Document) : Prop := ∃ score, result = doc.result score

theorem selectBest_chooses : Chooses (selectBest lower query lambdaMult) ResultOf fun doc => doc.truthy = true where
  nil := fun _ => rfl
  cons := by
    intro selected remaining nonempty truthy
    obtain ⟨best, found, leads⟩ := @exists_scan _ _ _ (mmrScore lower query lambdaMult selected) _ nonempty
    refine ⟨_, best.index, best.item, ?_, leads.item, best.score, rfl⟩
    rw [selectBest, found, Option.bind_some, if_pos (truthy best.item (List.mem_of_getElem? leads.item))]

theorem selectBest_highest {selected : List RerankedResult} {remaining : List Document} {result : RerankedResult}
    {i : Nat} (chosen : selectBest lower query lambdaMult selected remaining = some (result, i)) :
    ∀ doc ∈ remaining, mmrScore lower query lambdaMult selected doc ≤ result.rerankScore := by
  obtain ⟨best, found, kept⟩ := Option.bind_eq_some_iff.mp chosen
  have nonempty : remaining ≠ [] := by
    rintro rfl
    cases found
  obtain ⟨best', found', leads⟩ := @exists_scan _ _ _ (mmrScore lower query lambdaMult selected) _ nonempty
  obtain rfl := Option.some.inj (found.symm.trans found')
  obtain ⟨-, eq⟩ := Option.ite_none_right_eq_some.mp kept
  obtain ⟨rfl, -⟩ := Prod.mk.inj (Option.some.inj eq)
  exact leads.highest

end

/-- The selection has as many results as there may be, uses each document at most once, and grows with the limit by
results at its end. -/
theorem mmrDiversity_ranks (lower : String → String) (query : String) (documents : List Document)
    (nonempty : ∀ doc ∈ documents, doc.truthy = true) (limit : Nat) (lambdaMult : Rat) :
    (mmrDiversity lower query documents limit lambdaMult).length = min limit documents.length ∧
      (∃ used, List.Forall₂ ResultOf (mmrDiversity lower query documents limit lambdaMult) used ∧
        used.Subperm documents) ∧
      mmrDiversity lower query documents limit lambdaMult <+:
        mmrDiversity lower query documents (limit + 1) lambdaMult := by
  unfold mmrDiversity
  by_cases none : documents = []
  · rw [if_pos none, if_pos none, none]
    exact ⟨(Nat.min_zero _).symm, ⟨[], .nil, List.nil_subperm⟩, List.prefix_rfl⟩
  · rw [if_neg none, if_neg none]
    obtain ⟨results, used, returned, length, made, once⟩ :=
      (@selectBest_chooses lower query lambdaMult).exists_selectUpTo limit [] nonempty
    rw [List.nil_append] at returned
    refine ⟨?_, ⟨used, ?_, once⟩, selectUpTo_prefix limit [] documents⟩
    · rw [returned, length]
    · rw [returned]
      exact made

theorem mmrDiversity_ranks_pair :
    (mmrDiversity id "a b" [{ text := some "a" }, { id := some "2" }] 1 0).length = min 1 2 ∧
      (∃ used, List.Forall₂ ResultOf (mmrDiversity id "a b" [{ text := some "a" }, { id := some "2" }] 1 0) used ∧
        used.Subperm [{ text := some "a" }, { id := some "2" }]) ∧
      mmrDiversity id "a b" [{ text := some "a" }, { id := some "2" }] 1 0 <+:
        mmrDiversity id "a b" [{ text := some "a" }, { id := some "2" }] 2 0 :=
  mmrDiversity_ranks id "a b" [{ text := some "a" }, { id := some "2" }] (by simp [Document.truthy]) 1 0

end CuckooEcho.Shared.Reranker
