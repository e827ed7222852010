import CuckooEcho.Lib.Dict
import CuckooEcho.Lib.Ranking
import Mathlib.Algebra.Order.Ring.Rat
import Mathlib.Data.Rat.Defs
import Mathlib.Tactic.Ring

namespace CuckooEcho.Shared
open Lib

/-! ## Fusing the results of several searches -/

/-- Scores are rationals where the source has floating-point numbers. -/
structure SearchResult where
  docId : String
  text : String
  score : ℚ
  source : String
  deriving DecidableEq

/-- One list adds to the scores, `rank` counting its results. -/
def addRanks (k : ℕ) : ℕ → Dict String ℚ → List SearchResult → Dict String ℚ
  | _, docScores, [] => docScores
  | rank, docScores, result :: results =>
      let score : ℚ := 1 / (k + rank)
      addRanks k (rank + 1) (docScores.set result.docId ((docScores.get result.docId).getD 0 + score)) results

def docScores (k : ℕ) (resultLists : List (List SearchResult)) : Dict String ℚ :=
  resultLists.foldl (fun scores results => addRanks k 1 scores results) .empty

/-- The comprehension over the lists, their results and the scores. -/
def fuse (scores : Dict String ℚ) (resultLists : List (List SearchResult)) : List SearchResult :=
  resultLists.flatMap fun results => results.flatMap fun r =>
    (scores.items.filter fun item => r.docId = item.1).map fun item => ⟨item.1, r.text, item.2, "hybrid"⟩

def fusedLength : List (List SearchResult) → ℕ
  | [] => 10
  | first :: _ => first.length

/-- The key of the sort, `doc_scores.get(x.doc_id, 0)`. -/
def fusedScore (scores : Dict String ℚ) (r : SearchResult) : ℚ := (scores.get r.docId).getD 0

def reciprocalRankFusion (k : ℕ) (resultLists : List (List SearchResult)) : List SearchResult :=
  let scores := docScores k resultLists
  let fused := (fuse scores resultLists).insertionSort fun a b => fusedScore scores b ≤ fusedScore scores a
  fused.take (fusedLength resultLists)

/-! ## The sum of a document -/

/-- What one list gives the document: nothing if it does not contain it. -/
def reciprocalRank (k : ℕ) (d : String) : ℕ → List SearchResult → ℚ
  | _, [] => 0
  | rank, result :: results => if result.docId = d then 1 / (k + rank) else reciprocalRank k d (rank + 1) results

def rankSum (k : ℕ) (resultLists : List (List SearchResult)) (d : String) : ℚ :=
  (resultLists.map (reciprocalRank k d 1)).sum

def Found (resultLists : List (List SearchResult)) (d : String) : Prop :=
  ∃ results ∈ resultLists, d ∈ results.map SearchResult.docId

theorem reciprocalRank_of_not_mem {k rank : ℕ} {d : String} {results : List SearchResult}
    (absent : d ∉ results.map SearchResult.docId) : reciprocalRank k d rank results = 0 := by
  induction results generalizing rank with
  | nil => rfl
  | cons result results ih =>
      rw [List.map_cons, List.mem_cons, not_or] at absent
      rw [reciprocalRank, if_neg (Ne.symm absent.1), ih absent.2]

theorem get_addRanks {k rank : ℕ} {scores : Dict String ℚ} {results : List SearchResult}
    (once : (results.map SearchResult.docId).Nodup) (d : String) :
    (addRanks k rank scores results).get d =
      if d ∈ results.map SearchResult.docId then some ((scores.get d).getD 0 + reciprocalRank k d rank results)
      else scores.get d := by
  induction results generalizing rank scores with
  | nil => rfl
  | cons result results ih =>
      obtain ⟨first, rest⟩ := List.nodup_cons.mp once
      rw [addRanks, ih rest, Dict.get_set, reciprocalRank]
      by_cases here : d = result.docId
      · subst here
        have listed : result.docId ∈ (result :: results).map SearchResult.docId := List.mem_cons_self
        rw [if_neg first, if_pos rfl, if_pos listed, if_pos rfl]
      · rw [if_neg here, if_neg (Ne.symm here)]
        simp only [List.map_cons, List.mem_cons, here, false_or]

theorem foldl_addRanks {k : ℕ} {resultLists : List (List SearchResult)}
    (once : ∀ results ∈ resultLists, (results.map SearchResult.docId).Nodup) (scores : Dict String ℚ) (d : String) :
    ((resultLists.foldl (addRanks k 1) scores).get d).getD 0 = (scores.get d).getD 0 + rankSum k resultLists d ∧
      ((scores.get d).isSome ∨ Found resultLists d → ((resultLists.foldl (addRanks k 1) scores).get d).isSome) := by
  induction resultLists generalizing scores with
  | nil =>
      refine ⟨(add_zero _).symm, fun known => known.resolve_right ?_⟩
      rintro ⟨results, none, -⟩
      exact List.not_mem_nil none
  | cons results resultLists ih =>
      obtain ⟨first, later⟩ := List.forall_mem_cons.mp once
      obtain ⟨sum, known⟩ := ih later (addRanks k 1 scores results)
      have added : (addRanks k 1 scores results).get d = _ := get_addRanks first d
      rw [List.foldl_cons]
      constructor
      · rw [sum, added, rankSum, rankSum, List.map_cons, List.sum_cons, ← add_assoc]
        split
        · rfl
        · rename_i absent
          rw [reciprocalRank_of_not_mem absent, add_zero]
      · intro before
        apply known
        rw [added]
        split
        · exact .inl rfl
        · rename_i absent
          refine before.imp id ?_
          rintro ⟨results', member, here⟩
          obtain rfl | member := List.mem_cons.mp member
          · exact absurd here absent
          · exact ⟨results', member, here⟩

theorem getD_docScores {k : ℕ} {resultLists : List (List SearchResult)}
    (once : ∀ results ∈ resultLists, (results.map SearchResult.docId).Nodup) (d : String) :
    ((docScores k resultLists).get d).getD 0 = rankSum k resultLists d :=
  (foldl_addRanks once .empty d).1.trans (zero_add _)

theorem get_docScores {k : ℕ} {resultLists : List (List SearchResult)}
    (once : ∀ results ∈ resultLists, (results.map SearchResult.docId).Nodup) {d : String} (found : Found resultLists d) :
    (docScores k resultLists).get d = some (rankSum k resultLists d) := by
  obtain ⟨score, here⟩ := Option.isSome_iff_exists.mp ((foldl_addRanks (k := k) once .empty d).2 (.inr found))
  have sum := getD_docScores (k := k) once d
  have there : (docScores k resultLists).get d = some score := here
  rw [there, Option.getD_some] at sum
  rw [there, sum]

/-! ## The fused list -/

/-- A result of one of the lists with the sum of its document. -/
def hybrid (k : ℕ) (resultLists : List (List SearchResult)) (r : SearchResult) : SearchResult :=
  ⟨r.docId, r.text, rankSum k resultLists r.docId, "hybrid"⟩

/-- Each result of each list comes once. -/
theorem fuse_eq {k : ℕ} {resultLists : List (List SearchResult)}
    (once : ∀ results ∈ resultLists, (results.map SearchResult.docId).Nodup) :
    fuse (docScores k resultLists) resultLists = resultLists.flatten.map (hybrid k resultLists) := by
  rw [fuse, List.map_flatten, ← List.flatMap_def]
  refine List.flatMap_congr fun results member => ?_
  rw [List.map_eq_flatMap]
  refine List.flatMap_congr fun r here => ?_
  have found : Found resultLists r.docId := ⟨results, member, List.mem_map_of_mem here⟩
  rw [Dict.filter_items (get_docScores once found)]
  rfl

/-- The documents come once each, by descending sum, each with its sum as score, and before those left out. -/
structure Ranks (k : ℕ) (resultLists : List (List SearchResult)) (out : List SearchResult) : Prop where
  distinct : (out.map SearchResult.docId).Nodup
  order : out.Pairwise fun a b => rankSum k resultLists b.docId ≤ rankSum k resultLists a.docId
  scores : ∀ r ∈ out, r.score = rankSum k resultLists r.docId
  best : ∀ r ∈ out, ∀ d, Found resultLists d → d ∉ out.map SearchResult.docId →
    rankSum k resultLists d ≤ rankSum k resultLists r.docId

/-! ## The places of the results -/

def docAt (resultLists : List (List SearchResult)) (i : ℕ) : Option String :=
  resultLists.flatten[i]?.map SearchResult.docId

def sumAt (k : ℕ) (resultLists : List (List SearchResult)) (i : ℕ) : ℚ :=
  (docAt resultLists i).elim 0 (rankSum k resultLists)

/-- A result with a greater sum comes first, and of those with the same sum the earlier one. -/
def Before (k : ℕ) (resultLists : List (List SearchResult)) (i j : ℕ) : Prop :=
  sumAt k resultLists j < sumAt k resultLists i ∨ (sumAt k resultLists i = sumAt k resultLists j ∧ i < j)

instance (k : ℕ) (resultLists : List (List SearchResult)) : DecidableRel (Before k resultLists) := fun _ _ =>
  inferInstanceAs (Decidable (_ ∨ _))

/-- A result whose document an earlier list has found comes after as many as are returned. -/
def Spread (k : ℕ) (resultLists : List (List SearchResult)) : Prop :=
  ∀ j < resultLists.flatten.length, (∃ i < j, docAt resultLists i = docAt resultLists j) →
    fusedLength resultLists ≤
      (List.range resultLists.flatten.length).countP fun i => decide (Before k resultLists i j)

variable {k : ℕ} {resultLists : List (List SearchResult)}

theorem Before.asymm {i j : ℕ} (h : Before k resultLists i j) : ¬ Before k resultLists j i := by
  rintro (back | ⟨same, later⟩)
  · rcases h with greater | ⟨tie, -⟩
    · exact lt_asymm greater back
    · exact back.ne tie
  · rcases h with greater | ⟨-, earlier⟩
    · exact greater.ne same
    · exact Nat.lt_asymm earlier later

theorem Before.trans {i j l : ℕ} (h : Before k resultLists i j) (h' : Before k resultLists j l) :
    Before k resultLists i l := by
  rcases h with greater | ⟨tie, earlier⟩
  · rcases h' with greater' | ⟨tie', -⟩
    · exact .inl (greater'.trans greater)
    · exact .inl (tie' ▸ greater)
  · rcases h' with greater' | ⟨tie', earlier'⟩
    · exact .inl (tie ▸ greater')
    · exact .inr ⟨tie.trans tie', earlier.trans earlier'⟩

theorem before_of_same {i j : ℕ} (same : docAt resultLists i = docAt resultLists j) (earlier : i < j) :
    Before k resultLists i j := .inr ⟨congrArg (Option.elim · 0 (rankSum k resultLists)) same, earlier⟩

theorem fused_at (i : ℕ) :
    (resultLists.flatten.map (hybrid k resultLists))[i]?.map SearchResult.docId = docAt resultLists i := by
  rw [List.getElem?_map, Option.map_map]
  rfl

theorem fusedScore_hybrid (once : ∀ results ∈ resultLists, (results.map SearchResult.docId).Nodup) (r : SearchResult) :
    fusedScore (docScores k resultLists) (hybrid k resultLists r) = rankSum k resultLists r.docId :=
  getD_docScores once r.docId

/-- The result is the ranking of the places, cut off. -/
theorem exists_places (once : ∀ results ∈ resultLists, (results.map SearchResult.docId).Nodup) :
    ∃ order : List ℕ, order.Perm (List.range resultLists.flatten.length) ∧ order.Pairwise (Before k resultLists) ∧
      ((reciprocalRankFusion k resultLists).map SearchResult.docId).map some =
        (order.take (fusedLength resultLists)).map (docAt resultLists) := by
  obtain ⟨order, perm, image, sorted⟩ := exists_ranking (fusedScore (docScores k resultLists))
    (r := fun a b => fusedScore (docScores k resultLists) b ≤ fusedScore (docScores k resultLists) a)
    (fun _ _ => Iff.rfl) (resultLists.flatten.map (hybrid k resultLists))
  rw [List.length_map] at perm
  have within {i : ℕ} (member : i ∈ order) : ∃ a, resultLists.flatten[i]? = some a :=
    ⟨_, List.getElem?_eq_getElem (List.mem_range.mp (perm.mem_iff.mp member))⟩
  refine ⟨order, perm, sorted.imp_of_mem fun {i j} first second precedes => ?_, ?_⟩
  · obtain ⟨a, here⟩ := within first
    obtain ⟨b, there⟩ := within second
    have ranked := precedes (hybrid k resultLists a) (by rw [List.getElem?_map, here]; rfl)
      (hybrid k resultLists b) (by rw [List.getElem?_map, there]; rfl)
    rw [fusedScore_hybrid once, fusedScore_hybrid once] at ranked
    simpa [Before, sumAt, docAt, here, there] using ranked
  · rw [← fuse_eq once] at image
    have cut := congrArg (fun l => (l.take (fusedLength resultLists)).map (Option.map SearchResult.docId)) image
    rw [← List.map_take, ← List.map_take, List.map_map, List.map_map] at cut
    rw [List.map_map]
    refine cut.trans (List.map_congr_left fun i _ => ?_)
    rw [Function.comp_apply, fuse_eq once]
    exact fused_at i

theorem distinct_iff_spread (once : ∀ results ∈ resultLists, (results.map SearchResult.docId).Nodup) :
    ((reciprocalRankFusion k resultLists).map SearchResult.docId).Nodup ↔ Spread k resultLists := by
  obtain ⟨order, perm, sorted, image⟩ := exists_places (k := k) once
  rw [← List.nodup_map_iff (Option.some_injective String), image]
  have asymm (i j : ℕ) (before : Before k resultLists i j) : ¬ Before k resultLists j i := before.asymm
  have trans (i j l : ℕ) (before : Before k resultLists i j) (before' : Before k resultLists j l) :
      Before k resultLists i l := before.trans before'
  have tie (i j : ℕ) (same : docAt resultLists i = docAt resultLists j) (earlier : i < j) :
      Before k resultLists i j := before_of_same same earlier
  exact nodup_map_take_iff asymm trans tie perm sorted (fusedLength resultLists)

/-- The fused results by descending sum, before they are cut off. -/
def ranking (k : ℕ) (resultLists : List (List SearchResult)) : List SearchResult :=
  (fuse (docScores k resultLists) resultLists).insertionSort fun a b =>
    fusedScore (docScores k resultLists) b ≤ fusedScore (docScores k resultLists) a

theorem mem_ranking (once : ∀ results ∈ resultLists, (results.map SearchResult.docId).Nodup) {r : SearchResult} :
    r ∈ ranking k resultLists ↔ ∃ hit ∈ resultLists.flatten, hybrid k resultLists hit = r := by
  rw [ranking, List.mem_insertionSort, fuse_eq once, List.mem_map]

theorem ranking_sorted (once : ∀ results ∈ resultLists, (results.map SearchResult.docId).Nodup) :
    (ranking k resultLists).Pairwise fun a b => rankSum k resultLists b.docId ≤ rankSum k resultLists a.docId := by
  have any_order : (fuse (docScores k resultLists) resultLists).Pairwise fun _ _ => True :=
    List.pairwise_of_forall_mem_list fun _ _ _ _ => trivial
  have sorted : (ranking k resultLists).Pairwise
      (Precedes (fusedScore (docScores k resultLists)) fun _ _ => True) :=
    pairwise_precedes_insertionSort (fun _ _ => Iff.rfl) any_order
  refine sorted.imp fun {a b} precedes => ?_
  have le := precedes.le
  rwa [fusedScore, fusedScore, getD_docScores once, getD_docScores once] at le

/-- Fusion ranks the documents exactly if the results that repeat one come after as many as are returned. -/
theorem ranks_iff_spread (k : ℕ) (resultLists : List (List SearchResult))
    (once : ∀ results ∈ resultLists, (results.map SearchResult.docId).Nodup) :
    Ranks k resultLists (reciprocalRankFusion k resultLists) ↔ Spread k resultLists := by
  refine ⟨fun ranks => (distinct_iff_spread once).mp ranks.distinct, fun spread => ?_⟩
  have split : (ranking k resultLists).take (fusedLength resultLists) ++
      (ranking k resultLists).drop (fusedLength resultLists) = ranking k resultLists := List.take_append_drop _ _
  have sorted := ranking_sorted (k := k) once
  rw [← split] at sorted
  refine ⟨(distinct_iff_spread once).mpr spread, (List.pairwise_append.mp sorted).1, fun r member => ?_, ?_⟩
  · obtain ⟨hit, -, rfl⟩ := (mem_ranking once).mp (List.mem_of_mem_take member)
    rfl
  · rintro r member d ⟨results, listed, found⟩ out
    obtain ⟨hit, here, rfl⟩ := List.mem_map.mp found
    have ranked : hybrid k resultLists hit ∈ ranking k resultLists :=
      (mem_ranking once).mpr ⟨hit, List.mem_flatten.mpr ⟨results, listed, here⟩, rfl⟩
    rw [← split] at ranked
    have left := (List.mem_append.mp ranked).resolve_left fun kept => out (List.mem_map.mpr ⟨_, kept, rfl⟩)
    exact (List.pairwise_append.mp sorted).2.2 r member (hybrid k resultLists hit) left

def hit (docId : String) (source : String) : SearchResult := ⟨docId, "", 1, source⟩

/-- Both searches find the document `a`, and one result is returned. -/
def late : List (List SearchResult) := [[hit "a" "dense"], [hit "b" "sparse", hit "a" "sparse"]]

theorem ranks_iff_spread_late : Ranks 60 late (reciprocalRankFusion 60 late) :=
  (ranks_iff_spread 60 late (by decide)).mpr (by unfold Spread; decide +kernel)

/-- Both searches find the document `a` first. -/
def shared : List (List SearchResult) := [[hit "a" "dense", hit "b" "dense"], [hit "a" "sparse"]]

theorem shared_not_ranks :
    ¬ ∀ (k : ℕ) (resultLists : List (List SearchResult)), 1 ≤ k → resultLists ≠ [] →
      (∀ results ∈ resultLists, (results.map SearchResult.docId).Nodup) →
        Ranks k resultLists (reciprocalRankFusion k resultLists) := by
  intro claim
  have twice : (reciprocalRankFusion 60 shared).map SearchResult.docId = ["a", "a"] := by decide +kernel
  have distinct := (claim 60 shared (by decide) (by simp [shared]) (by decide)).distinct
  rw [twice] at distinct
  exact absurd distinct (by decide)

end CuckooEcho.Shared
