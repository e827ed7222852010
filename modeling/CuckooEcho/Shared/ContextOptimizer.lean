import CuckooEcho.Lib.Greedy
import CuckooEcho.Lib.Text
import Mathlib.Algebra.Field.Rat
import Mathlib.Algebra.Order.Ring.Rat
import Mathlib.Data.List.Sort

namespace CuckooEcho.Shared.ContextOptimizer
open Lib Greedy

/-- The entries of a message that are read; the times are in microseconds, counted from `datetime.min` on. Scores are
numbers of any ordered type: no law of arithmetic is used of them, so they may be rounded. -/
structure Message (F : Type*) where
  importance : Option F := none
  role : Option String := none
  createdAt : Option Nat := none
  content : Option String := none
  deriving DecidableEq, Repr

section
variable {F : Type*} [LinearOrder F] [OfScientific F]

def minImportanceThreshold : F := 0.3

def roleWeights : List (String × F) := [("system", 0.9), ("assistant", 0.7), ("user", 0.5), ("tool", 0.3)]

def estimateTokens (m : Message F) : Nat :=
  let content := (m.content.getD "").toList
  (Text.words content).length + content.length / 4

/-! ### The loop of `selective_retention` -/

def retain (budget : Int) : Int → List (Message F × F) → List (Message F)
  | _, [] => []
  | totalTokens, (msg, importance) :: scored =>
      if importance < minImportanceThreshold then retain budget totalTokens scored
      else
        let msgTokens := estimateTokens msg
        if budget < totalTokens + msgTokens then
          let remaining := budget - totalTokens
          if 100 < remaining then [msg] else []
        else msg :: retain budget (totalTokens + msgTokens) scored

theorem retain_eq (budget total : Int) (scored : List (Message F × F)) : retain budget total scored =
    fillUp estimateTokens 100 budget total ((scored.filter (minImportanceThreshold ≤ ·.2)).map Prod.fst) := by
  induction scored generalizing total with
  | nil => rfl
  | cons first scored ih =>
      obtain ⟨msg, importance⟩ := first
      rw [retain]
      by_cases low : importance < minImportanceThreshold
      · rw [if_pos low, List.filter_cons_of_neg (by simpa using low), ih]
      · rw [if_neg low, List.filter_cons_of_pos (by simpa using low), List.map_cons, fillUp, ← ih]

/-! ### Scores -/

section
variable [Zero F] [One F] [Add F] [Sub F] [Mul F] [Div F] [OfNat F 24] [OfNat F 3600]
variable (lower : String → String)

def sharesTerm (query content : String) : Bool :=
  (Text.words (lower query).toList).any fun term => term ∈ Text.words (lower content).toList

def contentAnalysis (currentQuery : Option String) (m : Message F) : F :=
  match currentQuery.filter (· ≠ ""), m.content.filter (· ≠ "") with
  | some query, some content => if sharesTerm lower query content then 0.8 else 0.5
  | _, _ => 0.5

variable (totalSeconds : Int → F)

/-- `before` and `now` are the two readings of the clock: for the default of `created_at` and for the age. -/
def scoreMessage (currentQuery : Option String) (before now : Nat) (m : Message F) : F :=
  let explicit := m.importance.getD 0.5
  let roleWeight := (roleWeights.lookup (m.role.getD "user")).getD 0.5
  let ageHours := totalSeconds ((now : Int) - (m.createdAt.getD before : Nat)) / 3600
  let recency := max 0 (1 - ageHours / 24)
  let total := explicit * 0.2 + roleWeight * 0.2 + recency * 0.2 + contentAnalysis lower currentQuery m * 0.4
  min 1 (max 0 total)

/-! ### The messages that are kept -/

variable (clock : Nat → Nat)

def importanceScoring (messages : List (Message F)) (currentQuery : Option String) : List (Message F × F) :=
  (messages.zipIdx.map fun (m, i) =>
    (m, scoreMessage lower totalSeconds currentQuery (clock (2 * i)) (clock (2 * i + 1)) m)).insertionSort
      fun a b => b.2 ≤ a.2

def selectiveRetention (messages : List (Message F)) (budget : Int) (currentQuery : Option String) : List (Message F) :=
  (retain budget 0 (importanceScoring lower totalSeconds clock messages currentQuery)).insertionSort fun a b =>
    a.createdAt.getD 0 ≤ b.createdAt.getD 0

/-- The messages that are considered, in order of decreasing importance. -/
def eligible (messages : List (Message F)) (currentQuery : Option String) : List (Message F) :=
  ((importanceScoring lower totalSeconds clock messages currentQuery).filter (minImportanceThreshold ≤ ·.2)).map Prod.fst

structure KeepsBudget (messages : List (Message F)) (budget : Int) (currentQuery : Option String) : Prop where
  withinBudget :
    (costOf estimateTokens (selectiveRetention lower totalSeconds clock messages budget currentQuery) : Int) ≤ budget
  eachOnce : (selectiveRetention lower totalSeconds clock messages budget currentQuery).Subperm messages

/-- The first message that does not fit, if there is one, finds no more than 100 tokens left. -/
def LittleLeft (messages : List (Message F)) (budget : Int) (currentQuery : Option String) : Prop :=
  ∀ front m back, eligible lower totalSeconds clock messages currentQuery = front ++ m :: back →
    (costOf estimateTokens front : Int) ≤ budget → budget < costOf estimateTokens front + estimateTokens m →
      budget - costOf estimateTokens front ≤ 100

theorem eligible_subperm (messages : List (Message F)) (currentQuery : Option String) :
    (eligible lower totalSeconds clock messages currentQuery).Subperm messages := by
  have scored : ((importanceScoring lower totalSeconds clock messages currentQuery).map Prod.fst).Perm messages := by
    refine ((List.perm_insertionSort _ _).map Prod.fst).trans ?_
    rw [List.map_map]
    exact (List.zipIdx_map_fst 0 messages).symm ▸ List.Perm.refl _
  exact (List.filter_sublist.map Prod.fst).subperm.trans scored.subperm

theorem selectiveRetention_perm (messages : List (Message F)) (budget : Int) (currentQuery : Option String) :
    (selectiveRetention lower totalSeconds clock messages budget currentQuery).Perm
      (fillUp estimateTokens 100 budget 0 (eligible lower totalSeconds clock messages currentQuery)) := by
  rw [selectiveRetention, retain_eq]
  exact List.perm_insertionSort _ _

theorem keepsBudget_iff (messages : List (Message F)) (budget : Int) (nonneg : 0 ≤ budget)
    (currentQuery : Option String) :
    KeepsBudget lower totalSeconds clock messages budget currentQuery ↔
      LittleLeft lower totalSeconds clock messages budget currentQuery := by
  have perm := selectiveRetention_perm lower totalSeconds clock messages budget currentQuery
  have each : (selectiveRetention lower totalSeconds clock messages budget currentQuery).Subperm messages :=
    perm.subperm.trans ((fillUp_sublist _).subperm.trans
      (eligible_subperm lower totalSeconds clock messages currentQuery))
  have bound := costOf_fillUp_le_iff estimateTokens 100 nonneg (eligible lower totalSeconds clock messages currentQuery)
  simp only [StopsNear, Int.zero_add] at bound
  constructor
  · intro keeps
    have within := keeps.withinBudget
    rw [costOf_perm perm] at within
    exact bound.mp within
  · intro little
    refine ⟨?_, each⟩
    rw [costOf_perm perm]
    exact bound.mpr little

end

end

def longNote : Message Rat := { content := some (String.ofList (List.replicate 1000 'a')) }

def seconds (microseconds : Int) : Rat := microseconds / 1000000

theorem length_wordsFrom_replicate (n : Nat) {part : Text} (begun : part ≠ []) :
    (Text.wordsFrom part (List.replicate n 'a')).length = 1 := by
  induction n generalizing part with
  | zero => simp [Text.wordsFrom, begun]
  | succ n ih =>
      rw [List.replicate_succ, Text.wordsFrom, if_neg (by decide), ih (List.cons_ne_nil 'a' part)]

theorem estimateTokens_replicate {F : Type*} (n : Nat) :
    estimateTokens ({ content := some (String.ofList (List.replicate (n + 1) 'a')) } : Message F) =
      1 + (n + 1) / 4 := by
  have words : (Text.words (List.replicate (n + 1) 'a')).length = 1 := by
    rw [Text.words, List.replicate_succ, Text.wordsFrom, if_neg (by decide),
      length_wordsFrom_replicate n (List.cons_ne_nil 'a' [])]
  simp only [estimateTokens, Option.getD_some, String.toList_ofList, words, List.length_replicate]

theorem estimateTokens_longNote : estimateTokens longNote = 251 := estimateTokens_replicate 999

theorem scoreMessage_content (lower : String → String) (content : Option String) :
    scoreMessage lower seconds none 0 0 { content } = 0.6 := by
  have analysis : contentAnalysis lower none { content } = (0.5 : Rat) := rfl
  have role : (roleWeights.lookup "user").getD (0.5 : Rat) = 0.5 := rfl
  simp only [scoreMessage, analysis, Option.getD_none, role]
  decide +kernel

theorem longNote_high : ¬ scoreMessage String.toLower seconds none 0 0 longNote < minImportanceThreshold := by
  rw [longNote, scoreMessage_content]
  decide +kernel

/-- The second of two long messages does not fit any more and finds 49 tokens left. -/
theorem keepsBudget_iff_twoLong :
    KeepsBudget String.toLower seconds (fun _ => 0) [longNote, longNote] 300 none := by
  refine (keepsBudget_iff String.toLower seconds (fun _ => 0) [longNote, longNote] 300 (by decide) none).mpr ?_
  have considered : eligible String.toLower seconds (fun _ => 0) [longNote, longNote] none = [longNote, longNote] := by
    simp [eligible, importanceScoring, not_lt.mp longNote_high]
  intro front m back eq within exceeds
  rw [considered] at eq
  cases front with
  | nil =>
      obtain ⟨rfl, -⟩ := List.cons.inj eq
      rw [costOf_nil, estimateTokens_longNote] at exceeds
      exact absurd exceeds (by decide)
  | cons first front =>
      obtain ⟨rfl, rest⟩ := List.cons.inj eq
      rw [costOf_cons, estimateTokens_longNote]
      omega

/-- A message of 251 tokens is returned for a budget of 200. -/
theorem long_message_over_budget :
    ¬ ∀ (lower : String → String) (totalSeconds : Int → Rat) (clock : Nat → Nat) (messages : List (Message Rat))
      (budget : Int) (currentQuery : Option String), 0 ≤ budget →
        KeepsBudget lower totalSeconds clock messages budget currentQuery := by
  intro claim
  have keeps := claim String.toLower seconds (fun _ => 0) [longNote] 200 none (by decide)
  have returned : selectiveRetention String.toLower seconds (fun _ => 0) [longNote] 200 none = [longNote] := by
    simp [selectiveRetention, importanceScoring, retain, longNote_high, estimateTokens_longNote]
  have within := keeps.withinBudget
  rw [returned, costOf_cons, estimateTokens_longNote] at within
  exact absurd within (by decide)

end CuckooEcho.Shared.ContextOptimizer
