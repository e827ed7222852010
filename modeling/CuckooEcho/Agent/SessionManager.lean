import Mathlib.Order.Lattice

namespace CuckooEcho.Agent.SessionManager

/-! ## The token budget of a session -/

structure TokenBudget where
  system : Int
  recent : Int
  semantic : Int
  procedural : Int
  deriving DecidableEq, Repr

def TokenBudget.total (b : TokenBudget) : Int := b.system + b.recent + b.semantic + b.procedural

structure TokenBudget.Nonneg (b : TokenBudget) : Prop where
  system : 0 ≤ b.system
  recent : 0 ≤ b.recent
  semantic : 0 ≤ b.semantic
  procedural : 0 ≤ b.procedural

/-- `max_token_budget or MAX_TOKEN_BUDGET` -/
def maxTokenBudget : Option Int → Int
  | none => 8192
  | some n => if n = 0 then 8192 else n

def computeTokenBudget (totalTokens : Int) : TokenBudget :=
  let systemTokens := min 1000 (totalTokens / 4)
  let recentTokens := min 4000 (totalTokens / 2)
  let semanticTokens := min 2000 (totalTokens / 4)
  let proceduralTokens := min 512 (totalTokens / 16)
  let remaining := totalTokens - systemTokens - recentTokens - semanticTokens - proceduralTokens
  { system := systemTokens
    recent := if 0 < remaining then recentTokens + remaining else recentTokens
    semantic := semanticTokens
    procedural := proceduralTokens }

/-- The remainder goes to the recent messages, so the parts never fall short of the budget. -/
theorem le_total (t : Int) : t ≤ (computeTokenBudget t).total := by
  simp only [computeTokenBudget, TokenBudget.total]
  split <;> omega

theorem total_le {t : Int} (positive : 0 < t) : (computeTokenBudget t).total ≤ t + 250 := by
  simp only [computeTokenBudget, TokenBudget.total]
  split <;> omega

theorem computeTokenBudget_nonneg {t : Int} (positive : 0 < t) : (computeTokenBudget t).Nonneg := by
  constructor
  · simp only [computeTokenBudget]
    omega
  · simp only [computeTokenBudget]
    split <;> omega
  · simp only [computeTokenBudget]
    omega
  · simp only [computeTokenBudget]
    omega

/-- The budgets of which the four shares before the remainder take no more than there is. -/
def Covers (t : Int) : Prop :=
  t < 16 ∨ t < 32 ∧ t % 4 ≠ 0 ∨ t < 48 ∧ t % 4 = 3 ∨ 5323 ≤ t ∧ t ≠ 5324 ∧ t ≠ 5328

theorem total_eq_iff {t : Int} (positive : 0 < t) : (computeTokenBudget t).total = t ↔ Covers t := by
  simp only [computeTokenBudget, TokenBudget.total, Covers]
  split <;> omega

theorem maxTokenBudget_of_pos {t : Int} (positive : 0 < t) : maxTokenBudget (some t) = t :=
  if_neg (Int.ne_of_gt positive)

theorem budget_exact_iff (t : Int) (positive : 0 < t) :
    (computeTokenBudget (maxTokenBudget (some t))).Nonneg ∧
        (computeTokenBudget (maxTokenBudget (some t))).total = t ↔
      Covers t := by
  rw [maxTokenBudget_of_pos positive, total_eq_iff positive]
  exact and_iff_right (computeTokenBudget_nonneg positive)

theorem budget_exact_iff_default :
    (computeTokenBudget (maxTokenBudget (some 8192))).Nonneg ∧
        (computeTokenBudget (maxTokenBudget (some 8192))).total = 8192 ↔
      Covers 8192 :=
  budget_exact_iff 8192 (by decide)

theorem budget_exceeds :
    ¬ ∀ t : Int, 0 < t → (computeTokenBudget (maxTokenBudget (some t))).Nonneg ∧
      (computeTokenBudget (maxTokenBudget (some t))).total = t := by
  intro claim
  exact absurd (claim 4096 (by decide)).2 (by decide)

end CuckooEcho.Agent.SessionManager
