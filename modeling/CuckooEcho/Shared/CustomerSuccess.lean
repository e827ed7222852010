import Mathlib.Algebra.Order.Ring.Rat
import Mathlib.Data.List.Basic

namespace CuckooEcho.Shared.CustomerSuccess

/-! ## The risks of a customer -/

inductive RiskType
  | decliningUsage
  | negativeSentiment
  | supportEscalation
  | nonRenewal
  deriving DecidableEq, Repr

/-- The figures are numbers of any ordered type: no law of arithmetic is used of them, so they may be rounded. -/
structure HealthMetrics (F : Type*) [Zero F] where
  loginFrequency : F := 0
  conversationVolume : F := 0
  featureAdoption : F := 0
  selfServiceRate : F := 0
  sentimentScore : F := 0
  supportTicketCount : Int := 0
  npsScore : Option Int := none
  deriving DecidableEq, Repr

section
variable {F : Type*} [LinearOrder F] [Zero F] [Add F] [Mul F] [Div F] [OfNat F 3] [OfScientific F]

/-- `metrics.nps_score or 10` -/
def npsOrTen (npsScore : Option Int) : Int := (npsScore.filter (· ≠ 0)).getD 10

/-- Half of the average over the last three, to which the volume is compared. -/
def volumeThreshold (historical : List (HealthMetrics F)) : F :=
  let recent := historical.drop (historical.length - 3)
  let recentVolume := recent.foldl (fun sum m => sum + m.conversationVolume) 0 / 3
  recentVolume * 0.5

def detectRisks (metrics : HealthMetrics F) (historical : List (HealthMetrics F)) : List RiskType :=
  (if historical.length ≥ 3 ∧ metrics.conversationVolume < volumeThreshold historical then [.decliningUsage] else []) ++
  (if metrics.sentimentScore < 0.3 ∨ npsOrTen metrics.npsScore < 5 then [.negativeSentiment] else []) ++
  (if metrics.supportTicketCount > 5 then [.supportEscalation] else [])

/-- The second metrics are the first or worse, with the same figures of use and with scores from 0 to 10. -/
structure Worse (m m' : HealthMetrics F) (nps nps' : Int) : Prop where
  login : m'.loginFrequency = m.loginFrequency
  adoption : m'.featureAdoption = m.featureAdoption
  selfService : m'.selfServiceRate = m.selfServiceRate
  volume : m'.conversationVolume ≤ m.conversationVolume
  sentiment : m'.sentimentScore ≤ m.sentimentScore
  tickets : m.supportTicketCount ≤ m'.supportTicketCount
  score : m.npsScore = some nps ∧ 0 ≤ nps ∧ nps ≤ 10
  score' : m'.npsScore = some nps' ∧ 0 ≤ nps' ∧ nps' ≤ 10
  nps : nps' ≤ nps

end

section
variable {F : Type*} [LinearOrder F] [Zero F] [Add F] [Mul F] [Div F] [OfNat F 3] [OfScientific F]
variable {m m' : HealthMetrics F} {historical : List (HealthMetrics F)} {nps nps' : Int}

theorem npsOrTen_some (nps : Int) : npsOrTen (some nps) = if nps = 0 then 10 else nps := by
  by_cases zero : nps = 0
  · simp [npsOrTen, zero, Option.filter_some]
  · simp [npsOrTen, zero, Option.filter_some]

theorem decliningUsage_mem : RiskType.decliningUsage ∈ detectRisks m historical ↔
    historical.length ≥ 3 ∧ m.conversationVolume < volumeThreshold historical := by
  simp [detectRisks]

theorem negativeSentiment_mem : RiskType.negativeSentiment ∈ detectRisks m historical ↔
    m.sentimentScore < 0.3 ∨ npsOrTen m.npsScore < 5 := by
  simp [detectRisks]

theorem supportEscalation_mem : RiskType.supportEscalation ∈ detectRisks m historical ↔ 5 < m.supportTicketCount := by
  simp [detectRisks]

theorem nonRenewal_not_mem : RiskType.nonRenewal ∉ detectRisks m historical := by
  simp [detectRisks]

theorem Worse.decliningUsage (worse : Worse m m' nps nps') (risk : RiskType.decliningUsage ∈ detectRisks m historical) :
    RiskType.decliningUsage ∈ detectRisks m' historical := by
  obtain ⟨enough, below⟩ := decliningUsage_mem.mp risk
  exact decliningUsage_mem.mpr ⟨enough, worse.volume.trans_lt below⟩

theorem Worse.supportEscalation (worse : Worse m m' nps nps')
    (risk : RiskType.supportEscalation ∈ detectRisks m historical) :
    RiskType.supportEscalation ∈ detectRisks m' historical :=
  supportEscalation_mem.mpr ((supportEscalation_mem.mp risk).trans_le worse.tickets)

/-- A score of 0 counts as none: the sentiment is then all that tells. -/
theorem Worse.negativeSentiment_iff (worse : Worse m m' nps nps') :
    (RiskType.negativeSentiment ∈ detectRisks m historical → RiskType.negativeSentiment ∈ detectRisks m' historical) ↔
      ¬ (nps' = 0 ∧ 0 < nps ∧ nps < 5 ∧ ¬ m'.sentimentScore < 0.3) := by
  obtain ⟨score, low, high⟩ := worse.score
  obtain ⟨score', low', high'⟩ := worse.score'
  have lower := worse.nps
  rw [negativeSentiment_mem, negativeSentiment_mem, score, score', npsOrTen_some, npsOrTen_some]
  constructor
  · rintro keeps ⟨rfl, positive, few, calm⟩
    have risk := keeps (Or.inr (by rw [if_neg positive.ne']; exact few))
    rw [if_pos rfl] at risk
    exact risk.elim calm (by decide)
  · intro seen risk
    by_cases sad : m'.sentimentScore < 0.3
    · exact Or.inl sad
    · have positive : 0 < nps ∧ nps < 5 := by
        obtain before | few := risk
        · exact absurd (worse.sentiment.trans_lt before) sad
        · split at few <;> omega
      have present : nps' ≠ 0 := fun zero => seen ⟨zero, positive.1, positive.2, sad⟩
      rw [if_neg present]
      exact Or.inr (by omega)

/-- Worse metrics keep every risk, unless the score falls from below 5 to 0 while the sentiment stays above its
threshold. -/
theorem Worse.detectRisks_subset_iff (worse : Worse m m' nps nps') (historical : List (HealthMetrics F)) :
    (∀ risk ∈ detectRisks m historical, risk ∈ detectRisks m' historical) ↔
      ¬ (nps' = 0 ∧ 0 < nps ∧ nps < 5 ∧ ¬ m'.sentimentScore < 0.3) := by
  have negative_iff :
      (.negativeSentiment ∈ detectRisks m historical → .negativeSentiment ∈ detectRisks m' historical) ↔ _ :=
    worse.negativeSentiment_iff
  rw [← negative_iff]
  constructor
  · exact fun keeps => keeps .negativeSentiment
  · intro negative risk found
    cases risk with
    | decliningUsage => exact worse.decliningUsage found
    | negativeSentiment => exact negative found
    | supportEscalation => exact worse.supportEscalation found
    | nonRenewal => exact absurd found nonRenewal_not_mem

end

def scored (npsScore : Int) : HealthMetrics Rat := { sentimentScore := 1, npsScore := some npsScore }

theorem worse_scored {nps nps' : Int} (inRange : 0 ≤ nps ∧ nps ≤ 10) (inRange' : 0 ≤ nps' ∧ nps' ≤ 10)
    (below : nps' ≤ nps) : Worse (scored nps) (scored nps') nps nps' where
  login := rfl
  adoption := rfl
  selfService := rfl
  volume := le_rfl
  sentiment := le_rfl
  tickets := le_rfl
  score := ⟨rfl, inRange⟩
  score' := ⟨rfl, inRange'⟩
  nps := below

theorem detectRisks_subset_iff_scored :
    (∀ risk ∈ detectRisks (scored 3) [], risk ∈ detectRisks (scored 2) []) ↔
      ¬ ((2 : Int) = 0 ∧ (0 : Int) < 3 ∧ (3 : Int) < 5 ∧ ¬ (scored 2).sentimentScore < 0.3) :=
  (worse_scored (by decide) (by decide) (by decide)).detectRisks_subset_iff []

theorem zero_hidden : ¬ ∀ (m m' : HealthMetrics Rat) (nps nps' : Int), Worse m m' nps nps' →
    ∀ historical, ∀ risk ∈ detectRisks m historical, risk ∈ detectRisks m' historical := by
  intro claim
  have worse : Worse (scored 3) (scored 0) 3 0 := worse_scored (by decide) (by decide) (by decide)
  have risk : RiskType.negativeSentiment ∈ detectRisks (scored 3) [] := negativeSentiment_mem.mpr (Or.inr (by decide))
  have kept := claim (scored 3) (scored 0) 3 0 worse [] .negativeSentiment risk
  have calm : ¬ (scored 0).sentimentScore < 0.3 := by decide +kernel
  exact (negativeSentiment_mem.mp kept).elim calm (by decide)

end CuckooEcho.Shared.CustomerSuccess
