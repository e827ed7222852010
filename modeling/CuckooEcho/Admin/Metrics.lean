import Mathlib.Algebra.Field.Rat
import Mathlib.Algebra.Order.Field.Basic
import Mathlib.Algebra.Order.Ring.Rat
import Mathlib.Data.Finset.Card
import Mathlib.Data.Rat.Floor
import Mathlib.Tactic.Linarith

namespace CuckooEcho.Admin.Metrics

abbrev Uuid := Nat

structure Thread where
  id : Uuid
  tenantId : Uuid
  createdAt : Int
  deriving DecidableEq, Repr

structure HitlSession where
  id : Uuid
  tenantId : Uuid
  threadId : Uuid
  startedAt : Int
  deriving DecidableEq, Repr

/-- The ids are primary keys. -/
structure Tables where
  threads : List Thread
  sessions : List HitlSession
  threadIds : (threads.map (·.id)).Nodup
  sessionIds : (sessions.map (·.id)).Nodup

/-! ## `metrics_overview` -/

def leftJoin {α β : Type*} (on : α → β → Bool) (left : List α) (right : List β) : List (α × Option β) :=
  left.flatMap fun a =>
    match right.filter (on a) with
    | [] => [(a, none)]
    | matched => matched.map fun b => (a, some b)

/-- `COUNT(DISTINCT …)`, which leaves NULL out. -/
def countDistinct (ids : List (Option Uuid)) : Nat := (ids.filterMap id).dedup.length

/-- In seconds. -/
def RANGE_MAP : List (String × Int) := [("1d", 86400), ("7d", 604800), ("30d", 2592000)]

def intervalOf (range : String) : Int := (RANGE_MAP.lookup range).getD 604800

structure Overview where
  totalConversations : Nat
  humanTransferCount : Nat
  humanTransferRate : Rat
  range : String
  deriving DecidableEq, Repr

def joined (tables : Tables) (tenantId : Uuid) (since : Int) : List (Thread × Option HitlSession) :=
  (leftJoin (fun t h => h.tenantId = t.tenantId && since ≤ h.startedAt) tables.threads tables.sessions).filter
    fun row => row.1.tenantId = tenantId && since ≤ row.1.createdAt

def metricsOverview (round4 : Rat → Rat) (tables : Tables) (tenantId : Uuid) (now : Int) (range : String) : Overview :=
  let rows := joined tables tenantId (now - intervalOf range)
  let total := countDistinct (rows.map fun row => some row.1.id)
  let hitlCount := countDistinct (rows.map fun row => row.2.map (·.id))
  { totalConversations := total
    humanTransferCount := hitlCount
    humanTransferRate := round4 ((hitlCount : Rat) / max total 1)
    range }

/-- The dashboard's adapter; `human_transfer_rate` reaches it renamed. -/
def aiResolutionRate (humanEscalationRate : Option Rat) : Rat := 1 - humanEscalationRate.getD 0

/-! ### The rows of the join -/

section
variable {α β : Type*} {on : α → β → Bool} {left : List α} {right : List β} {a : α}

theorem mem_leftJoin_some {b : β} : (a, some b) ∈ leftJoin on left right ↔ a ∈ left ∧ b ∈ right ∧ on a b := by
  rw [leftJoin, List.mem_flatMap]
  constructor
  · rintro ⟨a', member, here⟩
    split at here
    · simp at here
    · rename_i matched some
      obtain ⟨b', found, eq⟩ := List.mem_map.mp here
      obtain ⟨rfl, rfl⟩ : a' = a ∧ b' = b := by simpa using eq
      exact ⟨member, List.mem_filter.mp found⟩
  · rintro ⟨member, found, fits⟩
    refine ⟨a, member, ?_⟩
    have here : b ∈ right.filter (on a) := List.mem_filter.mpr ⟨found, fits⟩
    split
    · rename_i none
      exact absurd (none ▸ here) List.not_mem_nil
    · exact List.mem_map_of_mem here

theorem exists_mem_leftJoin : (∃ b, (a, b) ∈ leftJoin on left right) ↔ a ∈ left := by
  simp only [leftJoin, List.mem_flatMap]
  constructor
  · rintro ⟨b, a', member, here⟩
    split at here
    · obtain ⟨rfl, -⟩ : a = a' ∧ b = none := by simpa using here
      exact member
    · obtain ⟨b', -, eq⟩ := List.mem_map.mp here
      obtain rfl : a' = a := congrArg Prod.fst eq
      exact member
  · intro member
    cases matched : right.filter (on a) with
    | nil => exact ⟨none, a, member, by simp [matched]⟩
    | cons b rest => exact ⟨some b, a, member, by simp [matched]⟩

end

variable {tables : Tables} {tenantId : Uuid} {since : Int}

def counted (tables : Tables) (tenantId : Uuid) (since : Int) : List Thread :=
  tables.threads.filter fun t => t.tenantId = tenantId && since ≤ t.createdAt

def sessionsSince (tables : Tables) (tenantId : Uuid) (since : Int) : List HitlSession :=
  tables.sessions.filter fun h => h.tenantId = tenantId && since ≤ h.startedAt

theorem mem_joined {row : Thread × Option HitlSession} : row ∈ joined tables tenantId since ↔
    row ∈ leftJoin (fun t h => h.tenantId = t.tenantId && since ≤ h.startedAt) tables.threads tables.sessions ∧
      row.1.tenantId = tenantId ∧ since ≤ row.1.createdAt := by
  simp [joined]

theorem mem_counted {t : Thread} :
    t ∈ counted tables tenantId since ↔ t ∈ tables.threads ∧ t.tenantId = tenantId ∧ since ≤ t.createdAt := by
  simp [counted]

theorem mem_sessionsSince {h : HitlSession} : h ∈ sessionsSince tables tenantId since ↔
    h ∈ tables.sessions ∧ h.tenantId = tenantId ∧ since ≤ h.startedAt := by
  simp [sessionsSince]

theorem countDistinct_eq {ids : List (Option Uuid)} {known : List Uuid} (nodup : known.Nodup)
    (same : ∀ id, some id ∈ ids ↔ id ∈ known) : countDistinct ids = known.length := by
  have sets : (ids.filterMap id).toFinset = known.toFinset := by
    ext id
    simp [same]
  rw [countDistinct, ← List.card_toFinset, sets, List.toFinset_card_of_nodup nodup]

theorem total_eq (tables : Tables) (tenantId : Uuid) (since : Int) :
    countDistinct ((joined tables tenantId since).map fun row => some row.1.id) =
      (counted tables tenantId since).length := by
  have nodup : ((counted tables tenantId since).map (·.id)).Nodup := tables.threadIds.sublist (List.filter_sublist.map _)
  rw [countDistinct_eq nodup, List.length_map]
  intro id
  simp only [List.mem_map, Option.some.injEq]
  constructor
  · rintro ⟨⟨t, h⟩, member, rfl⟩
    obtain ⟨here, own⟩ := mem_joined.mp member
    exact ⟨t, mem_counted.mpr ⟨exists_mem_leftJoin.mp ⟨h, here⟩, own⟩, rfl⟩
  · rintro ⟨t, member, rfl⟩
    obtain ⟨here, own⟩ := mem_counted.mp member
    obtain ⟨h, row⟩ := exists_mem_leftJoin.mpr here
    exact ⟨(t, h), mem_joined.mpr ⟨row, own⟩, rfl⟩

/-- The join does not look at the thread of a session: one counted thread brings in all sessions since. -/
theorem mem_joined_sessionIds {id : Uuid} :
    some id ∈ (joined tables tenantId since).map (fun row => row.2.map (·.id)) ↔
      counted tables tenantId since ≠ [] ∧ id ∈ (sessionsSince tables tenantId since).map (·.id) := by
  simp only [List.mem_map]
  constructor
  · rintro ⟨⟨t, h⟩, member, same⟩
    obtain ⟨h, rfl, rfl⟩ := Option.map_eq_some_iff.mp same
    obtain ⟨here, own⟩ := mem_joined.mp member
    obtain ⟨thread, session, fits⟩ := mem_leftJoin_some.mp here
    simp only [Bool.and_eq_true, decide_eq_true_eq] at fits
    exact ⟨List.ne_nil_of_mem (mem_counted.mpr ⟨thread, own⟩), h,
      mem_sessionsSince.mpr ⟨session, fits.1.trans own.1, fits.2⟩, rfl⟩
  · rintro ⟨some, h, member, rfl⟩
    obtain ⟨t, here⟩ := List.exists_mem_of_ne_nil _ some
    obtain ⟨thread, own⟩ := mem_counted.mp here
    obtain ⟨session, tenant, recent⟩ := mem_sessionsSince.mp member
    have fits : decide (h.tenantId = t.tenantId) && decide (since ≤ h.startedAt) := by
      simp [tenant, own.1, recent]
    exact ⟨(t, Option.some h), mem_joined.mpr ⟨mem_leftJoin_some.mpr ⟨thread, session, fits⟩, own⟩, rfl⟩

theorem hitlCount_eq (tables : Tables) (tenantId : Uuid) (since : Int) :
    countDistinct ((joined tables tenantId since).map fun row => row.2.map (·.id)) =
      if counted tables tenantId since = [] then 0 else (sessionsSince tables tenantId since).length := by
  split
  · rename_i none
    rw [countDistinct_eq List.nodup_nil, List.length_nil]
    intro id
    simp [mem_joined_sessionIds, none]
  · rename_i some
    have nodup : ((sessionsSince tables tenantId since).map (·.id)).Nodup :=
      tables.sessionIds.sublist (List.filter_sublist.map _)
    rw [countDistinct_eq nodup, List.length_map]
    intro id
    rw [mem_joined_sessionIds, and_iff_right some]

/-! ### The share of the conversations with a session -/

/-- The counted conversations that have a session. -/
def transferred (tables : Tables) (tenantId : Uuid) (since : Int) : List Thread :=
  (counted tables tenantId since).filter fun t => tables.sessions.any (·.threadId = t.id)

/-- Rounding to four decimals. -/
structure Rounds (round4 : Rat → Rat) : Prop where
  mono : ∀ x y, x ≤ y → round4 x ≤ round4 y
  zero : round4 0 = 0
  one : round4 1 = 1

structure IsTransferRate (round4 : Rat → Rat) (tables : Tables) (tenantId : Uuid) (now : Int) (range : String) : Prop where
  nonneg : 0 ≤ (metricsOverview round4 tables tenantId now range).humanTransferRate
  le_one : (metricsOverview round4 tables tenantId now range).humanTransferRate ≤ 1
  share : (metricsOverview round4 tables tenantId now range).humanTransferRate =
    round4 (((transferred tables tenantId (now - intervalOf range)).length : Rat) /
      max (counted tables tenantId (now - intervalOf range)).length 1)
  resolution : 0 ≤ aiResolutionRate (some (metricsOverview round4 tables tenantId now range).humanTransferRate)

theorem share_bounds (tables : Tables) (tenantId : Uuid) (since : Int) :
    0 ≤ ((transferred tables tenantId since).length : Rat) / max (counted tables tenantId since).length 1 ∧
      ((transferred tables tenantId since).length : Rat) / max (counted tables tenantId since).length 1 ≤ 1 := by
  have few : (transferred tables tenantId since).length ≤ max (counted tables tenantId since).length 1 :=
    (List.length_filter_le _ _).trans (Nat.le_max_left _ 1)
  have some : 0 < max (counted tables tenantId since).length 1 := Nat.lt_of_lt_of_le Nat.one_pos (Nat.le_max_right _ 1)
  have positive : (0 : Rat) < ((max (counted tables tenantId since).length 1 : Nat) : Rat) := by exact_mod_cast some
  have bounded : ((transferred tables tenantId since).length : Rat) ≤
      ((max (counted tables tenantId since).length 1 : Nat) : Rat) := by exact_mod_cast few
  exact ⟨div_nonneg (Nat.cast_nonneg _) positive.le, (div_le_one positive).mpr bounded⟩

theorem humanTransferRate_eq (round4 : Rat → Rat) (tables : Tables) (tenantId : Uuid) (now : Int) (range : String) :
    (metricsOverview round4 tables tenantId now range).humanTransferRate =
      if counted tables tenantId (now - intervalOf range) = [] then round4 0
      else round4 (((sessionsSince tables tenantId (now - intervalOf range)).length : Rat) /
        max (counted tables tenantId (now - intervalOf range)).length 1) := by
  simp only [metricsOverview, total_eq, hitlCount_eq]
  split
  · rw [Nat.cast_zero, zero_div]
  · rfl

/-- The rate is one exactly when there are, to four decimals of the counted conversations, as many sessions since as
conversations with a session. -/
theorem isTransferRate_iff (round4 : Rat → Rat) (rounds : Rounds round4) (tables : Tables) (tenantId : Uuid) (now : Int)
    (range : String) :
    IsTransferRate round4 tables tenantId now range ↔
      (counted tables tenantId (now - intervalOf range) = [] ∨
        round4 (((sessionsSince tables tenantId (now - intervalOf range)).length : Rat) /
            max (counted tables tenantId (now - intervalOf range)).length 1) =
          round4 (((transferred tables tenantId (now - intervalOf range)).length : Rat) /
            max (counted tables tenantId (now - intervalOf range)).length 1)) := by
  have rate := humanTransferRate_eq round4 tables tenantId now range
  constructor
  · intro isRate
    by_cases none : counted tables tenantId (now - intervalOf range) = []
    · exact .inl none
    · rw [if_neg none] at rate
      exact .inr (rate.symm.trans isRate.share)
  · intro condition
    have share : (metricsOverview round4 tables tenantId now range).humanTransferRate =
        round4 (((transferred tables tenantId (now - intervalOf range)).length : Rat) /
          max (counted tables tenantId (now - intervalOf range)).length 1) := by
      by_cases none : counted tables tenantId (now - intervalOf range) = []
      · rw [rate, if_pos none, transferred, none, List.filter_nil, List.length_nil, Nat.cast_zero, zero_div]
      · rw [rate, if_neg none]
        exact condition.resolve_left none
    obtain ⟨low, high⟩ := share_bounds tables tenantId (now - intervalOf range)
    have nonneg := rounds.mono _ _ low
    have le_one := rounds.mono _ _ high
    rw [rounds.zero, ← share] at nonneg
    rw [rounds.one, ← share] at le_one
    exact ⟨nonneg, le_one, share, sub_nonneg.mpr le_one⟩

def roundToFour (x : Rat) : Rat := (⌊x * 10000 + 1 / 2⌋ : Rat) / 10000

theorem rounds_roundToFour : Rounds roundToFour where
  mono x y le := by
    have scaled : x * 10000 + 1 / 2 ≤ y * 10000 + 1 / 2 := by linarith
    have floors : (⌊x * 10000 + 1 / 2⌋ : Rat) ≤ ⌊y * 10000 + 1 / 2⌋ := by exact_mod_cast Int.floor_mono scaled
    unfold roundToFour
    linarith
  zero := by decide +kernel
  one := by decide +kernel

/-- A thread of the last day and `n` sessions of it. -/
def oneThread (n : Nat) : Tables where
  threads := [⟨1, 10, 1000000⟩]
  sessions := (List.range n).map fun id => ⟨id, 10, 1, 1000060⟩
  threadIds := List.nodup_singleton 1
  sessionIds := by simpa [Function.comp_def] using List.nodup_range

theorem isTransferRate_iff_one : IsTransferRate roundToFour (oneThread 1) 10 1003600 "1d" ↔
    (counted (oneThread 1) 10 (1003600 - intervalOf "1d") = [] ∨
      roundToFour (((sessionsSince (oneThread 1) 10 (1003600 - intervalOf "1d")).length : Rat) /
          max (counted (oneThread 1) 10 (1003600 - intervalOf "1d")).length 1) =
        roundToFour (((transferred (oneThread 1) 10 (1003600 - intervalOf "1d")).length : Rat) /
          max (counted (oneThread 1) 10 (1003600 - intervalOf "1d")).length 1)) :=
  isTransferRate_iff roundToFour rounds_roundToFour (oneThread 1) 10 1003600 "1d"

/-- Two sessions of the only conversation make a rate of 2. -/
theorem two_sessions_one_thread :
    ¬ ∀ (tables : Tables) (tenantId : Uuid) (now : Int) (range : String),
      IsTransferRate roundToFour tables tenantId now range := by
  intro claim
  have rate := claim (oneThread 2) 10 1003600 "1d"
  exact absurd rate.le_one (by decide +kernel)

end CuckooEcho.Admin.Metrics
