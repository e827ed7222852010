import CuckooEcho.Lib.Dict
import CuckooEcho.Lib.Run
import Mathlib.Algebra.Field.Rat
import Mathlib.Algebra.Order.Group.Int

namespace CuckooEcho.Shared.ApiMarketplace
open Lib

/-! ## Developers, keys and the record of their use

Times are microseconds. `sha256` stands for the hexadecimal digest. -/

inductive APIKeyStatus
  | active | suspended | expired
  deriving DecidableEq, Repr

inductive PlanTier
  | free | starter | professional | enterprise
  deriving DecidableEq, Repr

structure Developer where
  id : String
  email : String
  name : String
  company : Option String := none
  createdAt : Int
  status : String := "active"
  deriving DecidableEq, Repr

structure APIKey where
  id : String
  developerId : String
  keyHash : String
  name : String
  status : APIKeyStatus := .active
  tier : PlanTier := .free
  rateLimit : Nat := 100
  monthlyQuota : Nat := 1000
  usageCount : Nat := 0
  createdAt : Int
  expiresAt : Option Int := none
  lastUsed : Option Int := none
  deriving DecidableEq, Repr

structure UsageRecord where
  apiKeyId : String
  endpoint : String
  method : String
  statusCode : Nat
  tokensUsed : Nat := 0
  latencyMs : Nat := 0
  timestamp : Int
  deriving DecidableEq, Repr

structure UsageSummary (F : Type*) where
  totalRequests : Nat
  tokensUsed : Nat
  avgLatencyMs : F
  byEndpoint : Dict String Nat

structure APIMarketplace where
  developers : Dict String Developer := .empty
  apiKeys : Dict String APIKey := .empty
  usageRecords : List UsageRecord := []

def APIKey.pastExpiry (key : APIKey) (now : Int) : Bool := key.expiresAt.any fun expiresAt => expiresAt < now

/-- What a developer is given with a key. -/
structure Grant where
  id : String
  developerId : String
  name : String
  tier : PlanTier
  rateLimit : Nat
  monthlyQuota : Nat
  deriving DecidableEq, Repr

def Grant.key (grant : Grant) (keyHash : String) (now : Int) : APIKey :=
  { id := grant.id, developerId := grant.developerId, keyHash, name := grant.name, tier := grant.tier,
    rateLimit := grant.rateLimit, monthlyQuota := grant.monthlyQuota, createdAt := now }

def APIKey.grant (key : APIKey) : Grant :=
  ⟨key.id, key.developerId, key.name, key.tier, key.rateLimit, key.monthlyQuota⟩

def aggregateByEndpoint (records : List UsageRecord) : Dict String Nat :=
  records.foldl (fun byEndpoint r => byEndpoint.set r.endpoint ((byEndpoint.get r.endpoint).getD 0 + 1)) .empty

/-- 0 without records. -/
def latencyMean (records : List UsageRecord) : Rat := (records.map (·.latencyMs)).sum / records.length

/-- `round` is that of a division of integers. -/
def summaryOf {F : Type*} (round : Rat → F) (records : List UsageRecord) : UsageSummary F where
  totalRequests := records.length
  tokensUsed := (records.map (·.tokensUsed)).sum
  avgLatencyMs := round (latencyMean records)
  byEndpoint := aggregateByEndpoint records

def minute : Int := 60000000

namespace APIMarketplace
variable (sha256 : String → String) (m : APIMarketplace)

def registerDeveloper (developer : Developer) : APIMarketplace :=
  { m with developers := m.developers.set developer.id developer }

def generateApiKey (grant : Grant) (rawKey : String) (now : Int) : APIMarketplace :=
  { m with apiKeys := m.apiKeys.set grant.id (grant.key (sha256 rawKey) now) }

/-- The first key with the digest. -/
def holder (keyHash : String) : Option APIKey := m.apiKeys.values.find? (·.keyHash = keyHash)

def verifyApiKey (now : Int) (rawKey : String) : Option APIKey × APIMarketplace :=
  match m.holder (sha256 rawKey) with
  | some key =>
      if key.status = .active then
        if key.pastExpiry now then
          (none, { m with apiKeys := m.apiKeys.modify key.id fun key => { key with status := .expired } })
        else (some key, m)
      else (none, m)
  | none => (none, m)

def recordUsage (now : Int) (apiKeyId : String) (record : UsageRecord) : APIMarketplace :=
  { m with
    apiKeys := m.apiKeys.modify apiKeyId fun key => { key with usageCount := key.usageCount + 1, lastUsed := some now }
    usageRecords := m.usageRecords ++ [record] }

def checkRateLimit (now : Int) (apiKey : APIKey) : Bool :=
  let minuteAgo := now - minute
  let recentUsage := m.usageRecords.filter fun r => r.apiKeyId = apiKey.id ∧ r.timestamp > minuteAgo
  recentUsage.length < apiKey.rateLimit

def getUsageSummary {F : Type*} (round : Rat → F) (apiKeyId : String) (startDate endDate : Option Int) :
    UsageSummary F :=
  summaryOf round (m.usageRecords.filter fun r => r.apiKeyId = apiKeyId ∧ (∀ date ∈ startDate, date ≤ r.timestamp) ∧
    ∀ date ∈ endDate, r.timestamp ≤ date)

def revokeApiKey (apiKeyId : String) : Bool × APIMarketplace :=
  (apiKeyId ∈ m.apiKeys.keys,
    { m with apiKeys := m.apiKeys.modify apiKeyId fun key => { key with status := .suspended } })

/-- Whoever holds the object that `generate_api_key` has returned may set its `expires_at`. -/
def setExpiresAt (apiKeyId : String) (expiresAt : Option Int) : APIMarketplace :=
  { m with apiKeys := m.apiKeys.modify apiKeyId fun key => { key with expiresAt } }

/-- The identifier and the raw key are random: neither the one nor the digest of the other has been used before. -/
def Fresh (grant : Grant) (rawKey : String) : Prop :=
  grant.id ∉ m.apiKeys.keys ∧ m.holder (sha256 rawKey) = none ∧ ∀ r ∈ m.usageRecords, r.apiKeyId ≠ grant.id

instance (grant : Grant) (rawKey : String) : Decidable (m.Fresh sha256 grant rawKey) :=
  inferInstanceAs (Decidable (_ ∧ _ ∧ _))

end APIMarketplace

/-! ## The rate limit of a key -/

/-- `granted` is whether the last check has returned `True` for a request that has not been recorded yet, `clock` the
time of the key's last check or record. -/
structure System where
  marketplace : APIMarketplace
  clock : Int
  granted : Bool := false

inductive Act
  | check (now : Int)
  | record (now : Int) (record : UsageRecord)
  | other (now : Int) (apiKeyId : String) (record : UsageRecord)
  deriving DecidableEq, Repr

/-- A record of the key is stamped after the check that its request has passed and before the key's next check; what
is recorded of other keys is arbitrary. -/
def step (key : APIKey) (s : System) : Act → Option System
  | .check now =>
      if s.clock ≤ now then some { s with clock := now, granted := s.marketplace.checkRateLimit now key } else none
  | .record now record =>
      if record.apiKeyId = key.id ∧ s.granted ∧ s.clock ≤ record.timestamp then
        some ⟨s.marketplace.recordUsage now key.id record, record.timestamp, false⟩
      else none
  | .other now apiKeyId record =>
      if record.apiKeyId ≠ key.id then some { s with marketplace := s.marketplace.recordUsage now apiKeyId record }
      else none

section
variable (key : APIKey) (m : APIMarketplace)

def ownStamps : List Int := (m.usageRecords.filter (·.apiKeyId = key.id)).map (·.timestamp)

/-- Every window of a minute holds at most as many records of the key as its limit. -/
def WithinLimit : Prop :=
  ∀ t : Int, (m.usageRecords.filter fun r =>
    r.apiKeyId = key.id ∧ t - minute < r.timestamp ∧ r.timestamp ≤ t).length ≤ key.rateLimit

end

/-- A request that has been granted finds room for itself in the last minute, and nothing is stamped later than the
clock. -/
structure Limited (key : APIKey) (s : System) : Prop where
  past : ∀ stamp ∈ ownStamps key s.marketplace, stamp ≤ s.clock
  windows : ∀ t : Int,
    (ownStamps key s.marketplace).countP (fun stamp => t - minute < stamp ∧ stamp ≤ t) ≤ key.rateLimit
  room : s.granted = true →
    (ownStamps key s.marketplace).countP (fun stamp => s.clock - minute < stamp) < key.rateLimit

section
variable {key : APIKey} {m : APIMarketplace} {s s' : System}

theorem length_filter_own (p : Int → Bool) :
    (m.usageRecords.filter fun r => r.apiKeyId = key.id ∧ p r.timestamp).length = (ownStamps key m).countP p := by
  rw [ownStamps, List.countP_map, List.countP_eq_length_filter, List.filter_filter]
  congr 1
  refine List.filter_congr fun r _ => ?_
  simp [Bool.and_comm]

theorem withinLimit_iff : WithinLimit key m ↔
    ∀ t : Int, (ownStamps key m).countP (fun stamp => t - minute < stamp ∧ stamp ≤ t) ≤ key.rateLimit := by
  refine forall_congr' fun t => ?_
  rw [← length_filter_own]
  simp

theorem checkRateLimit_iff (now : Int) : m.checkRateLimit now key = true ↔
    (ownStamps key m).countP (fun stamp => now - minute < stamp) < key.rateLimit := by
  rw [← length_filter_own]
  simp [APIMarketplace.checkRateLimit]

theorem ownStamps_recordUsage_own (now : Int) (apiKeyId : String) {record : UsageRecord}
    (own : record.apiKeyId = key.id) :
    ownStamps key (m.recordUsage now apiKeyId record) = ownStamps key m ++ [record.timestamp] := by
  simp [ownStamps, APIMarketplace.recordUsage, own]

theorem ownStamps_recordUsage_other (now : Int) (apiKeyId : String) {record : UsageRecord}
    (foreign : record.apiKeyId ≠ key.id) : ownStamps key (m.recordUsage now apiKeyId record) = ownStamps key m := by
  simp [ownStamps, APIMarketplace.recordUsage, foreign]

/-- A window that the new record falls into holds no earlier ones but those that the check has counted. -/
theorem Limited.record (h : Limited key s) (granted : s.granted = true) {record : UsageRecord}
    (own : record.apiKeyId = key.id) (later : s.clock ≤ record.timestamp) (now : Int) :
    Limited key ⟨s.marketplace.recordUsage now key.id record, record.timestamp, false⟩ := by
  refine ⟨?_, fun t => ?_, nofun⟩
  · rw [ownStamps_recordUsage_own now key.id own]
    refine List.forall_mem_append.mpr ⟨fun earlier member => (h.past earlier member).trans later, ?_⟩
    exact List.forall_mem_singleton.mpr le_rfl
  · rw [ownStamps_recordUsage_own now key.id own, List.countP_append, List.countP_singleton]
    split
    · rename_i inside
      obtain ⟨-, within⟩ := of_decide_eq_true inside
      have counted : (ownStamps key s.marketplace).countP (fun stamp => t - minute < stamp ∧ stamp ≤ t) ≤
          (ownStamps key s.marketplace).countP (fun stamp => s.clock - minute < stamp) := by
        refine List.countP_mono_left fun earlier _ seen => ?_
        obtain ⟨recent, -⟩ := of_decide_eq_true seen
        refine decide_eq_true (lt_of_le_of_lt ?_ recent)
        exact Int.sub_le_sub_right (later.trans within) minute
      exact counted.trans_lt (h.room granted)
    · exact h.windows t

theorem Limited.step (h : Limited key s) {act : Act} (next : step key s act = some s') : Limited key s' := by
  cases act with
  | check now =>
      obtain ⟨later, eq⟩ := Option.ite_none_right_eq_some.mp next
      obtain rfl := Option.some.inj eq
      exact ⟨fun stamp member => (h.past stamp member).trans later, h.windows, (checkRateLimit_iff now).mp⟩
  | record now record =>
      obtain ⟨⟨own, granted, later⟩, eq⟩ := Option.ite_none_right_eq_some.mp next
      exact Option.some.inj eq ▸ h.record granted own later now
  | other now apiKeyId record =>
      obtain ⟨foreign, eq⟩ := Option.ite_none_right_eq_some.mp next
      obtain rfl := Option.some.inj eq
      have same := ownStamps_recordUsage_other (m := s.marketplace) now apiKeyId foreign
      exact ⟨same ▸ h.past, same ▸ h.windows, same ▸ h.room⟩

end

/-- A key that checks before each request is never used more often in a minute than its limit allows. -/
theorem withinLimit_throughout (key : APIKey) (apiKeys : Dict String APIKey) (start : Int) (acts : List Act) :
    Throughout (step key) (fun s => WithinLimit key s.marketplace) ⟨{ apiKeys }, start, false⟩ acts := by
  have initial : Limited key ⟨{ apiKeys }, start, false⟩ :=
    ⟨List.forall_mem_nil _, fun _ => Nat.zero_le _, nofun⟩
  exact (throughout_of_step (fun _ _ _ h next => h.step next) initial).mono fun s h => withinLimit_iff.mpr h.windows

end CuckooEcho.Shared.ApiMarketplace
