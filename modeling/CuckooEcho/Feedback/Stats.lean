import CuckooEcho.Feedback.Toggle
import CuckooEcho.Lib.Serial
import CuckooEcho.Lib.Text

namespace CuckooEcho.Feedback
open Lib ReadCommitted

/-! ## `store_feedback` and `get_feedback_stats`, one call after the other -/

def FeedbackKey.parse (uuid : String → Option Uuid) (threadId messageId userId tenantId : String) :
    Option FeedbackKey := do
  let tenant ← uuid tenantId
  let thread ← uuid threadId
  let message ← uuid messageId
  let user ← uuid userId
  return ⟨thread, message, user, tenant⟩

def Db.store (db : Db) (key : FeedbackKey) (feedbackType : FeedbackType) : Option (Option FeedbackType × Db) :=
  match db.select key with
  | some existing =>
      if existing.feedbackType = feedbackType then some (none, db.delete existing.id)
      else some (some feedbackType, db.update existing.id feedbackType)
  | none => (db.insert key feedbackType).map fun db' => (some feedbackType, db')

inductive Db.Toggled (db : Db) (key : FeedbackKey) (feedbackType : FeedbackType) : Option FeedbackType × Db → Prop
  | inserted {db' : Db} (selected : db.select key = none) (inserts : db.insert key feedbackType = some db') :
      Toggled db key feedbackType (some feedbackType, db')
  | deleted {existing : FeedbackRow} (selected : db.select key = some existing)
      (same : existing.feedbackType = feedbackType) :
      Toggled db key feedbackType (none, db.delete existing.id)
  | updated {existing : FeedbackRow} (selected : db.select key = some existing)
      (other : existing.feedbackType ≠ feedbackType) :
      Toggled db key feedbackType (some feedbackType, db.update existing.id feedbackType)

theorem toggled_of_store {db : Db} {key : FeedbackKey} {feedbackType : FeedbackType}
    {result : Option FeedbackType × Db} (stored : db.store key feedbackType = some result) :
    db.Toggled key feedbackType result := by
  unfold Db.store at stored
  cases selected : db.select key with
  | none =>
      simp only [selected, Option.map_eq_some_iff] at stored
      obtain ⟨db', inserts, rfl⟩ := stored
      exact .inserted selected inserts
  | some existing =>
      simp only [selected] at stored
      split at stored
      · rename_i same
        obtain rfl := Option.some.inj stored
        exact .deleted selected same
      · rename_i other
        obtain rfl := Option.some.inj stored
        exact .updated selected other

theorem store_serial {db : Db} {key : FeedbackKey} {feedbackType : FeedbackType}
    {result : Option FeedbackType × Db} (stored : db.store key feedbackType = some result) :
    Serial (storeFeedback key) db ⟨.select feedbackType, []⟩ result.2 := by
  refine .read rfl rfl ?_
  cases toggled_of_store stored with
  | @inserted db' selected inserts =>
      have accepts := (Db.insert_eq_some.mp inserts).1
      have viewed : exec Write.apply db [.insert key feedbackType] = some db' := by
        simp [Write.apply, inserts]
      simp only [selectExisting, selected]
      refine .lock rfl rfl rfl (.read rfl rfl ?_)
      simp only [accepts, ↓reduceIte]
      refine .write rfl rfl (by simp [storeFeedback, Write.apply, inserts]) ?_
      exact .commit viewed rfl
  | deleted selected same =>
      simp only [selectExisting, selected, same, ↓reduceIte]
      exact .write rfl rfl rfl (.commit rfl rfl)
  | updated selected other =>
      simp only [selectExisting, selected, other, ↓reduceIte]
      exact .write rfl rfl rfl (.commit rfl rfl)

structure Scope where
  tenant : Uuid
  thread : Option Uuid
  message : Option Uuid
  deriving DecidableEq, Repr

/-- An empty string is no filter. -/
def given (text : Option String) : Option String := text.filter (· ≠ "")

def Scope.parse (uuid : String → Option Uuid) (tenantId : String) (threadId messageId : Option String) :
    Option Scope := do
  let tenant ← uuid tenantId
  let thread ← (given threadId).mapM uuid
  let message ← (given messageId).mapM uuid
  return ⟨tenant, thread, message⟩

def Scope.covers (scope : Scope) (key : FeedbackKey) : Prop :=
  key.tenantId = scope.tenant ∧ (∀ thread ∈ scope.thread, key.threadId = thread) ∧
    ∀ message ∈ scope.message, key.messageId = message

instance (scope : Scope) (key : FeedbackKey) : Decidable (scope.covers key) :=
  inferInstanceAs (Decidable (_ ∧ _ ∧ _))

structure Stats (π : Type*) where
  total : Nat
  thumbsUp : Nat
  thumbsDown : Nat
  thumbsUpPercentage : Option π
  thumbsDownPercentage : Option π
  deriving DecidableEq, Repr

def buildCacheKey (tenantId : String) (threadId messageId : Option String) : String :=
  match given threadId, given messageId with
  | some thread, some message => "feedback:stats:" ++ tenantId ++ ":" ++ thread ++ ":" ++ message
  | some thread, none => "feedback:stats:" ++ tenantId ++ ":" ++ thread
  | none, _ => "feedback:stats:" ++ tenantId

/-- Redis keeps `stats` until `expires`. The scope that they were counted for, and whether a call has
since stored feedback in it, are recorded beside them. -/
structure Entry (π : Type*) where
  stats : Stats π
  expires : Nat
  scope : Scope
  outdated : Bool
  deriving DecidableEq, Repr

structure Board (π : Type*) where
  now : Nat
  db : Db
  cache : String → Option (Entry π)

inductive Call
  | storeFeedback (threadId messageId userId tenantId : String) (feedbackType : FeedbackType)
  | getFeedbackStats (tenantId : String) (threadId messageId : Option String)
  | wait (seconds : Nat)

section
variable {π : Type*} (uuid : String → Option Uuid) (percentage : Nat → Nat → π)

def Db.covered (db : Db) (scope : Scope) : List FeedbackRow := db.rows.filter fun row => scope.covers row.key

def Db.stats (db : Db) (scope : Scope) : Stats π :=
  let rows := db.covered scope
  let total := rows.length
  let thumbsUp := rows.countP fun row => row.feedbackType = .thumbsUp
  let thumbsDown := rows.countP fun row => row.feedbackType = .thumbsDown
  { total, thumbsUp, thumbsDown
    thumbsUpPercentage := if 0 < total then some (percentage thumbsUp total) else none
    thumbsDownPercentage := if 0 < total then some (percentage thumbsDown total) else none }

namespace Board
variable (b : Board π)

def lookup (cacheKey : String) : Option (Entry π) := (b.cache cacheKey).filter fun entry => b.now < entry.expires

def setex (cacheKey : String) (entry : Entry π) : Board π :=
  { b with cache := fun other => if other = cacheKey then some entry else b.cache other }

/-- `none` where the call raises. -/
def getFeedbackStats (tenantId : String) (threadId messageId : Option String) : Option (Stats π × Board π) :=
  let cacheKey := buildCacheKey tenantId threadId messageId
  match b.lookup cacheKey with
  | some entry => some (entry.stats, b)
  | none => (Scope.parse uuid tenantId threadId messageId).map fun scope =>
      let stats := b.db.stats percentage scope
      (stats, b.setex cacheKey ⟨stats, b.now + 60, scope, false⟩)

def storeFeedback (threadId messageId userId tenantId : String) (feedbackType : FeedbackType) :
    Option (Option FeedbackType × Board π) :=
  (FeedbackKey.parse uuid threadId messageId userId tenantId).bind fun key =>
    (b.db.store key feedbackType).map fun (feedbackState, db) =>
      (feedbackState, { b with
        db := db
        cache := fun other =>
          if other = buildCacheKey tenantId (some threadId) (some messageId) then none
          else (b.cache other).map fun entry =>
            { entry with outdated := entry.outdated || entry.scope.covers key } })

/-- A call that raises changes nothing. -/
def step : Call → Option (Board π)
  | .storeFeedback threadId messageId userId tenantId feedbackType =>
      some ((b.storeFeedback uuid threadId messageId userId tenantId feedbackType).elim b (·.2))
  | .getFeedbackStats tenantId threadId messageId =>
      some ((b.getFeedbackStats uuid percentage tenantId threadId messageId).elim b (·.2))
  | .wait seconds => some { b with now := b.now + seconds }

end Board

/-! ## Statistics that follow the table -/

/-- What the call returns are the counts of the rows that the table holds for its scope. -/
def Fresh (b : Board π) : Call → Prop
  | .getFeedbackStats tenantId threadId messageId =>
      ∀ scope ∈ Scope.parse uuid tenantId threadId messageId,
        ∀ answer ∈ b.getFeedbackStats uuid percentage tenantId threadId messageId,
          answer.1 = b.db.stats percentage scope
  | _ => True

/-- An entry that the call finds under its key has been counted for its scope, and no feedback has been
stored in the scope since. -/
def NotOutdated (b : Board π) : Call → Prop
  | .getFeedbackStats tenantId threadId messageId =>
      ∀ scope ∈ Scope.parse uuid tenantId threadId messageId,
        ∀ entry ∈ b.lookup (buildCacheKey tenantId threadId messageId),
          entry.scope = scope ∧ entry.outdated = false
  | _ => True

variable {uuid percentage} {db : Db} {key : FeedbackKey} {scope : Scope}

theorem select_mem {row : FeedbackRow} (selected : db.select key = some row) : row ∈ db.rows ∧ row.key = key :=
  ⟨List.mem_of_find?_eq_some selected, by simpa using List.find?_some selected⟩

/-- A scope that does not cover the key has no row with the key. -/
theorem ne_of_covered (keyed : db.Keyed) {existing : FeedbackRow} (selected : db.select key = some existing)
    (outside : ¬ scope.covers key) : ∀ row ∈ db.covered scope, row.id ≠ existing.id := by
  intro row inside same
  obtain ⟨member, rfl⟩ := select_mem selected
  obtain ⟨found, covered⟩ := List.mem_filter.mp inside
  obtain rfl := keyed.unique found member same
  exact outside (of_decide_eq_true covered)

theorem covered_of_store (keyed : db.Keyed) {feedbackType : FeedbackType} {result : Option FeedbackType × Db}
    (stored : db.store key feedbackType = some result) (outside : ¬ scope.covers key) :
    result.2.covered scope = db.covered scope := by
  cases toggled_of_store stored with
  | inserted selected inserts =>
      obtain ⟨-, rfl⟩ := Db.insert_eq_some.mp inserts
      simp [Db.covered, outside]
  | deleted selected same =>
      simp only [Db.covered, Db.delete, List.filter_filter, Bool.and_comm]
      rw [← List.filter_filter]
      refine List.filter_eq_self.mpr fun row inside => ?_
      simpa using ne_of_covered keyed selected outside row inside
  | @updated existing selected other =>
      have sameKey : ((fun row : FeedbackRow => decide (scope.covers row.key)) ∘ fun row =>
          if row.id = existing.id then { row with feedbackType } else row) =
          fun row => decide (scope.covers row.key) := by
        funext row
        simp only [Function.comp_apply]
        split <;> rfl
      have kept : ∀ row ∈ db.covered scope, (if row.id = existing.id then { row with feedbackType } else row) = row :=
        fun row inside => if_neg (ne_of_covered keyed selected outside row inside)
      simp only [Db.covered, Db.update, List.filter_map, sameKey]
      exact (List.map_congr_left kept).trans (List.map_id _)

theorem keyed_of_store (keyed : db.Keyed) {feedbackType : FeedbackType} {result : Option FeedbackType × Db}
    (stored : db.store key feedbackType = some result) : result.2.Keyed := by
  cases toggled_of_store stored with
  | inserted selected inserts => exact keyed.insert inserts
  | deleted selected same => exact keyed.delete _
  | updated selected other => exact keyed.update _ feedbackType

variable (percentage) in
structure Coherent (b : Board π) : Prop where
  keyed : b.db.Keyed
  counted : ∀ cacheKey, ∀ entry ∈ b.cache cacheKey, entry.outdated = false →
    entry.stats = b.db.stats percentage entry.scope

theorem getFeedbackStats_cases {b : Board π} {tenantId : String} {threadId messageId : Option String}
    {answer : Stats π × Board π}
    (answered : b.getFeedbackStats uuid percentage tenantId threadId messageId = some answer) :
    (∃ entry, b.lookup (buildCacheKey tenantId threadId messageId) = some entry ∧ answer = (entry.stats, b)) ∨
      ∃ scope, Scope.parse uuid tenantId threadId messageId = some scope ∧
        answer = (b.db.stats percentage scope, b.setex (buildCacheKey tenantId threadId messageId)
          ⟨b.db.stats percentage scope, b.now + 60, scope, false⟩) := by
  simp only [Board.getFeedbackStats] at answered
  split at answered
  · rename_i entry found
    exact Or.inl ⟨entry, found, (Option.some.inj answered).symm⟩
  · obtain ⟨scope, parsed, rfl⟩ := Option.map_eq_some_iff.mp answered
    exact Or.inr ⟨scope, parsed, rfl⟩

theorem Coherent.getFeedbackStats {b : Board π} (h : Coherent percentage b) {tenantId : String}
    {threadId messageId : Option String} {answer : Stats π × Board π}
    (answered : b.getFeedbackStats uuid percentage tenantId threadId messageId = some answer) :
    Coherent percentage answer.2 := by
  obtain ⟨entry, -, rfl⟩ | ⟨scope, -, rfl⟩ := getFeedbackStats_cases answered
  · exact h
  · refine ⟨h.keyed, fun cacheKey entry found current => ?_⟩
    simp only [Board.setex, Option.mem_def] at found
    split at found
    · obtain rfl := Option.some.inj found
      rfl
    · exact h.counted cacheKey entry found current

theorem Coherent.storeFeedback {b : Board π} (h : Coherent percentage b)
    {threadId messageId userId tenantId : String} {feedbackType : FeedbackType}
    {result : Option FeedbackType × Board π}
    (stored : b.storeFeedback uuid threadId messageId userId tenantId feedbackType = some result) :
    Coherent percentage result.2 := by
  obtain ⟨key, -, stored⟩ := Option.bind_eq_some_iff.mp stored
  obtain ⟨⟨feedbackState, db⟩, changed, rfl⟩ := Option.map_eq_some_iff.mp stored
  refine ⟨keyed_of_store h.keyed changed, fun cacheKey entry found current => ?_⟩
  obtain ⟨-, found⟩ := Option.ite_none_left_eq_some.mp found
  obtain ⟨old, before, rfl⟩ := Option.map_eq_some_iff.mp found
  obtain ⟨current, outside⟩ := Bool.or_eq_false_iff.mp current
  have rows : db.covered old.scope = b.db.covered old.scope :=
    covered_of_store h.keyed changed (of_decide_eq_false outside)
  exact (h.counted cacheKey old before current).trans (by simp only [Db.stats, rows])

theorem Coherent.step {b b' : Board π} (h : Coherent percentage b) {call : Call}
    (next : b.step uuid percentage call = some b') : Coherent percentage b' := by
  cases call with
  | storeFeedback threadId messageId userId tenantId feedbackType =>
      obtain rfl := Option.some.inj next
      cases stored : b.storeFeedback uuid threadId messageId userId tenantId feedbackType with
      | none => exact h
      | some result => exact h.storeFeedback stored
  | getFeedbackStats tenantId threadId messageId =>
      obtain rfl := Option.some.inj next
      cases answered : b.getFeedbackStats uuid percentage tenantId threadId messageId with
      | none => exact h
      | some answer => exact h.getFeedbackStats answered
  | wait seconds =>
      obtain rfl := Option.some.inj next
      exact ⟨h.keyed, h.counted⟩

theorem Coherent.fresh {b : Board π} (h : Coherent percentage b) {call : Call}
    (good : NotOutdated uuid b call) : Fresh uuid percentage b call := by
  cases call with
  | getFeedbackStats tenantId threadId messageId =>
      intro scope parsed answer answered
      obtain ⟨entry, found, rfl⟩ | ⟨scope', parsed', rfl⟩ := getFeedbackStats_cases answered
      · obtain ⟨rfl, current⟩ := good scope parsed entry found
        exact h.counted _ entry (Option.filter_eq_some_iff.mp found).1 current
      · obtain rfl := Option.some.inj (parsed.symm.trans parsed')
        rfl
  | _ => trivial

/-- Without an outdated entry under its key, every `get_feedback_stats` returns the counts of its scope. -/
theorem fresh_of_notOutdated (uuid : String → Option Uuid) (percentage : Nat → Nat → π) (now : Nat) (db : Db)
    (keyed : db.Keyed) (calls : List Call)
    (along : Along (Board.step uuid percentage) (NotOutdated uuid) ⟨now, db, fun _ => none⟩ calls) :
    Along (Board.step uuid percentage) (Fresh uuid percentage) ⟨now, db, fun _ => none⟩ calls := by
  have start : Coherent percentage ⟨now, db, fun _ => none⟩ := ⟨keyed, fun _ _ found => nomatch found⟩
  exact along_of_along (Coherent percentage) (fun b call _ h good _ => h.fresh good)
    (fun b call b' h _ next => h.step next) start along

end

def isBrace (c : Char) : Bool := c.toNat = 0x7b || c.toNat = 0x7d

def hexDigit (c : Char) : Option Nat :=
  if '0' ≤ c ∧ c ≤ '9' then some (c.toNat - 48)
  else if 'a' ≤ c.toLower ∧ c.toLower ≤ 'f' then some (c.toLower.toNat - 87)
  else none

/-- `uuid.UUID` of a text: 32 hexadecimal digits, with braces, hyphens and a URN prefix optional. -/
def hexUuid (text : String) : Option Uuid :=
  let unprefixed := (Text.split "uuid:".toList (Text.split "urn:".toList text.toList).flatten).flatten
  let inner := ((unprefixed.dropWhile isBrace).reverse.dropWhile isBrace).reverse
  let hex := inner.filter (· ≠ '-')
  if hex.length = 32 then hex.foldlM (fun n c => (hexDigit c).map (16 * n + ·)) 0 else none

def hundredths (part total : Nat) : Nat := 10000 * part / total

def oneTenant : Db := ⟨[10], [], 0⟩

def oneTenantId : String := "00000000-0000-0000-0000-00000000000a"

/-- The tenant's statistics stay in the cache when a message of the tenant gets its first feedback. -/
def readStoreRead : List Call :=
  [.getFeedbackStats oneTenantId none none,
    .storeFeedback "00000000-0000-0000-0000-000000000001" "00000000-0000-0000-0000-000000000002"
      "00000000-0000-0000-0000-000000000003" oneTenantId .thumbsUp,
    .getFeedbackStats oneTenantId none none]

theorem readStoreRead_stale :
    ¬ ∀ (uuid : String → Option Uuid) (percentage : Nat → Nat → Nat) (now : Nat) (db : Db), db.Keyed →
      ∀ calls : List Call,
        Along (Board.step uuid percentage) (Fresh uuid percentage) ⟨now, db, fun _ => none⟩ calls := by
  intro claim
  have keyed : oneTenant.Keyed := ⟨List.nodup_nil, fun _ member => nomatch member⟩
  have fresh := claim hexUuid hundredths 0 oneTenant keyed readStoreRead
  have last := (((fresh _ rfl).2 _ rfl).2 _ rfl).1 ⟨10, none, none⟩ rfl _ rfl
  exact absurd last (by decide)

theorem fresh_of_notOutdated_message :
    Along (Board.step hexUuid hundredths) (Fresh hexUuid hundredths) ⟨0, oneTenant, fun _ => none⟩
      [.getFeedbackStats oneTenantId none none, .wait 60,
        .storeFeedback "00000000-0000-0000-0000-000000000001" "\x7b00000000000000000000000000000002\x7d"
          "urn:uuid:00000000-0000-0000-0000-000000000003" oneTenantId .thumbsUp,
        .getFeedbackStats oneTenantId none none] :=
  fresh_of_notOutdated hexUuid hundredths 0 oneTenant ⟨List.nodup_nil, fun _ member => nomatch member⟩ _ (by
    iterate 4
      refine along_cons rfl ?_ ?_
      · first
          | trivial
          | (intro scope _ entry found
             exact nomatch (found : (none : Option (Entry Nat)) = some entry))
    trivial)

end CuckooEcho.Feedback
