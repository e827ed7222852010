import CuckooEcho.Lib.Dict
import Mathlib.Algebra.BigOperators.Group.List.Basic
import Mathlib.Algebra.Group.Nat.Defs
import Mathlib.Algebra.GroupWithZero.Nat
import Mathlib.Algebra.Ring.Int.Defs
import Mathlib.Data.List.Dedup

namespace CuckooEcho.Shared.Analytics
open Lib

/-! ## Local time, in microseconds -/

def second : Nat := 1000000

def day : Nat := 86400 * second

/-- `replace(hour=…, minute=…, second=…)`, which leaves the microsecond. -/
def replaceTime (t hour minute sec : Nat) : Nat :=
  t / day * day + (hour * 3600 + minute * 60 + sec) * second + t % second

/-! ## `aggregate_daily_metrics` -/

structure Message where
  tenantId : Nat
  threadId : Nat
  createdAt : Nat
  tokensUsed : Int
  deriving DecidableEq, Repr

structure DailyAggregate where
  conversationCount : Nat
  messageCount : Nat
  tokenCount : Int
  deriving DecidableEq, Repr

abbrev Aggregates := Dict (Nat × Nat) DailyAggregate

/-- The bounds of the day before. -/
def bounds (now : Nat) : Nat × Nat :=
  let yesterday := now - day
  (replaceTime yesterday 0 0 0, replaceTime yesterday 23 59 59)

def inBounds (now : Nat) (m : Message) : Bool := (bounds now).1 ≤ m.createdAt && m.createdAt < (bounds now).2

def selected (messages : List Message) (tenantId now : Nat) : List Message :=
  messages.filter fun m => m.tenantId = tenantId && inBounds now m

/-- `GROUP BY` makes no row out of no message. -/
def aggregateDailyMetrics (messages : List Message) (tenantId now : Nat) (aggregates : Aggregates) : Aggregates :=
  let rows := selected messages tenantId now
  if rows = [] then aggregates
  else aggregates.set (tenantId, (now - day) / day)
    { conversationCount := (rows.map (·.threadId)).dedup.length
      messageCount := rows.length
      tokenCount := (rows.map (·.tokensUsed)).sum }

/-- The run for each of the days, at the time `run` of the day after it, over the messages there are by then. -/
def aggregateDays (messages : List Message) (tenantId : Nat) (run : Nat → Nat) (days : List Nat) : Aggregates :=
  days.foldl (fun aggregates d =>
    aggregateDailyMetrics (messages.filter (·.createdAt ≤ run d)) tenantId (run d) aggregates) .empty

/-! ### The messages of a day -/

theorem bounds_of_day {now d : Nat} (run : now / day = d + 1) :
    bounds now = (d * day + now % second, d * day + (86399 * second + now % second)) := by
  have micro : (now - day) % second = now % second := by
    simp only [day, second] at run ⊢
    omega
  have date : (now - day) / day = d := by
    simp only [day, second] at run ⊢
    omega
  simp only [bounds, replaceTime, micro, date]
  simp only [Nat.add_assoc, second, Nat.zero_mul, Nat.zero_add]

theorem inBounds_iff {now d : Nat} (run : now / day = d + 1) (m : Message) :
    inBounds now m ↔ m.createdAt / day = d ∧ now % second ≤ m.createdAt % day ∧
      m.createdAt % day < 86399 * second + now % second := by
  rw [inBounds, bounds_of_day run, Bool.and_eq_true, decide_eq_true_iff, decide_eq_true_iff]
  simp only [day, second] at run ⊢
  omega

/-- By the time of the run all messages between the bounds have been sent. -/
theorem selected_sent {now d : Nat} (run : now / day = d + 1) (messages : List Message) (tenantId : Nat) :
    selected (messages.filter (·.createdAt ≤ now)) tenantId now = selected messages tenantId now := by
  rw [selected, selected, List.filter_filter]
  refine List.filter_congr fun m _ => ?_
  by_cases inside : inBounds now m
  · have sent : m.createdAt ≤ now := by
      have own := ((inBounds_iff run m).mp inside).1
      simp only [day, second] at run own
      omega
    simp [sent]
  · simp [inside]

/-! ### The rows of the days -/

section
variable {messages : List Message} {tenantId : Nat} {run : Nat → Nat}

def rowOf (messages : List Message) (tenantId now : Nat) : Option DailyAggregate :=
  let rows := selected messages tenantId now
  if rows = [] then none
  else some { conversationCount := (rows.map (·.threadId)).dedup.length, messageCount := rows.length,
              tokenCount := (rows.map (·.tokensUsed)).sum }

theorem get_aggregateDailyMetrics {now d : Nat} (next : now / day = d + 1) (messages : List Message) (tenantId : Nat)
    (aggregates : Aggregates) (key : Nat × Nat) :
    (aggregateDailyMetrics (messages.filter (·.createdAt ≤ now)) tenantId now aggregates).get key =
      if key = (tenantId, d) then (rowOf messages tenantId now).or (aggregates.get key) else aggregates.get key := by
  have date : (now - day) / day = d := by
    simp only [day, second] at next ⊢
    omega
  simp only [aggregateDailyMetrics, selected_sent next, rowOf, date]
  by_cases empty : selected messages tenantId now = []
  · simp [empty]
  · simp only [if_neg empty, Dict.get_set, Option.some_or]

/-- The row of a day is that of its run. -/
theorem get_aggregateDays (next : ∀ d, run d / day = d + 1) {days : List Nat} (d : Nat) :
    (aggregateDays messages tenantId run days).get (tenantId, d) =
      if d ∈ days then rowOf messages tenantId (run d) else none := by
  induction days using List.reverseRecOn with
  | nil => rfl
  | append_singleton days d' ih =>
      rw [aggregateDays, List.foldl_append, ← aggregateDays, List.foldl_cons, List.foldl_nil,
        get_aggregateDailyMetrics (next d'), ih]
      by_cases here : d = d'
      · subst here
        rw [if_pos rfl, if_pos (List.mem_append_right _ List.mem_cons_self)]
        split
        · exact Option.or_self
        · exact Option.or_none
      · have other : (tenantId, d) ≠ (tenantId, d') := fun same => here (congrArg Prod.snd same)
        simp [here]

theorem row_messageCount (now : Nat) :
    ((rowOf messages tenantId now).map (·.messageCount)).getD 0 = ((selected messages tenantId now).map fun _ => 1).sum := by
  simp only [rowOf]
  split
  · rename_i empty
    rw [empty]
    rfl
  · simp

theorem row_tokenCount (now : Nat) :
    ((rowOf messages tenantId now).map (·.tokenCount)).getD 0 = ((selected messages tenantId now).map (·.tokensUsed)).sum := by
  simp only [rowOf]
  split
  · rename_i empty
    rw [empty]
    rfl
  · rfl

theorem sum_ite_filter {ι M : Type*} [AddCommMonoid M] (parts : List ι) (inPart : ι → Bool) (x : M) :
    (parts.map fun p => if inPart p then x else 0).sum = (parts.filter inPart).length • x := by
  induction parts with
  | nil => simp
  | cons p parts ih =>
      rw [List.map_cons, List.sum_cons, ih, List.filter_cons]
      split
      · rw [List.length_cons, succ_nsmul']
      · rw [zero_add]

/-- Items that each belong to one of the parts, summed part by part. -/
theorem sum_parts {ι α M : Type*} [AddCommMonoid M] (parts : List ι) (items : List α) (inPart : ι → α → Bool) (w : α → M)
    (once : ∀ a ∈ items, (parts.filter (inPart · a)).length = 1) :
    (parts.map fun p => ((items.filter (inPart p)).map w).sum).sum = (items.map w).sum := by
  induction items with
  | nil => simp
  | cons a items ih =>
      have share (p : ι) : (((a :: items).filter (inPart p)).map w).sum =
          (if inPart p a then w a else 0) + ((items.filter (inPart p)).map w).sum := by
        rw [List.filter_cons]
        split
        · rw [List.map_cons, List.sum_cons]
        · rw [zero_add]
      have others := ih fun b member => once b (List.mem_cons_of_mem a member)
      rw [List.map_congr_left fun p _ => share p, List.sum_map_add, sum_ite_filter parts (inPart · a),
        once a List.mem_cons_self, one_nsmul, others, List.map_cons, List.sum_cons]

/-! ### A partition of the messages -/

def messagesOf (messages : List Message) (tenantId : Nat) : List Message := messages.filter (·.tenantId = tenantId)

/-- Each message of the tenant is counted on one of the days, and the rows of the days add up to all of them. -/
structure Partitioned (messages : List Message) (tenantId : Nat) (run : Nat → Nat) (days : List Nat) : Prop where
  once : ∀ m ∈ messagesOf messages tenantId, (days.filter fun d => inBounds (run d) m).length = 1
  messageCount : (days.map fun d =>
    (((aggregateDays messages tenantId run days).get (tenantId, d)).map (·.messageCount)).getD 0).sum =
      (messagesOf messages tenantId).length
  tokenCount : (days.map fun d =>
    (((aggregateDays messages tenantId run days).get (tenantId, d)).map (·.tokenCount)).getD 0).sum =
      ((messagesOf messages tenantId).map (·.tokensUsed)).sum

/-- No message comes in the last second of its day but for the microseconds that the next day's run adds to the
bounds, and none in these microseconds after midnight. -/
def InBoundsOfDay (messages : List Message) (tenantId : Nat) (run : Nat → Nat) : Prop :=
  ∀ m ∈ messagesOf messages tenantId,
    run (m.createdAt / day) % second ≤ m.createdAt % day ∧
      m.createdAt % day < 86399 * second + run (m.createdAt / day) % second

theorem selected_eq (messages : List Message) (tenantId now : Nat) :
    selected messages tenantId now = (messagesOf messages tenantId).filter (inBounds now) := by
  rw [selected, messagesOf, List.filter_filter]
  refine List.filter_congr fun m _ => ?_
  rw [Bool.and_comm]

/-- A message can be between the bounds of its own day only. -/
theorem daysOf_eq (next : ∀ d, run d / day = d + 1) {days : List Nat} (nodup : days.Nodup) {m : Message}
    (known : m.createdAt / day ∈ days) : (days.filter fun d => inBounds (run d) m) =
      if inBounds (run (m.createdAt / day)) m then [m.createdAt / day] else [] := by
  have own : (days.filter fun d => inBounds (run d) m) =
      days.filter fun d => d = m.createdAt / day && inBounds (run (m.createdAt / day)) m := by
    refine List.filter_congr fun d _ => ?_
    by_cases same : d = m.createdAt / day
    · simp [same]
    · have apart : inBounds (run d) m = false := by
        rw [← Bool.not_eq_true, inBounds_iff (next d)]
        exact fun inside => same inside.1.symm
      simp [same, apart]
  rw [own]
  split
  · rename_i inside
    simp [inside, List.filter_eq, nodup.count, known]
  · rename_i outside
    simp [outside]

theorem once_iff (next : ∀ d, run d / day = d + 1) {days : List Nat} (nodup : days.Nodup) {m : Message}
    (known : m.createdAt / day ∈ days) : (days.filter fun d => inBounds (run d) m).length = 1 ↔
      run (m.createdAt / day) % second ≤ m.createdAt % day ∧
        m.createdAt % day < 86399 * second + run (m.createdAt / day) % second := by
  have bounded := inBounds_iff (next (m.createdAt / day)) m
  rw [eq_self_iff_true, true_and] at bounded
  rw [daysOf_eq next nodup known, ← bounded]
  split
  · rename_i inside
    simp [inside]
  · rename_i outside
    simp [outside]

/-- What the rows of the days hold of the messages adds up to what all messages hold. -/
theorem sum_rows {M : Type*} [AddCommMonoid M] (next : ∀ d, run d / day = d + 1) {days : List Nat}
    (counted : ∀ m ∈ messagesOf messages tenantId, (days.filter fun d => inBounds (run d) m).length = 1)
    (read : DailyAggregate → M) (w : Message → M)
    (row : ∀ now, ((rowOf messages tenantId now).map read).getD 0 = ((selected messages tenantId now).map w).sum) :
    (days.map fun d => (((aggregateDays messages tenantId run days).get (tenantId, d)).map read).getD 0).sum =
      ((messagesOf messages tenantId).map w).sum := by
  have rows : ∀ d ∈ days, (((aggregateDays messages tenantId run days).get (tenantId, d)).map read).getD 0 =
      (((messagesOf messages tenantId).filter (inBounds (run d))).map w).sum := by
    intro d member
    rw [get_aggregateDays next, if_pos member, row, selected_eq]
  rw [List.map_congr_left rows, sum_parts _ _ (fun d m => inBounds (run d) m) _ counted]

end

theorem partitioned_iff (messages : List Message) (tenantId : Nat) (run : Nat → Nat) (start n : Nat)
    (next : ∀ d, run d / day = d + 1)
    (spread : ∀ m ∈ messagesOf messages tenantId, m.createdAt / day ∈ List.range' start n) :
    Partitioned messages tenantId run (List.range' start n) ↔ InBoundsOfDay messages tenantId run := by
  have once {m : Message} (member : m ∈ messagesOf messages tenantId) :=
    once_iff next List.nodup_range' (spread m member)
  constructor
  · intro partitioned m member
    exact (once member).mp (partitioned.once m member)
  · intro inside
    have counted : ∀ m ∈ messagesOf messages tenantId,
        ((List.range' start n).filter fun d => inBounds (run d) m).length = 1 := fun m member =>
      (once member).mpr (inside m member)
    have messageCount := sum_rows next counted (·.messageCount) (fun _ => 1) row_messageCount
    refine ⟨counted, ?_, sum_rows next counted (·.tokenCount) (·.tokensUsed) row_tokenCount⟩
    rw [messageCount]
    simp

/-- Each day's run at half past two in the next night. -/
def nightly (d : Nat) : Nat := (d + 1) * day + 9000 * second + 250000

theorem nightly_next (d : Nat) : nightly d / day = d + 1 := by
  simp only [nightly, day, second]
  omega

/-- At noon, in the next night before that day's run, and on the day after. -/
def threeDays : List Message :=
  [⟨1, 7, 3 * day + 43200 * second, 12⟩, ⟨1, 7, 4 * day + 9000 * second + 250000, 5⟩, ⟨2, 8, 4 * day, 40⟩,
    ⟨1, 9, 5 * day + 60000 * second, 31⟩]

theorem partitioned_iff_threeDays :
    Partitioned threeDays 1 nightly (List.range' 3 3) ↔ InBoundsOfDay threeDays 1 nightly :=
  partitioned_iff threeDays 1 nightly 3 3 nightly_next (by decide)

/-- A message at 23:59:59.5 is on neither side of midnight. -/
theorem lost_before_midnight :
    ¬ ∀ (messages : List Message) (tenantId : Nat) (run : Nat → Nat) (start n : Nat), (∀ d, run d / day = d + 1) →
      (∀ m ∈ messagesOf messages tenantId, m.createdAt / day ∈ List.range' start n) →
      Partitioned messages tenantId run (List.range' start n) := by
  intro claim
  have partitioned := claim [⟨1, 7, 3 * day + 86399 * second + 500000, 12⟩] 1 nightly 3 2 nightly_next (by decide)
  exact absurd (partitioned.once _ List.mem_cons_self) (by decide)

end CuckooEcho.Shared.Analytics
