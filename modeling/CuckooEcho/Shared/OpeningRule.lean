import CuckooEcho.Shared.CircuitBreaker

namespace CuckooEcho.Shared.OpeningRule
open Lib

/-! ## A breaker whose calls overlap in any way -/

inductive Record
  | success | failure | reset
  deriving DecidableEq, Repr

/-- `records` lists what the breaker has recorded, the last one first. -/
structure Watched where
  now : Rat
  fields : Fields := {}
  records : List Record := []
  deriving DecidableEq, Repr

/-- The outcome of a call may be recorded in any state after it has begun. -/
inductive Act
  | readState
  | call
  | recordSuccess
  | recordFailure
  | reset
  | wait (seconds : Rat)
  deriving DecidableEq, Repr

/-- The failures since the last success or reset. -/
def Watched.failures (m : Watched) : Nat := (m.records.takeWhile (· = .failure)).length

variable (b : CircuitBreaker)

def step (m : Watched) : Act → Option Watched
  | .readState => some { m with fields := b.readState m.now m.fields }
  | .call => some { m with fields := (b.beginCall m.now m.fields).1 }
  | .recordSuccess => some { m with fields := b.recordSuccess m.fields, records := .success :: m.records }
  | .recordFailure => some { m with fields := b.recordFailure m.now m.fields, records := .failure :: m.records }
  | .reset => some { m with fields := CircuitBreaker.reset m.fields, records := .reset :: m.records }
  | .wait seconds => some { m with now := m.now + seconds }

structure Rule (m : Watched) : Prop where
  counted : m.fields.failureCount = m.failures
  closed : m.fields.state = .closed → m.fields.failureCount < b.failureThreshold
  total : m.fields.totalFailures ≤ m.fields.totalCalls

/-- A closed breaker becomes OPEN when its failures reach the threshold, and only then. -/
def OpensAtThreshold (m : Watched) (act : Act) : Prop :=
  ∀ m', step b m act = some m' → m.fields.state = .closed →
    (m'.fields.state = .opened ↔ m'.fields.failureCount = b.failureThreshold)

section
variable {b} {m m' : Watched} {f f' : Fields}

/-! ### What the operations do to the counters -/

/-- Nothing is recorded, and a breaker is closed if it was. -/
structure Quiet (f f' : Fields) : Prop where
  failureCount : f'.failureCount = f.failureCount
  totalCalls : f'.totalCalls = f.totalCalls
  totalFailures : f'.totalFailures = f.totalFailures
  closed : f'.state = .closed ↔ f.state = .closed

theorem quiet_readState (now : Rat) (f : Fields) : Quiet f (b.readState now f) := by
  unfold CircuitBreaker.readState
  split
  · rename_i opened
    split
    · exact ⟨rfl, rfl, rfl, by simp [opened]⟩
    · exact ⟨rfl, rfl, rfl, Iff.rfl⟩
  · exact ⟨rfl, rfl, rfl, Iff.rfl⟩

theorem quiet_beginCall (now : Rat) (f : Fields) : Quiet f (b.beginCall now f).1 := by
  have read : Quiet f (b.readState now f) := quiet_readState now f
  unfold CircuitBreaker.beginCall
  dsimp only
  rw [CircuitBreaker.readState_readState]
  split
  · exact read
  · split
    · split
      · exact read
      · exact ⟨read.failureCount, read.totalCalls, read.totalFailures, read.closed⟩
    · exact read

theorem recordSuccess_counters (f : Fields) :
    (b.recordSuccess f).failureCount = 0 ∧ (b.recordSuccess f).totalCalls = f.totalCalls + 1 ∧
      (b.recordSuccess f).totalFailures = f.totalFailures := by
  unfold CircuitBreaker.recordSuccess
  dsimp only
  split
  · split <;> exact ⟨rfl, rfl, rfl⟩
  · exact ⟨rfl, rfl, rfl⟩

theorem recordSuccess_closed (closed : f.state = .closed) : (b.recordSuccess f).state = .closed := by
  simp [CircuitBreaker.recordSuccess, closed]

theorem recordFailure_counters (now : Rat) (f : Fields) :
    (b.recordFailure now f).failureCount = f.failureCount + 1 ∧
      (b.recordFailure now f).totalCalls = f.totalCalls + 1 ∧
      (b.recordFailure now f).totalFailures = f.totalFailures + 1 := by
  unfold CircuitBreaker.recordFailure
  dsimp only
  split
  · exact ⟨rfl, rfl, rfl⟩
  · split <;> exact ⟨rfl, rfl, rfl⟩

/-- A failure leaves the breaker closed only if it was closed and the threshold is not reached. -/
theorem recordFailure_state (now : Rat) (f : Fields) :
    (b.recordFailure now f).state =
      if f.state = .halfOpen ∨ b.failureThreshold ≤ (f.failureCount + 1 : Nat) then .opened else f.state := by
  unfold CircuitBreaker.recordFailure
  dsimp only
  by_cases halfOpen : f.state = .halfOpen
  · rw [if_pos halfOpen, if_pos (Or.inl halfOpen)]
  · rw [if_neg halfOpen, apply_ite Fields.state]
    simp only [halfOpen, false_or]

/-! ### The rule -/

theorem Rule.quiet (h : Rule b m) {f : Fields} (quiet : Quiet m.fields f) : Rule b { m with fields := f } where
  counted := quiet.failureCount.trans h.counted
  closed closed := by
    rw [quiet.failureCount]
    exact h.closed (quiet.closed.mp closed)
  total := by
    rw [quiet.totalFailures, quiet.totalCalls]
    exact h.total

theorem Rule.step (positive : 1 ≤ b.failureThreshold) (m : Watched) (act : Act) (m' : Watched) (h : Rule b m)
    (next : step b m act = some m') : Rule b m' := by
  cases act with
  | readState =>
      obtain rfl := Option.some.inj next
      exact h.quiet (quiet_readState m.now m.fields)
  | call =>
      obtain rfl := Option.some.inj next
      exact h.quiet (quiet_beginCall m.now m.fields)
  | recordSuccess =>
      obtain rfl := Option.some.inj next
      obtain ⟨none, calls, failures⟩ := recordSuccess_counters (b := b) m.fields
      refine ⟨none, fun _ => ?_, ?_⟩
      · dsimp only
        rw [none]
        exact positive
      · dsimp only
        rw [calls, failures]
        exact Nat.le_succ_of_le h.total
  | recordFailure =>
      obtain rfl := Option.some.inj next
      obtain ⟨one, calls, failures⟩ := recordFailure_counters (b := b) m.now m.fields
      refine ⟨?_, fun closed => ?_, ?_⟩
      · exact one.trans (congrArg (· + 1) h.counted)
      · dsimp only at closed ⊢
        rw [recordFailure_state] at closed
        split at closed
        · contradiction
        · rename_i below
          rw [one]
          exact Int.not_le.mp (not_or.mp below).2
      · dsimp only
        rw [calls, failures]
        exact Nat.succ_le_succ h.total
  | reset =>
      obtain rfl := Option.some.inj next
      exact ⟨rfl, fun _ => positive, h.total⟩
  | wait seconds =>
      obtain rfl := Option.some.inj next
      exact ⟨h.counted, h.closed, h.total⟩

theorem Rule.opens (positive : 1 ≤ b.failureThreshold) (h : Rule b m) (act : Act) : OpensAtThreshold b m act := by
  intro m' next closed
  have below := h.closed closed
  -- Only a failure opens a closed breaker, and only a failure brings the count to the threshold.
  have apart {f : Fields} (still : f.state = .closed) (short : f.failureCount < b.failureThreshold) :
      f.state = .opened ↔ f.failureCount = b.failureThreshold := by
    simp [still, Int.ne_of_lt short]
  have quiet {f : Fields} (quiet : Quiet m.fields f) :
      f.state = .opened ↔ f.failureCount = b.failureThreshold :=
    apart (quiet.closed.mpr closed) (by rwa [quiet.failureCount])
  cases act with
  | readState =>
      obtain rfl := Option.some.inj next
      exact quiet (quiet_readState m.now m.fields)
  | call =>
      obtain rfl := Option.some.inj next
      exact quiet (quiet_beginCall m.now m.fields)
  | recordSuccess =>
      obtain rfl := Option.some.inj next
      refine apart (recordSuccess_closed closed) ?_
      rw [(recordSuccess_counters m.fields).1]
      exact positive
  | recordFailure =>
      obtain rfl := Option.some.inj next
      dsimp only
      rw [recordFailure_state, (recordFailure_counters m.now m.fields).1, closed]
      by_cases enough : b.failureThreshold ≤ (m.fields.failureCount + 1 : Nat)
      · rw [if_pos (Or.inr enough)]
        simp only [true_iff]
        omega
      · rw [if_neg (by simpa using enough)]
        simp only [reduceCtorEq, false_iff]
        omega
  | reset =>
      obtain rfl := Option.some.inj next
      exact apart rfl positive
  | wait seconds =>
      obtain rfl := Option.some.inj next
      exact apart closed below

end

/-- In every run the count is that of the failures since the last success or reset, a closed breaker is below its
threshold and opens when it reaches it, and there are no more failures than calls. -/
theorem openingRule (b : CircuitBreaker) (positive : 1 ≤ b.failureThreshold) (now : Rat) (acts : List Act) :
    Throughout (step b) (Rule b) { now } acts ∧ Along (step b) (OpensAtThreshold b) { now } acts := by
  have start : Rule b { now } := ⟨rfl, fun _ => positive, Nat.le_refl 0⟩
  refine ⟨throughout_of_step (Rule.step positive) start, ?_⟩
  exact along_of_along (Rule b) (fun m act _ h _ _ => h.opens positive act)
    (fun m act m' h _ next => h.step positive m act m' next) start (along_true _ acts)

/-- The third failure after a success opens the breaker. -/
def threeFailures : List Act :=
  [.call, .recordFailure, .call, .recordSuccess, .call, .call, .recordFailure, .recordFailure, .call, .recordFailure,
    .wait 60, .readState, .call, .recordSuccess, .reset]

theorem openingRule_threeFailures :
    Throughout (step { name := "milvus", failureThreshold := 3 }) (Rule { name := "milvus", failureThreshold := 3 })
        { now := 0 } threeFailures ∧
      Along (step { name := "milvus", failureThreshold := 3 })
        (OpensAtThreshold { name := "milvus", failureThreshold := 3 }) { now := 0 } threeFailures :=
  openingRule { name := "milvus", failureThreshold := 3 } (by decide) 0 threeFailures

end CuckooEcho.Shared.OpeningRule
