import Mathlib.Data.Rat.Defs
import CuckooEcho.Lib.Run

namespace CuckooEcho.Shared
open Lib

inductive CircuitState
  | closed | opened | halfOpen
  deriving DecidableEq, Repr

structure CircuitOpenError where
  message : String
  deriving DecidableEq, Repr

structure CircuitBreaker where
  name : String
  failureThreshold : Int := 5
  timeout : Rat := 60
  halfOpenMaxCalls : Int := 3

structure Fields where
  failureCount : Nat := 0
  lastFailureTime : Rat := 0
  state : CircuitState := .closed
  halfOpenCalls : Nat := 0
  successCount : Nat := 0
  totalCalls : Nat := 0
  totalFailures : Nat := 0
  deriving DecidableEq, Repr

namespace CircuitBreaker
variable (b : CircuitBreaker)

def readState (now : Rat) (f : Fields) : Fields :=
  -- The property `state`: reading it is what ends an OPEN period
  if f.state = .opened then
    if b.timeout ≤ now - f.lastFailureTime then { f with state := .halfOpen, halfOpenCalls := 0 } else f
  else f

def recordSuccess (f : Fields) : Fields :=
  let f := { f with failureCount := 0, totalCalls := f.totalCalls + 1 }
  if f.state = .halfOpen then
    let f := { f with successCount := f.successCount + 1 }
    if b.halfOpenMaxCalls ≤ f.successCount then { f with state := .closed, successCount := 0 } else f
  else f

def recordFailure (now : Rat) (f : Fields) : Fields :=
  let f := { f with
    failureCount := f.failureCount + 1
    totalFailures := f.totalFailures + 1
    totalCalls := f.totalCalls + 1
    lastFailureTime := now }
  if f.state = .halfOpen then { f with state := .opened }
  else if b.failureThreshold ≤ f.failureCount then { f with state := .opened }
  else f

/-- `call` up to the point where it awaits the function, or the error that it raises instead. -/
def beginCall (now : Rat) (f : Fields) : Fields × Option CircuitOpenError :=
  let f := b.readState now f
  if f.state = .opened then (f, some ⟨"Circuit " ++ b.name ++ " is OPEN"⟩)
  else
    let f := b.readState now f
    if f.state = .halfOpen then
      if b.halfOpenMaxCalls ≤ f.halfOpenCalls then
        (f, some ⟨"Circuit " ++ b.name ++ " is HALF_OPEN and max calls reached"⟩)
      else ({ f with halfOpenCalls := f.halfOpenCalls + 1 }, none)
    else (f, none)

/-- `reset` keeps the time of the last failure and the totals. -/
def reset (f : Fields) : Fields :=
  { f with state := .closed, failureCount := 0, successCount := 0, halfOpenCalls := 0 }

variable {b}

theorem readState_readState (now : Rat) (f : Fields) :
    b.readState now (b.readState now f) = b.readState now f := by
  unfold readState
  by_cases opened : f.state = .opened
  · by_cases rested : b.timeout ≤ now - f.lastFailureTime
    · simp [opened, rested]
    · simp [opened, rested]
  · simp [opened]

end CircuitBreaker

/-! ## A breaker in use -/

/-- A longest stretch of time in which the breaker stays in one state. -/
structure Period where
  state : CircuitState
  since : Rat
  invoked : List (Nat × Rat) := []
  succeeded : List Nat := []
  deriving DecidableEq, Repr

/-- `calls` numbers the invocations, `inFlight` lists those that have not finished, and `past` the
periods before the current one, the last one first. -/
structure Usage where
  now : Rat
  fields : Fields := {}
  current : Period
  past : List Period := []
  calls : Nat := 0
  inFlight : List Nat := []
  deriving DecidableEq, Repr

namespace Usage

def initial (now : Rat) : Usage := { now, current := ⟨.closed, now, [], []⟩ }

def periods (m : Usage) : List Period := m.current :: m.past

def assign (m : Usage) (fields : Fields) : Usage :=
  if fields.state = m.current.state then { m with fields }
  else { m with fields, current := { state := fields.state, since := m.now }, past := m.current :: m.past }

def invoke (m : Usage) : Usage :=
  { m with
    current := { m.current with invoked := (m.calls, m.now) :: m.current.invoked }
    calls := m.calls + 1
    inFlight := m.calls :: m.inFlight }

def leave (m : Usage) (id : Nat) : Usage := { m with inFlight := m.inFlight.filter (· ≠ id) }

def succeed (m : Usage) (id : Nat) : Usage :=
  { m.leave id with current := { m.current with succeeded := id :: m.current.succeeded } }

inductive Act
  | readState
  | call
  | succeed (id : Nat)
  | fail (id : Nat)
  | cancel (id : Nat)
  | wait (seconds : Rat)
  deriving DecidableEq, Repr

variable (b : CircuitBreaker)

def step (m : Usage) : Act → Option Usage
  | .readState => some (m.assign (b.readState m.now m.fields))
  | .call =>
      match b.beginCall m.now m.fields with
      | (fields, some _) => some (m.assign fields)
      | (fields, none) => some (m.assign fields).invoke
  | .succeed id =>
      if id ∈ m.inFlight then some ((m.succeed id).assign (b.recordSuccess m.fields)) else none
  | .fail id =>
      if id ∈ m.inFlight then some ((m.leave id).assign (b.recordFailure m.now m.fields)) else none
  -- `except Exception` does not catch a cancellation
  | .cancel id => if id ∈ m.inFlight then some (m.leave id) else none
  | .wait seconds => if 0 ≤ seconds then some { m with now := m.now + seconds } else none

/-! ### What a step can do -/

def failed (m : Usage) : Fields :=
  { m.fields with
    failureCount := m.fields.failureCount + 1
    totalFailures := m.fields.totalFailures + 1
    totalCalls := m.fields.totalCalls + 1
    lastFailureTime := m.now }

inductive Reads (m : Usage) : Usage → Prop
  | same : Reads m m
  | probing (opened : m.fields.state = .opened) (rested : b.timeout ≤ m.now - m.fields.lastFailureTime) :
      Reads m { m with
        fields := { m.fields with state := .halfOpen, halfOpenCalls := 0 }
        current := { state := .halfOpen, since := m.now }
        past := m.current :: m.past }

inductive Enters (m : Usage) : Usage → Prop
  | closed (closed : m.fields.state = .closed) : Enters m m.invoke
  | halfOpen (halfOpen : m.fields.state = .halfOpen) (room : m.fields.halfOpenCalls < b.halfOpenMaxCalls) :
      Enters m { m with fields := { m.fields with halfOpenCalls := m.fields.halfOpenCalls + 1 } }.invoke

inductive Succeeds (m : Usage) (id : Nat) : Usage → Prop
  | other (other : m.fields.state ≠ .halfOpen) :
      Succeeds m id { m.succeed id with
        fields := { m.fields with failureCount := 0, totalCalls := m.fields.totalCalls + 1 } }
  | counted (halfOpen : m.fields.state = .halfOpen) (short : m.fields.successCount + 1 < b.halfOpenMaxCalls) :
      Succeeds m id { m.succeed id with
        fields := { m.fields with
          failureCount := 0
          totalCalls := m.fields.totalCalls + 1
          successCount := m.fields.successCount + 1 } }
  | closes (halfOpen : m.fields.state = .halfOpen) (enough : b.halfOpenMaxCalls ≤ m.fields.successCount + 1) :
      Succeeds m id { m.succeed id with
        fields := { m.fields with
          failureCount := 0
          totalCalls := m.fields.totalCalls + 1
          state := .closed
          successCount := 0 }
        current := { state := .closed, since := m.now }
        past := (m.succeed id).current :: m.past }

def Opens (m : Usage) : Prop :=
  m.fields.state = .halfOpen ∨ b.failureThreshold ≤ m.fields.failureCount + 1

inductive Fails (m : Usage) (id : Nat) : Usage → Prop
  | opens (other : m.fields.state ≠ .opened) (opens : Opens b m) :
      Fails m id { m.leave id with
        fields := { m.failed with state := .opened }
        current := { state := .opened, since := m.now }
        past := m.current :: m.past }
  | stays (other : m.fields.state ≠ .halfOpen) (stays : m.fields.state = .opened ∨ ¬ Opens b m) :
      Fails m id { m.leave id with fields := m.failed }

section Inversion
variable {b} {m m' : Usage}

theorem assign_of_eq {fields : Fields} (same : fields.state = m.current.state) :
    m.assign fields = { m with fields } := if_pos same

theorem assign_of_ne {fields : Fields} (ne : fields.state ≠ m.current.state) :
    m.assign fields = { m with
      fields, current := { state := fields.state, since := m.now }, past := m.current :: m.past } :=
  if_neg ne

theorem reads_readState (synced : m.current.state = m.fields.state) :
    Reads b m (m.assign (b.readState m.now m.fields)) := by
  unfold CircuitBreaker.readState
  by_cases opened : m.fields.state = .opened
  · rw [if_pos opened]
    by_cases rested : b.timeout ≤ m.now - m.fields.lastFailureTime
    · rw [if_pos rested, assign_of_ne (by simp [synced, opened])]
      exact .probing opened rested
    · rw [if_neg rested, assign_of_eq synced.symm]
      exact .same
  · rw [if_neg opened, assign_of_eq synced.symm]
    exact .same

theorem Reads.synced (reads : Reads b m m') (synced : m.current.state = m.fields.state) :
    m'.current.state = m'.fields.state := by
  cases reads with
  | same => exact synced
  | probing opened rested => rfl

theorem assign_fields (m : Usage) (fields : Fields) : (m.assign fields).fields = fields := by
  unfold assign
  split <;> rfl

theorem assign_congr {fields fields' : Fields} (same : fields'.state = fields.state) :
    m.assign fields' = { m.assign fields with fields := fields' } := by
  unfold assign
  rw [same]
  split <;> rfl

theorem call_enters (synced : m.current.state = m.fields.state) (next : step b m .call = some m') :
    ∃ mid, Reads b m mid ∧ (m' = mid ∨ Enters b mid m') := by
  refine ⟨m.assign (b.readState m.now m.fields), reads_readState synced, ?_⟩
  have entered := assign_fields m (b.readState m.now m.fields)
  rw [step, CircuitBreaker.beginCall, CircuitBreaker.readState_readState] at next
  generalize b.readState m.now m.fields = f at next entered ⊢
  by_cases opened : f.state = .opened
  · rw [if_pos opened] at next
    exact Or.inl (Option.some.inj next).symm
  · rw [if_neg opened] at next
    by_cases halfOpen : f.state = .halfOpen
    · rw [if_pos halfOpen] at next
      by_cases full : b.halfOpenMaxCalls ≤ f.halfOpenCalls
      · rw [if_pos full] at next
        exact Or.inl (Option.some.inj next).symm
      · rw [if_neg full] at next
        obtain rfl := Option.some.inj next
        have admitted : Enters b (m.assign f) _ :=
          .halfOpen (by rw [entered, halfOpen]) (by rw [entered]; exact Int.not_le.mp full)
        rw [entered] at admitted
        rw [assign_congr (show { f with halfOpenCalls := f.halfOpenCalls + 1 }.state = f.state from rfl)]
        exact Or.inr admitted
    · rw [if_neg halfOpen] at next
      obtain rfl := Option.some.inj next
      refine Or.inr (.closed ?_)
      rw [entered]
      cases state : f.state with
      | closed => rfl
      | opened => exact absurd state opened
      | halfOpen => exact absurd state halfOpen

theorem succeed_succeeds (synced : m.current.state = m.fields.state) (id : Nat) :
    Succeeds b m id ((m.succeed id).assign (b.recordSuccess m.fields)) := by
  unfold CircuitBreaker.recordSuccess
  by_cases halfOpen : m.fields.state = .halfOpen
  · simp only [halfOpen, ↓reduceIte]
    by_cases enough : b.halfOpenMaxCalls ≤ (m.fields.successCount + 1 : Nat)
    · rw [if_pos enough, assign_of_ne (by simp [succeed, leave, synced, halfOpen])]
      exact .closes halfOpen (by exact_mod_cast enough)
    · rw [if_neg enough, assign_of_eq (by simp [succeed, leave, synced, halfOpen])]
      have counted : Succeeds b m id _ := .counted halfOpen (Int.not_le.mp enough)
      simpa only [halfOpen] using counted
  · simp only [halfOpen, ↓reduceIte]
    rw [assign_of_eq (by simp [succeed, leave, synced])]
    exact .other halfOpen

theorem fail_fails (synced : m.current.state = m.fields.state) (id : Nat) :
    Fails b m id ((m.leave id).assign (b.recordFailure m.now m.fields)) := by
  change Fails b m id ((m.leave id).assign
    (if m.fields.state = .halfOpen then { m.failed with state := .opened }
      else if b.failureThreshold ≤ (m.fields.failureCount + 1 : Nat) then { m.failed with state := .opened }
      else m.failed))
  have moves (opens : Opens b m) : Fails b m id ((m.leave id).assign { m.failed with state := .opened }) := by
    by_cases opened : m.fields.state = .opened
    · rw [assign_of_eq (by simp [leave, synced, opened])]
      have stays : Fails b m id _ := .stays (by simp [opened]) (Or.inl opened)
      have same : { m.failed with state := .opened } = m.failed := by simp [failed, opened]
      rwa [same]
    · rw [assign_of_ne (by simpa [leave, synced] using Ne.symm opened)]
      exact .opens opened opens
  by_cases halfOpen : m.fields.state = .halfOpen
  · rw [if_pos halfOpen]
    exact moves (Or.inl halfOpen)
  · rw [if_neg halfOpen]
    by_cases enough : b.failureThreshold ≤ (m.fields.failureCount + 1 : Nat)
    · rw [if_pos enough]
      exact moves (Or.inr enough)
    · rw [if_neg enough, assign_of_eq (by simp [leave, failed, synced])]
      refine .stays halfOpen (Or.inr ?_)
      rintro (here | reached)
      · exact halfOpen here
      · exact enough reached

end Inversion

/-- A property that is kept by everything a step can do under the condition. -/
structure Kept (ok : Usage → Act → Prop) (I : Usage → Prop) : Prop where
  synced : ∀ {m}, I m → m.current.state = m.fields.state
  reads : ∀ {m m' act}, I m → act = .readState ∨ act = .call → ok m act → Reads b m m' → I m'
  enters : ∀ {m m'}, I m → Enters b m m' → I m'
  succeeds : ∀ {m m' id}, I m → id ∈ m.inFlight → ok m (.succeed id) → Succeeds b m id m' → I m'
  fails : ∀ {m m' id}, I m → id ∈ m.inFlight → ok m (.fail id) → Fails b m id m' → I m'
  cancels : ∀ {m id}, I m → id ∈ m.inFlight → ok m (.cancel id) → I (m.leave id)
  waits : ∀ {m seconds}, I m → 0 ≤ seconds → I { m with now := m.now + seconds }

variable {b} {ok : Usage → Act → Prop} {I : Usage → Prop}

theorem Kept.step (kept : Kept b ok I) (m : Usage) (act : Act) (m' : Usage) (h : I m) (good : ok m act)
    (next : step b m act = some m') : I m' := by
  have synced := kept.synced h
  cases act with
  | readState =>
      obtain rfl := Option.some.inj next
      exact kept.reads h (Or.inl rfl) good (reads_readState synced)
  | call =>
      obtain ⟨mid, reads, rfl | enters⟩ := call_enters synced next
      · exact kept.reads h (Or.inr rfl) good reads
      · exact kept.enters (kept.reads h (Or.inr rfl) good reads) enters
  | succeed id =>
      obtain ⟨member, eq⟩ := Option.ite_none_right_eq_some.mp next
      obtain rfl := Option.some.inj eq
      exact kept.succeeds h member good (succeed_succeeds synced id)
  | fail id =>
      obtain ⟨member, eq⟩ := Option.ite_none_right_eq_some.mp next
      obtain rfl := Option.some.inj eq
      exact kept.fails h member good (fail_fails synced id)
  | cancel id =>
      obtain ⟨member, eq⟩ := Option.ite_none_right_eq_some.mp next
      obtain rfl := Option.some.inj eq
      exact kept.cancels h member good
  | wait seconds =>
      obtain ⟨forward, eq⟩ := Option.ite_none_right_eq_some.mp next
      obtain rfl := Option.some.inj eq
      exact kept.waits h forward

theorem Kept.throughout (kept : Kept b ok I) {m : Usage} (h : I m) {acts : List Act}
    (along : Along (Usage.step b) ok m acts) : Throughout (Usage.step b) I m acts :=
  throughout_of_along kept.step h along

end Usage

end CuckooEcho.Shared
