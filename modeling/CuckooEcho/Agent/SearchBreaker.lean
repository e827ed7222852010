import CuckooEcho.Agent.Retrieval
import CuckooEcho.Shared.CircuitBreaker

namespace CuckooEcho.Agent
open Lib Shared

/-! ## `rag_engine_node` and its circuit breaker in one process -/

def milvusCircuitBreaker : CircuitBreaker := { name := "milvus_search", failureThreshold := 5, timeout := 60 }

abbrev Attempts := Nat → Option (List (List Hit))

/-- The search calls of a node that gets as far as its search. -/
def milvusSearch (services : Services) (state : AgentState) : Option Attempts :=
  let query := lastText state.messages
  let tenantId := state.tenantId.getD ""
  if state.messages = [] ∨ query = "" ∨ tenantId = "" ∨ (cacheHit services state).isSome then none
  else (services.embeddingService.bind fun embed => embed query).map fun vector => services.search vector tenantId

theorem ragEngineNode_eq_retrieve {services : Services} {state : AgentState} {attempts : Attempts}
    (reaches : milvusSearch services state = some attempts) :
    ragEngineNode services state = retrieve services (lastText state.messages) (state.tenantId.getD "") state ∧
      ∃ vector, (services.embeddingService.bind fun embed => embed (lastText state.messages)) = some vector ∧
        attempts = services.search vector (state.tenantId.getD "") := by
  unfold milvusSearch at reaches
  obtain ⟨passed, searched⟩ := Option.ite_none_left_eq_some.mp reaches
  obtain ⟨vector, embedded, rfl⟩ := Option.map_eq_some_iff.mp searched
  push Not at passed
  obtain ⟨messages, query, tenant, missed⟩ := passed
  refine ⟨?_, vector, embedded, rfl⟩
  unfold ragEngineNode
  rw [if_neg messages, if_neg (not_or.mpr ⟨query, tenant⟩), Option.not_isSome_iff_eq_none.mp missed]

theorem ragEngineNode_of_failed {services : Services} {state : AgentState} {attempts : Attempts}
    (reaches : milvusSearch services state = some attempts)
    (failed : services.circuitOpen = true ∨ retryWithBackoff attempts = none) :
    ragEngineNode services state = some (noAnswer state) := by
  obtain ⟨eq, vector, embedded, rfl⟩ := ragEngineNode_eq_retrieve reaches
  rw [eq, retrieve, embedded]
  by_cases opened : services.circuitOpen = true
  · simp [opened]
  · simp [opened, failed.resolve_left opened]

inductive Stage
  | entered
  | retrying (attempt : Nat)
  deriving DecidableEq, Repr

/-- `due` says whether the breaker had to be open when the execution started. -/
structure Execution where
  services : Services
  state : AgentState
  due : Bool
  stage : Stage

/-- A search that has ended, after all retries if it has no results. -/
structure Searched where
  execution : Execution
  results : Option (List (List Hit))
  time : Rat

structure Process where
  now : Rat
  breaker : Fields
  executions : Nat → Option Execution
  started : Nat
  searched : List Searched

namespace Process

def initial (now : Rat) : Process := ⟨now, {}, fun _ => none, 0, []⟩

/-- The searches since the last one that succeeded. -/
def failures (m : Process) : List Searched := m.searched.takeWhile fun s => s.results.isNone

def Due (m : Process) : Prop :=
  milvusCircuitBreaker.failureThreshold ≤ m.failures.length ∧
    ∀ s ∈ m.failures.head?, m.now - s.time < milvusCircuitBreaker.timeout

instance (m : Process) : Decidable m.Due := inferInstanceAs (Decidable (_ ∧ ∀ _ ∈ _, _))

def put (m : Process) (id : Nat) (e : Option Execution) : Process :=
  { m with executions := Function.update m.executions id e }

def finish (m : Process) (id : Nat) (e : Execution) (results : Option (List (List Hit))) : Process :=
  { m.put id none with searched := ⟨e, results, m.now⟩ :: m.searched }

def attempt (m : Process) (id : Nat) (e : Execution) (attempts : Attempts) (n : Nat) : Process :=
  match attempts n with
  | some results => m.finish id e (some results)
  | none => if n < maxRetries then m.put id (some { e with stage := .retrying (n + 1) }) else m.finish id e none

/-- From the semantic cache to the first search call; the node reads the breaker's state itself and makes its
calls without the breaker. -/
def search (m : Process) (id : Nat) (e : Execution) : Process :=
  match milvusSearch e.services e.state with
  | none => m.put id none
  | some attempts =>
      let m := { m with breaker := milvusCircuitBreaker.readState m.now m.breaker }
      if m.breaker.state = .opened then m.put id none else m.attempt id e attempts 0

def start (m : Process) (services : Services) (state : AgentState) : Process :=
  { m.put m.started (some ⟨services, state, m.Due, .entered⟩) with started := m.started + 1 }

inductive Act
  | start (services : Services) (state : AgentState)
  | search (id : Nat)
  | retry (id : Nat)
  | cancel (id : Nat)
  | wait (seconds : Rat)

def step (m : Process) : Act → Option Process
  | .start services state => some (m.start services state)
  | .search id => (m.executions id).bind fun e => if e.stage = .entered then some (m.search id e) else none
  | .retry id => (m.executions id).bind fun e =>
      match e.stage, milvusSearch e.services e.state with
      | .retrying n, some attempts => some (m.attempt id e attempts n)
      | _, _ => none
  | .cancel id => (m.executions id).bind fun _ => some (m.put id none)
  | .wait seconds => if 0 ≤ seconds then some { m with now := m.now + seconds } else none

/-- The execution that calls Milvus. -/
def calls (m : Process) : Act → Option Execution
  | .search id => (m.executions id).filter fun e =>
      e.stage = .entered ∧ (milvusSearch e.services e.state).isSome ∧
        (milvusCircuitBreaker.readState m.now m.breaker).state ≠ .opened
  | .retry id => (m.executions id).filter fun e => e.stage ≠ .entered
  | _ => none

/-- Milvus is not called by an execution that started while the breaker had to be open. -/
def Protected (m : Process) (act : Act) : Prop := ∀ e ∈ m.calls act, e.due = false

instance (m : Process) (act : Act) : Decidable (m.Protected act) := inferInstanceAs (Decidable (∀ _ ∈ _, _))

/-- An execution that started while the breaker had to be open does not get as far as its search. -/
def Spared (m : Process) : Act → Prop
  | .search id => ∀ e ∈ m.executions id, e.stage = .entered → e.due = true →
      milvusSearch e.services e.state = none
  | _ => True

/-! ### The attempts of one execution -/

section
variable {m m' : Process} {id : Nat} {e : Execution} {attempts : Attempts} {n : Nat}

inductive Attempt (m : Process) (id : Nat) (e : Execution) (attempts : Attempts) (n : Nat) : Process → Prop
  | found {results} (found : attempts n = some results) : Attempt m id e attempts n (m.finish id e (some results))
  | again (fails : attempts n = none) (more : n < maxRetries) :
      Attempt m id e attempts n (m.put id (some { e with stage := .retrying (n + 1) }))
  | exhausted (fails : attempts n = none) (last : maxRetries ≤ n) : Attempt m id e attempts n (m.finish id e none)

theorem attempt_attempt (m : Process) (id : Nat) (e : Execution) (attempts : Attempts) (n : Nat) :
    Attempt m id e attempts n (m.attempt id e attempts n) := by
  unfold Process.attempt
  cases result : attempts n with
  | some results => exact .found result
  | none =>
      by_cases more : n < maxRetries
      · simp only [more, ↓reduceIte]
        exact .again result more
      · simp only [more, ↓reduceIte]
        exact .exhausted result (Nat.le_of_not_lt more)

theorem retryWithBackoff_eq_some {results : List (List Hit)} (earlier : ∀ k < n, attempts k = none)
    (within : n ≤ maxRetries) (found : attempts n = some results) : retryWithBackoff attempts = some results := by
  have range : List.range (maxRetries + 1) = List.range n ++ n :: List.range' (n + 1) (maxRetries - n) := by
    have split := List.range'_append_1 (s := 0) (m := n) (n := maxRetries - n + 1)
    rw [Nat.zero_add, show n + (maxRetries - n + 1) = maxRetries + 1 by omega] at split
    rw [← List.range'_succ, List.range_eq_range', List.range_eq_range', split]
  refine List.findSome?_eq_some_iff.mpr ⟨_, n, _, range, found, fun k member => ?_⟩
  exact earlier k (List.mem_range.mp member)

theorem retryWithBackoff_eq_none (fails : ∀ k ≤ maxRetries, attempts k = none) :
    retryWithBackoff attempts = none :=
  List.findSome?_eq_none_iff.mpr fun k member => fails k (Nat.le_of_lt_succ (List.mem_range.mp member))

/-- The attempts before the one that an execution is waiting for have failed. -/
def Trying (e : Execution) : Prop :=
  ∀ n, e.stage = .retrying n → ∃ attempts, milvusSearch e.services e.state = some attempts ∧
    n ≤ maxRetries ∧ ∀ k < n, attempts k = none

/-- A search that has ended has done what `_retry_with_backoff` does. -/
structure Faithful (m : Process) : Prop where
  trying : ∀ id e, m.executions id = some e → Trying e
  searched : ∀ s ∈ m.searched, ∃ attempts, milvusSearch s.execution.services s.execution.state = some attempts ∧
    s.results = retryWithBackoff attempts

theorem Faithful.put (h : Faithful m) {o : Option Execution} (trying : ∀ e ∈ o, Trying e) :
    Faithful (m.put id o) where
  trying other e found := by
    simp only [Process.put, Function.update_apply] at found
    split at found
    · exact trying e found
    · exact h.trying other e found
  searched := h.searched

theorem Faithful.finish (h : Faithful m) (reaches : milvusSearch e.services e.state = some attempts)
    {results : Option (List (List Hit))} (same : results = retryWithBackoff attempts) :
    Faithful (m.finish id e results) where
  trying := (h.put (o := none) fun _ here => nomatch here).trying
  searched := List.forall_mem_cons.mpr ⟨⟨attempts, reaches, same⟩, h.searched⟩

theorem Faithful.attempt (h : Faithful m) (reaches : milvusSearch e.services e.state = some attempts)
    (within : n ≤ maxRetries) (earlier : ∀ k < n, attempts k = none) : Faithful (m.attempt id e attempts n) := by
  have outcome := attempt_attempt m id e attempts n
  generalize m.attempt id e attempts n = m' at outcome ⊢
  cases outcome with
  | found found => exact h.finish reaches (retryWithBackoff_eq_some earlier within found).symm
  | again fails more =>
      refine h.put fun e' here n' stage => ?_
      obtain rfl := Option.some.inj here
      obtain rfl := Stage.retrying.inj stage
      exact ⟨attempts, reaches, more, fun k le => (Nat.lt_succ_iff_lt_or_eq.mp le).elim (earlier k) (· ▸ fails)⟩
  | exhausted fails last =>
      obtain rfl := Nat.le_antisymm within last
      refine h.finish reaches (retryWithBackoff_eq_none fun k le => ?_).symm
      exact (Nat.lt_or_eq_of_le le).elim (earlier k) (· ▸ fails)

theorem Faithful.step {act : Act} (h : Faithful m) (next : m.step act = some m') : Faithful m' := by
  cases act with
  | start services state =>
      obtain rfl := Option.some.inj next
      have entered : Faithful (m.put m.started (some ⟨services, state, m.Due, .entered⟩)) :=
        h.put fun e here n stage => by
          obtain rfl := Option.some.inj here
          exact nomatch stage
      exact ⟨entered.trying, entered.searched⟩
  | search id =>
      obtain ⟨e, found, next⟩ := Option.bind_eq_some_iff.mp next
      obtain ⟨-, eq⟩ := Option.ite_none_right_eq_some.mp next
      obtain rfl := Option.some.inj eq
      unfold Process.search
      cases reaches : milvusSearch e.services e.state with
      | none => exact h.put fun _ here => nomatch here
      | some attempts =>
          have read (breaker : Fields) : Faithful { m with breaker } := ⟨h.trying, h.searched⟩
          dsimp only
          split
          · exact (read _).put fun _ here => nomatch here
          · exact (read _).attempt reaches (Nat.zero_le _) fun k lt => absurd lt (Nat.not_lt_zero k)
  | retry id =>
      obtain ⟨e, found, next⟩ := Option.bind_eq_some_iff.mp next
      split at next
      · rename_i n attempts stage reaches
        obtain rfl := Option.some.inj next
        obtain ⟨attempts', reaches', within, earlier⟩ := h.trying id e found n stage
        obtain rfl := Option.some.inj (reaches.symm.trans reaches')
        exact h.attempt reaches within earlier
      · exact nomatch next
  | cancel id =>
      obtain ⟨e, -, next⟩ := Option.bind_eq_some_iff.mp next
      exact Option.some.inj next ▸ h.put fun _ here => nomatch here
  | wait seconds =>
      obtain ⟨-, eq⟩ := Option.ite_none_right_eq_some.mp next
      exact Option.some.inj eq ▸ ⟨h.trying, h.searched⟩

theorem faithful_throughout (now : Rat) (acts : List Act) : Throughout Process.step Faithful (initial now) acts :=
  throughout_of_step (fun _ _ _ h next => h.step next)
    ⟨(fun _ _ found => nomatch found), (fun _ member => nomatch member)⟩

end

/-! ### The breaker never opens -/

theorem readState_closed {b : CircuitBreaker} {f : Fields} (closed : f.state = .closed) (now : Rat) :
    b.readState now f = f := by
  rw [CircuitBreaker.readState, if_neg (by simp [closed])]

section
variable {m m' : Process} {id : Nat} {e : Execution}

theorem search_of_closed (closed : m.breaker.state = .closed) :
    m.search id e = match milvusSearch e.services e.state with
      | none => m.put id none
      | some attempts => m.attempt id e attempts 0 := by
  unfold Process.search
  rw [readState_closed closed]
  simp [closed]

/-- What the process knows of its executions, if the condition keeps those that are due from searching. -/
structure Running (m : Process) : Prop where
  closed : m.breaker.state = .closed
  retrying : ∀ id e n, m.executions id = some e → e.stage = .retrying n → e.due = false

theorem Running.put (h : Running m) {o : Option Execution}
    (retrying : ∀ e ∈ o, ∀ n, e.stage = .retrying n → e.due = false) : Running (m.put id o) where
  closed := h.closed
  retrying other e n found := by
    simp only [Process.put, Function.update_apply] at found
    split at found
    · exact retrying e found n
    · exact h.retrying other e n found

theorem Running.finish (h : Running m) (id : Nat) (e : Execution) (results : Option (List (List Hit))) :
    Running (m.finish id e results) :=
  ⟨h.closed, (h.put (o := none) fun _ here => nomatch here).retrying⟩

theorem Running.attempt (h : Running m) (free : e.due = false) (attempts : Attempts) (n : Nat) :
    Running (m.attempt id e attempts n) := by
  have outcome := attempt_attempt m id e attempts n
  generalize m.attempt id e attempts n = m' at outcome ⊢
  cases outcome with
  | found => exact h.finish id e _
  | again => exact h.put fun e' here _ _ => Option.some.inj here ▸ free
  | exhausted => exact h.finish id e none

theorem Running.step {act : Act} (h : Running m) (spared : m.Spared act) (next : m.step act = some m') :
    Running m' := by
  cases act with
  | start services state =>
      obtain rfl := Option.some.inj next
      have entered : Running (m.put m.started (some ⟨services, state, m.Due, .entered⟩)) :=
        h.put fun e here n stage => by
          obtain rfl := Option.some.inj here
          exact nomatch stage
      exact ⟨entered.closed, entered.retrying⟩
  | search id =>
      obtain ⟨e, found, next⟩ := Option.bind_eq_some_iff.mp next
      obtain ⟨entered, eq⟩ := Option.ite_none_right_eq_some.mp next
      obtain rfl := Option.some.inj eq
      rw [search_of_closed h.closed]
      cases reaches : milvusSearch e.services e.state with
      | none => exact h.put fun _ here => nomatch here
      | some attempts =>
          refine h.attempt (Bool.eq_false_iff.mpr fun due => ?_) attempts 0
          exact nomatch reaches.symm.trans (spared e found entered due)
  | retry id =>
      obtain ⟨e, found, next⟩ := Option.bind_eq_some_iff.mp next
      split at next
      · rename_i n attempts stage reaches
        obtain rfl := Option.some.inj next
        exact h.attempt (h.retrying id e n found stage) attempts n
      · exact nomatch next
  | cancel id =>
      obtain ⟨e, -, next⟩ := Option.bind_eq_some_iff.mp next
      exact Option.some.inj next ▸ h.put fun _ here => nomatch here
  | wait seconds =>
      obtain ⟨-, eq⟩ := Option.ite_none_right_eq_some.mp next
      exact Option.some.inj eq ▸ ⟨h.closed, h.retrying⟩

theorem Running.protected_iff (h : Running m) (act : Act) : m.Protected act ↔ m.Spared act := by
  cases act with
  | search id =>
      simp only [Protected, Spared, calls, Option.mem_def, Option.filter_eq_some_iff, decide_eq_true_eq,
        readState_closed h.closed, h.closed]
      constructor
      · intro safe e found entered due
        refine Option.not_isSome_iff_eq_none.mp fun reaches => ?_
        exact Bool.false_ne_true ((safe e ⟨found, entered, reaches, by simp⟩).symm.trans due)
      · rintro spared e ⟨found, entered, reaches, -⟩
        refine Bool.eq_false_iff.mpr fun due => ?_
        simp [spared e found entered due] at reaches
  | retry id =>
      refine iff_of_true (fun e calling => ?_) trivial
      obtain ⟨found, stage⟩ := Option.filter_eq_some_iff.mp calling
      cases at_stage : e.stage with
      | entered => simp [at_stage] at stage
      | retrying n => exact h.retrying id e n found at_stage
  | _ => exact iff_of_true (fun _ calling => nomatch calling) trivial

theorem running_initial (now : Rat) : Running (initial now) :=
  ⟨rfl, fun _ _ _ found => nomatch found⟩

end

/-- Milvus is protected in exactly the runs in which no execution that starts while the breaker had to be open
would search at all: the breaker does not stop any. -/
theorem protected_iff_spared (now : Rat) (acts : List Act) :
    Along Process.step Protected (initial now) acts ↔ Along Process.step Spared (initial now) acts :=
  along_iff_along Running (fun _ act h => h.protected_iff act)
    (fun _ act _ h safe next => h.step ((h.protected_iff act).mp safe) next) (running_initial now)

def milvusDown : Services := { offline with embeddingService := some fun _ => some [1] }

def asking : AgentState := { tenantId := some "tenant-1", messages := [userMessage "Where is my order?"] }

/-- Five executions whose four search calls all fail, and a sixth one right after them. -/
def sixthExecution : List Act :=
  ((List.range 5).flatMap fun id =>
      [.start milvusDown asking, .search id, .retry id, .retry id, .retry id]) ++
    [.start milvusDown asking, .search 5]

theorem sixthExecution_calls :
    ¬ ∀ (now : Rat) (acts : List Act), Along Process.step Protected (initial now) acts := by
  intro claim
  exact absurd (claim 0 sixthExecution) (by decide +kernel)

end Process

end CuckooEcho.Agent
