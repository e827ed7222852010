import Mathlib.Data.List.Basic

namespace CuckooEcho.Lib

/-! ## Graphs of nodes over a shared state -/

/-- Each node updates the state, unless it raises; the edge taken next depends on the updated state. -/
structure StateGraph (ν σ ω : Type*) where
  entry : ν
  node : ν → σ → Option (σ × List ω)
  next : ν → σ → Option ν

namespace StateGraph

structure Update (ν σ ω : Type*) where
  node : ν
  state : σ
  effects : List ω

inductive Outcome
  | finished | raised | recursionLimit
  deriving DecidableEq, Repr

structure Run (ν σ ω : Type*) where
  updates : List (Update ν σ ω)
  state : σ
  outcome : Outcome

variable {ν σ ω : Type*} (graph : StateGraph ν σ ω)

def runFrom : Nat → ν → σ → Run ν σ ω
  | 0, _, s => ⟨[], s, .recursionLimit⟩
  | limit + 1, n, s =>
      match graph.node n s with
      | none => ⟨[], s, .raised⟩
      | some (t, effects) =>
          match graph.next n t with
          | none => ⟨[⟨n, t, effects⟩], t, .finished⟩
          | some m =>
              let rest := runFrom limit m t
              ⟨⟨n, t, effects⟩ :: rest.updates, rest.state, rest.outcome⟩

def run (limit : Nat) (s : σ) : Run ν σ ω := graph.runFrom limit graph.entry s

variable {graph} {limit : Nat} {n m : ν} {s t : σ} {effects : List ω}

theorem runFrom_raised (raises : graph.node n s = none) :
    graph.runFrom (limit + 1) n s = ⟨[], s, .raised⟩ := by
  simp [runFrom, raises]

theorem runFrom_last (updates : graph.node n s = some (t, effects)) (last : graph.next n t = none) :
    graph.runFrom (limit + 1) n s = ⟨[⟨n, t, effects⟩], t, .finished⟩ := by
  simp [runFrom, updates, last]

theorem runFrom_next (updates : graph.node n s = some (t, effects)) (edge : graph.next n t = some m) :
    graph.runFrom (limit + 1) n s =
      ⟨⟨n, t, effects⟩ :: (graph.runFrom limit m t).updates, (graph.runFrom limit m t).state,
        (graph.runFrom limit m t).outcome⟩ := by
  simp [runFrom, updates, edge]

/-- An invariant of states that every node keeps holds in every update and at the end. -/
theorem runFrom_invariant {P : σ → Prop} (keep : ∀ n s t effects, P s → graph.node n s = some (t, effects) → P t)
    (start : P s) : (∀ u ∈ (graph.runFrom limit n s).updates, P u.state) ∧ P (graph.runFrom limit n s).state := by
  induction limit generalizing n s with
  | zero => exact ⟨by simp [runFrom], start⟩
  | succ limit ih =>
      cases updates : graph.node n s with
      | none =>
          rw [runFrom_raised updates]
          exact ⟨by simp, start⟩
      | some result =>
          have later := keep n s result.1 result.2 start updates
          cases edge : graph.next n result.1 with
          | none =>
              rw [runFrom_last updates edge]
              exact ⟨by simpa using later, later⟩
          | some m =>
              rw [runFrom_next updates edge]
              obtain ⟨every, last⟩ := ih (n := m) later
              exact ⟨List.forall_mem_cons.mpr ⟨later, every⟩, last⟩

/-- What holds of everything that a node can return holds of every update. -/
theorem runFrom_returned {Q : Update ν σ ω → Prop}
    (returned : ∀ n s t effects, graph.node n s = some (t, effects) → Q ⟨n, t, effects⟩) :
    ∀ u ∈ (graph.runFrom limit n s).updates, Q u := by
  induction limit generalizing n s with
  | zero => simp [runFrom]
  | succ limit ih =>
      cases updates : graph.node n s with
      | none => simp [runFrom_raised updates]
      | some result =>
          have here := returned n s result.1 result.2 updates
          cases edge : graph.next n result.1 with
          | none => simpa [runFrom_last updates edge] using here
          | some m =>
              rw [runFrom_next updates edge]
              exact List.forall_mem_cons.mpr ⟨here, ih⟩

/-- A graph whose edges all lower a rank is left before the limit is reached. -/
theorem runFrom_ends {rank : ν → Nat} (lower : ∀ n s m, graph.next n s = some m → rank m < rank n)
    (enough : rank n < limit) : (graph.runFrom limit n s).outcome ≠ .recursionLimit := by
  induction limit generalizing n s with
  | zero => omega
  | succ limit ih =>
      cases updates : graph.node n s with
      | none => simp [runFrom_raised updates]
      | some result =>
          cases edge : graph.next n result.1 with
          | none => simp [runFrom_last updates edge]
          | some m =>
              rw [runFrom_next updates edge]
              have := lower n result.1 m edge
              exact ih (by omega)

/-- A run ends in the state of its last update. -/
theorem runFrom_state : (graph.runFrom limit n s).state =
    ((graph.runFrom limit n s).updates.getLast?.map (·.state)).getD s := by
  induction limit generalizing n s with
  | zero => rfl
  | succ limit ih =>
      cases updates : graph.node n s with
      | none => simp [runFrom_raised updates]
      | some result =>
          cases edge : graph.next n result.1 with
          | none => simp [runFrom_last updates edge]
          | some m =>
              rw [runFrom_next updates edge]
              show _ = (Option.map _ (List.getLast? (_ :: _))).getD s
              rw [ih, List.getLast?_cons]
              cases (graph.runFrom limit m result.1).updates.getLast? <;> rfl

end StateGraph

end CuckooEcho.Lib
