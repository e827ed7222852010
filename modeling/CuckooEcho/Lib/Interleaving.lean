import CuckooEcho.Lib.Run

namespace CuckooEcho.Lib.Interleaving
variable {σ κ ι χ : Type*}

/-! ## Concurrent calls whose statements interleave

Each call is at a point of its program. A statement sees the shared state as the others have left it, and what
the shared state does not determine about its result is chosen by the run. -/

structure State (σ κ : Type*) where
  shared : σ
  calls : List κ

inductive Act (ι χ : Type*)
  | call (input : ι)
  | run (i : Nat) (choice : χ)

def step (enter : ι → κ) (statement : σ → κ → χ → Option (σ × κ)) (m : State σ κ) : Act ι χ → Option (State σ κ)
  | .call input => some { m with calls := m.calls ++ [enter input] }
  | .run i choice => m.calls[i]?.bind fun p =>
      (statement m.shared p choice).map fun (shared, q) => ⟨shared, m.calls.set i q⟩

variable {enter : ι → κ} {statement : σ → κ → χ → Option (σ × κ)} {m m' : State σ κ}

theorem step_run {i : Nat} {choice : χ} (next : step enter statement m (.run i choice) = some m') :
    ∃ p shared q, m.calls[i]? = some p ∧ statement m.shared p choice = some (shared, q) ∧
      m' = ⟨shared, m.calls.set i q⟩ := by
  obtain ⟨p, here, next⟩ := Option.bind_eq_some_iff.mp next
  obtain ⟨⟨shared, q⟩, does, rfl⟩ := Option.map_eq_some_iff.mp next
  exact ⟨p, shared, q, here, does, rfl⟩

theorem countP_set {calls : List κ} {i : Nat} {p : κ} (here : calls[i]? = some p) (q : κ) (f : κ → Bool) :
    (calls.set i q).countP f + (f p).toNat = calls.countP f + (f q).toNat := by
  induction calls generalizing i with
  | nil => simp at here
  | cons first rest ih =>
      cases i with
      | zero =>
          obtain rfl : first = p := by simpa using here
          simp only [List.set_cons_zero, List.countP_cons]
          cases f first <;> cases f q <;> simp
      | succ i =>
          have step := ih (i := i) (by simpa using here)
          simp only [List.set_cons_succ, List.countP_cons]
          omega

/-- Assertions about the calls' points that a statement keeps for the other calls and gives its own call. -/
theorem forall_set {calls : List κ} {P P' : κ → Prop} (h : ∀ p ∈ calls, P p) (keep : ∀ p, P p → P' p) {q : κ}
    (new : P' q) (i : Nat) : ∀ p ∈ calls.set i q, P' p := by
  intro p member
  rcases List.mem_or_eq_of_mem_set member with old | rfl
  · exact keep p (h p old)
  · exact new

end CuckooEcho.Lib.Interleaving
