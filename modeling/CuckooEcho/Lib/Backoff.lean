import CuckooEcho.Lib.Run
import Mathlib.Algebra.Group.Nat.Defs

namespace CuckooEcho.Lib

/-! ## Waits that double up to a bound -/

inductive Signal
  | reset
  | wait (delay : ℕ)
  deriving DecidableEq, Repr

/-- The waits since the last reset, counting on from `k`. -/
def waits : ℕ → List Signal → ℕ
  | k, [] => k
  | _, .reset :: signals => waits 0 signals
  | k, .wait _ :: signals => waits (k + 1) signals

/-- Each wait is twice as long as the one before it, up to the bound, and a reset makes the next one the shortest. -/
def BacksOff (base cap k : ℕ) (signals : List Signal) : Prop :=
  ∀ before delay after, signals = before ++ .wait delay :: after → delay = min (base * 2 ^ waits k before) cap

variable {base cap k : ℕ} {signals : List Signal}

theorem backsOff_nil : BacksOff base cap k [] := by
  intro before delay after eq
  simp at eq

theorem backsOff_reset (rest : BacksOff base cap 0 signals) : BacksOff base cap k (.reset :: signals) := by
  intro before delay after eq
  cases before with
  | nil => cases eq
  | cons first before =>
      obtain ⟨rfl, tail⟩ := List.cons.inj eq
      exact rest before delay after tail

theorem backsOff_wait {delay : ℕ} (now : delay = min (base * 2 ^ k) cap) (rest : BacksOff base cap (k + 1) signals) :
    BacksOff base cap k (.wait delay :: signals) := by
  intro before delay' after eq
  cases before with
  | nil =>
      obtain ⟨same, -⟩ := List.cons.inj eq
      exact Signal.wait.inj same ▸ now
  | cons first before =>
      obtain ⟨rfl, tail⟩ := List.cons.inj eq
      exact rest before delay' after tail

theorem double_min (base cap k : ℕ) : min (min (base * 2 ^ k) cap * 2) cap = min (base * 2 ^ (k + 1)) cap := by
  rw [Nat.pow_succ, ← Nat.mul_assoc]
  omega

/-- What a step that signals does to the delay of the next wait. -/
inductive Paced (base cap : ℕ) : ℕ → List Signal → ℕ → Prop
  | silent (delay : ℕ) : Paced base cap delay [] delay
  | reset (delay : ℕ) : Paced base cap delay [.reset] base
  | wait (delay : ℕ) : Paced base cap delay [.wait delay] (min (delay * 2) cap)

theorem Paced.backsOff {delay delay' : ℕ} {now : List Signal} (paced : Paced base cap delay now delay')
    (least : base ≤ cap) (here : delay = min (base * 2 ^ k) cap)
    (rest : ∀ k', delay' = min (base * 2 ^ k') cap → BacksOff base cap k' signals) :
    BacksOff base cap k (now ++ signals) := by
  cases paced with
  | silent => exact rest k here
  | reset =>
      apply backsOff_reset
      apply rest
      rw [Nat.pow_zero, Nat.mul_one, Nat.min_eq_left least]
  | wait =>
      apply backsOff_wait here
      apply rest
      rw [here, double_min]

section
variable {σ α : Type*} (step : σ → α → Option σ)

/-- What the actions that the run executes signal, in their order. -/
def signalled (signals : σ → α → σ → List Signal) : σ → List α → List Signal
  | _, [] => []
  | s, a :: as => (step s a).elim [] fun t => signals s a t ++ signalled signals t as

variable {step} {ok : σ → α → Prop}

/-- The waits of a run back off if there is a delay that each step paces. -/
theorem backsOff_signalled {signals : σ → α → σ → List Signal} (I : σ → Prop) (next : σ → ℕ) (least : base ≤ cap)
    (paced : ∀ s a t, I s → ok s a → step s a = some t → I t ∧ Paced base cap (next s) (signals s a t) (next t))
    {s : σ} {as : List α} (start : I s) (along : Along step ok s as) (here : next s = min (base * 2 ^ k) cap) :
    BacksOff base cap k (signalled step signals s as) := by
  induction as generalizing s k with
  | nil => exact backsOff_nil
  | cons a as ih =>
      rw [signalled]
      cases outcome : step s a with
      | none => exact backsOff_nil
      | some t =>
          obtain ⟨good, rest⟩ := along t outcome
          obtain ⟨kept, now⟩ := paced s a t start good outcome
          exact now.backsOff least here fun k' there => ih kept rest there

end

end CuckooEcho.Lib
