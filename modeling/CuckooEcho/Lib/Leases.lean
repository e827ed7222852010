import Mathlib.Logic.Function.Basic

namespace CuckooEcho.Lib
variable {ρ η : Type*} {busy : ρ → Prop} {holds : η → Option ρ} {r : ρ} {h : η}

/-! ## Exclusive leases

Each holder has one resource at most, a busy resource has exactly one holder. -/

structure Leased (busy : ρ → Prop) (holds : η → Option ρ) : Prop where
  single : ∀ h h' r, holds h = some r → holds h' = some r → h = h'
  busy_iff : ∀ r, busy r ↔ ∃ h, holds h = some r

namespace Leased

theorem of_free (free : ∀ r, ¬ busy r) : Leased busy (fun _ : η => none) where
  single _ _ _ held := by cases held
  busy_iff r := iff_of_false (free r) (by simp)

theorem congr {busy' : ρ → Prop} (leased : Leased busy holds) (same : ∀ r, busy' r ↔ busy r) : Leased busy' holds where
  single := leased.single
  busy_iff r := (same r).trans (leased.busy_iff r)

variable [DecidableEq η]

theorem acquire (leased : Leased busy holds) (free : ¬ busy r) (idle : holds h = none) :
    Leased (fun r' => r' = r ∨ busy r') (Function.update holds h (some r)) where
  single := by
    intro h₁ h₂ r' first second
    have unheld : ∀ h', holds h' ≠ some r := fun h' held => free ((leased.busy_iff r).mpr ⟨h', held⟩)
    rw [Function.update_apply] at first second
    split at first
    · rename_i here
      split at second
      · rename_i there
        exact here.trans there.symm
      · rw [← Option.some.inj first] at second
        exact absurd second (unheld h₂)
    · split at second
      · rw [← Option.some.inj second] at first
        exact absurd first (unheld h₁)
      · exact leased.single h₁ h₂ r' first second
  busy_iff r' := by
    constructor
    · rintro (rfl | here)
      · exact ⟨h, Function.update_self h _ holds⟩
      · obtain ⟨h', held⟩ := (leased.busy_iff r').mp here
        have other : h' ≠ h := by
          rintro rfl
          rw [idle] at held
          cases held
        exact ⟨h', (Function.update_of_ne other _ holds).trans held⟩
    · rintro ⟨h', held⟩
      rw [Function.update_apply] at held
      split at held
      · exact Or.inl (Option.some.inj held).symm
      · exact Or.inr ((leased.busy_iff r').mpr ⟨h', held⟩)

theorem release (leased : Leased busy holds) (held : holds h = some r) :
    Leased (fun r' => r' ≠ r ∧ busy r') (Function.update holds h none) where
  single := by
    intro h₁ h₂ r' first second
    rw [Function.update_apply] at first second
    split at first
    · cases first
    · split at second
      · cases second
      · exact leased.single h₁ h₂ r' first second
  busy_iff r' := by
    constructor
    · rintro ⟨other, here⟩
      obtain ⟨h', held'⟩ := (leased.busy_iff r').mp here
      have elsewhere : h' ≠ h := by
        rintro rfl
        exact other (Option.some.inj (held'.symm.trans held))
      exact ⟨h', (Function.update_of_ne elsewhere _ holds).trans held'⟩
    · rintro ⟨h', held'⟩
      rw [Function.update_apply] at held'
      split at held'
      · cases held'
      · rename_i elsewhere
        refine ⟨?_, (leased.busy_iff r').mpr ⟨h', held'⟩⟩
        rintro rfl
        exact elsewhere (leased.single h' h r' held' held)

end Leased

end CuckooEcho.Lib
