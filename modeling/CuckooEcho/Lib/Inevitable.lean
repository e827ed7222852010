import CuckooEcho.Lib.Run
import Mathlib.Order.WellFounded

namespace CuckooEcho.Lib
variable {σ α : Type*} (step : σ → α → Option σ)

/-! ## What is reached however the actions of one party are ordered -/

/-- The actions of the party come to an end in whatever order they are taken, and the property holds where none is
left. -/
inductive Inevitable (own : σ → α → Prop) (P : σ → Prop) : σ → Prop
  | intro {s : σ} (last : (∀ a, own s a → step s a = none) → P s)
      (next : ∀ a t, own s a → step s a = some t → Inevitable own P t) : Inevitable own P s

variable {step} {own : σ → α → Prop} {P : σ → Prop} {s : σ}

/-- An invariant that the party keeps and a measure that each of its actions lowers. -/
theorem inevitable_of_measure {μ : Type*} {r : μ → μ → Prop} (wf : WellFounded r) (measure : σ → μ) (I : σ → Prop)
    (keep : ∀ s a t, I s → own s a → step s a = some t → I t ∧ r (measure t) (measure s))
    (last : ∀ s, I s → (∀ a, own s a → step s a = none) → P s) (start : I s) : Inevitable step own P s := by
  induction known : measure s using wf.induction generalizing s with
  | h m ih =>
      subst known
      refine .intro (last s start) fun a t mine next => ?_
      obtain ⟨kept, lower⟩ := keep s a t start mine next
      exact ih _ lower kept rfl

/-- What is inevitable is reached in a state where the party still keeps its invariant. -/
theorem Inevitable.reached (h : Inevitable step own P s) {I : σ → Prop}
    (keep : ∀ s a t, I s → own s a → step s a = some t → I t) (start : I s) : ∃ t, I t ∧ P t := by
  induction h with
  | @intro s last next ih =>
      by_cases done : ∀ a, own s a → step s a = none
      · exact ⟨s, start, last done⟩
      · obtain ⟨a, mine, goes⟩ : ∃ a, own s a ∧ step s a ≠ none := by simpa using done
        obtain ⟨t, taken⟩ := Option.ne_none_iff_exists'.mp goes
        exact ih a t mine taken (keep s a t start mine taken)

/-- Nothing is inevitable where the party can go on for ever. -/
theorem not_inevitable (I : σ → Prop) (endless : ∀ s, I s → ∃ a t, own s a ∧ step s a = some t ∧ I t) (start : I s) :
    ¬ Inevitable step own P s := by
  intro h
  induction h with
  | intro last next ih =>
      obtain ⟨a, t, mine, taken, again⟩ := endless _ start
      exact ih a t mine taken again

end CuckooEcho.Lib
