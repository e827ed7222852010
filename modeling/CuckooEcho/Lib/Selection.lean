import Mathlib.Data.List.Forall2
import Mathlib.Data.List.Perm.Basic
import Mathlib.Order.Lattice

namespace CuckooEcho.Lib.Selection

/-! ## The first of the elements with the highest score -/

structure Best (κ α : Type*) where
  score : κ
  item : α
  index : Nat

section
variable {κ α : Type*} [LinearOrder κ] (score : α → κ)

/-- Only a higher score replaces the best so far; `i` is the index of the next element. -/
def scan : Option (Best κ α) → Nat → List α → Option (Best κ α)
  | best, _, [] => best
  | best, i, a :: l => scan (if best.all (·.score < score a) then some ⟨score a, a, i⟩ else best) (i + 1) l

/-- The best so far of a front of the list. -/
structure Leads (front : List α) (b : Best κ α) : Prop where
  item : front[b.index]? = some b.item
  scored : b.score = score b.item
  highest : ∀ a ∈ front, score a ≤ b.score

variable {score}

theorem Leads.concat {front : List α} {b : Best κ α} (h : Leads score front b) {a : α} (lower : score a ≤ b.score) :
    Leads score (front ++ [a]) b where
  item := by
    have bound : b.index < front.length := (List.getElem?_eq_some_iff.mp h.item).1
    rw [List.getElem?_append_left bound]
    exact h.item
  scored := h.scored
  highest := List.forall_mem_append.mpr ⟨h.highest, List.forall_mem_singleton.mpr lower⟩

theorem leads_last {front : List α} {a : α} (higher : ∀ c ∈ front, score c ≤ score a) :
    Leads score (front ++ [a]) ⟨score a, a, front.length⟩ where
  item := List.getElem?_concat_length
  scored := rfl
  highest := List.forall_mem_append.mpr ⟨higher, List.forall_mem_singleton.mpr le_rfl⟩

theorem scan_some {front l : List α} {b : Best κ α} (h : Leads score front b) :
    ∃ b', scan score (some b) front.length l = some b' ∧ Leads score (front ++ l) b' := by
  induction l generalizing front b with
  | nil => exact ⟨b, rfl, (List.append_nil front).symm ▸ h⟩
  | cons a l ih =>
      have next : (front ++ [a]).length = front.length + 1 := by simp
      rw [scan, List.append_cons, ← next]
      split
      · rename_i higher
        have higher : b.score < score a := of_decide_eq_true higher
        exact ih (leads_last fun c member => le_trans (h.highest c member) higher.le)
      · rename_i lower
        have lower : ¬ b.score < score a := fun less => lower (decide_eq_true less)
        exact ih (h.concat (not_lt.mp lower))

theorem exists_scan {l : List α} (nonempty : l ≠ []) : ∃ b, scan score none 0 l = some b ∧ Leads score l b := by
  cases l with
  | nil => exact absurd rfl nonempty
  | cons a l =>
      have first : Leads score ([] ++ [a]) ⟨score a, a, 0⟩ := leads_last (List.forall_mem_nil _)
      exact scan_some first

end

/-! ## Elements that are chosen one after the other and taken from a working list -/

section
variable {α β : Type*} (choose : List β → List α → Option (β × Nat))

/-- Up to `rounds` elements are chosen, each by what has been selected before and what is left. -/
def selectUpTo : (rounds : Nat) → (selected : List β) → (remaining : List α) → List β
  | 0, selected, _ => selected
  | rounds + 1, selected, remaining =>
      match choose selected remaining with
      | none => selected
      | some (chosen, i) => selectUpTo rounds (selected ++ [chosen]) (remaining.eraseIdx i)

/-- From a list that is not empty a choice is always made, and it is made of the element that is taken. -/
structure Chooses (made : β → α → Prop) (good : α → Prop) : Prop where
  nil : ∀ selected, choose selected [] = none
  cons : ∀ selected remaining, remaining ≠ [] → (∀ a ∈ remaining, good a) → ∃ chosen i a,
    choose selected remaining = some (chosen, i) ∧ remaining[i]? = some a ∧ made chosen a

variable {choose} {made : β → α → Prop} {good : α → Prop}

theorem selectUpTo_prefix (rounds : Nat) (selected : List β) (remaining : List α) :
    selectUpTo choose rounds selected remaining <+: selectUpTo choose (rounds + 1) selected remaining := by
  induction rounds generalizing selected remaining with
  | zero =>
      rw [selectUpTo, selectUpTo]
      split
      · exact List.prefix_rfl
      · exact List.prefix_append _ _
  | succ rounds ih =>
      rw [selectUpTo, selectUpTo]
      split
      · exact List.prefix_rfl
      · exact ih _ _

/-- As many elements are selected as there may be, each made of another element of the list. -/
theorem Chooses.exists_selectUpTo (h : Chooses choose made good) (rounds : Nat) (selected : List β)
    {remaining : List α} (all : ∀ a ∈ remaining, good a) :
    ∃ more used, selectUpTo choose rounds selected remaining = selected ++ more ∧
      more.length = min rounds remaining.length ∧ List.Forall₂ made more used ∧ used.Subperm remaining := by
  induction rounds generalizing selected remaining with
  | zero => exact ⟨[], [], (List.append_nil _).symm, (Nat.zero_min _).symm, .nil, List.nil_subperm⟩
  | succ rounds ih =>
      rw [selectUpTo]
      by_cases empty : remaining = []
      · rw [empty, h.nil]
        exact ⟨[], [], (List.append_nil _).symm, (Nat.min_zero _).symm, .nil, List.nil_subperm⟩
      · obtain ⟨chosen, i, a, choice, there, ofA⟩ := h.cons selected remaining empty all
        obtain ⟨bound, same⟩ := List.getElem?_eq_some_iff.mp there
        have rest : ∀ a ∈ remaining.eraseIdx i, good a := fun a member => all a (List.mem_of_mem_eraseIdx member)
        obtain ⟨more, used, returned, length, made, sub⟩ := ih (selected ++ [chosen]) rest
        have perm := List.getElem_cons_eraseIdx_perm bound
        rw [same] at perm
        rw [choice]
        refine ⟨chosen :: more, a :: used, ?_, ?_, .cons ofA made, ?_⟩
        · dsimp only
          rw [returned, List.append_assoc]
          rfl
        · rw [List.length_cons, length, List.length_eraseIdx_of_lt bound]
          omega
        · exact ((List.subperm_cons a).mpr sub).trans perm.subperm

end

end CuckooEcho.Lib.Selection
