import Mathlib.Data.List.Basic

namespace CuckooEcho.Lib
variable {α : Type*} [DecidableEq α] (sep : α)

/-! ## Cutting a stream at a separator -/

/-- The complete lines, and the last one, which no separator has ended yet. -/
def cut : List α → List (List α) × List α
  | [] => ([], [])
  | x :: xs =>
      match cut xs with
      | (lines, last) =>
          if x = sep then ([] :: lines, last)
          else match lines with
            | [] => ([], x :: last)
            | line :: lines => ((x :: line) :: lines, last)

@[simp] theorem cut_nil : cut sep [] = ([], []) := rfl

theorem cut_separator (xs : List α) : cut sep (sep :: xs) = ([] :: (cut sep xs).1, (cut sep xs).2) := by
  simp [cut]

theorem cut_line (line rest : List α) (free : sep ∉ line) :
    cut sep (line ++ sep :: rest) = (line :: (cut sep rest).1, (cut sep rest).2) := by
  induction line with
  | nil => exact cut_separator sep rest
  | cons x line ih =>
      obtain ⟨differs, free⟩ := not_or.mp (List.mem_cons.not.mp free)
      rw [List.cons_append, cut, ih free]
      simp [Ne.symm differs]

theorem cut_incomplete (line : List α) (free : sep ∉ line) : cut sep line = ([], line) := by
  induction line with
  | nil => rfl
  | cons x line ih =>
      obtain ⟨differs, free⟩ := not_or.mp (List.mem_cons.not.mp free)
      rw [cut, ih free]
      simp [Ne.symm differs]

theorem cut_last_free (xs : List α) : sep ∉ (cut sep xs).2 := by
  induction xs with
  | nil => exact List.not_mem_nil
  | cons x xs ih =>
      rw [cut]
      cases found : cut sep xs with
      | mk lines last =>
          rw [found] at ih
          by_cases same : x = sep
          · simpa [same] using ih
          · cases lines with
            | nil => simpa [same, Ne.symm same] using ih
            | cons line lines => simpa [same] using ih

/-- Cutting what came later together with what was kept aside gives the same lines. -/
theorem cut_append (xs ys : List α) :
    cut sep (xs ++ ys) =
      ((cut sep xs).1 ++ (cut sep ((cut sep xs).2 ++ ys)).1, (cut sep ((cut sep xs).2 ++ ys)).2) := by
  induction xs with
  | nil => rfl
  | cons x xs ih =>
      rw [List.cons_append, cut, ih, cut]
      cases found : cut sep xs with
      | mk lines last =>
          by_cases same : x = sep
          · simp [same]
          · cases lines with
            | cons line lines => simp [same]
            | nil =>
                simp only [same, ↓reduceIte, List.nil_append, List.cons_append]
                rw [cut]
                simp [same]

end CuckooEcho.Lib
