import Mathlib.Algebra.BigOperators.Group.List.Basic
import Mathlib.Algebra.Group.Nat.Defs
import Mathlib.Algebra.GroupWithZero.Nat
import Mathlib.Data.List.Nodup

namespace CuckooEcho.Lib.Greedy

/-! ## What fits into a budget, taken in order -/

section
variable {α : Type*} (cost : α → Nat)

def costOf (l : List α) : Nat := (l.map cost).sum

/-- Whatever does not fit beside what has been spent is passed over. -/
def fill (budget : Int) : Int → List α → List α
  | _, [] => []
  | spent, a :: l => if spent + cost a ≤ budget then a :: fill budget (spent + cost a) l else fill budget spent l

@[simp] theorem costOf_nil : costOf cost [] = 0 := rfl

@[simp] theorem costOf_cons (a : α) (l : List α) : costOf cost (a :: l) = cost a + costOf cost l := by
  simp [costOf]

variable {cost} {budget spent : Int}

theorem fill_sublist (l : List α) : (fill cost budget spent l).Sublist l := by
  induction l generalizing spent with
  | nil => exact List.Sublist.slnil
  | cons a l ih =>
      rw [fill]
      split
      · exact ih.cons_cons a
      · exact ih.cons a

theorem costOf_fill_le (cost : α → Nat) (reached : spent ≤ budget) (l : List α) :
    spent + costOf cost (fill cost budget spent l) ≤ budget := by
  induction l generalizing spent with
  | nil => simpa [fill] using reached
  | cons a l ih =>
      rw [fill]
      split
      · rename_i fits
        have rest := ih fits
        rw [costOf_cons]
        omega
      · exact ih reached

theorem fill_append (front back : List α) : fill cost budget spent (front ++ back) =
    fill cost budget spent front ++ fill cost budget (spent + costOf cost (fill cost budget spent front)) back := by
  induction front generalizing spent with
  | nil => simp [fill]
  | cons a front ih =>
      rw [List.cons_append, fill, fill]
      split
      · rw [ih, costOf_cons, List.cons_append, Int.natCast_add, Int.add_assoc]
      · exact ih

/-- What comes after does not matter for what is taken of the front. -/
theorem mem_fill_front {front back : List α} (nodup : (front ++ back).Nodup) {a : α} (member : a ∈ front) :
    a ∈ fill cost budget spent (front ++ back) ↔ a ∈ fill cost budget spent front := by
  rw [fill_append, List.mem_append]
  refine ⟨fun taken => taken.resolve_right fun later => ?_, Or.inl⟩
  exact (List.nodup_append.mp nodup).2.2 a member a ((fill_sublist back).subset later) rfl

/-- An element is taken exactly if it fits beside what has been taken of those before it. -/
theorem mem_fill_iff {front back : List α} {a : α} (nodup : (front ++ a :: back).Nodup) :
    a ∈ fill cost budget spent (front ++ a :: back) ↔
      spent + costOf cost (fill cost budget spent front) + cost a ≤ budget := by
  obtain ⟨-, rest, apart⟩ := List.nodup_append.mp nodup
  have before : a ∉ fill cost budget spent front := fun taken =>
    apart a ((fill_sublist front).subset taken) a List.mem_cons_self rfl
  have after (spent : Int) : a ∉ fill cost budget spent back := fun taken =>
    (List.nodup_cons.mp rest).1 ((fill_sublist back).subset taken)
  rw [fill_append, List.mem_append, or_iff_right before, fill]
  split
  · rename_i fits
    exact iff_of_true List.mem_cons_self fits
  · rename_i tooMuch
    exact iff_of_false (after _) tooMuch

theorem fill_map (cost : α → Nat) (budget spent : Int) {β : Type*} (f : β → α) (l : List β) :
    (fill (fun b => cost (f b)) budget spent l).map f = fill cost budget spent (l.map f) := by
  induction l generalizing spent with
  | nil => rfl
  | cons b l ih =>
      rw [fill, List.map_cons, fill]
      split
      · rw [List.map_cons, ih]
      · exact ih spent

theorem costOf_perm {l l' : List α} (perm : l.Perm l') : costOf cost l = costOf cost l' := (perm.map cost).sum_eq

/-! ### Up to the first that does not fit -/

/-- The first that does not fit ends the selection, and is part of it if more than `slack` is left. -/
def fillUp (cost : α → Nat) (slack budget : Int) : Int → List α → List α
  | _, [] => []
  | spent, a :: l =>
      if budget < spent + cost a then if slack < budget - spent then [a] else []
      else a :: fillUp cost slack budget (spent + cost a) l

variable {slack : Int}

theorem fillUp_sublist (l : List α) : (fillUp cost slack budget spent l).Sublist l := by
  induction l generalizing spent with
  | nil => exact List.Sublist.slnil
  | cons a l ih =>
      rw [fillUp]
      split
      · split
        · exact (List.nil_sublist l).cons_cons a
        · exact List.nil_sublist _
      · exact ih.cons_cons a

/-- The first that does not fit finds no more than `slack` left. -/
def StopsNear (cost : α → Nat) (slack budget spent : Int) (l : List α) : Prop :=
  ∀ front a back, l = front ++ a :: back → spent + costOf cost front ≤ budget →
    budget < spent + costOf cost front + cost a → budget - (spent + costOf cost front) ≤ slack

theorem stopsNear_nil : StopsNear cost slack budget spent [] := by
  intro front a back split
  simp at split

theorem stopsNear_cons_of_tooMuch {a : α} {l : List α} (reached : spent ≤ budget) (tooMuch : budget < spent + cost a) :
    StopsNear cost slack budget spent (a :: l) ↔ budget - spent ≤ slack := by
  constructor
  · intro near
    have here := near [] a l rfl
    rw [costOf_nil] at here
    have few := here (by omega) (by omega)
    omega
  · intro few front b back split fits _
    cases front with
    | nil =>
        rw [costOf_nil]
        omega
    | cons c front =>
        obtain rfl : a = c := (List.cons.inj split).1
        rw [costOf_cons] at fits
        omega

theorem stopsNear_cons_of_fits {a : α} {l : List α} (fits : spent + cost a ≤ budget) :
    StopsNear cost slack budget spent (a :: l) ↔ StopsNear cost slack budget (spent + cost a) l := by
  constructor
  · intro near front b back split inside tooMuch
    have whole := near (a :: front) b back (congrArg (a :: ·) split)
    rw [costOf_cons, Int.natCast_add, ← Int.add_assoc] at whole
    exact whole inside tooMuch
  · intro near front b back split inside tooMuch
    cases front with
    | nil =>
        obtain rfl : a = b := (List.cons.inj split).1
        rw [costOf_nil] at tooMuch
        omega
    | cons c front =>
        obtain ⟨rfl, tail⟩ := List.cons.inj split
        rw [costOf_cons, Int.natCast_add, ← Int.add_assoc] at inside tooMuch ⊢
        exact near front b back tail inside tooMuch

/-- The selection keeps to the budget exactly if the first that does not fit finds no more than `slack` left. -/
theorem costOf_fillUp_le_iff (cost : α → Nat) (slack : Int) (reached : spent ≤ budget) (l : List α) :
    spent + costOf cost (fillUp cost slack budget spent l) ≤ budget ↔ StopsNear cost slack budget spent l := by
  induction l generalizing spent with
  | nil => exact iff_of_true (by simpa [fillUp] using reached) stopsNear_nil
  | cons a l ih =>
      rw [fillUp]
      split
      · rename_i tooMuch
        rw [stopsNear_cons_of_tooMuch reached tooMuch]
        split
        · rename_i more
          rw [costOf_cons, costOf_nil, Nat.add_zero]
          omega
        · rename_i few
          rw [costOf_nil]
          omega
      · rename_i within
        have fits := Int.not_lt.mp within
        rw [stopsNear_cons_of_fits fits, ← ih fits, costOf_cons, Int.natCast_add, ← Int.add_assoc]

end

end CuckooEcho.Lib.Greedy
