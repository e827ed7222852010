import Mathlib.Data.List.Sort

namespace CuckooEcho.Lib
open List

/-! ## Sorting by descending key, ties as they were -/

/-- The greater key first, and `before` among equal ones. -/
def Precedes {α κ : Type*} [LT κ] (key : α → κ) (before : α → α → Prop) (a b : α) : Prop :=
  key b < key a ∨ (key a = key b ∧ before a b)

section
variable {α κ : Type*} [LinearOrder κ] {key : α → κ} {before : α → α → Prop} {r : α → α → Prop} [DecidableRel r]

theorem Precedes.le {a b : α} (h : Precedes key before a b) : key b ≤ key a :=
  h.elim le_of_lt fun tie => tie.1.ge

theorem pairwise_precedes_orderedInsert (descending : ∀ a b, r a b ↔ key b ≤ key a) {a : α} {l : List α}
    (sorted : l.Pairwise (Precedes key before)) (first : ∀ b ∈ l, before a b) :
    (l.orderedInsert r a).Pairwise (Precedes key before) := by
  induction l with
  | nil => exact pairwise_singleton _ _
  | cons b l ih =>
      obtain ⟨head, tail⟩ := pairwise_cons.mp sorted
      by_cases le : r a b
      · rw [orderedInsert_cons_of_le r l le]
        refine pairwise_cons.mpr ⟨fun c member => ?_, sorted⟩
        have below : key c ≤ key a := by
          rcases mem_cons.mp member with rfl | later
          · exact (descending a c).mp le
          · exact (head c later).le.trans ((descending a b).mp le)
        exact below.lt_or_eq.imp id fun tie => ⟨tie.symm, first c member⟩
      · rw [orderedInsert_of_not_le r l le]
        refine pairwise_cons.mpr ⟨fun c member => ?_, ih tail fun c later => first c (mem_cons_of_mem b later)⟩
        rcases (mem_orderedInsert r).mp member with rfl | later
        · exact Or.inl (not_le.mp ((descending c b).not.mp le))
        · exact head c later

/-- The sort is stable. -/
theorem pairwise_precedes_insertionSort (descending : ∀ a b, r a b ↔ key b ≤ key a) {l : List α}
    (ordered : l.Pairwise before) : (l.insertionSort r).Pairwise (Precedes key before) := by
  induction l with
  | nil => exact Pairwise.nil
  | cons a l ih =>
      obtain ⟨head, tail⟩ := pairwise_cons.mp ordered
      rw [insertionSort_cons]
      exact pairwise_precedes_orderedInsert descending (ih tail) fun b member =>
        head b ((mem_insertionSort r).mp member)

theorem related_of_pairwise {R : α → α → Prop} {l : List α} (ordered : l.Pairwise R) {a b : α} (first : a ∈ l)
    (second : b ∈ l) (different : a ≠ b) : R a b ∨ R b a := by
  induction l with
  | nil => exact absurd first not_mem_nil
  | cons c l ih =>
      obtain ⟨head, tail⟩ := pairwise_cons.mp ordered
      rcases mem_cons.mp first with rfl | later <;> rcases mem_cons.mp second with rfl | later'
      · exact absurd rfl different
      · exact Or.inl (head b later')
      · exact Or.inr (head a later)
      · exact ih tail later later'

/-- What has been ranked is put back in order by a sort by time exactly if elements of the same time were ranked in
their order. -/
theorem pairwise_insertionSort_iff {τ : Type*} [LinearOrder τ] {place : α → ℕ} {time : α → τ} {l : List α}
    (ranked : l.Pairwise (Precedes key fun a b => place a < place b)) (apart : l.Pairwise fun a b => place a ≠ place b)
    (chronological : ∀ a ∈ l, ∀ b ∈ l, place a < place b → time a ≤ time b) :
    (l.insertionSort fun a b => time a ≤ time b).Pairwise (fun a b => place a < place b) ↔
      ∀ a ∈ l, ∀ b ∈ l, place a < place b → time a = time b → key b ≤ key a := by
  have ascending : ∀ a b, time a ≤ time b ↔ OrderDual.toDual (time b) ≤ OrderDual.toDual (time a) := fun _ _ =>
    OrderDual.toDual_le_toDual.symm
  have sorted := pairwise_precedes_insertionSort ascending ranked
  have apart' : (l.insertionSort fun a b => time a ≤ time b).Pairwise fun a b => place a ≠ place b :=
    ((perm_insertionSort _ l).pairwise_iff fun ne => ne.symm).mpr apart
  constructor
  · intro placed a member b member' before same
    have both := placed.and sorted
    have different : a ≠ b := fun eq => (Nat.ne_of_lt before) (congrArg place eq)
    rcases related_of_pairwise both ((mem_insertionSort _).mpr member) ((mem_insertionSort _).mpr member') different
      with ⟨-, ab⟩ | ⟨ba, -⟩
    · rcases ab with earlier | ⟨-, rank⟩
      · exact absurd same (OrderDual.toDual_lt_toDual.mp earlier).ne
      · exact rank.le
    · exact absurd ba (Nat.lt_asymm before)
  · intro agree
    refine (sorted.and apart').imp_of_mem fun {a b} member member' related => ?_
    have here := (mem_insertionSort _).mp member
    have here' := (mem_insertionSort _).mp member'
    by_contra wrong
    have after : place b < place a := Nat.lt_of_le_of_ne (Nat.le_of_not_lt wrong) related.2.symm
    rcases related.1 with earlier | ⟨same, rank⟩
    · exact absurd (OrderDual.toDual_lt_toDual.mp earlier) (not_lt.mpr (chronological b here' a here after))
    · have later := agree b here' a here after (OrderDual.toDual_inj.mp same).symm
      rcases rank with more | ⟨-, before⟩
      · exact absurd more (not_lt.mpr later)
      · exact wrong before

end

/-! ## The positions that come first -/

/-- The first `count` of the positions below `n`. -/
structure Leads (before : ℕ → ℕ → Prop) (n count : ℕ) (order : List ℕ) : Prop where
  length : order.length = min count n
  sorted : order.Pairwise before
  best : ∀ i ∈ order, ∀ j < n, j ∉ order → before i j

variable {before : ℕ → ℕ → Prop} {n : ℕ}

theorem leads_take {order : List ℕ} (sorted : order.Pairwise before) (perm : order.Perm (range n)) (count : ℕ) :
    Leads before n count (order.take count) := by
  have split : (order.take count ++ order.drop count).Pairwise before := by rwa [take_append_drop]
  refine ⟨?_, (pairwise_append.mp split).1, ?_⟩
  · rw [length_take, perm.length_eq, length_range]
  · intro i first j bound out
    have member : j ∈ order.take count ++ order.drop count := by
      rw [take_append_drop]
      exact perm.mem_iff.mpr (mem_range.mpr bound)
    exact (pairwise_append.mp split).2.2 i first j ((mem_append.mp member).resolve_left out)

/-- In a strict order, an element stands among the first few exactly if few enough precede it. -/
theorem mem_take_iff_countP {α : Type*} {R : α → α → Prop} [DecidableRel R] (asymm : ∀ a b, R a b → ¬ R b a)
    {order : List α} (sorted : order.Pairwise R) {a : α} (member : a ∈ order) (count : ℕ) :
    a ∈ order.take count ↔ order.countP (fun b => decide (R b a)) < count := by
  induction order generalizing count with
  | nil => exact absurd member not_mem_nil
  | cons b order ih =>
      obtain ⟨head, tail⟩ := pairwise_cons.mp sorted
      cases count with
      | zero => simp
      | succ count =>
          rw [take_succ_cons, mem_cons, countP_cons]
          by_cases first : a = b
          · subst first
            have none_later : order.countP (fun b => decide (R b a)) = 0 :=
              countP_eq_zero.mpr fun b later => by simpa using asymm a b (head b later)
            have not_self : ¬ R a a := fun loop => asymm a a loop loop
            simp [none_later, not_self]
          · have later : a ∈ order := (mem_cons.mp member).resolve_left first
            rw [or_iff_right first, ih tail later, if_pos (decide_eq_true (head a later)), Nat.add_lt_add_iff_right]

/-- The first few places have different values exactly if every place that repeats the value of an earlier one comes
after as many. -/
theorem nodup_map_take_iff {β : Type*} {R : ℕ → ℕ → Prop} [DecidableRel R] (asymm : ∀ i j, R i j → ¬ R j i)
    (trans : ∀ i j l, R i j → R j l → R i l) {f : ℕ → β} (tie : ∀ i j, f i = f j → i < j → R i j) {order : List ℕ}
    (perm : order.Perm (range n)) (sorted : order.Pairwise R) (count : ℕ) :
    ((order.take count).map f).Nodup ↔
      ∀ j < n, (∃ i < j, f i = f j) → count ≤ (range n).countP fun b => decide (R b j) := by
  have early {j : ℕ} (bound : j < n) :
      j ∈ order.take count ↔ ((range n).countP fun b => decide (R b j)) < count := by
    rw [← perm.countP_eq]
    exact mem_take_iff_countP asymm sorted (perm.mem_iff.mpr (mem_range.mpr bound)) count
  have below {j : ℕ} (member : j ∈ order.take count) : j < n :=
    mem_range.mp (perm.mem_iff.mp (mem_of_mem_take member))
  constructor
  · rintro nodup j bound ⟨i, less, same⟩
    by_contra few
    have later := (early bound).mpr (Nat.lt_of_not_le few)
    have fewer : ((range n).countP fun b => decide (R b i)) ≤ (range n).countP fun b => decide (R b j) := by
      refine countP_mono_left fun b _ precedes => ?_
      rw [decide_eq_true_iff] at precedes ⊢
      exact trans b i j precedes (tie i j same less)
    have earlier := (early (less.trans bound)).mpr (fewer.trans_lt (Nat.lt_of_not_le few))
    exact absurd (inj_on_of_nodup_map nodup earlier later same) less.ne
  · intro spread
    have apart {i j : ℕ} (later : j ∈ order.take count) (same : f i = f j) : ¬ i < j := fun less =>
      absurd ((early (below later)).mp later) (Nat.not_lt_of_le (spread j (below later) ⟨i, less, same⟩))
    refine Nodup.map_on (fun i first j second same => ?_) ((perm.nodup_iff.mpr nodup_range).sublist (take_sublist _ _))
    exact Nat.le_antisymm (Nat.le_of_not_lt (apart first same.symm)) (Nat.le_of_not_lt (apart second same))

theorem leads_range (n count : ℕ) : Leads (· < ·) n count ((range n).take count) :=
  leads_take pairwise_lt_range (Perm.refl _) count

/-- The sort of a list as an order of its positions. -/
theorem exists_ranking {α κ : Type*} [LinearOrder κ] (key : α → κ) {r : α → α → Prop} [DecidableRel r]
    (descending : ∀ a b, r a b ↔ key b ≤ key a) (l : List α) :
    ∃ order : List ℕ, order.Perm (range l.length) ∧ (l.insertionSort r).map some = order.map (l[·]?) ∧
      order.Pairwise fun i j => ∀ a ∈ l[i]?, ∀ b ∈ l[j]?, key b < key a ∨ (key a = key b ∧ i < j) := by
  let tagged := l.zipIdx.insertionSort fun a b => r a.1 b.1
  have place : ∀ e ∈ tagged, l[e.2]? = some e.1 := fun e member =>
    mk_mem_zipIdx_iff_getElem?.mp ((mem_insertionSort _).mp member)
  have increasing : l.zipIdx.Pairwise fun a b => a.2 < b.2 := by
    rw [← pairwise_map (f := Prod.snd) (R := (· < ·)), zipIdx_map_snd]
    exact pairwise_lt_range'
  have sorted : tagged.Pairwise (Precedes (fun e : α × ℕ => key e.1) fun a b => a.2 < b.2) :=
    pairwise_precedes_insertionSort (fun a b => descending a.1 b.1) increasing
  have forget : tagged.map Prod.fst = l.insertionSort r := by
    rw [map_insertionSort _ r Prod.fst l.zipIdx fun a _ b _ => Iff.rfl, zipIdx_map_fst]
  refine ⟨tagged.map Prod.snd, ?_, ?_, ?_⟩
  · rw [range_eq_range', ← zipIdx_map_snd 0 l]
    exact (perm_insertionSort _ _).map Prod.snd
  · rw [← forget, map_map, map_map]
    exact map_congr_left fun e member => (place e member).symm
  · refine pairwise_map.mpr (sorted.imp_of_mem fun {x y} first second precedes => ?_)
    rintro a here b there
    obtain rfl := Option.some.inj ((place x first).symm.trans here)
    obtain rfl := Option.some.inj ((place y second).symm.trans there)
    exact precedes

end CuckooEcho.Lib
