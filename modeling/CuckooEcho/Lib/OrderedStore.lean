import Mathlib.Algebra.BigOperators.Group.List.Basic
import Mathlib.Algebra.GroupWithZero.Nat
import Mathlib.Data.List.Sort

namespace CuckooEcho.Lib

/-! ## Stores whose entries stand in the order of their keys -/

structure OrderedStore (κ ν : Type*) [LT κ] where
  entries : List (κ × ν)
  sorted : entries.Pairwise fun e f => e.1 < f.1

namespace OrderedStore
variable {κ ν : Type*} [LinearOrder κ]

def empty : OrderedStore κ ν := ⟨[], List.Pairwise.nil⟩

def keys (store : OrderedStore κ ν) : List κ := store.entries.map Prod.fst

def put (store : OrderedStore κ ν) (k : κ) (v : ν) : OrderedStore κ ν where
  entries := store.entries.filter (·.1 < k) ++ (k, v) :: store.entries.filter (k < ·.1)
  sorted := by
    refine List.pairwise_append.mpr ⟨store.sorted.filter _, List.pairwise_cons.mpr ⟨?_, store.sorted.filter _⟩, ?_⟩
    · intro e above
      simpa using (List.mem_filter.mp above).2
    · intro e below f rest
      have lower : e.1 < k := by simpa using (List.mem_filter.mp below).2
      obtain rfl | above := List.mem_cons.mp rest
      · exact lower
      · exact lower.trans (by simpa using (List.mem_filter.mp above).2)

def del (store : OrderedStore κ ν) (k : κ) : OrderedStore κ ν :=
  ⟨store.entries.filter (·.1 ≠ k), store.sorted.filter _⟩

def get (store : OrderedStore κ ν) (k : κ) : Option ν := (store.entries.find? (·.1 = k)).map Prod.snd

variable {store : OrderedStore κ ν} {k : κ} {v : ν}

theorem nodup_keys (store : OrderedStore κ ν) : store.keys.Nodup :=
  (List.pairwise_map.mpr store.sorted).imp ne_of_lt

theorem put_perm (store : OrderedStore κ ν) (k : κ) (v : ν) :
    (store.put k v).entries.Perm ((k, v) :: (store.del k).entries) := by
  refine List.perm_middle.trans (List.Perm.cons _ ?_)
  have split := List.filter_append_perm (fun e : κ × ν => decide (e.1 < k)) (store.del k).entries
  refine List.Perm.trans (List.Perm.of_eq ?_) split
  rw [del, List.filter_filter, List.filter_filter]
  congr 1
  · apply List.filter_congr
    intro e _
    by_cases lower : e.1 < k
    · simp [lower, lower.ne]
    · simp [lower]
  · apply List.filter_congr
    intro e _
    rcases lt_trichotomy e.1 k with lower | same | above
    · simp [lower, lower.not_gt]
    · simp [same]
    · simp [above, above.ne', above.not_gt]

theorem mem_put {e : κ × ν} : e ∈ (store.put k v).entries ↔ e = (k, v) ∨ (e ∈ store.entries ∧ e.1 ≠ k) := by
  rw [(put_perm store k v).mem_iff, List.mem_cons, del, List.mem_filter, decide_eq_true_iff]

theorem mem_del {e : κ × ν} : e ∈ (store.del k).entries ↔ e ∈ store.entries ∧ e.1 ≠ k := by
  rw [del, List.mem_filter, decide_eq_true_iff]

theorem mem_foldl_del {e : κ × ν} {ks : List κ} : e ∈ (ks.foldl del store).entries ↔ e ∈ store.entries ∧ e.1 ∉ ks := by
  induction ks generalizing store with
  | nil => simp
  | cons k ks ih =>
      rw [List.foldl_cons, ih, mem_del, List.mem_cons, not_or, and_assoc]

theorem eq_of_mem {v' : ν} (here : (k, v) ∈ store.entries) (there : (k, v') ∈ store.entries) : v = v' := by
  have same := List.inj_on_of_nodup_map store.nodup_keys here there rfl
  exact congrArg Prod.snd same

theorem get_eq_some : store.get k = some v ↔ (k, v) ∈ store.entries := by
  constructor
  · intro got
    obtain ⟨e, found, rfl⟩ := Option.map_eq_some_iff.mp got
    obtain rfl : e.1 = k := by simpa using List.find?_some found
    exact List.mem_of_find?_eq_some found
  · intro member
    cases found : store.entries.find? (·.1 = k) with
    | none => simpa using List.find?_eq_none.mp found _ member
    | some e =>
        obtain rfl : e.1 = k := by simpa using List.find?_some found
        rw [get, found, Option.map_some, eq_of_mem (List.mem_of_find?_eq_some found) member]

theorem del_of_not_mem (absent : k ∉ store.keys) : store.del k = store := by
  obtain ⟨entries, sorted⟩ := store
  simp only [del, mk.injEq]
  refine List.filter_eq_self.mpr fun e member => ?_
  rw [decide_eq_true_iff]
  rintro rfl
  exact absent (List.mem_map_of_mem member)

theorem length_put (store : OrderedStore κ ν) (k : κ) (v : ν) :
    (store.put k v).entries.length = (store.del k).entries.length + 1 := (put_perm store k v).length_eq

theorem length_del_lt (present : k ∈ store.keys) : (store.del k).entries.length < store.entries.length := by
  obtain ⟨e, member, rfl⟩ := List.mem_map.mp present
  refine List.length_filter_lt_length_iff_exists.mpr ⟨e, member, ?_⟩
  simp

/-- What is left when the keys have been deleted one after the other. -/
theorem entries_foldl_del (store : OrderedStore κ ν) (ks : List κ) :
    (ks.foldl del store).entries = store.entries.filter (·.1 ∉ ks) := by
  induction ks generalizing store with
  | nil => simp
  | cons k ks ih =>
      rw [List.foldl_cons, ih, del, List.filter_filter]
      apply List.filter_congr
      intro e _
      by_cases gone : e.1 = k
      · simp [gone]
      · simp [gone]

/-- Deleting the keys of some entries leaves the others. -/
theorem foldl_del_perm {gone kept : List (κ × ν)} (perm : (gone ++ kept).Perm store.entries) :
    ((gone.map Prod.fst).foldl del store).entries.Perm kept := by
  have distinct : ((gone ++ kept).map Prod.fst).Nodup := (perm.map Prod.fst).nodup_iff.mpr store.nodup_keys
  rw [List.map_append] at distinct
  have apart := (List.nodup_append.mp distinct).2.2
  have none_left : gone.filter (·.1 ∉ gone.map Prod.fst) = [] := by
    refine List.filter_eq_nil_iff.mpr fun e member => ?_
    rw [decide_eq_true_iff, not_not]
    exact List.mem_map_of_mem member
  have all_left : kept.filter (·.1 ∉ gone.map Prod.fst) = kept := by
    refine List.filter_eq_self.mpr fun e member => ?_
    rw [decide_eq_true_iff]
    exact fun again => apart _ again _ (List.mem_map_of_mem member) rfl
  rw [entries_foldl_del]
  have filtered := perm.symm.filter fun e => decide (e.1 ∉ gone.map Prod.fst)
  rwa [List.filter_append, none_left, all_left] at filtered

end OrderedStore

/-! ## The shortest prefix whose removal makes a list fit -/

section
variable {α : Type*} (size : α → ℕ) (limit : ℕ)

/-- Elements are removed from the front until what is left fits. -/
def shed : ℕ → List α → List α
  | _, [] => []
  | total, a :: l => if total ≤ limit then [] else a :: shed (total - size a) l

/-- Without its first `n` elements the list fits, and not without fewer of them. -/
structure Sheds (l : List α) (n : ℕ) : Prop where
  fits : ((l.drop n).map size).sum ≤ limit
  needed : ∀ m < n, limit < ((l.drop m).map size).sum

variable {size limit}

theorem exists_sheds (size : α → ℕ) (limit : ℕ) (l : List α) :
    ∃ n ≤ l.length, shed size limit (l.map size).sum l = l.take n ∧ Sheds size limit l n := by
  induction l with
  | nil => exact ⟨0, Nat.le_refl 0, rfl, Nat.zero_le _, fun m below => absurd below (Nat.not_lt_zero m)⟩
  | cons a l ih =>
      by_cases fits : ((a :: l).map size).sum ≤ limit
      · exact ⟨0, Nat.zero_le _, if_pos fits, fits, fun m below => absurd below (Nat.not_lt_zero m)⟩
      · obtain ⟨n, bound, eq, left, needed⟩ := ih
        refine ⟨n + 1, Nat.succ_le_succ bound, ?_, left, ?_⟩
        · rw [shed, if_neg fits, List.map_cons, List.sum_cons, Nat.add_sub_cancel_left, eq, List.take_succ_cons]
        · intro m below
          cases m with
          | zero => exact Nat.lt_of_not_le fits
          | succ m => exact needed m (Nat.lt_of_succ_lt_succ below)

/-- An end of the list that fits is an end of what is left. -/
theorem Sheds.suffix_drop {l : List α} {n : ℕ} (h : Sheds size limit l n) {newest : List α} (suffix : newest <:+ l)
    (fits : (newest.map size).sum ≤ limit) : newest <:+ l.drop n := by
  rw [List.suffix_iff_eq_drop.mp suffix] at fits ⊢
  by_cases enough : n ≤ l.length - newest.length
  · rw [← Nat.add_sub_cancel' enough, ← List.drop_drop]
    exact List.drop_suffix _ _
  · exact absurd fits (Nat.not_le_of_lt (h.needed _ (Nat.lt_of_not_le enough)))

end

end CuckooEcho.Lib
