import Mathlib.Algebra.GroupWithZero.Nat
import Mathlib.Data.List.Induction
import Mathlib.Data.List.Nodup

namespace CuckooEcho.Lib

/-! ## Dictionaries that keep the order of insertion -/

structure Dict (κ ν : Type*) where
  items : List (κ × ν)
  nodup : (items.map Prod.fst).Nodup

namespace Dict
variable {κ ν : Type*}

def empty : Dict κ ν := ⟨[], List.nodup_nil⟩

def keys (d : Dict κ ν) : List κ := d.items.map Prod.fst

def values (d : Dict κ ν) : List ν := d.items.map Prod.snd

variable [DecidableEq κ]

def get (d : Dict κ ν) (k : κ) : Option ν := (d.items.find? (·.1 = k)).map Prod.snd

theorem keys_update (items : List (κ × ν)) (k : κ) (v : ν) :
    (items.map fun item => if item.1 = k then (k, v) else item).map Prod.fst = items.map Prod.fst := by
  rw [List.map_map]
  refine List.map_congr_left fun item _ => ?_
  by_cases here : item.1 = k
  · simp [here]
  · simp [here]

/-- A key that is set again keeps its place. -/
def set (d : Dict κ ν) (k : κ) (v : ν) : Dict κ ν :=
  if known : k ∈ d.keys then
    ⟨d.items.map fun item => if item.1 = k then (k, v) else item, (keys_update d.items k v).symm ▸ d.nodup⟩
  else
    ⟨d.items ++ [(k, v)], by
      rw [List.map_append]
      exact d.nodup.append (List.nodup_singleton k) (by simpa [keys] using known)⟩

def erase (d : Dict κ ν) (k : κ) : Dict κ ν :=
  ⟨d.items.filter (·.1 ≠ k), d.nodup.sublist (List.filter_sublist.map Prod.fst)⟩

def setAll (d : Dict κ ν) (items : List (κ × ν)) : Dict κ ν := items.foldl (fun d item => d.set item.1 item.2) d

def eraseAll (d : Dict κ ν) (ks : List κ) : Dict κ ν := ks.foldl erase d

variable {d : Dict κ ν} {k k' : κ} {v : ν}

theorem get_eq_some : d.get k = some v ↔ (k, v) ∈ d.items := by
  constructor
  · intro found
    obtain ⟨⟨k', v'⟩, here, rfl⟩ := Option.map_eq_some_iff.mp found
    obtain rfl : k' = k := by simpa using List.find?_some here
    exact List.mem_of_find?_eq_some here
  · intro member
    cases here : d.items.find? (·.1 = k) with
    | none =>
        have other := List.find?_eq_none.mp here (k, v) member
        simp at other
    | some item =>
        have same : item.1 = k := by simpa using List.find?_some here
        have unique : item = (k, v) :=
          List.inj_on_of_nodup_map d.nodup (List.mem_of_find?_eq_some here) member same
        rw [get, here, unique]
        rfl

theorem mem_keys : k ∈ d.keys ↔ ∃ v, d.get k = some v := by
  simp [keys, get_eq_some]

theorem mem_values : v ∈ d.values ↔ ∃ k, d.get k = some v := by
  simp [values, get_eq_some]

theorem filter_items (found : d.get k = some v) : (d.items.filter fun item => k = item.1) = [(k, v)] := by
  have member := get_eq_some.mp found
  have nodup := d.nodup
  generalize d.items = items at member nodup ⊢
  induction items with
  | nil => exact absurd member List.not_mem_nil
  | cons item items ih =>
      obtain ⟨fresh, rest⟩ := List.nodup_cons.mp nodup
      obtain rfl | later := List.mem_cons.mp member
      · have others : (items.filter fun item => k = item.1) = [] := List.filter_eq_nil_iff.mpr fun item there => by
          rw [decide_eq_true_iff]
          exact fun same => fresh (List.mem_map.mpr ⟨item, there, same.symm⟩)
        rw [List.filter_cons_of_pos (by simp), others]
      · have other : k ≠ item.1 := fun same => fresh (List.mem_map.mpr ⟨(k, v), later, same⟩)
        rw [List.filter_cons_of_neg (by simpa using other), ih later rest]

@[simp] theorem get_empty (k : κ) : (empty : Dict κ ν).get k = none := rfl

@[simp] theorem get_set (d : Dict κ ν) (k k' : κ) (v : ν) :
    (d.set k v).get k' = if k' = k then some v else d.get k' := by
  ext w
  rw [get_eq_some, set]
  split
  · rename_i known
    obtain ⟨old, found⟩ := mem_keys.mp known
    rw [List.mem_map]
    by_cases same : k' = k
    · subst same
      rw [if_pos rfl]
      constructor
      · rintro ⟨item, -, eq⟩
        by_cases here : item.1 = k'
        · rw [if_pos here] at eq
          exact congrArg some (congrArg Prod.snd eq)
        · rw [if_neg here] at eq
          exact absurd (congrArg Prod.fst eq) here
      · intro eq
        refine ⟨(k', old), get_eq_some.mp found, ?_⟩
        rw [if_pos rfl, Option.some.inj eq]
    · rw [if_neg same, get_eq_some]
      constructor
      · rintro ⟨item, member, eq⟩
        by_cases here : item.1 = k
        · rw [if_pos here] at eq
          exact absurd (congrArg Prod.fst eq).symm same
        · rw [if_neg here] at eq
          exact eq ▸ member
      · exact fun member => ⟨(k', w), member, if_neg same⟩
  · rename_i unknown
    rw [List.mem_append, List.mem_singleton, Prod.mk.injEq]
    by_cases same : k' = k
    · subst same
      rw [if_pos rfl, Option.some.injEq, eq_comm]
      refine ⟨?_, fun eq => Or.inr ⟨rfl, eq.symm⟩⟩
      rintro (member | ⟨-, rfl⟩)
      · exact absurd (mem_keys.mpr ⟨w, get_eq_some.mpr member⟩) unknown
      · rfl
    · rw [if_neg same, get_eq_some]
      simp [same]

@[simp] theorem get_erase (d : Dict κ ν) (k k' : κ) :
    (d.erase k).get k' = if k' = k then none else d.get k' := by
  ext v
  rw [get_eq_some]
  by_cases same : k' = k
  · simp [erase, same]
  · simp [erase, same, get_eq_some]

/-- A key that is not there is left out. -/
def modify (d : Dict κ ν) (k : κ) (f : ν → ν) : Dict κ ν :=
  match d.get k with
  | some v => d.set k (f v)
  | none => d

@[simp] theorem get_modify (d : Dict κ ν) (k k' : κ) (f : ν → ν) :
    (d.modify k f).get k' = if k' = k then (d.get k).map f else d.get k' := by
  unfold modify
  split
  case h_1 v found =>
    rw [get_set, found]
    rfl
  case h_2 missing =>
    split
    · rename_i here
      rw [here, missing]
      rfl
    · rfl

theorem setAll_concat (d : Dict κ ν) (items : List (κ × ν)) (item : κ × ν) :
    d.setAll (items ++ [item]) = (d.setAll items).set item.1 item.2 := by
  simp [setAll, List.foldl_append]

theorem get_setAll (d : Dict κ ν) (items : List (κ × ν)) (k : κ) :
    (d.setAll items).get k = ((empty.setAll items).get k).or (d.get k) := by
  induction items using List.reverseRecOn with
  | nil => rfl
  | append_singleton items item ih =>
      rw [setAll_concat, setAll_concat, get_set, get_set]
      split
      · rfl
      · exact ih

/-- Of the items with a key, the last one counts. -/
theorem get_empty_setAll (items : List (κ × ν)) (k : κ) :
    ((empty : Dict κ ν).setAll items).get k = (items.filter (·.1 = k)).getLast?.map Prod.snd := by
  induction items using List.reverseRecOn with
  | nil => rfl
  | append_singleton items item ih =>
      rw [setAll_concat, get_set, ih, List.filter_append]
      by_cases here : k = item.1
      · simp [here]
      · simp [here, Ne.symm here]

theorem setAll_items (d : Dict κ ν) : empty.setAll d.items = d := by
  obtain ⟨items, nodup⟩ := d
  have same (items : List (κ × ν)) (nodup : (items.map Prod.fst).Nodup) :
      ((empty : Dict κ ν).setAll items).items = items := by
    induction items using List.reverseRecOn with
    | nil => rfl
    | append_singleton items item ih =>
        rw [List.map_append] at nodup
        obtain ⟨earlier, -, apart⟩ := List.nodup_append.mp nodup
        have fresh : item.1 ∉ ((empty : Dict κ ν).setAll items).keys := by
          rw [keys, ih earlier]
          exact fun again => apart _ again _ (List.mem_singleton_self _) rfl
        rw [setAll_concat, set, dif_neg fresh]
        exact congrArg (· ++ [item]) (ih earlier)
  have eq := same items nodup
  revert eq
  cases (empty : Dict κ ν).setAll items
  rintro rfl
  rfl

/-- The other items stay as they are. -/
theorem filter_set (d : Dict κ ν) (k : κ) (v : ν) :
    (d.set k v).items.filter (·.1 ≠ k) = d.items.filter (·.1 ≠ k) := by
  rw [set]
  split
  · rw [List.filter_map]
    have kept : (fun item : κ × ν => decide (item.1 ≠ k)) ∘ (fun item => if item.1 = k then (k, v) else item) =
        fun item => decide (item.1 ≠ k) := by
      funext item
      by_cases here : item.1 = k
      · simp [here]
      · simp [here]
    rw [kept]
    refine (List.map_congr_left fun item member => ?_).trans (List.map_id _)
    exact if_neg (of_decide_eq_true (List.mem_filter.mp member).2)
  · simp

theorem mem_of_get_setAll {items : List (κ × ν)} (found : (empty.setAll items).get k = some v) : (k, v) ∈ items := by
  induction items using List.reverseRecOn with
  | nil => cases found
  | append_singleton items item ih =>
      rw [setAll_concat, get_set] at found
      split at found
      · rename_i same
        rw [same, ← Option.some.inj found]
        exact List.mem_append_right _ (List.mem_singleton_self _)
      · exact List.mem_append_left _ (ih found)

theorem get_setAll_ne_none {items : List (κ × ν)} (member : (k, v) ∈ items) : (d.setAll items).get k ≠ none := by
  induction items using List.reverseRecOn with
  | nil => exact absurd member List.not_mem_nil
  | append_singleton items item ih =>
      rw [setAll_concat, get_set]
      by_cases last : k = item.1
      · simp [last]
      · rw [if_neg last]
        apply ih
        refine (List.mem_append.mp member).resolve_right fun here => last ?_
        exact congrArg Prod.fst (List.mem_singleton.mp here)

theorem keys_set (d : Dict κ ν) (k : κ) (v : ν) : (d.set k v).keys = if k ∈ d.keys then d.keys else d.keys ++ [k] := by
  unfold set
  split
  · exact keys_update d.items k v
  · simp [keys]

theorem mem_keys_setAll {items : List (κ × ν)} : k ∈ (empty.setAll items).keys ↔ k ∈ items.map Prod.fst := by
  rw [mem_keys]
  constructor
  · rintro ⟨v, found⟩
    exact List.mem_map_of_mem (mem_of_get_setAll found)
  · intro member
    obtain ⟨item, here, rfl⟩ := List.mem_map.mp member
    exact Option.ne_none_iff_exists'.mp (get_setAll_ne_none here)

/-- The keys stand in the order in which they were set first. -/
theorem find?_keys_setAll (items : List (κ × ν)) (p : κ → Bool) :
    ((empty : Dict κ ν).setAll items).keys.find? p = (items.map Prod.fst).find? p := by
  induction items using List.reverseRecOn with
  | nil => rfl
  | append_singleton items item ih =>
      rw [setAll_concat, keys_set, List.map_append, List.find?_append, ← ih]
      split
      · rename_i known
        cases found : ((empty : Dict κ ν).setAll items).keys.find? p with
        | some k => rw [Option.some_or]
        | none =>
            have refused := List.find?_eq_none.mp found item.1 known
            simp [refused]
      · rw [List.find?_append]
        rfl

theorem find?_items (d : Dict κ ν) (p : κ → Bool) :
    (d.items.find? fun item => p item.1).map Prod.snd = (d.keys.find? p).bind d.get := by
  have keyOf : d.keys.find? p = (d.items.find? fun item => p item.1).map Prod.fst := by
    rw [keys, List.find?_map]
    rfl
  rw [keyOf]
  cases found : d.items.find? fun item => p item.1 with
  | none => rfl
  | some item => exact (get_eq_some.mpr (List.mem_of_find?_eq_some found)).symm

theorem get_eraseAll (d : Dict κ ν) (ks : List κ) (k : κ) :
    (d.eraseAll ks).get k = if k ∈ ks then none else d.get k := by
  induction ks generalizing d with
  | nil => simp [eraseAll]
  | cons k' ks ih =>
      rw [eraseAll, List.foldl_cons, ← eraseAll, ih, get_erase]
      by_cases here : k = k'
      · simp [here]
      · simp [here]

/-- A dictionary filled from a function of its keys holds what the function says. -/
theorem get_setAll_map (ks : List κ) (f : κ → ν) (k : κ) :
    ((empty : Dict κ ν).setAll (ks.map fun k => (k, f k))).get k = if k ∈ ks then some (f k) else none := by
  induction ks using List.reverseRecOn with
  | nil => rfl
  | append_singleton ks k' ih =>
      rw [List.map_append, List.map_singleton, setAll_concat, get_set, ih]
      by_cases here : k = k'
      · simp [here]
      · simp [here]

theorem setAll_map_inj {ks : List κ} {f g : κ → ν} :
    (empty : Dict κ ν).setAll (ks.map fun k => (k, f k)) = empty.setAll (ks.map fun k => (k, g k)) ↔
      ∀ k ∈ ks, f k = g k := by
  constructor
  · intro same k member
    have at_k := congrArg (get · k) same
    simpa [get_setAll_map, member] using at_k
  · intro same
    rw [List.map_congr_left fun k member => congrArg (Prod.mk k) (same k member)]

theorem sum_update {items : List (κ × Nat)} (nodup : (items.map Prod.fst).Nodup) {k : κ} {old : Nat} (v : Nat)
    (member : (k, old) ∈ items) :
    ((items.map fun item => if item.1 = k then (k, v) else item).map Prod.snd).sum + old =
      (items.map Prod.snd).sum + v := by
  induction items with
  | nil => cases member
  | cons item items ih =>
      obtain ⟨absent, nodup⟩ := List.nodup_cons.mp nodup
      rcases List.mem_cons.mp member with rfl | later
      · have others : (items.map fun item => if item.1 = k then (k, v) else item) = items := by
          refine (List.map_congr_left fun other there => ?_).trans (List.map_id items)
          exact if_neg fun here => absent (List.mem_map.mpr ⟨other, there, here⟩)
        simp only [List.map_cons, ↓reduceIte, List.sum_cons, others]
        omega
      · have other : item.1 ≠ k := fun here => absent (List.mem_map.mpr ⟨_, later, here.symm⟩)
        have rest := ih nodup later
        simp only [List.map_cons, other, ↓reduceIte, List.sum_cons]
        omega

theorem sum_values_set (d : Dict κ Nat) (k : κ) (v : Nat) :
    (d.set k v).values.sum + (d.get k).getD 0 = d.values.sum + v := by
  by_cases known : k ∈ d.keys
  · obtain ⟨old, found⟩ := mem_keys.mp known
    rw [found, set, dif_pos known]
    exact sum_update d.nodup v (get_eq_some.mp found)
  · have missing : d.get k = none :=
      Option.eq_none_iff_forall_not_mem.mpr fun old found => known (mem_keys.mpr ⟨old, found⟩)
    rw [missing, set, dif_neg known]
    simp [values]

end Dict

end CuckooEcho.Lib
