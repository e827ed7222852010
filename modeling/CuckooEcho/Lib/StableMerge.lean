import CuckooEcho.Lib.Ranking

namespace CuckooEcho.Lib
open List

/-! ## The first element for each key -/

section
variable {α ι : Type*} [DecidableEq ι] (key : α → ι)

/-- Elements whose key has been seen are dropped. -/
def keepFirst : List ι → List α → List α
  | _, [] => []
  | seen, a :: l =>
      if key a ∈ seen then keepFirst seen l else a :: keepFirst (key a :: seen) l

variable {key} {seen : List ι}

theorem keepFirst_sublist (l : List α) : (keepFirst key seen l).Sublist l := by
  induction l generalizing seen with
  | nil => exact nil_sublist _
  | cons a l ih =>
      by_cases known : key a ∈ seen
      · rw [keepFirst, if_pos known]
        exact ih.cons a
      · rw [keepFirst, if_neg known]
        exact ih.cons_cons a

theorem mem_map_keepFirst {l : List α} {k : ι} :
    k ∈ (keepFirst key seen l).map key ↔ k ∈ l.map key ∧ k ∉ seen := by
  induction l generalizing seen with
  | nil => simp [keepFirst]
  | cons a l ih =>
      unfold keepFirst
      split
      · rename_i known
        rw [ih, map_cons, mem_cons]
        refine and_congr_left fun fresh => (or_iff_right ?_).symm
        rintro rfl
        exact fresh known
      · rename_i unknown
        rw [map_cons, mem_cons, ih, map_cons, mem_cons, mem_cons, not_or]
        constructor
        · rintro (rfl | ⟨member, -, fresh⟩)
          · exact ⟨Or.inl rfl, unknown⟩
          · exact ⟨Or.inr member, fresh⟩
        · rintro ⟨here | member, fresh⟩
          · exact Or.inl here
          · by_cases here : k = key a
            · exact Or.inl here
            · exact Or.inr ⟨member, here, fresh⟩

theorem nodup_map_keepFirst (l : List α) : ((keepFirst key seen l).map key).Nodup := by
  induction l generalizing seen with
  | nil => exact nodup_nil
  | cons a l ih =>
      unfold keepFirst
      split
      · exact ih
      · rw [map_cons, nodup_cons]
        refine ⟨fun again => ?_, ih⟩
        exact (mem_map_keepFirst.mp again).2 mem_cons_self

/-- A list without repeated keys is left as it is. -/
theorem keepFirst_eq_self {l : List α} (nodup : (l.map key).Nodup) (fresh : ∀ k ∈ l.map key, k ∉ seen) :
    keepFirst key seen l = l := by
  induction l generalizing seen with
  | nil => rfl
  | cons a l ih =>
      obtain ⟨once, rest⟩ := nodup_cons.mp nodup
      obtain ⟨here, later⟩ := forall_mem_cons.mp fresh
      unfold keepFirst
      rw [if_neg here, ih rest]
      intro k member known
      obtain rfl | known := mem_cons.mp known
      · exact once member
      · exact later k member known

/-- Which keys have been seen matters only for the keys that occur. -/
theorem keepFirst_congr {l : List α} {seen' : List ι} (same : ∀ k ∈ l.map key, k ∈ seen ↔ k ∈ seen') :
    keepFirst key seen l = keepFirst key seen' l := by
  induction l generalizing seen seen' with
  | nil => rfl
  | cons a l ih =>
      obtain ⟨here, later⟩ := forall_mem_cons.mp same
      have more : ∀ k ∈ l.map key, k ∈ key a :: seen ↔ k ∈ key a :: seen' := fun k member => by
        rw [mem_cons, mem_cons, later k member]
      unfold keepFirst
      rw [ih later, ih more]
      simp only [here]

theorem filter_keepFirst (p : ι → Bool) (l : List α) :
    (keepFirst key seen l).filter (fun a => p (key a)) = keepFirst key seen (l.filter fun a => p (key a)) := by
  induction l generalizing seen with
  | nil => rfl
  | cons a l ih =>
      by_cases kept : p (key a)
      · rw [filter_cons, if_pos kept, keepFirst, keepFirst]
        split
        · exact ih
        · rw [filter_cons, if_pos kept, ih]
      · rw [filter_cons, if_neg kept, keepFirst]
        split
        · exact ih
        · -- the key that is remembered belongs to no element that is kept
          rw [filter_cons, if_neg kept, ih]
          apply keepFirst_congr
          intro k member
          obtain ⟨b, inside, rfl⟩ := mem_map.mp member
          rw [mem_cons, or_iff_right]
          intro same
          exact kept (same ▸ (mem_filter.mp inside).2)

end

/-! ## Stable sorting and filtering -/

section
variable {α : Type*} {r : α → α → Prop} [DecidableRel r]

theorem orderedInsert_of_forall {a : α} {l : List α} (first : ∀ b ∈ l, r a b) : l.orderedInsert r a = a :: l := by
  cases l with
  | nil => rfl
  | cons b l => exact orderedInsert_cons_of_le r l (first b mem_cons_self)

theorem filter_orderedInsert [IsTrans α r] (p : α → Bool) (a : α) {l : List α} (sorted : l.Pairwise r) :
    (l.orderedInsert r a).filter p = if p a then (l.filter p).orderedInsert r a else l.filter p := by
  induction l with
  | nil => by_cases kept : p a <;> simp [kept]
  | cons b l ih =>
      obtain ⟨head, tail⟩ := pairwise_cons.mp sorted
      by_cases le : r a b
      · have first : ∀ c ∈ (b :: l).filter p, r a c := by
          intro c member
          obtain rfl | later := mem_cons.mp (mem_filter.mp member).1
          · exact le
          · exact IsTrans.trans a b c le (head c later)
        rw [orderedInsert_cons_of_le r l le, filter_cons, orderedInsert_of_forall first]
      · rw [orderedInsert_of_not_le r l le, filter_cons, ih tail, filter_cons]
        by_cases kept : p b
        · rw [if_pos kept, if_pos kept]
          split
          · rw [orderedInsert_of_not_le r _ le]
          · rfl
        · rw [if_neg kept, if_neg kept]

theorem filter_insertionSort [IsTrans α r] [Std.Total r] (p : α → Bool) (l : List α) :
    (l.insertionSort r).filter p = (l.filter p).insertionSort r := by
  induction l with
  | nil => rfl
  | cons a l ih =>
      rw [insertionSort_cons, filter_orderedInsert p a (pairwise_insertionSort r l), ih, filter_cons]
      split <;> rfl

end

/-! ## Two sources in one order -/

theorem mem_of_filter_eq {α : Type*} {p : α → Bool} {a b : α} {l l' : List α}
    (same : (a :: l).filter p = (b :: l').filter p) (left : p a = false) (right : p b = true) : b ∈ l := by
  have member : b ∈ (b :: l').filter p := mem_filter.mpr ⟨mem_cons_self, right⟩
  rw [← same, filter_cons_of_neg (by simp [left])] at member
  exact (mem_filter.mp member).1

/-- Two lists in an order that tells the elements of the two parts apart are equal if their parts are. -/
theorem eq_of_filter_eq {α : Type*} {R : α → α → Prop} (p : α → Bool)
    (cross : ∀ a b, p a = true → p b = false → R a b → R b a → False) {l l' : List α} (sorted : l.Pairwise R)
    (sorted' : l'.Pairwise R) (inside : l.filter p = l'.filter p)
    (outside : l.filter (! p ·) = l'.filter (! p ·)) : l = l' := by
  induction l generalizing l' with
  | nil =>
      cases l' with
      | nil => rfl
      | cons b l' => cases kept : p b <;> simp [kept] at inside outside
  | cons a l ih =>
      cases l' with
      | nil => cases kept : p a <;> simp [kept] at inside outside
      | cons b l' =>
          obtain ⟨head, tail⟩ := pairwise_cons.mp sorted
          obtain ⟨head', tail'⟩ := pairwise_cons.mp sorted'
          cases left : p a <;> cases right : p b
          · simp only [filter_cons, left, right, if_true, cons.injEq, Bool.not_false, Bool.false_eq_true,
              if_false] at inside outside
            rw [outside.1, ih tail tail' inside outside.2]
          · have later : b ∈ l := mem_of_filter_eq inside left right
            have later' : a ∈ l' := mem_of_filter_eq outside.symm (by simp [right]) (by simp [left])
            exact (cross b a right left (head' a later') (head b later)).elim
          · have later : b ∈ l := mem_of_filter_eq outside (by simp [left]) (by simp [right])
            have later' : a ∈ l' := mem_of_filter_eq inside.symm right left
            exact (cross a b left right (head b later) (head' a later')).elim
          · simp only [filter_cons, left, right, if_true, cons.injEq, Bool.not_true, Bool.false_eq_true,
              if_false] at inside outside
            rw [inside.1, ih tail tail' inside.2 outside]

section
variable {α ι κ : Type*} [DecidableEq ι] [LinearOrder κ] (ident : α → ι) (time : α → κ)

/-- Both lists by time, and of the elements with one identity the first. -/
def mergeByTime (server optimistic : List α) : List α :=
  keepFirst ident [] ((server ++ optimistic).insertionSort fun a b => time a ≤ time b)

variable {ident time} {known : ι → Bool} {server optimistic : List α}

theorem sorted_mergeByTime (server optimistic : List α) :
    (mergeByTime ident time server optimistic).Pairwise fun a b => time a ≤ time b :=
  (pairwise_insertionSort (fun a b => time a ≤ time b) _).sublist (keepFirst_sublist _)

theorem mem_map_mergeByTime {k : ι} :
    k ∈ (mergeByTime ident time server optimistic).map ident ↔ k ∈ (server ++ optimistic).map ident := by
  rw [mergeByTime, mem_map_keepFirst, and_iff_left not_mem_nil, mem_map, mem_map]
  simp only [mem_insertionSort]

/-- At equal times, what the server knows comes first. -/
theorem precedes_mergeByTime (inServer : ∀ a ∈ server, known (ident a) = true)
    (notInServer : ∀ a ∈ optimistic, known (ident a) = false) :
    (mergeByTime ident time server optimistic).Pairwise
      (Precedes (fun a => OrderDual.toDual (time a)) fun a b => known (ident b) = true → known (ident a) = true) := by
  have ordered : (server ++ optimistic).Pairwise fun a b => known (ident b) = true → known (ident a) = true := by
    refine pairwise_append.mpr ⟨?_, ?_, fun a here _ _ _ => inServer a here⟩
    · exact pairwise_of_forall_mem_list fun a here _ _ _ => inServer a here
    · exact pairwise_of_forall_mem_list fun _ _ b there found => absurd found (by simp [notInServer b there])
  have sorted : ((server ++ optimistic).insertionSort fun a b => time a ≤ time b).Pairwise
      (Precedes (fun a => OrderDual.toDual (time a)) fun a b => known (ident b) = true → known (ident a) = true) :=
    pairwise_precedes_insertionSort (fun _ _ => Iff.rfl) ordered
  exact sorted.sublist (keepFirst_sublist _)

theorem filter_mergeByTime (p : ι → Bool) (server optimistic : List α) :
    (mergeByTime ident time server optimistic).filter (fun a => p (ident a)) =
      mergeByTime ident time (server.filter fun a => p (ident a)) (optimistic.filter fun a => p (ident a)) := by
  rw [mergeByTime, filter_keepFirst, filter_insertionSort, filter_append]
  rfl

theorem filter_known_mergeByTime (inServer : ∀ a ∈ server, known (ident a) = true)
    (notInServer : ∀ a ∈ optimistic, known (ident a) = false) :
    (mergeByTime ident time server optimistic).filter (fun a => known (ident a)) =
      mergeByTime ident time server [] := by
  rw [filter_mergeByTime, filter_eq_self.mpr inServer,
    filter_eq_nil_iff.mpr fun a member => by simp [notInServer a member]]

theorem filter_unknown_mergeByTime (inServer : ∀ a ∈ server, known (ident a) = true)
    (notInServer : ∀ a ∈ optimistic, known (ident a) = false) :
    (mergeByTime ident time server optimistic).filter (fun a => ! known (ident a)) =
      mergeByTime ident time [] optimistic := by
  rw [filter_mergeByTime (fun k => ! known k), filter_eq_nil_iff.mpr fun a member => by simp [inServer a member],
    filter_eq_self.mpr fun a member => by simp [notInServer a member]]

theorem mergeByTime_of_merged (optimistic : List α) :
    mergeByTime ident time [] (mergeByTime ident time [] optimistic) = mergeByTime ident time [] optimistic := by
  rw [mergeByTime, nil_append, Pairwise.insertionSort_eq (sorted_mergeByTime [] optimistic)]
  exact keepFirst_eq_self (nodup_map_keepFirst _) fun _ _ => not_mem_nil

/-- Merging the elements that the server does not know once more changes nothing. -/
theorem mergeByTime_again (inServer : ∀ a ∈ server, known (ident a) = true)
    (notInServer : ∀ a ∈ optimistic, known (ident a) = false) :
    mergeByTime ident time server ((mergeByTime ident time server optimistic).filter fun a => ! known (ident a)) =
      mergeByTime ident time server optimistic := by
  have rest : (mergeByTime ident time server optimistic).filter (fun a => ! known (ident a)) =
      mergeByTime ident time [] optimistic := filter_unknown_mergeByTime inServer notInServer
  have unknown : ∀ a ∈ mergeByTime ident time [] optimistic, known (ident a) = false := by
    intro a member
    rw [← rest] at member
    simpa using (mem_filter.mp member).2
  rw [rest]
  refine eq_of_filter_eq (fun a => known (ident a)) ?_ (precedes_mergeByTime inServer unknown)
    (precedes_mergeByTime inServer notInServer) ?_ ?_
  · rintro a b here there first (before | ⟨-, back⟩)
    · exact (first.le.trans_lt before).false
    · exact absurd (back here) (by simp [there])
  · rw [filter_known_mergeByTime inServer unknown, filter_known_mergeByTime inServer notInServer]
  · rw [filter_unknown_mergeByTime inServer unknown, rest, mergeByTime_of_merged]

end

end CuckooEcho.Lib
