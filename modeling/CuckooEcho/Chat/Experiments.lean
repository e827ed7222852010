import CuckooEcho.Lib.Dict
import CuckooEcho.Lib.Json.Dumps
import Mathlib.Algebra.Ring.Int.Defs
import Mathlib.Order.Interval.Finset.Nat

namespace CuckooEcho.Chat.Experiments
open Lib

structure ExperimentVariant where
  id : String
  weight : Int
  deriving DecidableEq, Repr

/-! ## `assign_variant` -/

/-- The first variant at which the weights added up so far exceed the bucket. -/
def pick (bucket : Int) : Int → List ExperimentVariant → Option ExperimentVariant
  | _, [] => none
  | cumulative, variant :: variants =>
      if bucket < cumulative + variant.weight then some variant else pick bucket (cumulative + variant.weight) variants

/-- The loop, and the first variant where it finds none. -/
def assigned (bucket : Int) (variants : List ExperimentVariant) : Option ExperimentVariant :=
  (pick bucket 0 variants).or variants.head?

/-- `hash` is the number of the first eight hexadecimal digits of the MD5 digest. -/
def assignVariant (hash : String → Nat) (tenantId experimentId : String) (variants : List ExperimentVariant) : String :=
  let bucket := hash (tenantId ++ ":" ++ experimentId) % 100
  ((assigned bucket variants).map (·.id)).getD "control"

def total (variants : List ExperimentVariant) : Int := (variants.map (·.weight)).sum

theorem total_cons (v : ExperimentVariant) (vs : List ExperimentVariant) : total (v :: vs) = v.weight + total vs := by
  simp [total]

def Nonneg (variants : List ExperimentVariant) : Prop := ∀ v ∈ variants, 0 ≤ v.weight

theorem Nonneg.total {variants : List ExperimentVariant} (nonneg : Nonneg variants) : 0 ≤ total variants := by
  induction variants with
  | nil => exact Int.le_refl 0
  | cons v vs ih =>
      have first := nonneg v List.mem_cons_self
      have rest := ih fun w member => nonneg w (List.mem_cons_of_mem v member)
      rw [total_cons]
      omega

variable {variants : List ExperimentVariant} {bucket cumulative : Int} {v : ExperimentVariant}

theorem mem_of_pick (found : pick bucket cumulative variants = some v) : v ∈ variants := by
  induction variants generalizing cumulative with
  | nil => simp [pick] at found
  | cons w ws ih =>
      rw [pick] at found
      split at found
      · obtain rfl := Option.some.inj found
        exact List.mem_cons_self
      · exact List.mem_cons_of_mem w (ih found)

theorem pos_of_pick (reached : cumulative ≤ bucket) (found : pick bucket cumulative variants = some v) :
    0 < v.weight := by
  induction variants generalizing cumulative with
  | nil => simp [pick] at found
  | cons w ws ih =>
      rw [pick] at found
      split at found
      · obtain rfl := Option.some.inj found
        omega
      · exact ih (by omega) found

theorem pick_isSome_iff (nonneg : Nonneg variants) (reached : cumulative ≤ bucket) :
    (pick bucket cumulative variants).isSome ↔ bucket < cumulative + total variants := by
  induction variants generalizing cumulative with
  | nil => simp [pick, total, reached]
  | cons w ws ih =>
      have rest : Nonneg ws := fun u member => nonneg u (List.mem_cons_of_mem w member)
      have more := rest.total
      rw [pick, total_cons]
      split
      · simp only [Option.isSome_some, true_iff]
        omega
      · rw [ih rest (by omega)]
        omega

/-- The buckets of a variant are those from the weight of the variants before it on, as many as it weighs. -/
theorem pick_eq_some_iff (nonneg : Nonneg variants) (nodup : variants.Nodup) {front back : List ExperimentVariant}
    (split : variants = front ++ v :: back) (reached : cumulative ≤ bucket) :
    pick bucket cumulative variants = some v ↔
      cumulative + total front ≤ bucket ∧ bucket < cumulative + total front + v.weight := by
  induction front generalizing variants cumulative with
  | nil =>
      obtain rfl : variants = v :: back := split
      have absent : v ∉ back := (List.nodup_cons.mp nodup).1
      have other (c : Int) : pick bucket c back ≠ some v := fun found => absent (mem_of_pick found)
      rw [pick]
      split
      · simp only [total, List.map_nil, List.sum_nil, true_iff]
        omega
      · simp only [other, total, List.map_nil, List.sum_nil, false_iff]
        omega
  | cons w ws ih =>
      subst split
      rw [List.cons_append, List.nodup_cons] at nodup
      have different : w ≠ v := fun same => nodup.1 (same ▸ List.mem_append_right ws List.mem_cons_self)
      have rest : Nonneg (ws ++ v :: back) := fun u member => nonneg u (List.mem_cons_of_mem w member)
      have front : Nonneg ws := fun u member => rest u (List.mem_append_left _ member)
      have more := front.total
      rw [List.cons_append, pick, total_cons]
      split
      · simp only [Option.some.injEq, different, false_iff]
        omega
      · rw [ih rest nodup.2 rfl (by omega)]
        omega

theorem mem_of_assigned (found : assigned bucket variants = some v) : v ∈ variants := by
  rcases Option.or_eq_some_iff.mp found with picked | ⟨-, first⟩
  · exact mem_of_pick picked
  · exact List.mem_of_head? first

/-- An experiment with variants assigns one of them. -/
theorem assignVariant_mem (hash : String → Nat) (tenantId experimentId : String) (nonempty : variants ≠ []) :
    assignVariant hash tenantId experimentId variants ∈ variants.map (·.id) := by
  obtain ⟨first, rest, rfl⟩ := List.exists_cons_of_ne_nil nonempty
  obtain ⟨w, found⟩ : ∃ w, assigned (hash (tenantId ++ ":" ++ experimentId) % 100 : Nat) (first :: rest) = some w := by
    cases picked : pick (hash (tenantId ++ ":" ++ experimentId) % 100 : Nat) 0 (first :: rest) with
    | none => exact ⟨first, by rw [assigned, picked, Option.none_or, List.head?_cons]⟩
    | some w => exact ⟨w, by rw [assigned, picked, Option.some_or]⟩
  rw [assignVariant, found]
  exact List.mem_map_of_mem (mem_of_assigned found)

theorem assigned_of_lt (nonneg : Nonneg variants) (reached : 0 ≤ bucket) (below : bucket < total variants) :
    assigned bucket variants = pick bucket 0 variants := by
  obtain ⟨w, found⟩ := Option.isSome_iff_exists.mp ((pick_isSome_iff nonneg reached).mpr (by omega))
  rw [assigned, found, Option.some_or]

theorem assigned_of_le (nonneg : Nonneg variants) (reached : 0 ≤ bucket) (beyond : total variants ≤ bucket) :
    assigned bucket variants = variants.head? := by
  have missed : pick bucket 0 variants = none := by
    rw [← Option.not_isSome_iff_eq_none, pick_isSome_iff nonneg reached]
    omega
  rw [assigned, missed, Option.none_or]

theorem assigned_id_iff (distinct : (variants.map (·.id)).Nodup) (member : v ∈ variants) {bucket : Int} :
    (assigned bucket variants).map (·.id) = some v.id ↔ assigned bucket variants = some v := by
  constructor
  · intro same
    obtain ⟨w, found, id⟩ := Option.map_eq_some_iff.mp same
    rw [found, List.inj_on_of_nodup_map distinct (mem_of_assigned found) member id]
  · intro found
    rw [found, Option.map_some]

/-- With weights that sum to 100 a variant has a bucket for each hundredth that it weighs. -/
theorem card_buckets (nonneg : Nonneg variants) (distinct : (variants.map (·.id)).Nodup)
    (whole : total variants = 100) (member : v ∈ variants) :
    (((Finset.range 100).filter fun bucket : Nat => (assigned bucket variants).map (·.id) = some v.id).card : Int) =
      v.weight := by
  obtain ⟨front, back, split⟩ := List.append_of_mem member
  have before : 0 ≤ total front := Nonneg.total fun w here => nonneg w (split ▸ List.mem_append_left _ here)
  have after : 0 ≤ total back := Nonneg.total fun w here =>
    nonneg w (split ▸ List.mem_append_right _ (List.mem_cons_of_mem v here))
  have weight := nonneg v member
  have sum : total front + (v.weight + total back) = 100 := by
    rw [← whole, split]
    simp [total]
  have bucketsOf : (Finset.range 100).filter (fun bucket : Nat => (assigned bucket variants).map (·.id) = some v.id) =
      Finset.Ico (total front).toNat ((total front).toNat + v.weight.toNat) := by
    ext bucket
    rw [Finset.mem_filter, Finset.mem_range, Finset.mem_Ico, assigned_id_iff distinct member]
    constructor
    · rintro ⟨small, found⟩
      rw [assigned_of_lt nonneg (by omega) (by omega),
        pick_eq_some_iff nonneg (List.Nodup.of_map _ distinct) split (by omega)] at found
      omega
    · intro here
      refine ⟨by omega, ?_⟩
      rw [assigned_of_lt nonneg (by omega) (by omega),
        pick_eq_some_iff nonneg (List.Nodup.of_map _ distinct) split (by omega)]
      omega
  rw [bucketsOf, Nat.card_Ico]
  omega

/-- With weights that sum to 100 the variants share the buckets; whatever they sum to, each bucket has a variant: one
that weighs something below the sum, and the first one from the sum on. -/
theorem assigned_follows_weights (variants : List ExperimentVariant) (nonneg : Nonneg variants) :
    ((variants.map (·.id)).Nodup → total variants = 100 → ∀ v ∈ variants,
      (((Finset.range 100).filter fun bucket : Nat => (assigned bucket variants).map (·.id) = some v.id).card : Int) =
        v.weight) ∧
    ∀ bucket : Nat, bucket < 100 →
      (bucket < total variants → ∃ v ∈ variants, assigned bucket variants = some v ∧ 0 < v.weight) ∧
        (total variants ≤ bucket → assigned bucket variants = variants.head?) := by
  refine ⟨fun distinct whole v member => card_buckets nonneg distinct whole member, fun bucket _ => ⟨?_, ?_⟩⟩
  · intro below
    rw [assigned_of_lt nonneg (by omega) below]
    have some_picked := (pick_isSome_iff nonneg (Int.natCast_nonneg bucket)).mpr (by omega)
    obtain ⟨v, found⟩ := Option.isSome_iff_exists.mp some_picked
    exact ⟨v, mem_of_pick found, found, pos_of_pick (by omega) found⟩
  · intro beyond
    exact assigned_of_le nonneg (by omega) beyond

def halves : List ExperimentVariant := [⟨"control", 50⟩, ⟨"variant_a", 0⟩, ⟨"variant_b", 50⟩]

theorem assigned_follows_weights_halves :
    ((halves.map (·.id)).Nodup → total halves = 100 → ∀ v ∈ halves,
      (((Finset.range 100).filter fun bucket : Nat => (assigned bucket halves).map (·.id) = some v.id).card : Int) =
        v.weight) ∧
    ∀ bucket : Nat, bucket < 100 →
      (bucket < total halves → ∃ v ∈ halves, assigned bucket halves = some v ∧ 0 < v.weight) ∧
        (total halves ≤ bucket → assigned bucket halves = halves.head?) :=
  assigned_follows_weights halves (by simp [halves, Nonneg])

/-- Half of the buckets go to a first variant of weight 0. -/
theorem weightless_first_variant :
    ¬ ((∀ variants : List ExperimentVariant, variants ≠ [] → Nonneg variants → (variants.map (·.id)).Nodup →
        total variants = 100 → ∀ v ∈ variants,
        (((Finset.range 100).filter fun bucket : Nat => (assigned bucket variants).map (·.id) = some v.id).card : Int) =
          v.weight) ∧
      ∀ variants : List ExperimentVariant, Nonneg variants → (∃ v ∈ variants, 0 < v.weight) →
        ∀ bucket : Nat, bucket < 100 → ∀ v, assigned bucket variants = some v → v.weight ≠ 0) := by
  intro claim
  have weighs := claim.2 [⟨"control", 0⟩, ⟨"variant_a", 50⟩] (by simp [Nonneg])
    ⟨⟨"variant_a", 50⟩, by simp, by decide⟩ 50 (by decide) ⟨"control", 0⟩ (by decide)
  exact weighs rfl

end CuckooEcho.Chat.Experiments
