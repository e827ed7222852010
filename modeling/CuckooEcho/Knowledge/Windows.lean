import CuckooEcho.Knowledge.Chunker
import Mathlib.Order.Interval.Finset.Nat

namespace CuckooEcho.Knowledge
open Lib

/-! ## Where the windows of a text are -/

section
variable (o : ChunkOptions)

def ChunkOptions.step : Nat := o.chunkSize - o.chunkOverlap

/-- The indices of a text that its window with this number holds. -/
def span (text : Text) (i : Nat) : Finset Nat :=
  Finset.Ico (i * o.step) (min (i * o.step + o.chunkSize) text.length)

def window (text : Text) (i : Nat) : Text := text.slice (i * o.step : Nat) ((i * o.step : Nat) + o.chunkSize)

/-- The windows stand at consecutive multiples of the step and hold every index; two that follow each other share the
overlap, unless the text ends first, and none holds only what the one before it holds. -/
structure WellSplit (text : Text) (ws : List Text) : Prop where
  consecutive : ws = (List.range ws.length).map (window o text)
  covers : (Finset.range ws.length).biUnion (span o text) = Finset.range text.length
  shares : ∀ i, i + 1 < ws.length → i * o.step + o.chunkSize ≤ text.length →
    (span o text i ∩ span o text (i + 1)).card = o.chunkOverlap
  fresh : ∀ i, i + 1 < ws.length → ¬ span o text (i + 1) ⊆ span o text i

end

section
variable {o : ChunkOptions}

theorem exists_windows (shifts : o.chunkOverlap < o.chunkSize) {text : Text} {rounds start : Nat}
    (inside : start ≤ text.length) (enough : text.length < start + rounds) :
    ∃ count, windows o text rounds start = some ((List.range count).map fun i =>
      text.slice (start + i * o.step : Nat) ((start + i * o.step : Nat) + o.chunkSize)) ∧
        ∀ i, i < count ↔ start + i * o.step < text.length := by
  have positive : 0 < o.step := Nat.sub_pos_of_lt shifts
  induction rounds generalizing start with
  | zero => omega
  | succ rounds ih =>
      rw [windows]
      by_cases more : start < text.length
      · have next : (start : Int) + o.chunkSize - o.chunkOverlap = (start + o.step : Nat) := by
          rw [ChunkOptions.step]
          omega
        rw [if_pos (by exact_mod_cast more)]
        dsimp only
        rw [next]
        by_cases last : text.length ≤ start + o.step
        · rw [if_pos (by exact_mod_cast last)]
          refine ⟨1, by simp, fun i => ?_⟩
          cases i with
          | zero => simpa using more
          | succ i =>
              rw [Nat.succ_mul]
              omega
        · obtain ⟨count, returned, starts⟩ := @ih (start + o.step) (Nat.le_of_not_le last) (by omega)
          rw [if_neg (by exact_mod_cast last), returned]
          refine ⟨count + 1, ?_, fun i => ?_⟩
          · rw [List.range_succ_eq_map, List.map_cons, List.map_map, Option.map_some]
            congr 2
            · simp
            · refine List.map_congr_left fun i _ => ?_
              rw [Function.comp_apply, Nat.succ_mul, Nat.add_assoc, Nat.add_comm o.step]
          · cases i with
            | zero => simpa using more
            | succ i =>
                rw [Nat.add_lt_add_iff_right, starts, Nat.succ_mul, Nat.add_assoc, Nat.add_comm o.step]
      · rw [if_neg (by exact_mod_cast more)]
        exact ⟨0, rfl, by omega⟩

variable {text : Text} {count : Nat}

theorem mem_span {i j : Nat} : j ∈ span o text i ↔ i * o.step ≤ j ∧ j < i * o.step + o.chunkSize ∧ j < text.length := by
  rw [span, Finset.mem_Ico, lt_min_iff]

theorem biUnion_span (shifts : o.chunkOverlap < o.chunkSize) (starts : ∀ i, i < count ↔ i * o.step < text.length) :
    (Finset.range count).biUnion (span o text) = Finset.range text.length := by
  have positive : 0 < o.step := Nat.sub_pos_of_lt shifts
  ext j
  rw [Finset.mem_biUnion, Finset.mem_range]
  constructor
  · rintro ⟨i, -, member⟩
    exact (mem_span.mp member).2.2
  · intro inside
    have below : j / o.step * o.step ≤ j := Nat.div_mul_le_self j o.step
    have above : j < j / o.step * o.step + o.step := Nat.lt_div_mul_add positive
    have short : o.step ≤ o.chunkSize := Nat.sub_le _ _
    exact ⟨j / o.step, Finset.mem_range.mpr ((starts _).mpr (by omega)), mem_span.mpr ⟨below, by omega, inside⟩⟩

theorem card_shared (shifts : o.chunkOverlap < o.chunkSize) {i : Nat} (whole : i * o.step + o.chunkSize ≤ text.length) :
    (span o text i ∩ span o text (i + 1)).card = o.chunkOverlap := by
  have shared : span o text i ∩ span o text (i + 1) = Finset.Ico ((i + 1) * o.step) (i * o.step + o.chunkSize) := by
    ext j
    rw [Finset.mem_inter, mem_span, mem_span, Finset.mem_Ico, Nat.succ_mul]
    omega
  rw [shared, Nat.card_Ico, Nat.succ_mul]
  unfold ChunkOptions.step
  omega

theorem span_subset_iff (shifts : o.chunkOverlap < o.chunkSize) {i : Nat} :
    span o text (i + 1) ⊆ span o text i ↔ text.length ≤ (i + 1) * o.step + o.chunkOverlap := by
  have stop : i * o.step + o.chunkSize = (i + 1) * o.step + o.chunkOverlap := by
    rw [Nat.succ_mul]
    unfold ChunkOptions.step
    omega
  constructor
  · intro inside
    by_contra longer
    -- the first index after the window before
    have member : (i + 1) * o.step + o.chunkOverlap ∈ span o text (i + 1) := mem_span.mpr (by omega)
    have held := (mem_span.mp (inside member)).2.1
    omega
  · intro short j member
    obtain ⟨later, -, within⟩ := mem_span.mp member
    rw [Nat.succ_mul] at later stop short
    exact mem_span.mpr (by omega)

/-- The last window starts at the greatest multiple of the step within the text. -/
theorem fresh_iff (shifts : o.chunkOverlap < o.chunkSize) (starts : ∀ i, i < count ↔ i * o.step < text.length) :
    (∀ i, i + 1 < count → ¬ span o text (i + 1) ⊆ span o text i) ↔
      text.length ≤ o.step ∨ o.chunkOverlap ≤ (text.length - 1) % o.step := by
  have split := Nat.div_add_mod' (text.length - 1) o.step
  have positive : 0 < o.step := Nat.sub_pos_of_lt shifts
  have below := Nat.mod_lt (text.length - 1) positive
  constructor
  · intro fresh
    by_contra redundant
    obtain ⟨long, short⟩ := not_or.mp redundant
    have several : 1 ≤ (text.length - 1) / o.step := Nat.div_pos (by omega) positive
    obtain ⟨i, last⟩ : ∃ i, (text.length - 1) / o.step = i + 1 := ⟨_, (Nat.sub_add_cancel several).symm⟩
    rw [last] at split
    have begins : (i + 1) * o.step < text.length := by omega
    exact fresh i ((starts _).mpr begins) ((span_subset_iff shifts).mpr (by omega))
  · intro condition i next
    have begins := (starts _).mp next
    rw [span_subset_iff shifts]
    intro short
    have later : o.step ≤ (i + 1) * o.step := Nat.le_mul_of_pos_left _ (Nat.succ_pos i)
    have enough := condition.resolve_left (by omega)
    have bound : i + 1 ≤ (text.length - 1) / o.step := (Nat.le_div_iff_mul_le positive).mpr (by omega)
    have product := Nat.mul_le_mul_right o.step bound
    omega

/-- The windows are as they are to be exactly when the text is no longer than a step, or the last window is longer than
the overlap. -/
theorem windows_wellSplit_iff (shifts : o.chunkOverlap < o.chunkSize) (text : Text) :
    ∃ ws, windows o text (text.length + 1) 0 = some ws ∧
      fixedSizeSplit o text = some (ws.filter (Text.strip · ≠ [])) ∧
      (WellSplit o text ws ↔ text.length ≤ o.step ∨ o.chunkOverlap ≤ (text.length - 1) % o.step) := by
  obtain ⟨count, returned, starts⟩ := @exists_windows o shifts text (text.length + 1) 0 (Nat.zero_le _) (by omega)
  simp only [Nat.zero_add] at returned starts
  refine ⟨_, returned, ?_, ?_⟩
  · rw [fixedSizeSplit, show (0 : Int) = (0 : Nat) from rfl, returned]
    rfl
  · rw [← fresh_iff shifts starts]
    constructor
    · intro split
      simpa using split.fresh
    · intro fresh
      refine ⟨?_, ?_, fun i _ whole => card_shared shifts whole, by simpa using fresh⟩
      · simp [window]
      · simpa using biUnion_span shifts starts

theorem windows_wellSplit_iff_words : ∃ ws, windows ⟨4, 1⟩ "one two".toList ("one two".toList.length + 1) 0 = some ws ∧
    fixedSizeSplit ⟨4, 1⟩ "one two".toList = some (ws.filter (Text.strip · ≠ [])) ∧
    (WellSplit ⟨4, 1⟩ "one two".toList ws ↔ "one two".toList.length ≤ ChunkOptions.step ⟨4, 1⟩ ∨
      1 ≤ ("one two".toList.length - 1) % ChunkOptions.step ⟨4, 1⟩) :=
  windows_wellSplit_iff (o := ⟨4, 1⟩) (by decide) _

theorem last_window_repeated : ¬ ∀ (size overlap : Nat) (text : Text), overlap < size →
    ∃ ws, windows ⟨size, overlap⟩ text (text.length + 1) 0 = some ws ∧ WellSplit ⟨size, overlap⟩ text ws := by
  intro claim
  obtain ⟨ws, returned, split⟩ := claim 2 1 ['a', 'b'] (by decide)
  have two : windows ⟨2, 1⟩ ['a', 'b'] 3 0 = some [['a', 'b'], ['b']] := by decide
  obtain rfl := Option.some.inj (two.symm.trans returned)
  exact split.fresh 0 (by decide) (by decide)

end

end CuckooEcho.Knowledge
