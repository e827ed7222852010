import CuckooEcho.Knowledge.Coverage
import Mathlib.Data.List.TakeWhile

namespace CuckooEcho.Knowledge
open Lib

/-! ## Chunks are short and not blank -/

/-- An empty text is blank, too. -/
def Blank (text : Text) : Prop := ∀ c ∈ text, Pattern.isSpace c

theorem blank_iff_filter {text : Text} : Blank text ↔ text.filter (!Pattern.isSpace ·) = [] := by
  simp [Blank, List.filter_eq_nil_iff]

theorem blank_strip {text : Text} : Blank text.strip ↔ Blank text := by
  rw [blank_iff_filter, blank_iff_filter, Text.filter_strip (by simp)]

theorem strip_eq_nil_iff {text : Text} : text.strip = [] ↔ Blank text := by
  constructor
  · intro empty
    rw [← blank_strip, empty]
    exact List.forall_mem_nil _
  · intro blank
    have dropped : text.dropWhile Pattern.isSpace = [] := List.dropWhile_eq_nil_iff.mpr blank
    rw [Text.strip, dropped]
    rfl

theorem strip_length_le (text : Text) : text.strip.length ≤ text.length := by
  rw [Text.strip, List.length_reverse]
  refine (List.dropWhile_suffix _).length_le.trans ?_
  rw [List.length_reverse]
  exact (List.dropWhile_suffix _).length_le

theorem not_isSpace_of_strip {text rest : Text} {c : Char} (left : text.strip = c :: rest) :
    Pattern.isSpace c = false := by
  have starts : text.strip <+: text.dropWhile Pattern.isSpace := by
    rw [Text.strip, ← List.reverse_suffix, List.reverse_reverse]
    exact List.dropWhile_suffix _
  obtain ⟨more, all⟩ := starts
  have first := List.head?_dropWhile_not Pattern.isSpace text
  rw [← all, left] at first
  exact first

theorem not_blank_take_strip {text : Text} (nonblank : ¬ Blank text) {size : Nat} (sized : 0 < size) :
    ¬ Blank (text.strip.take size) := by
  intro blank
  cases left : text.strip with
  | nil => exact nonblank (strip_eq_nil_iff.mp left)
  | cons c rest =>
      have first : c ∈ text.strip.take size := by
        rw [left, ← Nat.succ_pred_eq_of_pos sized]
        exact List.mem_cons_self ..
      have space := blank c first
      rw [not_isSpace_of_strip left] at space
      contradiction

section
variable {o : ChunkOptions}

def Short (o : ChunkOptions) (chunks : List Text) : Prop := ∀ chunk ∈ chunks, chunk.length ≤ o.chunkSize

theorem windows_short (shifts : o.chunkOverlap < o.chunkSize) {text : Text} {rounds start : Nat} {ws : List Text}
    (returned : windows o text rounds start = some ws) : Short o ws := by
  induction rounds generalizing start ws with
  | zero => cases returned
  | succ rounds ih =>
      have next : (start : Int) + o.chunkSize - o.chunkOverlap =
          (start + (o.chunkSize - o.chunkOverlap) : Nat) := by omega
      have window : (text.slice start (start + o.chunkSize)).length ≤ o.chunkSize := by
        rw [Text.slice_of_nonneg]
        exact List.length_take_le _ _
      rw [windows] at returned
      split at returned
      · dsimp only at returned
        split at returned
        · obtain rfl := Option.some.inj returned
          exact List.forall_mem_singleton.mpr window
        · obtain ⟨later, more, rfl⟩ := Option.map_eq_some_iff.mp returned
          rw [next] at more
          exact List.forall_mem_cons.mpr ⟨window, ih more⟩
      · obtain rfl := Option.some.inj returned
        exact List.forall_mem_nil _

theorem fixedSizeSplit_short (shifts : o.chunkOverlap < o.chunkSize) {text : Text} {chunks : List Text}
    (returned : fixedSizeSplit o text = some chunks) : Short o chunks := by
  obtain ⟨ws, windows, rfl⟩ := Option.map_eq_some_iff.mp returned
  exact fun chunk member => windows_short shifts windows chunk (List.mem_filter.mp member).1

theorem Short.flush {chunks : List Text} {current : Text} (short : Short o chunks)
    (fits : current.length ≤ o.chunkSize) : Short o (if current ≠ [] then chunks ++ [current] else chunks) := by
  split
  · exact List.forall_mem_append.mpr ⟨short, List.forall_mem_singleton.mpr fits⟩
  · exact short

/-- The accumulator never outgrows a chunk. -/
theorem mergeParts_short {recurse : Text → Option (List Text)}
    (deeper : ∀ part more, recurse part = some more → Short o more) {sep : Text} (parts : List Text)
    {chunks out : List Text} {current : Text} (short : Short o chunks) (fits : current.length ≤ o.chunkSize)
    (returned : mergeParts o recurse sep chunks current parts = some out) : Short o out := by
  induction parts generalizing chunks current with
  | nil => exact Option.some.inj returned ▸ short.flush fits
  | cons part parts ih =>
      rw [mergeParts] at returned
      dsimp only at returned
      by_cases joined : (if current ≠ [] then current ++ sep ++ part else part).length ≤ o.chunkSize
      · rw [if_pos joined] at returned
        exact ih short joined returned
      · rw [if_neg joined] at returned
        by_cases long : part.length > o.chunkSize
        · rw [if_pos long] at returned
          obtain ⟨more, split, rest⟩ := Option.bind_eq_some_iff.mp returned
          exact ih (List.forall_mem_append.mpr ⟨short.flush fits, deeper part more split⟩) fits rest
        · rw [if_neg long] at returned
          exact ih (short.flush fits) (not_lt.mp long) returned

theorem recursiveSplit_short (shifts : o.chunkOverlap < o.chunkSize) {seps : List Text} {text : Text}
    {chunks : List Text} (returned : recursiveSplit o seps text = some chunks) : Short o chunks := by
  have whole {text : Text} (fits : text.length ≤ o.chunkSize) :
      Short o (if text.strip ≠ [] then [text] else []) := by
    split
    · exact List.forall_mem_singleton.mpr fits
    · exact List.forall_mem_nil _
  induction seps generalizing text chunks with
  | nil =>
      rw [recursiveSplit] at returned
      split at returned
      · rename_i fits
        exact Option.some.inj returned ▸ whole fits
      · exact fixedSizeSplit_short shifts returned
  | cons sep seps ih =>
      rw [recursiveSplit] at returned
      split at returned
      · rename_i fits
        exact Option.some.inj returned ▸ whole fits
      split at returned
      · exact fixedSizeSplit_short shifts returned
      split at returned
      · exact mergeParts_short (fun _ _ => ih) _ (List.forall_mem_nil _) (Nat.zero_le _) returned
      · exact ih returned

theorem stand_in_shape (sized : 0 < o.chunkSize) {text : Text} (nonblank : ¬ Blank text) :
    ∀ chunk ∈ [text.strip.take o.chunkSize], ¬ Blank chunk ∧ chunk.length ≤ o.chunkSize :=
  List.forall_mem_singleton.mpr ⟨not_blank_take_strip nonblank sized, List.length_take_le _ _⟩

theorem stripped_shape {chunks : List Text} (short : Short o chunks) :
    ∀ chunk ∈ (chunks.filter (Text.strip · ≠ [])).map Text.strip, ¬ Blank chunk ∧ chunk.length ≤ o.chunkSize := by
  intro chunk member
  obtain ⟨whole, kept, rfl⟩ := List.mem_map.mp member
  obtain ⟨here, nonblank⟩ := List.mem_filter.mp kept
  refine ⟨fun blank => of_decide_eq_true nonblank ?_, (strip_length_le whole).trans (short whole here)⟩
  exact strip_eq_nil_iff.mpr (blank_strip.mp blank)

/-- Every chunk is at most `chunk_size` characters long and not blank, and there is none only for a blank text. -/
theorem splitText_shape (shifts : o.chunkOverlap < o.chunkSize) (text : Text) :
    ∃ chunks, splitText o text = some chunks ∧
      (∀ chunk ∈ chunks, ¬ Blank chunk ∧ chunk.length ≤ o.chunkSize) ∧ (chunks = [] ↔ Blank text) := by
  have sized : 0 < o.chunkSize := Nat.zero_lt_of_lt shifts
  unfold splitText
  by_cases blank : text.strip = []
  · rw [if_pos (Or.inr blank)]
    exact ⟨[], rfl, List.forall_mem_nil _, iff_of_true rfl (strip_eq_nil_iff.mp blank)⟩
  · have nonblank : ¬ Blank text := mt strip_eq_nil_iff.mpr blank
    have nonempty : text ≠ [] := by
      rintro rfl
      exact blank rfl
    obtain ⟨chunks, returned, -⟩ := recursiveSplit_covers shifts content_separator text.strip
    have short := recursiveSplit_short shifts returned
    rw [if_neg (by simp [nonempty, blank]), returned]
    refine ⟨_, rfl, ?_⟩
    dsimp only
    have all : Short o (if chunks = [] then [text.strip.take o.chunkSize] else chunks) := by
      split
      · exact fun chunk member => (stand_in_shape sized nonblank chunk member).2
      · exact short
    generalize (if chunks = [] then [text.strip.take o.chunkSize] else chunks) = chunks at all
    split
    · rename_i some
      exact ⟨stripped_shape all, iff_of_false some nonblank⟩
    · exact ⟨stand_in_shape sized nonblank, iff_of_false (List.cons_ne_nil _ _) nonblank⟩

end

theorem splitText_shape_separators :
    ∃ chunks, splitText ⟨3, 1⟩ "....  . .".toList = some chunks ∧
      (∀ chunk ∈ chunks, ¬ Blank chunk ∧ chunk.length ≤ 3) ∧ (chunks = [] ↔ Blank "....  . .".toList) :=
  splitText_shape (o := ⟨3, 1⟩) (by decide) _

end CuckooEcho.Knowledge
