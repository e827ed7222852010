import CuckooEcho.Knowledge.Coverage
import Mathlib.Data.List.Infix

namespace CuckooEcho.Knowledge
open Lib

/-! ## Whether splitting a document ends -/

section
variable (o : ChunkOptions) (rounds : Nat)

/-- With the same number of rounds for every loop; the loops of the code have no limit. -/
def fixedSizeSplitIn (text : Text) : Option (List Text) :=
  (windows o text rounds 0).map fun chunks => chunks.filter (Text.strip · ≠ [])

def recursiveSplitIn : (seps : List Text) → Text → Option (List Text)
  | [], text =>
      if text.length ≤ o.chunkSize then some (if text.strip ≠ [] then [text] else [])
      else fixedSizeSplitIn o rounds text
  | sep :: seps, text =>
      if text.length ≤ o.chunkSize then some (if text.strip ≠ [] then [text] else [])
      else if sep = [] then fixedSizeSplitIn o rounds text
      else if sep <:+: text then mergeParts o (recursiveSplitIn seps) sep [] [] (Text.split sep text)
      else recursiveSplitIn seps text

def splitTextIn (text : Text) : Option (List Text) :=
  if text = [] ∨ text.strip = [] then some []
  else (recursiveSplitIn o rounds separators text.strip).map fun chunks =>
    let chunks := if chunks = [] then [text.strip.take o.chunkSize] else chunks
    let chunks := (chunks.filter (Text.strip · ≠ [])).map Text.strip
    if chunks ≠ [] then chunks else [text.strip.take o.chunkSize]

/-- `split_text` returns after finitely many steps. -/
def Returns (text : Text) : Prop := ∃ rounds, (splitTextIn o rounds text).isSome

end

def isSeparator (c : Char) : Bool := separators.any (c ∈ ·)

/-- Separators come often enough that no stretch between them is longer than a chunk. -/
def SplitsWell (o : ChunkOptions) (text : Text) : Prop :=
  ∀ run, run <:+: text → (∀ c ∈ run, isSeparator c = false) → run.length ≤ o.chunkSize

section
variable {o : ChunkOptions}

/-! ### The window loop -/

theorem windows_mono {text : Text} {rounds : Nat} {start : Int} {ws : List Text}
    (returned : windows o text rounds start = some ws) (more : Nat) :
    windows o text (rounds + more) start = some ws := by
  induction rounds generalizing start ws with
  | zero => cases returned
  | succ rounds ih =>
      rw [Nat.succ_add, windows]
      rw [windows] at returned
      split at returned
      · rename_i inside
        rw [if_pos inside]
        dsimp only at returned ⊢
        split at returned
        · rename_i last
          rw [if_pos last]
          exact returned
        · rename_i further
          obtain ⟨later, rest, rfl⟩ := Option.map_eq_some_iff.mp returned
          rw [if_neg further, ih rest]
          rfl
      · rename_i ended
        rw [if_neg ended]
        exact returned

/-- A window that does not move on leaves the loop where it started, or before that. -/
theorem windows_diverges (stuck : o.chunkSize ≤ o.chunkOverlap) {text : Text} (nonempty : 0 < text.length)
    (rounds : Nat) {start : Int} (begun : start ≤ 0) : windows o text rounds start = none := by
  induction rounds generalizing start with
  | zero => rfl
  | succ rounds ih =>
      have back : start + o.chunkSize - o.chunkOverlap ≤ 0 := by omega
      rw [windows, if_pos (by omega)]
      dsimp only
      rw [if_neg (by omega), ih back]
      rfl

theorem windows_rounds {text : Text} {rounds : Nat} (enough : text.length < rounds) :
    windows o text rounds 0 = windows o text (text.length + 1) 0 := by
  obtain ⟨more, rfl⟩ := Nat.exists_eq_add_of_le (show text.length + 1 ≤ rounds from enough)
  by_cases shifts : o.chunkOverlap < o.chunkSize
  · obtain ⟨ws, returned, -⟩ := windows_spec shifts (Nat.zero_le text.length)
      (show text.length < 0 + (text.length + 1) by omega)
    exact (windows_mono returned more).trans returned.symm
  · by_cases empty : text.length = 0
    · rw [empty, Nat.zero_add, Nat.add_comm, windows, windows, if_neg (by omega), if_neg (by omega)]
    · have nonempty : 0 < text.length := Nat.pos_of_ne_zero empty
      rw [windows_diverges (not_lt.mp shifts) nonempty _ (Int.le_refl 0),
        windows_diverges (not_lt.mp shifts) nonempty _ (Int.le_refl 0)]

/-! ### The recursion -/

theorem fixedSizeSplitIn_eq {rounds : Nat} {text : Text} (enough : text.length < rounds) :
    fixedSizeSplitIn o rounds text = fixedSizeSplit o text := by
  rw [fixedSizeSplitIn, fixedSizeSplit, windows_rounds enough]

theorem mergeParts_congr {recurse recurse' : Text → Option (List Text)} {sep : Text} {parts : List Text}
    (same : ∀ part ∈ parts, recurse part = recurse' part) (chunks : List Text) (current : Text) :
    mergeParts o recurse sep chunks current parts = mergeParts o recurse' sep chunks current parts := by
  induction parts generalizing chunks current with
  | nil => rfl
  | cons part parts ih =>
      obtain ⟨here, later⟩ := List.forall_mem_cons.mp same
      simp only [mergeParts, here, ih later]

/-- Enough rounds give what the code returns. -/
theorem recursiveSplitIn_eq {rounds : Nat} {seps : List Text} {text : Text} (enough : text.length < rounds) :
    recursiveSplitIn o rounds seps text = recursiveSplit o seps text := by
  induction seps generalizing text with
  | nil => rw [recursiveSplitIn, recursiveSplit, fixedSizeSplitIn_eq enough]
  | cons sep seps ih =>
      have parts : mergeParts o (recursiveSplitIn o rounds seps) sep [] [] (Text.split sep text) =
          mergeParts o (recursiveSplit o seps) sep [] [] (Text.split sep text) :=
        mergeParts_congr (fun part member =>
          ih ((Text.infix_of_mem_split member).length_le.trans_lt enough)) [] []
      rw [recursiveSplitIn, recursiveSplit, fixedSizeSplitIn_eq enough, parts, ih enough]

theorem splitTextIn_eq {rounds : Nat} {text : Text} (enough : text.strip.length < rounds) :
    splitTextIn o rounds text = splitText o text := by
  rw [splitTextIn, splitText, recursiveSplitIn_eq enough]

theorem isSome_mergeParts {recurse : Text → Option (List Text)} {sep : Text} (parts chunks : List Text)
    (current : Text) : (mergeParts o recurse sep chunks current parts).isSome ↔
      ∀ part ∈ parts, o.chunkSize < part.length → (recurse part).isSome := by
  induction parts generalizing chunks current with
  | nil => simp [mergeParts]
  | cons part parts ih =>
      rw [mergeParts, List.forall_mem_cons]
      dsimp only
      by_cases joined : (if current ≠ [] then current ++ sep ++ part else part).length ≤ o.chunkSize
      · have fits : part.length ≤ o.chunkSize := by
          refine le_trans ?_ joined
          split
          · exact (List.suffix_append _ _).length_le
          · exact le_refl _
        rw [if_pos joined, ih]
        exact (and_iff_right fun long => absurd fits (not_le.mpr long)).symm
      · rw [if_neg joined]
        by_cases long : part.length > o.chunkSize
        · rw [if_pos long]
          cases recurse part with
          | none => simp [long]
          | some more => simp [ih]
        · rw [if_neg long, ih]
          exact (and_iff_right fun longer => absurd longer long).symm

/-! ### Stretches between separators -/

/-- A separator is a single character, or has only characters that are separators further on; after the empty one,
there is no other. -/
def Graded : List Text → Prop
  | [] => True
  | sep :: seps => (sep = [] ∧ seps = [] ∨ (∃ c, sep = [c]) ∨
      sep ≠ [] ∧ ∀ c ∈ sep, ∃ finer ∈ seps, c ∈ finer) ∧ Graded seps

def Stretches (o : ChunkOptions) (seps : List Text) (text : Text) : Prop :=
  ∀ run, run <:+: text → (∀ c ∈ run, ∀ sep ∈ seps, c ∉ sep) → run.length ≤ o.chunkSize

theorem stretches_of_length {seps : List Text} {text : Text} (fits : text.length ≤ o.chunkSize) :
    Stretches o seps text := fun _ inside _ => inside.length_le.trans fits

theorem fixedSizeSplitIn_diverges (stuck : o.chunkSize ≤ o.chunkOverlap) {rounds : Nat} {text : Text}
    (long : ¬ text.length ≤ o.chunkSize) : fixedSizeSplitIn o rounds text = none := by
  rw [fixedSizeSplitIn, windows_diverges stuck (by omega) rounds (Int.le_refl 0)]
  rfl

theorem stretches_of_returned (stuck : o.chunkSize ≤ o.chunkOverlap) {rounds : Nat} {seps : List Text}
    (graded : Graded seps) {text : Text} (returned : (recursiveSplitIn o rounds seps text).isSome) :
    Stretches o seps text := by
  induction seps generalizing text with
  | nil =>
      by_cases fits : text.length ≤ o.chunkSize
      · exact stretches_of_length fits
      · rw [recursiveSplitIn, if_neg fits, fixedSizeSplitIn_diverges stuck fits] at returned
        cases returned
  | cons sep seps ih =>
      obtain ⟨kind, finer⟩ := graded
      by_cases fits : text.length ≤ o.chunkSize
      · exact stretches_of_length fits
      · rw [recursiveSplitIn, if_neg fits] at returned
        split at returned
        · rw [fixedSizeSplitIn_diverges stuck fits] at returned
          cases returned
        rename_i nonempty
        intro run inside free
        have later : ∀ c ∈ run, ∀ other ∈ seps, c ∉ other := fun c member other found =>
          free c member other (List.mem_cons_of_mem _ found)
        split at returned
        · obtain ⟨piece, member, within⟩ := Text.exists_mem_split nonempty
            (fun c member => free c member sep (List.mem_cons_self ..)) inside
          by_cases short : piece.length ≤ o.chunkSize
          · exact within.length_le.trans short
          · have deeper := (isSome_mergeParts _ _ _).mp returned piece member (not_le.mp short)
            exact ih finer deeper run within later
        · exact ih finer returned run inside later

theorem returned_of_stretches {rounds : Nat} {seps : List Text} (graded : Graded seps) {text : Text}
    (stretches : Stretches o seps text) : (recursiveSplitIn o rounds seps text).isSome := by
  induction seps generalizing text with
  | nil =>
      have fits : text.length ≤ o.chunkSize := stretches text (List.infix_refl _) (by simp)
      rw [recursiveSplitIn, if_pos fits]
      rfl
  | cons sep seps ih =>
      obtain ⟨kind, finer⟩ := graded
      rw [recursiveSplitIn]
      split
      · rfl
      rename_i long
      split
      · rename_i empty
        obtain ⟨-, rfl⟩ | ⟨c, rfl⟩ | ⟨nonempty, -⟩ := kind
        · exact absurd (stretches text (List.infix_refl _) (by simp [empty])) long
        · cases empty
        · exact absurd empty nonempty
      rename_i nonempty
      -- The characters of a separator of more than one are met again further on.
      have carried {inner : Text} (inside : inner <:+: text) (single : ∀ c, sep = [c] → c ∉ inner) :
          Stretches o seps inner := by
        intro run within free
        refine stretches run (within.trans inside) fun c member => List.forall_mem_cons.mpr ⟨fun found => ?_, free c member⟩
        obtain ⟨empty, -⟩ | ⟨d, rfl⟩ | ⟨-, again⟩ := kind
        · exact nonempty empty
        · obtain rfl := List.mem_singleton.mp found
          exact single c rfl (within.subset member)
        · obtain ⟨other, there, has⟩ := again c found
          exact free c member other there has
      split
      · refine (isSome_mergeParts _ _ _).mpr fun part member _ => ih finer (carried (Text.infix_of_mem_split member) ?_)
        rintro c rfl
        exact Text.free_of_mem_split member
      · rename_i absent
        refine ih finer (carried (List.infix_refl _) ?_)
        rintro c rfl member
        exact absent ((List.singleton_infix_iff _ _).mpr member)

/-! ### The whole function -/

theorem graded_separators : Graded separators := by
  simp [Graded, separators]

theorem stretches_iff_splitsWell {text : Text} : Stretches o separators text ↔ SplitsWell o text := by
  simp [Stretches, SplitsWell, isSeparator]

theorem isSome_splitTextIn {rounds : Nat} {text : Text} :
    (splitTextIn o rounds text).isSome ↔ (recursiveSplitIn o rounds separators text.strip).isSome := by
  rw [splitTextIn]
  split
  · rename_i blank
    have empty : text.strip = [] := by
      obtain rfl | empty := blank
      · rfl
      · exact empty
    rw [empty]
    exact iff_of_true rfl rfl
  · rw [Option.isSome_map]

/-- Splitting ends for the documents in which no stretch between separators outgrows a chunk, and if each window
starts after the one before it, for all. -/
theorem returns_iff (o : ChunkOptions) (text : Text) :
    Returns o text ↔ o.chunkOverlap < o.chunkSize ∨ SplitsWell o text.strip := by
  constructor
  · rintro ⟨rounds, returned⟩
    refine or_iff_not_imp_left.mpr fun stuck => ?_
    exact stretches_iff_splitsWell.mp
      (stretches_of_returned (not_lt.mp stuck) graded_separators (isSome_splitTextIn.mp returned))
  · rintro (shifts | well)
    · obtain ⟨chunks, returned, -⟩ := splitText_covers shifts text
      refine ⟨text.strip.length + 1, ?_⟩
      rw [splitTextIn_eq (Nat.lt_succ_self _), returned]
      rfl
    · refine ⟨0, isSome_splitTextIn.mpr ?_⟩
      exact returned_of_stretches graded_separators (stretches_iff_splitsWell.mpr well)

end

/-- The default overlap with smaller chunks, and one long word. -/
theorem longWord_diverges : ¬ ∀ (chunkSize chunkOverlap : Nat) (text : Text), 1 ≤ chunkSize →
    Returns ⟨chunkSize, chunkOverlap⟩ text := by
  intro claim
  obtain ⟨rounds, returned⟩ := claim 50 64 (List.replicate 51 'a') (by decide)
  have word : Text.strip (List.replicate 51 'a') = List.replicate 51 'a' := by decide
  have stretches := stretches_of_returned (o := ⟨50, 64⟩) (by decide) graded_separators
    (isSome_splitTextIn.mp returned)
  rw [word] at stretches
  have unbroken : ∀ c ∈ List.replicate 51 'a', ∀ sep ∈ separators, c ∉ sep := by
    intro c member
    rw [List.eq_of_mem_replicate member]
    decide
  have short := stretches _ (List.infix_refl _) unbroken
  rw [List.length_replicate] at short
  exact absurd short (by decide)

end CuckooEcho.Knowledge
