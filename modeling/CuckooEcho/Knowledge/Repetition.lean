import CuckooEcho.Knowledge.Coverage

namespace CuckooEcho.Knowledge
open Lib

/-! ## Which content is repeated -/

section
variable (o : ChunkOptions)

/-- The content characters that the accumulator holds each time an over-long part is met, in these
parts and inside the over-long ones. -/
def carriedInParts (deeper : Text → Nat) (sep current : Text) : List Text → Nat
  | [] => 0
  | part :: parts =>
      let candidate := if current ≠ [] then current ++ sep ++ part else part
      if candidate.length ≤ o.chunkSize then carriedInParts deeper sep candidate parts
      else if part.length > o.chunkSize then
        (content current).length + deeper part + carriedInParts deeper sep current parts
      else carriedInParts deeper sep part parts

def carried : (seps : List Text) → Text → Nat
  | [], _ => 0
  | sep :: seps, text =>
      if text.length ≤ o.chunkSize then 0
      else if sep = [] then 0
      else if sep <:+: text then carriedInParts o (carried seps) sep [] (Text.split sep text)
      else carried seps text

end

section
variable {o : ChunkOptions}

theorem mergeParts_length {recurse : Text → Option (List Text)} {deeper : Text → Nat}
    (adds : ∀ part, ∃ more, recurse part = some more ∧
      (content more.flatten).length = (content part).length + deeper part) {sep : Text}
    (separator : content sep = []) (parts chunks : List Text) (current : Text) :
    ∃ out, mergeParts o recurse sep chunks current parts = some out ∧
      (content out.flatten).length = (content chunks.flatten).length + (content current).length +
        (content parts.flatten).length + carriedInParts o deeper sep current parts := by
  induction parts generalizing chunks current with
  | nil =>
      refine ⟨_, rfl, ?_⟩
      rw [content_flush, List.length_append]
      rfl
  | cons part parts ih =>
      rw [mergeParts, carriedInParts, List.flatten_cons, content_append, List.length_append]
      dsimp only
      by_cases fits : (if current ≠ [] then current ++ sep ++ part else part).length ≤ o.chunkSize
      · obtain ⟨out, returned, length⟩ := ih chunks (if current ≠ [] then current ++ sep ++ part else part)
        rw [if_pos fits, if_pos fits]
        refine ⟨out, returned, ?_⟩
        rw [length, content_candidate separator, List.length_append]
        omega
      · rw [if_neg fits, if_neg fits]
        by_cases long : part.length > o.chunkSize
        · obtain ⟨more, split, added⟩ := adds part
          rw [if_pos long, if_pos long, split, Option.bind_some]
          obtain ⟨out, returned, length⟩ :=
            ih ((if current ≠ [] then chunks ++ [current] else chunks) ++ more) current
          refine ⟨out, returned, ?_⟩
          rw [length, List.flatten_append, content_append, content_flush, List.length_append,
            List.length_append, added]
          omega
        · rw [if_neg long, if_neg long]
          obtain ⟨out, returned, length⟩ := ih (if current ≠ [] then chunks ++ [current] else chunks) part
          refine ⟨out, returned, ?_⟩
          rw [length, content_flush, List.length_append]
          omega

theorem recursiveSplit_length (sized : 0 < o.chunkSize) (disjoint : o.chunkOverlap = 0) {seps : List Text}
    (separator : ∀ sep ∈ seps, content sep = []) (text : Text) :
    ∃ chunks, recursiveSplit o seps text = some chunks ∧
      (content chunks.flatten).length = (content text).length + carried o seps text := by
  have fixed (text : Text) : ∃ chunks, fixedSizeSplit o text = some chunks ∧
      (content chunks.flatten).length = (content text).length + 0 := by
    have shifts : o.chunkOverlap < o.chunkSize := disjoint ▸ sized
    obtain ⟨chunks, returned, -, same⟩ := fixedSizeSplit_spec shifts text
    exact ⟨chunks, returned, congrArg List.length (same disjoint)⟩
  induction seps generalizing text with
  | nil =>
      rw [recursiveSplit]
      split
      · exact ⟨_, rfl, congrArg List.length (content_short text)⟩
      · exact fixed text
  | cons sep seps ih =>
      obtain ⟨here, later⟩ := List.forall_mem_cons.mp separator
      rw [recursiveSplit, carried]
      split
      · exact ⟨_, rfl, congrArg List.length (content_short text)⟩
      split
      · exact fixed text
      split
      · rename_i nonempty found
        obtain ⟨out, returned, length⟩ := mergeParts_length (ih later) here (Text.split sep text) [] []
        refine ⟨out, returned, ?_⟩
        rw [length, content_split nonempty here]
        simp [content]
      · exact ih later text

end

/-- Without overlap the chunks preserve a document exactly when no over-long part is met while the
accumulator holds content. -/
theorem splitText_preserves_iff {chunkSize : Nat} (sized : 0 < chunkSize) (text : Text) :
    (∃ chunks, splitText ⟨chunkSize, 0⟩ text = some chunks ∧
      content chunks.flatten = content text.strip) ↔ carried ⟨chunkSize, 0⟩ separators text.strip = 0 := by
  have shifts : (⟨chunkSize, 0⟩ : ChunkOptions).chunkOverlap < chunkSize := sized
  have disjoint : (⟨chunkSize, 0⟩ : ChunkOptions).chunkOverlap = 0 := rfl
  obtain ⟨chunks, split, covers⟩ := recursiveSplit_covers shifts content_separator text.strip
  obtain ⟨chunks', split', length⟩ := recursiveSplit_length sized disjoint content_separator text.strip
  obtain rfl := Option.some.inj (split.symm.trans split')
  obtain ⟨out, returned, same⟩ := splitText_spec text split covers
  constructor
  · rintro ⟨out', returned', preserved⟩
    obtain rfl := Option.some.inj (returned.symm.trans returned')
    rw [← same, preserved] at length
    omega
  · intro none
    refine ⟨out, returned, ?_⟩
    rw [same]
    exact (covers.eq_of_length (by rw [length, none, Nat.add_zero])).symm

theorem splitText_preserves_iff_lines : (∃ chunks, splitText ⟨3, 0⟩ "ab\ncd".toList = some chunks ∧
    content chunks.flatten = content (Text.strip "ab\ncd".toList)) ↔
      carried ⟨3, 0⟩ separators (Text.strip "ab\ncd".toList) = 0 :=
  splitText_preserves_iff (by decide) _

/-- The sentence before an over-long one comes again after it. -/
theorem sentence_repeated : ¬ ∀ (chunkSize : Nat) (text : Text), 1 ≤ chunkSize →
    ∃ chunks, splitText ⟨chunkSize, 0⟩ text = some chunks ∧
      content chunks.flatten = content text.strip := by
  intro claim
  obtain ⟨chunks, returned, preserved⟩ := claim 3 "a。bbbbbb".toList (by decide)
  have twice : splitText ⟨3, 0⟩ "a。bbbbbb".toList =
      some [['a'], ['b', 'b', 'b'], ['b', 'b', 'b'], ['a']] := by decide +kernel
  obtain rfl := Option.some.inj (twice.symm.trans returned)
  exact absurd preserved (by decide +kernel)

end CuckooEcho.Knowledge
