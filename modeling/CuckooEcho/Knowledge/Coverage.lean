import CuckooEcho.Knowledge.Chunker

namespace CuckooEcho.Knowledge
open Lib

/-! ## Every content character is in some chunk -/

theorem isContent_of_isSpace (c : Char) (space : Pattern.isSpace c) : isContent c = false := by
  simp [isContent, space]

theorem content_separator : ∀ sep ∈ separators, content sep = [] := by
  intro sep member
  refine List.filter_eq_nil_iff.mpr fun c here kept => ?_
  obtain ⟨-, apart⟩ := Bool.and_eq_true_iff.mp kept
  exact of_decide_eq_true (List.all_eq_true.mp apart sep member) here

theorem content_append (s t : Text) : content (s ++ t) = content s ++ content t := List.filter_append ..

theorem content_strip (text : Text) : content text.strip = content text :=
  Text.filter_strip isContent_of_isSpace text

theorem content_split {sep : Text} (nonempty : sep ≠ []) (separator : content sep = []) (text : Text) :
    content (Text.split sep text).flatten = content text :=
  Text.filter_split nonempty separator text

/-- The characters of the text, in order, are among those of the chunks. -/
def Covers (text : Text) (chunks : List Text) : Prop := (content text).Sublist (content chunks.flatten)

/-! ### Windows -/

section
variable {o : ChunkOptions}

/-- The windows from `start` on cover the rest of the text, and tile it if they do not overlap. -/
theorem windows_spec (shifts : o.chunkOverlap < o.chunkSize) {text : Text} {rounds start : Nat}
    (inside : start ≤ text.length) (enough : text.length < start + rounds) :
    ∃ ws, windows o text rounds start = some ws ∧ (text.drop start).Sublist ws.flatten ∧
      (o.chunkOverlap = 0 → ws.flatten = text.drop start) := by
  induction rounds generalizing start with
  | zero => omega
  | succ rounds ih =>
      rw [windows]
      by_cases more : start < text.length
      · have next : (start : Int) + o.chunkSize - o.chunkOverlap =
            (start + (o.chunkSize - o.chunkOverlap) : Nat) := by omega
        rw [if_pos (by exact_mod_cast more)]
        dsimp only
        rw [Text.slice_of_nonneg, next]
        by_cases last : text.length ≤ start + (o.chunkSize - o.chunkOverlap)
        · have whole : (text.drop start).take o.chunkSize = text.drop start :=
            List.take_of_length_le (by rw [List.length_drop]; omega)
          rw [if_pos (by exact_mod_cast last), whole]
          exact ⟨_, rfl, by simp, fun _ => by simp⟩
        · obtain ⟨ws, returned, covers, tiles⟩ := ih (Nat.le_of_not_le last) (by omega)
          rw [if_neg (by exact_mod_cast last), returned]
          refine ⟨_, rfl, ?_, fun zero => ?_⟩
          · have parts := List.take_append_drop (o.chunkSize - o.chunkOverlap) (text.drop start)
            rw [List.drop_drop] at parts
            have window : ((text.drop start).take (o.chunkSize - o.chunkOverlap)).Sublist
                ((text.drop start).take o.chunkSize) :=
              (List.take_prefix_take_left (Nat.sub_le _ _)).sublist
            have both := window.append covers
            rwa [parts] at both
          · have tiled := tiles zero
            rw [zero, Nat.sub_zero] at tiled
            rw [List.flatten_cons, tiled, ← List.drop_drop, List.take_append_drop]
      · have ended : text.drop start = [] := List.drop_eq_nil_of_le (by omega)
        rw [if_neg (by exact_mod_cast more), ended]
        exact ⟨[], rfl, List.Sublist.refl _, fun _ => rfl⟩

theorem fixedSizeSplit_spec (shifts : o.chunkOverlap < o.chunkSize) (text : Text) :
    ∃ chunks, fixedSizeSplit o text = some chunks ∧ Covers text chunks ∧
      (o.chunkOverlap = 0 → content chunks.flatten = content text) := by
  obtain ⟨ws, returned, covers, tiles⟩ := windows_spec shifts (Nat.zero_le text.length)
    (show text.length < 0 + (text.length + 1) by omega)
  have kept : content (ws.filter (Text.strip · ≠ [])).flatten = content ws.flatten :=
    Text.filter_nonblank isContent_of_isSpace ws
  refine ⟨_, by rw [fixedSizeSplit, show (0 : Int) = (0 : Nat) from rfl, returned]; rfl, ?_, fun zero => ?_⟩
  · rw [Covers, kept]
    exact List.Sublist.filter _ covers
  · rw [kept, tiles zero, List.drop_zero]

/-! ### Parts -/

theorem content_candidate {sep current part : Text} (separator : content sep = []) :
    content (if current ≠ [] then current ++ sep ++ part else part) = content current ++ content part := by
  by_cases empty : current = []
  · simp [empty, content]
  · rw [if_pos empty, content_append, content_append, separator, List.append_nil]

theorem content_flush (chunks : List Text) (current : Text) :
    content (if current ≠ [] then chunks ++ [current] else chunks).flatten =
      content chunks.flatten ++ content current := by
  by_cases empty : current = []
  · simp [empty, content]
  · rw [if_pos empty, List.flatten_concat, content_append]

/-- What the parts so far contain is, in order, in the chunks and the accumulator. -/
theorem mergeParts_covers {recurse : Text → Option (List Text)}
    (deeper : ∀ part, ∃ more, recurse part = some more ∧ Covers part more) {sep : Text}
    (separator : content sep = []) (parts : List Text) {chunks : List Text} {current before : Text}
    (covered : before.Sublist (content chunks.flatten ++ content current)) :
    ∃ out, mergeParts o recurse sep chunks current parts = some out ∧
      (before ++ content parts.flatten).Sublist (content out.flatten) := by
  induction parts generalizing chunks current before with
  | nil =>
      refine ⟨_, rfl, ?_⟩
      rw [content_flush]
      simpa [content] using covered
  | cons part parts ih =>
      rw [mergeParts, List.flatten_cons, content_append, ← List.append_assoc]
      dsimp only
      by_cases fits : (if current ≠ [] then current ++ sep ++ part else part).length ≤ o.chunkSize
      · rw [if_pos fits]
        refine ih ?_
        rw [content_candidate separator, ← List.append_assoc]
        exact covered.append (List.Sublist.refl _)
      · rw [if_neg fits]
        by_cases long : part.length > o.chunkSize
        · obtain ⟨more, returned, covers⟩ := deeper part
          rw [if_pos long, returned, Option.bind_some]
          refine ih ?_
          rw [List.flatten_append, content_append, content_flush]
          -- The content that is kept in the accumulator comes a second time, after that of the part.
          exact (covered.append covers).trans (List.sublist_append_left _ _)
        · rw [if_neg long]
          refine ih ?_
          rw [content_flush]
          exact covered.append (List.Sublist.refl _)

theorem content_of_strip_eq_nil {text : Text} (blank : text.strip = []) : content text = [] :=
  Text.filter_of_strip_eq_nil isContent_of_isSpace blank

theorem content_short (text : Text) :
    content (if text.strip ≠ [] then [text] else []).flatten = content text := by
  by_cases blank : text.strip = []
  · rw [if_neg (by simp [blank]), content_of_strip_eq_nil blank]
    rfl
  · simp [blank]

theorem recursiveSplit_covers (shifts : o.chunkOverlap < o.chunkSize) {seps : List Text}
    (separator : ∀ sep ∈ seps, content sep = []) (text : Text) :
    ∃ chunks, recursiveSplit o seps text = some chunks ∧ Covers text chunks := by
  have short (text : Text) : Covers text (if text.strip ≠ [] then [text] else []) := by
    rw [Covers, content_short]
  have fixed (text : Text) : ∃ chunks, fixedSizeSplit o text = some chunks ∧ Covers text chunks := by
    obtain ⟨chunks, returned, covers, -⟩ := fixedSizeSplit_spec shifts text
    exact ⟨chunks, returned, covers⟩
  induction seps generalizing text with
  | nil =>
      rw [recursiveSplit]
      split
      · exact ⟨_, rfl, short text⟩
      · exact fixed text
  | cons sep seps ih =>
      obtain ⟨here, later⟩ := List.forall_mem_cons.mp separator
      rw [recursiveSplit]
      split
      · exact ⟨_, rfl, short text⟩
      split
      · exact fixed text
      split
      · rename_i nonempty found
        have merged : ∃ out, mergeParts o (recursiveSplit o seps) sep [] [] (Text.split sep text) = some out ∧
            ([] ++ content (Text.split sep text).flatten).Sublist (content out.flatten) :=
          mergeParts_covers (ih later) here _ (List.nil_sublist _)
        rwa [List.nil_append, content_split nonempty here] at merged
      · exact ih later text

theorem splitText_spec (text : Text) {chunks : List Text}
    (returned : recursiveSplit o separators text.strip = some chunks) (covers : Covers text.strip chunks) :
    ∃ out, splitText o text = some out ∧ content out.flatten = content chunks.flatten := by
  -- Where nothing is left, the text has no content, nor has the chunk that stands in.
  have standIn (none : content chunks.flatten = []) : content (text.strip.take o.chunkSize) = [] := by
    have nothing : content text.strip = [] := List.sublist_nil.mp (none ▸ covers)
    exact List.sublist_nil.mp (nothing ▸ (List.take_sublist _ _).filter _)
  unfold splitText
  by_cases blank : text.strip = []
  · rw [if_pos (Or.inr blank)]
    rw [blank] at returned
    obtain rfl := Option.some.inj returned
    exact ⟨[], rfl, rfl⟩
  · have nonempty : text ≠ [] := by
      rintro rfl
      exact blank rfl
    rw [if_neg (by simp [nonempty, blank]), returned]
    refine ⟨_, rfl, ?_⟩
    dsimp only
    have first : content (if chunks = [] then [text.strip.take o.chunkSize] else chunks).flatten =
        content chunks.flatten := by
      by_cases none : chunks = []
      · rw [if_pos none, List.flatten_singleton, standIn (by rw [none]; rfl), none]
        rfl
      · rw [if_neg none]
    generalize (if chunks = [] then [text.strip.take o.chunkSize] else chunks) = all at first ⊢
    have kept : content ((all.filter (Text.strip · ≠ [])).map Text.strip).flatten = content all.flatten :=
      Text.filter_stripped isContent_of_isSpace all
    rw [first] at kept
    by_cases none : (all.filter (Text.strip · ≠ [])).map Text.strip = []
    · rw [none] at kept
      rw [if_neg (not_not.mpr none), List.flatten_singleton, standIn kept.symm, ← kept]
      rfl
    · rw [if_pos none, kept]

/-- No content character of a document is lost, whatever the sizes. -/
theorem splitText_covers (shifts : o.chunkOverlap < o.chunkSize) (text : Text) :
    ∃ chunks, splitText o text = some chunks ∧ (content text).Sublist chunks.flatten := by
  obtain ⟨chunks, split, covers⟩ := recursiveSplit_covers shifts content_separator text.strip
  obtain ⟨out, returned, same⟩ := splitText_spec text split covers
  refine ⟨out, returned, ?_⟩
  rw [Covers, content_strip, ← same] at covers
  exact covers.trans List.filter_sublist

end

theorem splitText_covers_greeting :
    ∃ chunks, splitText ⟨12, 4⟩ "Hello world. 你好，世界！\n\nThis line is longer.".toList = some chunks ∧
      (content "Hello world. 你好，世界！\n\nThis line is longer.".toList).Sublist chunks.flatten :=
  splitText_covers (by decide) _

end CuckooEcho.Knowledge
