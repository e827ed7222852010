import CuckooEcho.Shared.SemanticChunker
import Mathlib.Data.List.Chain

namespace CuckooEcho.Shared.Chunking
open Lib Text
open Pattern (isSpace)

/-! ## The spans of the chunks -/

/-- Each sentence at the place where it is found after the sentence before it. -/
def placesFrom (text : Text) : Int → List Text → List (Int × Text)
  | _, [] => []
  | done, s :: ss => (find text s done, s) :: placesFrom text (find text s done + s.length) ss

def places (text : Text) : List (Int × Text) := placesFrom text 0 (splitIntoSentences text)

def Chunk.Covers (c : Chunk) (p : Int × Text) : Prop := c.startChar ≤ p.1 ∧ p.1 + p.2.length ≤ c.endChar

structure Tiles (text : Text) (chunks : List Chunk) : Prop where
  bounds : ∀ c ∈ chunks, 0 ≤ c.startChar ∧ c.startChar < c.endChar ∧ c.endChar ≤ text.length
  ordered : chunks.IsChain fun c d => c.endChar ≤ d.startChar
  covers : ∀ p ∈ places text, ∃ c ∈ chunks, c.Covers p
  contained : ∀ c ∈ chunks, words (slice text c.startChar c.endChar).strip <:+: words c.text

section
variable (o : SemanticChunker) (text : Text)

/-- A sentence that closes a chunk does not occur between the start of this chunk and its own place. The chunk that is
open starts at `start` and has `length` characters. -/
def FoundInPlace : Nat → Int → List (Int × Text) → Prop
  | _, _, [] => True
  | length, start, (place, s) :: later =>
      if o.maxChunkSize < length + s.length ∧ length ≠ 0 then
        (∀ p, p < place.toNat → start ≤ (p : Int) → ¬ s <+: text.drop p) ∧
          FoundInPlace (min length o.overlapSize + 1 + s.length) place later
      else FoundInPlace (length + 1 + s.length) (if length = 0 then place else start) later

instance decidableFoundInPlace : ∀ length start ps, Decidable (FoundInPlace o text length start ps)
  | _, _, [] => isTrue trivial
  | length, start, (place, s) :: later =>
      have _closed := decidableFoundInPlace (min length o.overlapSize + 1 + s.length) place later
      have _kept := decidableFoundInPlace (length + 1 + s.length) (if length = 0 then place else start) later
      inferInstanceAs (Decidable (ite _ _ _))

end

/-! ### From one chunk to the next -/

/-- The chunks follow each other from a place to the end of the text. -/
def Spans (text : Text) : Nat → List Chunk → Prop
  | start, [] => start = text.length
  | start, c :: cs => ∃ stop : Nat, c.startChar = start ∧ c.endChar = stop ∧ start < stop ∧
      words (slice text c.startChar c.endChar).strip <:+: words c.text ∧ Spans text stop cs

theorem Spans.bounds {text : Text} {start : Nat} {cs : List Chunk} (h : Spans text start cs) :
    start ≤ text.length ∧ ∀ c ∈ cs, 0 ≤ c.startChar ∧ c.startChar < c.endChar ∧ c.endChar ≤ text.length := by
  induction cs generalizing start with
  | nil => exact ⟨Nat.le_of_eq h, List.forall_mem_nil _⟩
  | cons c cs ih =>
      obtain ⟨stop, starts, ends, order, -, later⟩ := h
      obtain ⟨inside, all⟩ := ih later
      refine ⟨by omega, List.forall_mem_cons.mpr ⟨by omega, all⟩⟩

theorem Spans.ordered {text : Text} {start : Nat} {cs : List Chunk} (h : Spans text start cs) :
    cs.IsChain fun c d => c.endChar ≤ d.startChar := by
  induction cs generalizing start with
  | nil => exact .nil
  | cons c cs ih =>
      obtain ⟨stop, -, ends, -, -, later⟩ := h
      refine List.isChain_cons.mpr ⟨fun d first => ?_, ih later⟩
      obtain ⟨cs, rfl⟩ := List.head?_eq_some_iff.mp first
      obtain ⟨_, starts, -⟩ := later
      exact Int.le_of_eq (ends.trans starts.symm)

theorem Spans.contained {text : Text} {start : Nat} {cs : List Chunk} (h : Spans text start cs) :
    ∀ c ∈ cs, words (slice text c.startChar c.endChar).strip <:+: words c.text := by
  induction cs generalizing start with
  | nil => exact List.forall_mem_nil _
  | cons c cs ih =>
      obtain ⟨stop, -, -, -, inside, later⟩ := h
      exact List.forall_mem_cons.mpr ⟨inside, ih later⟩

/-! ### The words of a span -/

theorem prefix_own (done gap s rest : Text) :
    s <+: (done ++ (gap ++ (s ++ rest))).drop (done.length + gap.length) := by
  rw [← List.drop_drop, List.drop_left, List.drop_left]
  exact List.prefix_append s rest

theorem find_own {done gap s rest : Text} (blank : Blank gap) (begins : Begins s) :
    find (done ++ (gap ++ (s ++ rest))) s (done.length : Nat) = (done.length + gap.length : Nat) := by
  refine find_eq (Nat.le_add_right _ _) (by simp only [List.length_append]; omega) (prefix_own done gap s rest)
    fun p after before found => ?_
  obtain ⟨k, rfl⟩ := Nat.exists_eq_add_of_le after
  rw [← List.drop_drop, List.drop_left, List.drop_append_of_le_length (by omega)] at found
  cases inside : gap.drop k with
  | nil =>
      have := List.drop_eq_nil_iff.mp inside
      omega
  | cons c tail =>
      obtain ⟨d, later, rfl, black⟩ := begins
      rw [inside] at found
      obtain ⟨rfl, -⟩ := List.cons_prefix_cons.mp found
      rw [blank d (List.drop_subset k gap (inside ▸ List.mem_cons_self))] at black
      cases black

theorem words_span {done gap tail : Text} (blank : Blank gap) {start : Nat} (begun : start < done.length) :
    words (slice (done ++ (gap ++ tail)) start (done.length + gap.length : Nat)).strip = words (done.drop start) := by
  have front : (done ++ (gap ++ tail)).take (done.length + gap.length) = done ++ gap := by
    rw [← List.append_assoc, ← List.length_append, List.take_left]
  have ends : index (done ++ (gap ++ tail)).length (done.length + gap.length : Nat) = done.length + gap.length := by
    rw [index, if_neg (by omega), Int.toNat_natCast]
  have starts : index (done ++ (gap ++ tail)).length (start : Nat) = start := by
    rw [index, if_neg (by omega), Int.toNat_natCast]
  rw [words_strip, slice, ends, starts, front, List.drop_append_of_le_length (Nat.le_of_lt begun),
    words_append_blank _ blank]

theorem words_said {done gap s : Text} (blank : Blank gap) (nonempty : gap ≠ []) {start : Nat}
    (begun : start < done.length) :
    words ((done ++ (gap ++ s)).drop start) = words (done.drop start) ++ words s := by
  obtain ⟨c, gap, rfl⟩ := List.exists_cons_of_ne_nil nonempty
  obtain ⟨space, blank⟩ := List.forall_mem_cons.mp blank
  rw [List.drop_append_of_le_length (Nat.le_of_lt begun), List.cons_append, words_append _ space,
    words_blank_append blank]

theorem words_joined (current s : Text) : words (current ++ [' '] ++ s) = words current ++ words s := by
  rw [List.append_assoc]
  exact words_append current (by decide) s

/-! ### The loop -/

/-- A chunk is open; what has been read since its start is at the end of what it holds. -/
structure Open (done rest : Text) (start : Nat) (st : Loop) : Prop where
  started : st.currentStart = start
  begun : start < done.length
  ends : Ends st.currentChunk
  said : words (done.drop start) <:+ words st.currentChunk
  stops : ¬ Begins rest

section
variable {o : SemanticChunker} {text : Text} {parentId : Option String}

theorem Open.nonempty {done rest : Text} {start : Nat} {st : Loop} (h : Open done rest start st) :
    st.currentChunk ≠ [] := by
  intro empty
  have ends := h.ends
  rw [empty] at ends
  obtain ⟨front, c, eq, -⟩ := ends
  simp at eq

variable {done gap s rest : Text} {start : Nat} {st : Loop}

theorem Open.gap_ne_nil (opened : Open done (gap ++ (s ++ rest)) start st) (begins : Begins s) : gap ≠ [] := by
  rintro rfl
  exact opened.stops (begins.append rest)

theorem length_read (done gap s : Text) : (done ++ (gap ++ s)).length = done.length + gap.length + s.length := by
  simp only [List.length_append]
  omega

theorem Open.keep (opened : Open done (gap ++ (s ++ rest)) start st) (blank : Blank gap) (sentence : IsSentence s)
    (stops : ¬ Begins rest) (room : st.currentChunk.length + s.length ≤ o.maxChunkSize) :
    Open (done ++ (gap ++ s)) rest start (o.step text parentId st s) := by
  have begun := opened.begun
  rw [SemanticChunker.step_of_room opened.nonempty room]
  refine ⟨opened.started, by rw [length_read]; omega, sentence.ends.append _, ?_, stops⟩
  rw [words_joined, words_said blank (opened.gap_ne_nil sentence.begins) opened.begun]
  exact List.suffix_append_self_iff.mpr opened.said

theorem open_of_close (overlap : Text) (chunks : List Chunk) (sentence : IsSentence s) (stops : ¬ Begins rest) :
    Open (done ++ (gap ++ s)) rest (done.length + gap.length)
      ⟨chunks, overlap ++ [' '] ++ s, (done.length + gap.length : Nat)⟩ := by
  have positive : 0 < s.length := List.length_pos_of_ne_nil sentence.ne_nil
  refine ⟨rfl, by rw [length_read]; omega, sentence.ends.append _, ?_, stops⟩
  rw [words_joined, ← List.append_assoc, ← List.length_append, List.drop_left]
  exact List.suffix_append _ _

theorem contained_of_open (opened : Open done rest start st) {gap tail : Text} (blank : Blank gap)
    (whole : text = done ++ (gap ++ tail)) :
    words (slice text st.currentStart (done.length + gap.length : Nat)).strip <:+: words st.currentChunk.strip := by
  rw [opened.started, whole, words_span blank opened.begun, words_strip]
  exact opened.said.isInfix

/-- From an open chunk on, the chunks cover what has been read of it and all that is still to be read. -/
theorem exists_chunksFrom {rest : Text} {ss : List Text} (layout : Layout rest ss) {done : Text} {start : Nat}
    {st : Loop} (whole : text = done ++ rest) (opened : Open done rest start st)
    (found : FoundInPlace o text st.currentChunk.length start (placesFrom text done.length ss)) :
    ∃ first more, o.chunksFrom text parentId st ss = st.chunks ++ first :: more ∧
      Spans text start (first :: more) ∧ (done.length : Int) ≤ first.endChar ∧
        ∀ p ∈ placesFrom text done.length ss, ∃ c ∈ first :: more, c.Covers p := by
  induction layout generalizing done start st with
  | blank blank =>
      rename_i gap
      have begun := opened.begun
      obtain ⟨chunk, holds, starts, ends, eq⟩ := @SemanticChunker.finish_of_ends text parentId st opened.ends
      have length : text.length = done.length + gap.length := by rw [whole, List.length_append]
      have split : text = done ++ (gap ++ []) := by rw [List.append_nil, whole]
      have contained := contained_of_open opened blank split
      rw [← starts, ← length, ← ends, ← holds] at contained
      exact ⟨chunk, [], eq, ⟨text.length, starts.trans opened.started, ends, by omega, contained, rfl⟩, by omega,
        List.forall_mem_nil _⟩
  | sentence blank sentence stops ends later ih =>
      rename_i gap s rest ss
      have begun := opened.begun
      have own : find text s (done.length : Nat) = (done.length + gap.length : Nat) := by
        rw [whole]
        exact find_own blank sentence.begins
      have size := length_read done gap s
      have read : text = (done ++ (gap ++ s)) ++ rest := by rw [whole]; simp
      have positive : st.currentChunk.length ≠ 0 := (List.length_pos_of_ne_nil opened.nonempty).ne'
      have next : (done.length + gap.length : Nat) + (s.length : Int) = (done ++ (gap ++ s)).length := by omega
      rw [placesFrom, own, next] at found ⊢
      by_cases full : o.maxChunkSize < st.currentChunk.length + s.length
      · rw [FoundInPlace, if_pos ⟨full, positive⟩] at found
        obtain ⟨first, found⟩ := found
        have inPlace : find text s st.currentStart = (done.length + gap.length : Nat) := by
          rw [opened.started]
          refine find_eq (by omega) (by rw [whole]; simp only [List.length_append]; omega) ?_ fun p after before => ?_
          · rw [whole]
            exact prefix_own done gap s rest
          · exact first p before (by omega)
        obtain ⟨chunk, holds, starts, ends, eq⟩ :=
          @SemanticChunker.step_of_full o text parentId st s opened.nonempty full
        rw [inPlace] at eq ends
        have opened' :=
          @open_of_close done gap s rest (o.overlap st.currentChunk) (st.chunks ++ [chunk]) sentence stops
        have length : (o.overlap st.currentChunk ++ [' '] ++ s).length =
            min st.currentChunk.length o.overlapSize + 1 + s.length := by
          simp only [List.length_append, List.length_singleton, SemanticChunker.length_overlap]
        obtain ⟨second, more, eq', spans, covered, all⟩ := ih read opened' (length ▸ found)
        have contained := contained_of_open opened blank whole
        rw [← starts, ← ends, ← holds] at contained
        have span : Spans text start (chunk :: second :: more) :=
          ⟨_, starts.trans opened.started, ends, by omega, contained, spans⟩
        refine ⟨chunk, second :: more, ?_, span, by omega, ?_⟩
        · rw [SemanticChunker.chunksFrom_cons, eq, eq', List.append_assoc, List.singleton_append]
        · obtain ⟨stop, starts', -⟩ := spans
          have here : second.Covers ((done.length + gap.length : Nat), s) :=
            ⟨Int.le_of_eq starts', by dsimp only; omega⟩
          refine List.forall_mem_cons.mpr ⟨⟨second, by simp, here⟩, fun p member => ?_⟩
          obtain ⟨c, inside, covers⟩ := all p member
          exact ⟨c, List.mem_cons_of_mem chunk inside, covers⟩
      · rw [FoundInPlace, if_neg (fun h => full h.1), if_neg positive] at found
        have room := Nat.le_of_not_lt full
        have opened' := @Open.keep o text parentId done gap s rest start st opened blank sentence stops room
        rw [SemanticChunker.chunksFrom_cons]
        rw [SemanticChunker.step_of_room opened.nonempty room] at opened' ⊢
        have length : (st.currentChunk ++ [' '] ++ s).length = st.currentChunk.length + 1 + s.length := by
          simp only [List.length_append, List.length_singleton]
        obtain ⟨first, more, eq, spans, covered, all⟩ := ih read opened' (length ▸ found)
        refine ⟨first, more, eq, spans, by omega, List.forall_mem_cons.mpr ⟨⟨first, List.mem_cons_self, ?_⟩, all⟩⟩
        obtain ⟨stop, starts, -⟩ := spans
        exact ⟨by dsimp only; omega, by dsimp only; omega⟩

/-- The spans tile the text where the sentences that close a chunk are found in their own places. -/
theorem tiles_of_foundInPlace (o : SemanticChunker) (text : Text) (parentId : Option String)
    (found : FoundInPlace o text 0 0 (places text)) : Tiles text (o.splitBySemantics text parentId) := by
  have layout := layout_splitIntoSentences text
  rw [places] at found
  generalize sentences : splitIntoSentences text = ss at layout found
  cases layout with
  | blank blank =>
      have none : o.splitBySemantics text parentId = [] := by
        rw [SemanticChunker.splitBySemantics, sentences]
        rfl
      rw [none]
      exact ⟨List.forall_mem_nil _, .nil, by simp [places, sentences, placesFrom], List.forall_mem_nil _⟩
  | sentence blank sentence stops ends later =>
      rename_i gap s rest ss
      have own : find (gap ++ (s ++ rest)) s 0 = gap.length := by
        have := @find_own [] gap s rest blank sentence.begins
        simpa using this
      have positive : 0 < s.length := List.length_pos_of_ne_nil sentence.ne_nil
      have opened : Open (gap ++ s) rest gap.length ⟨[], [' '] ++ s, gap.length⟩ := by
        refine ⟨rfl, by rw [List.length_append]; omega, sentence.ends.append _, ?_, stops⟩
        have same : words ([' '] ++ s) = words s := words_append [] (by decide) s
        rw [List.drop_left, same]
      have next : (gap.length : Int) + s.length = (gap ++ s).length := by rw [List.length_append]; rfl
      rw [placesFrom, FoundInPlace, if_neg (fun h => h.2 rfl), if_pos rfl, own, next] at found
      have length : 0 + 1 + s.length = ([' '] ++ s).length := by rw [List.length_append]; rfl
      rw [length] at found
      obtain ⟨first, more, eq, spans, covered, all⟩ :=
        @exists_chunksFrom o (gap ++ (s ++ rest)) parentId rest ss later (gap ++ s) gap.length _ (by simp) opened found
      have chunks : o.splitBySemantics (gap ++ (s ++ rest)) parentId = first :: more := by
        rw [SemanticChunker.splitBySemantics, sentences, SemanticChunker.chunksFrom_cons,
          SemanticChunker.step_of_empty rfl, own, eq]
        rfl
      have starts := spans
      obtain ⟨stop, starts, -⟩ := starts
      rw [chunks]
      refine ⟨spans.bounds.2, spans.ordered, ?_, spans.contained⟩
      rw [places, sentences, placesFrom, own, next]
      exact List.forall_mem_cons.mpr ⟨⟨first, by simp, by dsimp only; omega, by dsimp only; omega⟩, all⟩

end

theorem tiles_of_foundInPlace_steps : Tiles "Open it. Close it.".toList
    ((⟨10, 2, by decide⟩ : SemanticChunker).splitBySemantics "Open it. Close it.".toList none) :=
  tiles_of_foundInPlace ⟨10, 2, by decide⟩ "Open it. Close it.".toList none (by decide +kernel)

/-- The same sentence of 600 characters twice. -/
def twice : Text := List.replicate 599 'a' ++ ['.', ' '] ++ List.replicate 599 'a' ++ ['.']

theorem twice_emptySpan : ¬ Tiles twice (({} : SemanticChunker).splitBySemantics twice none) := by
  have empty : ∃ c ∈ ({} : SemanticChunker).splitBySemantics twice none, ¬ c.startChar < c.endChar := by decide +kernel
  obtain ⟨c, member, none⟩ := empty
  exact fun tiles => none (tiles.bounds c member).2.1

end CuckooEcho.Shared.Chunking
