import CuckooEcho.Shared.SemanticChunker

namespace CuckooEcho.Shared.Chunking
open Lib Text
open Pattern (isSpace)

/-! ## The sizes of the chunks -/

section
variable (o : SemanticChunker) (sentences : List Text)

def HoldsLong (chunk : Text) : Prop := ∃ s ∈ sentences, o.maxChunkSize - o.overlapSize < s.length ∧ s <:+: chunk

def Fits (chunk : Text) : Prop := chunk.length ≤ o.maxChunkSize ∨ HoldsLong o sentences chunk

/-- The current chunk begins with an overlap that is not stripped, and the separator that the check leaves out makes it
one character too long: where a sentence is added, or where one follows the overlap. -/
def Overfills (st : Loop) (s : Text) : Prop :=
  (st.currentChunk.length + s.length = o.maxChunkSize ∧ s.length ≤ o.maxChunkSize - o.overlapSize ∧
      Begins st.currentChunk ∧ ¬ HoldsLong o sentences st.currentChunk) ∨
    (o.maxChunkSize < st.currentChunk.length + s.length ∧ s.length = o.maxChunkSize - o.overlapSize ∧
      o.overlapSize ≤ st.currentChunk.length ∧ Begins (o.overlap st.currentChunk))

end

structure Sized (o : SemanticChunker) (text : Text) (chunks : List Chunk) : Prop where
  fits : ∀ c ∈ chunks, Fits o (splitIntoSentences text) c.text
  kept : ∀ s ∈ splitIntoSentences text, ∃ c ∈ chunks, s <:+: c.text

/-! ### A sentence in what is joined -/

theorem Layout.isSentence {rest : Text} {ss : List Text} (h : Layout rest ss) : ∀ s ∈ ss, IsSentence s := by
  induction h with
  | blank => exact List.forall_mem_nil _
  | sentence blank sentence stops ends later ih => exact List.forall_mem_cons.mpr ⟨sentence, ih⟩

theorem infix_joined {t front s : Text} (sentence : IsSentence t) (ends : front ≠ [] → EndsSentence front) :
    t <:+: front ++ [' '] ++ s ↔ t <:+: front ∨ t <:+: s := by
  constructor
  · intro inside
    rw [List.append_assoc, List.singleton_append] at inside
    obtain here | there | ⟨first, second, filled, other, eq, suffix, ahead⟩ := List.infix_append_iff_ne_nil.mp inside
    · exact Or.inl here
    · exact Or.inr (infix_of_blank_append sentence.begins (blank_nil.cons (by decide : isSpace ' ')) there)
    · -- A sentence has no end of a sentence before white space.
      obtain ⟨d, second, rfl⟩ := List.exists_cons_of_ne_nil other
      obtain ⟨rfl, -⟩ := List.cons_prefix_cons.mp ahead
      have nonempty : front ≠ [] := fun empty => filled (List.suffix_nil.mp (empty ▸ suffix))
      obtain ⟨inner, e, rfl, last⟩ := (ends nonempty).suffix suffix filled
      have pair : [e, ' '] <:+: t := ⟨inner, second, by rw [eq]; simp⟩
      exact absurd (sentence.unbroken e ' ' pair last) (by decide)
  · rintro (here | there)
    · rw [List.append_assoc]
      exact List.infix_append_of_infix_left here
    · exact List.infix_append_of_infix_right there

theorem not_holdsLong_overlap (o : SemanticChunker) (sentences : List Text) (chunk : Text) :
    ¬ HoldsLong o sentences (o.overlap chunk) := by
  rintro ⟨s, -, long, inside⟩
  have shorter := inside.length_le
  have small := o.twice_le
  rw [SemanticChunker.length_overlap] at shorter
  omega

section
variable {o : SemanticChunker} {sentences : List Text} (all : ∀ s ∈ sentences, IsSentence s)
include all

theorem holdsLong_strip (chunk : Text) : HoldsLong o sentences chunk.strip ↔ HoldsLong o sentences chunk :=
  exists_congr fun s => and_congr_right fun member =>
    and_congr_right fun _ => infix_strip (all s member).toTrimmed

theorem holdsLong_joined {front s : Text} (ends : front ≠ [] → EndsSentence front) (member : s ∈ sentences) :
    HoldsLong o sentences (front ++ [' '] ++ s) ↔
      HoldsLong o sentences front ∨ o.maxChunkSize - o.overlapSize < s.length := by
  constructor
  · rintro ⟨t, listed, long, inside⟩
    obtain here | there := (infix_joined (all t listed) ends).mp inside
    · exact Or.inl ⟨t, listed, long, here⟩
    · exact Or.inr (Nat.lt_of_lt_of_le long there.length_le)
  · rintro (⟨t, listed, long, inside⟩ | long)
    · exact ⟨t, listed, long, (infix_joined (all t listed) ends).mpr (Or.inl inside)⟩
    · exact ⟨s, member, long, List.infix_append_right⟩

/-- What is joined is one character longer than its parts, unless the front is stripped. -/
theorem fits_joined {front s : Text} (ends : front ≠ [] → EndsSentence front) (member : s ∈ sentences)
    (short : front.length + s.length ≤ o.maxChunkSize) :
    Fits o sentences (front ++ [' '] ++ s).strip ↔
      ¬ (front.length + s.length = o.maxChunkSize ∧ s.length ≤ o.maxChunkSize - o.overlapSize ∧ Begins front ∧
        ¬ HoldsLong o sentences front) := by
  have length : (front ++ [' '] ++ s).length = front.length + s.length + 1 := by
    simp only [List.length_append, List.length_singleton]
    omega
  have bound := length_strip_le (front ++ [' '] ++ s)
  rw [Fits, holdsLong_strip all, holdsLong_joined all ends member]
  by_cases begins : Begins front
  · have same : (front ++ [' '] ++ s).strip = front ++ [' '] ++ s := by
      refine strip_of_trimmed ⟨?_, (all s member).ends.append _⟩
      rw [List.append_assoc]
      exact begins.append _
    rw [same, length]
    constructor
    · rintro (small | held | long) ⟨full, small', -, none⟩
      · omega
      · exact none held
      · omega
    · intro spared
      by_cases full : front.length + s.length = o.maxChunkSize
      · by_cases long : s.length ≤ o.maxChunkSize - o.overlapSize
        · exact Or.inr (Or.inl (by_contra fun none => spared ⟨full, long, begins, none⟩))
        · exact Or.inr (Or.inr (Nat.lt_of_not_le long))
      · exact Or.inl (by omega)
  · have shorter : (front ++ [' '] ++ s).strip.length < (front ++ [' '] ++ s).length := by
      refine length_strip_lt (by simp) ?_
      cases front with
      | nil => simp [begins_cons, isSpace]
      | cons c front => simpa [begins_cons] using begins
    exact iff_of_true (Or.inl (by omega)) fun h => begins h.2.2.1

variable {text : Text} {parentId : Option String} {st : Loop} {s : Text}

theorem fits_step (ends : EndsSentence st.currentChunk) (member : s ∈ sentences) :
    Fits o sentences (o.step text parentId st s).currentChunk.strip ↔ ¬ Overfills o sentences st s := by
  have nonempty := ends.ne_nil
  by_cases full : o.maxChunkSize < st.currentChunk.length + s.length
  · obtain ⟨chunk, -, -, -, eq⟩ := @SemanticChunker.step_of_full o text parentId st s nonempty full
    have back : o.overlap st.currentChunk <:+ st.currentChunk := List.drop_suffix _ _
    have length := o.length_overlap st.currentChunk
    rw [eq]
    dsimp only
    by_cases long : o.maxChunkSize - o.overlapSize < s.length
    · refine iff_of_true (Or.inr ?_) ?_
      · rw [holdsLong_strip all, holdsLong_joined all (fun other => ends.suffix back other) member]
        exact Or.inr long
      · rintro (⟨brimful, -⟩ | ⟨-, brim, -⟩)
        · omega
        · omega
    · have small := o.twice_le
      rw [fits_joined all (fun other => ends.suffix back other) member (by omega), not_iff_not]
      constructor
      · rintro ⟨brimful, -, begins, -⟩
        exact Or.inr ⟨full, by omega, by omega, begins⟩
      · rintro (⟨brimful, -⟩ | ⟨-, brim, enough, begins⟩)
        · omega
        · exact ⟨by omega, by omega, begins, not_holdsLong_overlap o sentences st.currentChunk⟩
  · have room := Nat.le_of_not_lt full
    rw [SemanticChunker.step_of_room nonempty room]
    dsimp only
    rw [fits_joined all (fun _ => ends) member room, not_iff_not]
    exact ⟨Or.inl, fun h => h.resolve_right fun longer => full longer.1⟩

/-- The chunks that are still to come fit if the current one does and no sentence overfills one; every sentence that is
in the current one or still to come is in one of them. -/
theorem exists_sized {rest : Text} {ss : List Text} (layout : Layout rest ss) (members : ∀ s ∈ ss, s ∈ sentences)
    (ends : Ends st.currentChunk) (said : ss ≠ [] → EndsSentence st.currentChunk) :
    ∃ cs, o.chunksFrom text parentId st ss = st.chunks ++ cs ∧
      ((∀ c ∈ cs, Fits o sentences c.text) ↔ Fits o sentences st.currentChunk.strip ∧
        Along (fun st s => some (o.step text parentId st s)) (fun st s => ¬ Overfills o sentences st s) st ss) ∧
      ∀ t, Trimmed t → t <:+: st.currentChunk ∨ t ∈ ss → ∃ c ∈ cs, t <:+: c.text := by
  induction layout generalizing st with
  | blank blank =>
      obtain ⟨chunk, holds, -, -, eq⟩ := @SemanticChunker.finish_of_ends text parentId st ends
      refine ⟨[chunk], eq, ?_, fun t trimmed inside => ⟨chunk, List.mem_singleton_self _, ?_⟩⟩
      · rw [List.forall_mem_singleton, holds]
        exact (and_iff_left trivial).symm
      · rw [holds]
        exact (infix_strip trimmed).mpr (inside.resolve_right List.not_mem_nil)
  | sentence blank sentence stops ends' later ih =>
      rename_i gap s rest ss
      obtain ⟨member, members⟩ := List.forall_mem_cons.mp members
      have said := said (List.cons_ne_nil s ss)
      have step := @fits_step o sentences all text parentId st s said member
      have nonempty : st.currentChunk ≠ [] := said.ne_nil
      rw [along_total_cons, SemanticChunker.chunksFrom_cons]
      by_cases full : o.maxChunkSize < st.currentChunk.length + s.length
      · obtain ⟨chunk, holds, -, -, eq⟩ := @SemanticChunker.step_of_full o text parentId st s nonempty full
        rw [eq] at step ⊢
        obtain ⟨cs, eq', sized, kept⟩ := @ih ⟨st.chunks ++ [chunk], o.overlap st.currentChunk ++ [' '] ++ s, _⟩ members
          (sentence.ends.append _) (fun more => (ends' more).append _)
        refine ⟨chunk :: cs, by rw [eq', List.append_assoc, List.singleton_append], ?_, fun t trimmed said => ?_⟩
        · rw [List.forall_mem_cons, sized, step, holds]
        · obtain inside | listed := said
          · exact ⟨chunk, List.mem_cons_self, holds ▸ (infix_strip trimmed).mpr inside⟩
          · have later : t <:+: o.overlap st.currentChunk ++ [' '] ++ s ∨ t ∈ ss := by
              obtain rfl | listed := List.mem_cons.mp listed
              · exact Or.inl List.infix_append_right
              · exact Or.inr listed
            obtain ⟨c, there, inside⟩ := kept t trimmed later
            exact ⟨c, List.mem_cons_of_mem chunk there, inside⟩
      · have room := Nat.le_of_not_lt full
        rw [SemanticChunker.step_of_room nonempty room] at step ⊢
        obtain ⟨cs, eq', sized, kept⟩ := @ih { st with currentChunk := st.currentChunk ++ [' '] ++ s } members
          (sentence.ends.append _) (fun more => (ends' more).append _)
        have fits : Fits o sentences st.currentChunk.strip :=
          Or.inl ((length_strip_le _).trans (Nat.le_of_add_right_le room))
        refine ⟨cs, eq', ?_, fun t trimmed said => kept t trimmed ?_⟩
        · rw [sized, step, and_iff_right fits]
        · obtain inside | listed := said
          · rw [List.append_assoc]
            exact Or.inl (List.infix_append_of_infix_left inside)
          · obtain rfl | listed := List.mem_cons.mp listed
            · exact Or.inl List.infix_append_right
            · exact Or.inr listed

end

/-- The chunks have their size, and no sentence is lost, exactly where no sentence overfills a chunk. -/
theorem sized_iff (o : SemanticChunker) (text : Text) (parentId : Option String) :
    Sized o text (o.splitBySemantics text parentId) ↔
      Along (fun st s => some (o.step text parentId st s))
        (fun st s => ¬ Overfills o (splitIntoSentences text) st s) {} (splitIntoSentences text) := by
  have layout := layout_splitIntoSentences text
  have all := layout.isSentence
  generalize sentences : splitIntoSentences text = ss at layout all
  cases layout with
  | blank blank =>
      have none : o.splitBySemantics text parentId = [] := by
        rw [SemanticChunker.splitBySemantics, sentences]
        rfl
      rw [none]
      exact iff_of_true ⟨List.forall_mem_nil _, by simp [sentences]⟩ trivial
  | sentence blank sentence stops ends later =>
      rename_i gap s rest ss
      obtain ⟨member, members⟩ := List.forall_mem_cons.mp fun t (listed : t ∈ s :: ss) => listed
      have first := @SemanticChunker.step_of_empty o (gap ++ (s ++ rest)) parentId {} s rfl
      obtain ⟨cs, eq, sized, kept⟩ := @exists_sized o (s :: ss) all (gap ++ (s ++ rest)) parentId
        (o.step (gap ++ (s ++ rest)) parentId {} s) rest ss later members
        (first ▸ sentence.ends.append _) (fun more => first ▸ (ends more).append _)
      have fits : Fits o (s :: ss) (o.step (gap ++ (s ++ rest)) parentId {} s).currentChunk.strip := by
        have same : strip ([' '] ++ s) = s := by
          have := strip_append (blank_nil.cons (by decide : isSpace ' ')) sentence.toTrimmed blank_nil
          rwa [List.append_nil] at this
        rw [first, same]
        by_cases small : s.length ≤ o.maxChunkSize
        · exact Or.inl small
        · exact Or.inr ⟨s, member, by omega, List.infix_rfl⟩
      have begins : ¬ Overfills o (s :: ss) {} s := by
        rintro (⟨-, -, begins, -⟩ | ⟨-, -, -, begins⟩)
        · exact not_begins_nil begins
        · have none : o.overlap [] = [] := List.drop_nil
          exact not_begins_nil (none ▸ begins)
      have chunks : o.splitBySemantics (gap ++ (s ++ rest)) parentId = cs := by
        rw [SemanticChunker.splitBySemantics, sentences, SemanticChunker.chunksFrom_cons, eq, first]
        rfl
      rw [along_total_cons, and_iff_right begins, chunks]
      constructor
      · intro h
        exact (sized.mp (sentences ▸ h.fits)).2
      · intro along
        refine ⟨sentences ▸ sized.mpr ⟨fits, along⟩, fun t listed => ?_⟩
        rw [sentences] at listed
        refine kept t (all t listed).toTrimmed ?_
        obtain rfl | later := List.mem_cons.mp listed
        · exact Or.inl (first ▸ List.infix_append_right)
        · exact Or.inr later

def brimming : Text := List.replicate 499 'a' ++ ['.', ' '] ++ List.replicate 899 'b' ++ ['.']

theorem brimming_tooLong : ¬ Sized {} brimming (({} : SemanticChunker).splitBySemantics brimming none) := by
  have long : ∃ c ∈ ({} : SemanticChunker).splitBySemantics brimming none, 1000 < c.text.length := by decide +kernel
  have short : ∀ s ∈ splitIntoSentences brimming, s.length ≤ 900 := by decide +kernel
  intro sized
  obtain ⟨c, member, long⟩ := long
  obtain small | ⟨s, listed, longer, -⟩ := sized.fits c member
  · exact absurd small (Nat.not_le.mpr long)
  · exact absurd (short s listed) (Nat.not_le.mpr longer)

end CuckooEcho.Shared.Chunking
