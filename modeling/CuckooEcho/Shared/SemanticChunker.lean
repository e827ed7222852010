import CuckooEcho.Lib.Run
import CuckooEcho.Lib.Words

namespace CuckooEcho.Shared.Chunking
open Lib Text
open Pattern (isSpace)

/-! ## The sentences of a text -/

def isEnd (c : Char) : Bool := c ∈ ['.', '!', '?']

/-- The pieces between the matches of `(?<=[.!?])\s+`. `part` is the current piece, its last character first; at first
it may be preceded by the white space that a match has still to take. -/
def piecesFrom : Bool → Text → Text → List Text
  | _, part, [] => [part.reverse]
  | true, part, c :: rest => if isSpace c then piecesFrom true part rest else piecesFrom false (c :: part) rest
  | false, part, c :: rest =>
      if isSpace c ∧ part.head?.any isEnd then part.reverse :: piecesFrom true [] rest
      else piecesFrom false (c :: part) rest

def stripped (pieces : List Text) : List Text := (pieces.filter (·.strip ≠ [])).map strip

def splitIntoSentences (text : Text) : List Text := stripped (piecesFrom false [] text)

/-! ## The chunks -/

structure Chunk where
  id : String
  text : Text
  startChar : Int
  endChar : Int
  parentId : Option String := none
  metadata : List (String × String) := []
  deriving DecidableEq, Repr

def indexIn (sub : Text) : Text → Option Nat
  | [] => if sub = [] then some 0 else none
  | c :: rest => if sub <+: c :: rest then some 0 else (indexIn sub rest).map (· + 1)

/-- `text.find(sub, start)` -/
def find (text sub : Text) (start : Int) : Int :=
  let start := index text.length start
  if text.length < start then -1
  else
    match indexIn sub (text.drop start) with
    | some i => (start + i : Nat)
    | none => -1

/-- The sizes that a chunker is made with, or others of which the overlap is no more than half. -/
structure SemanticChunker where
  maxChunkSize : Nat := 1000
  overlapSize : Nat := 100
  twice_le : 2 * overlapSize ≤ maxChunkSize := by decide

structure Loop where
  chunks : List Chunk := []
  currentChunk : Text := []
  currentStart : Int := 0
  deriving DecidableEq, Repr

namespace SemanticChunker
variable (o : SemanticChunker) (text : Text) (parentId : Option String)

def overlap (currentChunk : Text) : Text := currentChunk.drop (currentChunk.length - o.overlapSize)

def step (st : Loop) (sentence : Text) : Loop :=
  let sentenceStart := find text sentence st.currentStart
  if o.maxChunkSize < st.currentChunk.length + sentence.length ∧ st.currentChunk ≠ [] then
    let chunk : Chunk :=
      { id := "chunk_" ++ toString st.chunks.length, text := st.currentChunk.strip, startChar := st.currentStart
        endChar := sentenceStart, parentId }
    { chunks := st.chunks ++ [chunk], currentChunk := o.overlap st.currentChunk ++ [' '] ++ sentence
      currentStart := sentenceStart }
  else
    { st with
      currentChunk := st.currentChunk ++ [' '] ++ sentence
      currentStart := if st.currentChunk = [] then sentenceStart else st.currentStart }

def finish (st : Loop) : List Chunk :=
  if st.currentChunk.strip ≠ [] then
    let chunk : Chunk :=
      { id := "chunk_" ++ toString st.chunks.length, text := st.currentChunk.strip, startChar := st.currentStart
        endChar := text.length, parentId }
    st.chunks ++ [chunk]
  else st.chunks

def chunksFrom (st : Loop) (sentences : List Text) : List Chunk :=
  finish text parentId (sentences.foldl (o.step text parentId) st)

def splitBySemantics : List Chunk := o.chunksFrom text parentId {} (splitIntoSentences text)

end SemanticChunker

namespace SemanticChunker
variable {o : SemanticChunker} {text : Text} {parentId : Option String} {st : Loop} {s : Text}

theorem step_of_full (nonempty : st.currentChunk ≠ [])
    (full : o.maxChunkSize < st.currentChunk.length + s.length) : ∃ chunk : Chunk,
      chunk.text = st.currentChunk.strip ∧ chunk.startChar = st.currentStart ∧
        chunk.endChar = find text s st.currentStart ∧ o.step text parentId st s =
          ⟨st.chunks ++ [chunk], o.overlap st.currentChunk ++ [' '] ++ s, find text s st.currentStart⟩ := by
  refine ⟨_, ?_, ?_, ?_, if_pos ⟨full, nonempty⟩⟩
  · rfl
  · rfl
  · rfl

theorem step_of_room (nonempty : st.currentChunk ≠ [])
    (room : st.currentChunk.length + s.length ≤ o.maxChunkSize) :
    o.step text parentId st s = { st with currentChunk := st.currentChunk ++ [' '] ++ s } := by
  rw [step, if_neg (fun h => Nat.not_lt.mpr room h.1), if_neg nonempty]

theorem step_of_empty (empty : st.currentChunk = []) :
    o.step text parentId st s = ⟨st.chunks, [' '] ++ s, find text s st.currentStart⟩ := by
  rw [step, if_neg (fun h => h.2 empty), if_pos empty, empty, List.nil_append]

theorem finish_of_ends (ends : Ends st.currentChunk) : ∃ chunk : Chunk,
    chunk.text = st.currentChunk.strip ∧ chunk.startChar = st.currentStart ∧ chunk.endChar = text.length ∧
      finish text parentId st = st.chunks ++ [chunk] := by
  obtain ⟨-, -, -, trimmed⟩ := exists_strip_of_ends ends
  refine ⟨_, ?_, ?_, ?_, if_pos trimmed.ne_nil⟩
  · rfl
  · rfl
  · rfl

theorem length_overlap (currentChunk : Text) :
    (o.overlap currentChunk).length = min currentChunk.length o.overlapSize := by
  rw [overlap, List.length_drop]
  omega

theorem chunksFrom_cons (ss : List Text) :
    o.chunksFrom text parentId st (s :: ss) = o.chunksFrom text parentId (o.step text parentId st s) ss := rfl

end SemanticChunker

/-! ## Where the sentences are -/

def Unbroken (s : Text) : Prop := ∀ e w, [e, w] <:+: s → isEnd e → isSpace w = false

structure IsSentence (s : Text) : Prop extends Trimmed s where
  unbroken : Unbroken s

def EndsSentence (s : Text) : Prop := ∃ front e, s = front ++ [e] ∧ isEnd e

/-- The text is made of the sentences and the white space around them; all but the last end as sentences do. -/
inductive Layout : Text → List Text → Prop
  | blank {gap : Text} (blank : Blank gap) : Layout gap []
  | sentence {gap s rest : Text} {ss : List Text} (blank : Blank gap) (sentence : IsSentence s) (stops : ¬ Begins rest)
      (ends : ss ≠ [] → EndsSentence s) (later : Layout rest ss) : Layout (gap ++ (s ++ rest)) (s :: ss)

theorem isSpace_of_isEnd {c : Char} (ends : isEnd c) : isSpace c = false := by
  have listed : c ∈ ['.', '!', '?'] := of_decide_eq_true ends
  simp only [List.mem_cons, List.not_mem_nil, or_false] at listed
  obtain rfl | rfl | rfl := listed
  · decide
  · decide
  · decide

theorem EndsSentence.ends {s : Text} (h : EndsSentence s) : Ends s := by
  obtain ⟨front, e, eq, ends⟩ := h
  exact ⟨front, e, eq, isSpace_of_isEnd ends⟩

theorem EndsSentence.ne_nil {s : Text} (h : EndsSentence s) : s ≠ [] := by
  obtain ⟨front, e, rfl, -⟩ := h
  exact List.concat_ne_nil e front

theorem EndsSentence.suffix {s part : Text} (h : EndsSentence s) (suffix : part <:+ s) (nonempty : part ≠ []) :
    EndsSentence part := by
  obtain ⟨front, e, rfl, ends⟩ := h
  obtain rfl | ⟨inner, rfl, -⟩ := List.suffix_concat_iff.mp suffix
  · exact absurd rfl nonempty
  · exact ⟨inner, e, rfl, ends⟩

theorem EndsSentence.append {s : Text} (h : EndsSentence s) (front : Text) : EndsSentence (front ++ s) := by
  obtain ⟨inner, e, rfl, ends⟩ := h
  exact ⟨front ++ inner, e, (List.append_assoc ..).symm, ends⟩

theorem endsSentence_reverse {part : Text} : EndsSentence part.reverse ↔ part.head?.any isEnd := by
  cases part with
  | nil => simp [EndsSentence]
  | cons c rest => simp [EndsSentence]

theorem Unbroken.infix {part s : Text} (h : Unbroken s) (inside : part <:+: s) : Unbroken part :=
  fun e w found => h e w (found.trans inside)

theorem unbroken_nil : Unbroken [] := fun e w found => by simp at found

theorem Unbroken.concat {s : Text} (h : Unbroken s) {c : Char} (next : isSpace c → ¬ EndsSentence s) :
    Unbroken (s ++ [c]) := by
  intro e w found ends
  obtain last | inside := List.infix_concat_iff.mp found
  · obtain ⟨front, eq⟩ := last
    have split : front ++ [e] = s ∧ w = c := by
      have : front ++ [e] ++ [w] = s ++ [c] := by rw [← eq]; simp
      exact ⟨List.append_inj_left' this rfl, by simpa using List.append_inj_right' this rfl⟩
    obtain ⟨rfl, rfl⟩ := split
    exact Bool.eq_false_iff.mpr fun space => next space ⟨front, e, rfl, ends⟩
  · exact h e w inside ends

theorem Layout.cons {c : Char} {rest : Text} {ss : List Text} (space : isSpace c) (h : Layout rest ss) :
    Layout (c :: rest) ss := by
  cases h with
  | blank blank => exact .blank (blank.cons space)
  | sentence blank sentence stops ends later => exact .sentence (blank.cons space) sentence stops ends later

theorem layout_last {piece : Text} (unbroken : Unbroken piece) : Layout piece (stripped [piece]) := by
  obtain ⟨before, after, blank, blank', whole, empty | trimmed⟩ := exists_strip piece
  · have none : stripped [piece] = [] := by simp [stripped, empty]
    rw [none, whole, empty, List.nil_append]
    exact .blank (List.forall_mem_append.mpr ⟨blank, blank'⟩)
  · have one : stripped [piece] = [piece.strip] := by simp [stripped, trimmed.ne_nil]
    have inside : piece.strip <:+: piece := (infix_strip trimmed).mp List.infix_rfl
    rw [one]
    conv => arg 1; rw [whole]
    refine .sentence blank ⟨trimmed, unbroken.infix inside⟩ ?_ (fun more => absurd rfl more) (.blank blank')
    rintro ⟨c, rest, rfl, black⟩
    rw [blank' c List.mem_cons_self] at black
    cases black

theorem layout_piece {piece rest : Text} {pieces : List Text} (unbroken : Unbroken piece) (ends : EndsSentence piece)
    (stops : ¬ Begins rest) (later : Layout rest (stripped pieces)) :
    Layout (piece ++ rest) (stripped (piece :: pieces)) := by
  obtain ⟨before, blank, whole, trimmed⟩ := exists_strip_of_ends ends.ends
  have first : stripped (piece :: pieces) = piece.strip :: stripped pieces := by simp [stripped, trimmed.ne_nil]
  have inside : piece.strip <:+ piece := ⟨before, whole.symm⟩
  rw [first]
  conv => arg 1; rw [whole, List.append_assoc]
  exact .sentence blank ⟨trimmed, unbroken.infix inside.isInfix⟩ stops
    (fun _ => ends.suffix inside trimmed.ne_nil) later

theorem layout_piecesFrom (gap : Bool) (part text : Text) (unbroken : Unbroken part.reverse) (none : gap → part = []) :
    Layout (part.reverse ++ text) (stripped (piecesFrom gap part text)) := by
  induction text generalizing gap part with
  | nil =>
      rw [piecesFrom, List.append_nil]
      exact layout_last unbroken
  | cons c rest ih =>
      have concat : (c :: part).reverse ++ rest = part.reverse ++ c :: rest := by simp
      cases gap with
      | true =>
          obtain rfl := none rfl
          rw [piecesFrom]
          split
          · rename_i space
            exact (ih true [] unbroken fun _ => rfl).cons space
          · rename_i black
            have next : Unbroken [c].reverse := unbroken_nil.concat fun space => absurd space black
            exact concat ▸ ih false [c] next nofun
      | false =>
          rw [piecesFrom]
          split
          · rename_i boundary
            obtain ⟨space, last⟩ := boundary
            have ends : EndsSentence part.reverse := endsSentence_reverse.mpr last
            have stops : ¬ Begins (c :: rest) := by simp [begins_cons, space]
            exact layout_piece unbroken ends stops ((ih true [] unbroken_nil fun _ => rfl).cons space)
          · rename_i within
            have next : Unbroken (c :: part).reverse := by
              rw [List.reverse_cons]
              exact unbroken.concat fun space ends => within ⟨space, endsSentence_reverse.mp ends⟩
            exact concat ▸ ih false (c :: part) next nofun

theorem layout_splitIntoSentences (text : Text) : Layout text (splitIntoSentences text) :=
  layout_piecesFrom false [] text unbroken_nil nofun

/-! ### Finding them -/

theorem indexIn_eq {sub text : Text} {i : Nat} (inside : i ≤ text.length) (here : sub <+: text.drop i)
    (first : ∀ j, j < i → ¬ sub <+: text.drop j) : indexIn sub text = some i := by
  induction text generalizing i with
  | nil =>
      obtain rfl := Nat.le_zero.mp inside
      rw [indexIn, if_pos (List.prefix_nil.mp here)]
  | cons c rest ih =>
      cases i with
      | zero => exact if_pos here
      | succ i =>
          have later : indexIn sub rest = some i :=
            ih (Nat.le_of_succ_le_succ inside) here fun j below => first (j + 1) (Nat.succ_lt_succ below)
          have other : ¬ sub <+: c :: rest := first 0 (Nat.succ_pos i)
          rw [indexIn, if_neg other, later]
          rfl

theorem find_eq {text sub : Text} {start place : Nat} (order : start ≤ place) (inside : place ≤ text.length)
    (here : sub <+: text.drop place) (first : ∀ p, start ≤ p → p < place → ¬ sub <+: text.drop p) :
    find text sub start = place := by
  have begins : index text.length start = start := by rw [index, if_neg (by omega), Int.toNat_natCast]
  have found : indexIn sub (text.drop start) = some (place - start) := by
    refine indexIn_eq (by rw [List.length_drop]; omega) ?_ fun j below => ?_
    · rwa [List.drop_drop, Nat.add_sub_cancel' order]
    · rw [List.drop_drop]
      exact first (start + j) (Nat.le_add_right start j) (by omega)
  rw [find, begins, if_neg (by omega), found]
  exact congrArg Nat.cast (Nat.add_sub_cancel' order)

end CuckooEcho.Shared.Chunking
