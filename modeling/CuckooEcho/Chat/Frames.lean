import CuckooEcho.Lib.Json.Print
import Mathlib.Algebra.GroupWithZero.Nat

namespace CuckooEcho.Chat
open Lib

/-! ## What `event_generator` yields and how it is sent -/

def dumps (members : List (String × String)) : String :=
  String.ofList (Json.objectText (members.map fun m => (m.1.toList, m.2.toList)))

def contentJson (content : String) : String := dumps [("content", content)]

def startsWithBrace (item : String) : Bool := item.toList.head? = some '{'

/-- An item that looks like JSON is taken for one that is wrapped already. -/
def yieldItem (item : String) : String := if startsWithBrace item then item else contentJson item

def done : String := "[DONE]"

/-- The lines of a data event, which end at `\r\n`, `\r` or `\n`. -/
def dataLines : List Char → List (List Char)
  | [] => [[]]
  | '\r' :: '\n' :: text => [] :: dataLines text
  | c :: text =>
      if c = '\r' ∨ c = '\n' then [] :: dataLines text
      else (dataLines text).modifyHead (c :: ·)

def fieldName : List Char := "data:".toList

def dataField (line : List Char) : List Char := fieldName ++ ' ' :: line ++ ['\r', '\n']

def frame (data : String) : List Char := (dataLines data.toList).flatMap dataField ++ ['\r', '\n']

def wire (yields : List String) : List Char := yields.flatMap frame

def LineFree (line : List Char) : Prop := '\r' ∉ line ∧ '\n' ∉ line

theorem lineFree_cons {c : Char} {line : List Char} :
    LineFree (c :: line) ↔ ¬ (c = '\r' ∨ c = '\n') ∧ LineFree line := by
  simp only [LineFree, List.mem_cons, not_or, eq_comm]
  tauto

theorem dataLines_break {c : Char} (isBreak : c = '\r' ∨ c = '\n') {text : List Char}
    (single : ∀ rest, c = '\r' → text = '\n' :: rest → False) :
    dataLines (c :: text) = [] :: dataLines text := by
  rw [dataLines, if_pos isBreak]
  exact single

theorem dataLines_char {c : Char} (h : ¬ (c = '\r' ∨ c = '\n')) (text : List Char) :
    dataLines (c :: text) = (dataLines text).modifyHead (c :: ·) := by
  rw [dataLines, if_neg h]
  exact fun rest same _ => h (Or.inl same)

theorem dataLines_cons (text : List Char) : ∃ line lines, dataLines text = line :: lines := by
  induction text using dataLines.induct with
  | case1 => exact ⟨_, _, rfl⟩
  | case2 text ih => exact ⟨_, _, by rw [dataLines]⟩
  | case3 c text single isBreak ih => exact ⟨_, _, dataLines_break isBreak single⟩
  | case4 c text single ordinary ih =>
      obtain ⟨line, lines, eq⟩ := ih
      exact ⟨_, _, by rw [dataLines_char ordinary, eq, List.modifyHead_cons]⟩

theorem dataLines_free (text : List Char) : ∀ line ∈ dataLines text, LineFree line := by
  induction text using dataLines.induct with
  | case1 => simp [dataLines, LineFree]
  | case2 text ih =>
      rw [dataLines, List.forall_mem_cons]
      exact ⟨by simp [LineFree], ih⟩
  | case3 c text single isBreak ih =>
      rw [dataLines_break isBreak single, List.forall_mem_cons]
      exact ⟨by simp [LineFree], ih⟩
  | case4 c text single ordinary ih =>
      obtain ⟨line, lines, eq⟩ := dataLines_cons text
      rw [eq, List.forall_mem_cons] at ih
      rw [dataLines_char ordinary, eq, List.modifyHead_cons, List.forall_mem_cons]
      exact ⟨lineFree_cons.mpr ⟨ordinary, ih.1⟩, ih.2⟩

theorem dataLines_of_free {text : List Char} (free : LineFree text) : dataLines text = [text] := by
  induction text with
  | nil => rfl
  | cons c text ih =>
      obtain ⟨ordinary, free⟩ := lineFree_cons.mp free
      rw [dataLines_char ordinary, ih free, List.modifyHead_cons]

theorem dataLines_width (text : List Char) : ((dataLines text).map Json.width).sum ≤ Json.width text := by
  induction text using dataLines.induct with
  | case1 => simp [dataLines]
  | case2 text ih =>
      have first := Json.width_cons_pos '\r' ('\n' :: text)
      have second := Json.width_cons_pos '\n' text
      rw [dataLines, List.map_cons, List.sum_cons, Json.width_nil]
      omega
  | case3 c text single isBreak ih =>
      have first := Json.width_cons_pos c text
      rw [dataLines_break isBreak single, List.map_cons, List.sum_cons, Json.width_nil]
      omega
  | case4 c text single ordinary ih =>
      obtain ⟨line, lines, eq⟩ := dataLines_cons text
      rw [eq, List.map_cons, List.sum_cons] at ih
      rw [dataLines_char ordinary, eq, List.modifyHead_cons, List.map_cons, List.sum_cons, Json.width_cons,
        Json.width_cons]
      omega

theorem toList_dumps (members : List (String × String)) :
    (dumps members).toList = Json.objectText (members.map fun m => (m.1.toList, m.2.toList)) :=
  String.toList_ofList

theorem dumps_braced (members : List (String × String)) :
    ∃ inner, (dumps members).toList = '{' :: inner ++ ['}'] := by
  rw [toList_dumps]
  exact ⟨_, rfl⟩

theorem dumps_free (members : List (String × String)) : LineFree (dumps members).toList := by
  rw [toList_dumps]
  constructor
  · intro h
    exact absurd (Json.objectText_printable _ _ h) (by decide)
  · intro h
    exact absurd (Json.objectText_printable _ _ h) (by decide)

end CuckooEcho.Chat
