import CuckooEcho.Lib.Json.Parse
import CuckooEcho.Lib.Lines
import Mathlib.Data.List.DropRight

namespace CuckooEcho.Frontend
open Lib Json

abbrev JsString := List CodeUnit

/-! ## Reading properties of a parsed payload -/

/-- A missing property is `undefined`; no primitive value has one of the names used here. -/
def prop (key : String) (v : Value) : Option Value := v.member key

def firstItem : Value → Option Value
  | .arr vs => vs.head?
  | .str s => s.head?.map fun unit => .str [unit]
  | .obj ms => (Value.obj ms).member "0"
  | .null | .bool _ | .num _ => none

/-- `none` for `undefined` and for `null`, which the caller treats alike. -/
def defined : Option Value → Option Value
  | some .null => none
  | v => v

def extractTokenContent (parsed : Value) : Option Value :=
  match prop "content" parsed with
  | some (.str s) => some (.str s)
  | _ => defined ((((prop "choices" parsed).bind firstItem).bind (prop "delta")).bind (prop "content"))

structure SseError where
  code : JsString
  message : JsString
  deriving DecidableEq, Repr

def extractError (parsed : Value) : Option SseError :=
  match prop "error" parsed with
  | some (.str code) =>
      match prop "message" parsed with
      | some (.str message) => some { code, message }
      | _ => some { code, message := [] }
  | _ => none

/-! ## `parseStream` -/

inductive Callback
  | onToken (content : Value) (messageId : JsString)
  | onDone (messageId : JsString)
  | onError (error : SseError)

/-- What `String.prototype.trim` removes. -/
def isTrimmed (c : Char) : Bool :=
  c.toNat ∈ [0x09, 0x0A, 0x0B, 0x0C, 0x0D, 0x20, 0xA0, 0x1680, 0x2028, 0x2029, 0x202F, 0x205F, 0x3000, 0xFEFF] ||
    (0x2000 ≤ c.toNat && c.toNat ≤ 0x200A)

def trim (text : List Char) : List Char := (text.dropWhile isTrimmed).rdropWhile isTrimmed

def messageIdOf (lastMessageId : JsString) (parsed : Value) : JsString :=
  match prop "id" parsed with
  | some (.str id) => id
  | _ => lastMessageId

/-- What one `data:` payload causes, and the last message id unless reading stops there. A payload
that is not JSON, or `null`, whose properties cannot be read, is skipped. -/
def handlePayload (lastMessageId : JsString) (payload : List Char) : List Callback × Option JsString :=
  if payload = "[DONE]".toList then ([.onDone lastMessageId], none)
  else match parse payload with
    | none | some .null => ([], some lastMessageId)
    | some parsed =>
        match extractError parsed with
        | some error => ([.onError error], none)
        | none =>
            match extractTokenContent parsed with
            | some content =>
                ([.onToken content (messageIdOf lastMessageId parsed)], some (messageIdOf lastMessageId parsed))
            | none => ([], some (messageIdOf lastMessageId parsed))

def dataPrefix : List Char := "data:".toList

def handleLine (lastMessageId : JsString) (line : List Char) : List Callback × Option JsString :=
  let trimmed := trim line
  if trimmed = [] then ([], some lastMessageId)
  else if ¬ dataPrefix <+: trimmed then ([], some lastMessageId)
  else handlePayload lastMessageId (trim (trimmed.drop 5))

def handleLines (lastMessageId : JsString) : List (List Char) → List Callback × Option JsString
  | [] => ([], some lastMessageId)
  | line :: lines =>
      match handleLine lastMessageId line with
      | (calls, none) => (calls, none)
      | (calls, some id) => (calls ++ (handleLines id lines).1, (handleLines id lines).2)

/-- The callbacks of reading the decoded chunks one after the other, the last line being kept back
until a line break ends it. -/
def readChunks (buffer : List Char) (lastMessageId : JsString) : List (List Char) → List Callback
  | [] => []
  | chunk :: chunks =>
      let pieces := cut '\n' (buffer ++ chunk)
      match handleLines lastMessageId pieces.1 with
      | (calls, none) => calls
      | (calls, some id) => calls ++ readChunks pieces.2 id chunks

def parseStream (chunks : List (List Char)) : List Callback := readChunks [] [] chunks

/-! ## The chunks do not matter -/

theorem handleLines_append (id : JsString) (as bs : List (List Char)) :
    handleLines id (as ++ bs) =
      match handleLines id as with
      | (calls, none) => (calls, none)
      | (calls, some id') => (calls ++ (handleLines id' bs).1, (handleLines id' bs).2) := by
  induction as generalizing id with
  | nil => rfl
  | cons line as ih =>
      cases here : handleLine id line with
      | mk calls next =>
          cases next with
          | none => simp [handleLines, here]
          | some id' =>
              simp only [List.cons_append, handleLines, here, ih]
              cases later : handleLines id' as with
              | mk more last =>
                  cases last with
                  | none => rfl
                  | some id'' => simp

theorem readChunks_eq (buffer : List Char) (id : JsString) (chunks : List (List Char)) (free : '\n' ∉ buffer) :
    readChunks buffer id chunks = (handleLines id (cut '\n' (buffer ++ chunks.flatten)).1).1 := by
  induction chunks generalizing buffer id with
  | nil => simp [readChunks, cut_incomplete _ _ free, handleLines]
  | cons chunk chunks ih =>
      rw [List.flatten_cons, ← List.append_assoc, cut_append, handleLines_append, readChunks]
      cases here : handleLines id (cut '\n' (buffer ++ chunk)).1 with
      | mk calls next =>
          cases next with
          | none => simp
          | some id' => simp [ih _ id' (cut_last_free '\n' (buffer ++ chunk))]

/-- The callbacks depend on the decoded text only, not on how it was cut into chunks. -/
theorem parseStream_eq (chunks : List (List Char)) :
    parseStream chunks = (handleLines [] (cut '\n' chunks.flatten).1).1 :=
  readChunks_eq [] [] chunks List.not_mem_nil

end CuckooEcho.Frontend
