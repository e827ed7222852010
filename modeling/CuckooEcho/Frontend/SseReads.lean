import CuckooEcho.Frontend.SseClient

namespace CuckooEcho.Frontend
open Lib

/-! ## Decoding a body read by read -/

/-- A decoder that is told each time that more is to come. -/
structure TextDecoder where
  State : Type
  initial : State
  decode : State → List UInt8 → List Char × State

/-- A concatenation is decoded to the concatenation. -/
structure TextDecoder.Streaming (decoder : TextDecoder) : Prop where
  nil : ∀ s, decoder.decode s [] = ([], s)
  append : ∀ s as bs, decoder.decode s (as ++ bs) =
    ((decoder.decode s as).1 ++ (decoder.decode (decoder.decode s as).2 bs).1,
      (decoder.decode (decoder.decode s as).2 bs).2)

def TextDecoder.decodeReads (decoder : TextDecoder) : decoder.State → List (List UInt8) → List (List Char)
  | _, [] => []
  | s, value :: values =>
      let (text, s) := decoder.decode s value
      text :: decodeReads decoder s values

/-- The callbacks for the values that `reader.read()` returns. -/
def parseReads (decoder : TextDecoder) (values : List (List UInt8)) : List Callback :=
  parseStream (decoder.decodeReads decoder.initial values)

section
variable {decoder : TextDecoder}

theorem TextDecoder.Streaming.decodeReads (streaming : decoder.Streaming) (s : decoder.State)
    (values : List (List UInt8)) : (decoder.decodeReads s values).flatten = (decoder.decode s values.flatten).1 := by
  induction values generalizing s with
  | nil => exact (congrArg Prod.fst (streaming.nil s)).symm
  | cons value values ih => rw [TextDecoder.decodeReads, List.flatten_cons, ih, List.flatten_cons, streaming.append]

/-- However the network cuts a body, the same callbacks are made with the same arguments. -/
theorem parseReads_eq (streaming : decoder.Streaming) {body : List UInt8} {values values' : List (List UInt8)}
    (cut : values.flatten = body) (cut' : values'.flatten = body) :
    parseReads decoder values = parseReads decoder values' := by
  rw [parseReads, parseReads, parseStream_eq, parseStream_eq, streaming.decodeReads, streaming.decodeReads, cut, cut']

end

/-! ## UTF-8 -/

/-- `needed` bytes of a character are missing, of which the next one is between `lower` and `upper`. -/
structure Utf8State where
  begun : Bool := false
  codePoint : Nat := 0
  needed : Nat := 0
  lower : Nat := 0x80
  upper : Nat := 0xBF
  deriving DecidableEq, Repr

def replacement : Char := Char.ofNat 0xFFFD

namespace Utf8State

/-- A byte order mark at the very beginning is dropped. -/
def emit (s : Utf8State) (codePoint : Nat) : List Char × Utf8State :=
  (if s.begun ∨ codePoint ≠ 0xFEFF then [Char.ofNat codePoint] else [], { begun := true })

def first (s : Utf8State) (byte : Nat) : List Char × Utf8State :=
  if byte ≤ 0x7F then s.emit byte
  else if 0xC2 ≤ byte ∧ byte ≤ 0xDF then ([], { begun := s.begun, codePoint := byte % 0x20, needed := 1 })
  else if 0xE0 ≤ byte ∧ byte ≤ 0xEF then
    ([], { begun := s.begun, codePoint := byte % 0x10, needed := 2,
           lower := if byte = 0xE0 then 0xA0 else 0x80, upper := if byte = 0xED then 0x9F else 0xBF })
  else if 0xF0 ≤ byte ∧ byte ≤ 0xF4 then
    ([], { begun := s.begun, codePoint := byte % 0x08, needed := 3,
           lower := if byte = 0xF0 then 0x90 else 0x80, upper := if byte = 0xF4 then 0x8F else 0xBF })
  else ([replacement], { begun := true })

def next (s : Utf8State) (byte : Nat) : List Char × Utf8State :=
  if s.needed = 0 then s.first byte
  else if s.lower ≤ byte ∧ byte ≤ s.upper then
    let codePoint := s.codePoint * 0x40 + byte % 0x40
    if s.needed = 1 then s.emit codePoint
    else ([], { begun := s.begun, codePoint, needed := s.needed - 1 })
  else
    -- The byte that breaks off a character is looked at again as the first one of another
    let (text, s) := first { begun := true } byte
    (replacement :: text, s)

def decode (s : Utf8State) : List UInt8 → List Char × Utf8State
  | [] => ([], s)
  | byte :: bytes =>
      let (text, s) := s.next byte.toNat
      let (more, s) := decode s bytes
      (text ++ more, s)

theorem decode_append (s : Utf8State) (as bs : List UInt8) :
    s.decode (as ++ bs) = ((s.decode as).1 ++ ((s.decode as).2.decode bs).1, ((s.decode as).2.decode bs).2) := by
  induction as generalizing s with
  | nil => rfl
  | cons byte as ih => simp [decode, ih]

end Utf8State

def utf8Decoder : TextDecoder := ⟨Utf8State, {}, Utf8State.decode⟩

theorem streaming_utf8Decoder : utf8Decoder.Streaming := ⟨fun _ => rfl, Utf8State.decode_append⟩

/-- The beginning of a token's event. -/
def tokenStart : List UInt8 := "data: \x7b\"content\": \"caf".toList.map fun c => .ofNat c.toNat

/-- The rest of it, after a two-byte character. -/
def tokenEnd : List UInt8 := "\"\x7d\r".toList.map fun c => .ofNat c.toNat

def tokenText : Callback → Option JsString
  | .onToken (.str content) _ => some content
  | _ => none

/-- The two-byte character and the line break are cut in the middle. -/
theorem parseReads_eq_cut :
    parseReads utf8Decoder [tokenStart ++ [0xC3], 0xA9 :: tokenEnd, [0x0A]] =
        parseReads utf8Decoder [tokenStart ++ [0xC3, 0xA9] ++ tokenEnd ++ [0x0A]] ∧
      (parseReads utf8Decoder [tokenStart ++ [0xC3, 0xA9] ++ tokenEnd ++ [0x0A]]).map tokenText =
        [some [0x63, 0x61, 0x66, 0xE9]] := by
  have token : (parseReads utf8Decoder [tokenStart ++ [0xC3, 0xA9] ++ tokenEnd ++ [0x0A]]).map tokenText =
      [some [0x63, 0x61, 0x66, 0xE9]] := by decide +kernel
  refine ⟨parseReads_eq streaming_utf8Decoder ?_ rfl, token⟩
  simp

end CuckooEcho.Frontend
