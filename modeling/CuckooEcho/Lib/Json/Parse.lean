import Mathlib.Data.List.Basic

namespace CuckooEcho.Lib.Json

/-! ## UTF-16 -/

abbrev CodeUnit := Nat

def charUnits (c : Char) : List CodeUnit :=
  if c.toNat < 0x10000 then [c.toNat]
  else [0xD800 + (c.toNat - 0x10000) / 0x400, 0xDC00 + (c.toNat - 0x10000) % 0x400]

def units (text : List Char) : List CodeUnit := text.flatMap charUnits

def width (text : List Char) : Nat := (units text).length

@[simp] theorem units_nil : units [] = [] := rfl

@[simp] theorem units_cons (c : Char) (text : List Char) : units (c :: text) = charUnits c ++ units text := rfl

@[simp] theorem units_append (a b : List Char) : units (a ++ b) = units a ++ units b :=
  List.flatMap_append

@[simp] theorem width_nil : width [] = 0 := rfl

@[simp] theorem width_append (a b : List Char) : width (a ++ b) = width a + width b := by
  simp [width]

theorem width_cons (c : Char) (text : List Char) :
    width (c :: text) = (charUnits c).length + width text := by
  simp [width]

theorem charUnits_length_pos (c : Char) : 0 < (charUnits c).length := by
  unfold charUnits
  split <;> simp

theorem width_cons_pos (c : Char) (text : List Char) : width text < width (c :: text) := by
  have := charUnits_length_pos c
  rw [width_cons]
  omega

theorem width_drop_le (text : List Char) (p : Char → Bool) : width (text.dropWhile p) ≤ width text := by
  have split := congrArg width (List.takeWhile_append_dropWhile (p := p) (l := text))
  rw [width_append] at split
  omega

/-- The units of a text determine it: a surrogate is no character of its own. -/
theorem charUnits_append_inj {c d : Char} {a b : List CodeUnit} (h : charUnits c ++ a = charUnits d ++ b) :
    c = d ∧ a = b := by
  have validC : c.toNat < 0xD800 ∨ 0xDFFF < c.toNat ∧ c.toNat < 0x110000 := c.valid
  have validD : d.toNat < 0xD800 ∨ 0xDFFF < d.toNat ∧ d.toNat < 0x110000 := d.valid
  have number : c.toNat = d.toNat ∧ a = b := by
    unfold charUnits at h
    split at h
    · split at h
      · exact List.cons.inj h
      · have high : c.toNat = 0xD800 + (d.toNat - 0x10000) / 0x400 := (List.cons.inj h).1
        omega
    · split at h
      · have high : 0xD800 + (c.toNat - 0x10000) / 0x400 = d.toNat := (List.cons.inj h).1
        omega
      · obtain ⟨high, h⟩ := List.cons.inj h
        obtain ⟨low, rest⟩ := List.cons.inj h
        have high : (c.toNat - 0x10000) / 0x400 = (d.toNat - 0x10000) / 0x400 := Nat.add_left_cancel high
        have low : (c.toNat - 0x10000) % 0x400 = (d.toNat - 0x10000) % 0x400 := Nat.add_left_cancel low
        exact ⟨by omega, rest⟩
  exact ⟨Char.toNat_inj.mp number.1, number.2⟩

theorem units_injective : Function.Injective units := by
  intro a b h
  induction a generalizing b with
  | nil =>
      cases b with
      | nil => rfl
      | cons d b =>
          have longer := width_cons_pos d b
          rw [width, width, ← h] at longer
          simp at longer
  | cons c a ih =>
      cases b with
      | nil =>
          have longer := width_cons_pos c a
          rw [width, width, h] at longer
          simp at longer
      | cons d b =>
          obtain ⟨rfl, rest⟩ := charUnits_append_inj h
          rw [ih rest]

/-! ## Values -/

inductive Value
  | null
  | bool (b : Bool)
  | num (text : List Char)
  | str (units : List CodeUnit)
  | arr (items : List Value)
  | obj (members : List (List CodeUnit × Value))

/-- Where a key occurs more than once, the last member counts. -/
def Value.member (key : String) : Value → Option Value
  | .obj members => (members.reverse.find? fun m => m.1 = units key.toList).map (·.2)
  | _ => none

/-! ## The grammar that `JSON.parse` accepts -/

def isSpace (c : Char) : Bool := c = ' ' || c = '\t' || c = '\n' || c = '\r'

def skipSpace (text : List Char) : List Char := text.dropWhile isSpace

def escaped (c : Char) : Option CodeUnit :=
  if c = '"' then some 0x22
  else if c = '\\' then some 0x5C
  else if c = '/' then some 0x2F
  else if c = 'b' then some 0x08
  else if c = 'f' then some 0x0C
  else if c = 'n' then some 0x0A
  else if c = 'r' then some 0x0D
  else if c = 't' then some 0x09
  else none

def hexDigit (c : Char) : Option Nat :=
  if '0' ≤ c ∧ c ≤ '9' then some (c.toNat - '0'.toNat)
  else if 'a' ≤ c ∧ c ≤ 'f' then some (c.toNat - 'a'.toNat + 10)
  else if 'A' ≤ c ∧ c ≤ 'F' then some (c.toNat - 'A'.toNat + 10)
  else none

def hexUnit (a b c d : Char) : Option CodeUnit := do
  let a ← hexDigit a
  let b ← hexDigit b
  let c ← hexDigit c
  let d ← hexDigit d
  return a * 0x1000 + b * 0x100 + c * 0x10 + d

/-- Applied to what has been read, not to the text that is left. -/
def reading {α β : Type*} (f : α → β) (result : Option (α × List Char)) : Option (β × List Char) :=
  result.map fun r => (f r.1, r.2)

def prepend {α : Type*} (front : List α) (result : Option (List α × List Char)) :
    Option (List α × List Char) := reading (front ++ ·) result

/-- What follows the opening quote, up to and including the closing one. -/
def stringBody : List Char → Option (List CodeUnit × List Char)
  | [] => none
  | c :: rest =>
      if c = '"' then some ([], rest)
      else if c = '\\' then
        match rest with
        | [] => none
        | e :: rest =>
            match escaped e with
            | some unit => prepend [unit] (stringBody rest)
            | none =>
                if e = 'u' then
                  match rest with
                  | h₁ :: h₂ :: h₃ :: h₄ :: rest =>
                      match hexUnit h₁ h₂ h₃ h₄ with
                      | some unit => prepend [unit] (stringBody rest)
                      | none => none
                  | _ => none
                else none
      else if c.toNat < 0x20 then none
      else prepend (charUnits c) (stringBody rest)

theorem reading_eq_some {α β : Type*} {f : α → β} {result : Option (α × List Char)} {y : β}
    {rest : List Char} (h : reading f result = some (y, rest)) :
    ∃ x, result = some (x, rest) ∧ f x = y := by
  obtain ⟨⟨x, rest'⟩, found, eq⟩ := Option.map_eq_some_iff.mp h
  obtain ⟨rfl, rfl⟩ := Prod.mk.inj eq
  exact ⟨x, found, rfl⟩

@[simp] theorem reading_some {α β : Type*} (f : α → β) (x : α) (rest : List Char) :
    reading f (some (x, rest)) = some (f x, rest) := rfl

@[simp] theorem stringBody_nil : stringBody [] = none := rfl

@[simp] theorem stringBody_quote (rest : List Char) : stringBody ('"' :: rest) = some ([], rest) := by
  rw [stringBody.eq_def]
  simp

theorem stringBody_escaped {e : Char} {unit : CodeUnit} (found : escaped e = some unit) (rest : List Char) :
    stringBody ('\\' :: e :: rest) = prepend [unit] (stringBody rest) := by
  rw [stringBody.eq_def]
  simp [found]

theorem stringBody_hex {h₁ h₂ h₃ h₄ : Char} {unit : CodeUnit} (found : hexUnit h₁ h₂ h₃ h₄ = some unit)
    (rest : List Char) :
    stringBody ('\\' :: 'u' :: h₁ :: h₂ :: h₃ :: h₄ :: rest) = prepend [unit] (stringBody rest) := by
  rw [stringBody.eq_def]
  simp [found, escaped]

theorem stringBody_plain {c : Char} (quote : c ≠ '"') (backslash : c ≠ '\\') (control : ¬ c.toNat < 0x20)
    (rest : List Char) : stringBody (c :: rest) = prepend (charUnits c) (stringBody rest) := by
  rw [stringBody.eq_def]
  simp [quote, backslash, control]

def digits (text : List Char) : List Char × List Char := text.span Char.isDigit

/-- At least one digit, after the sign or the point that was read before. -/
def digits₁ (front text : List Char) : Option (List Char × List Char) :=
  match digits text with
  | ([], _) => none
  | (ds, rest) => some (front ++ ds, rest)

def sign : List Char → List Char × List Char
  | '-' :: rest => (['-'], rest)
  | '+' :: rest => (['+'], rest)
  | text => ([], text)

def integer : List Char → Option (List Char × List Char)
  | '-' :: '0' :: rest => some (['-', '0'], rest)
  | '-' :: rest => digits₁ ['-'] rest
  | '0' :: rest => some (['0'], rest)
  | text => digits₁ [] text

def fraction : List Char → Option (List Char × List Char)
  | '.' :: rest => digits₁ ['.'] rest
  | text => some ([], text)

def exponent : List Char → Option (List Char × List Char)
  | c :: rest =>
      if c = 'e' ∨ c = 'E' then digits₁ (c :: (sign rest).1) (sign rest).2 else some ([], c :: rest)
  | [] => some ([], [])

def number (text : List Char) : Option (List Char × List Char) := do
  let (whole, rest) ← integer text
  let (part, rest) ← fraction rest
  let (power, rest) ← exponent rest
  return (whole ++ part ++ power, rest)

def literal (word : List Char) (v : Value) (text : List Char) : Option (Value × List Char) :=
  if word <+: text then some (v, text.drop word.length) else none

section Items
variable {α : Type*} (item : List Char → Option (α × List Char)) (close : Char)

/-- One item and, after a comma, the others, up to and including the closing bracket. -/
def itemsTail : Nat → List Char → Option (List α × List Char)
  | 0, _ => none
  | n + 1, text =>
      match item text with
      | none => none
      | some (x, rest) =>
          match skipSpace rest with
          | [] => none
          | c :: rest =>
              if c = close then some ([x], rest)
              else if c = ',' then prepend [x] (itemsTail n rest)
              else none

def items (n : Nat) (text : List Char) : Option (List α × List Char) :=
  match skipSpace text with
  | [] => none
  | c :: rest => if c = close then some ([], rest) else itemsTail item close n (c :: rest)

end Items

def memberOf (value : List Char → Option (Value × List Char)) (text : List Char) :
    Option ((List CodeUnit × Value) × List Char) :=
  match skipSpace text with
  | '"' :: rest =>
      match stringBody rest with
      | none => none
      | some (key, rest) =>
          match skipSpace rest with
          | ':' :: rest => reading (fun v => (key, v)) (value rest)
          | _ => none
  | _ => none

/-- A value and what follows it; the first argument bounds the nesting. -/
def value : Nat → List Char → Option (Value × List Char)
  | 0, _ => none
  | depth + 1, text =>
      match skipSpace text with
      | [] => none
      | c :: rest =>
          if c = '"' then reading .str (stringBody rest)
          else if c = '{' then reading .obj (items (memberOf (value depth)) '}' text.length rest)
          else if c = '[' then reading .arr (items (value depth) ']' text.length rest)
          else if c = 't' then literal "true".toList (.bool true) (c :: rest)
          else if c = 'f' then literal "false".toList (.bool false) (c :: rest)
          else if c = 'n' then literal "null".toList .null (c :: rest)
          else reading .num (number (c :: rest))

/-- `JSON.parse`, `none` where it throws. Each bracket takes a character, so the text is never nested
deeper than it is long. -/
def parse (text : List Char) : Option Value :=
  match value (text.length + 1) text with
  | none => none
  | some (v, rest) => if skipSpace rest = [] then some v else none

end CuckooEcho.Lib.Json
