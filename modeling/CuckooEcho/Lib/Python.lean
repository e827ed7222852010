import Mathlib.Data.List.Basic

namespace CuckooEcho.Lib

/-! ## Python values and their `repr` -/

inductive PyValue
  | none
  | bool (b : Bool)
  | int (n : Int)
  | float (text : String)
  | str (s : String)
  | list (items : List PyValue)
  | dict (items : List (String × PyValue))

namespace PyValue

def truthy : PyValue → Bool
  | .none => false
  | .bool b => b
  | .int n => n ≠ 0
  | .float text => text ≠ "0.0" ∧ text ≠ "-0.0"
  | .str s => s ≠ ""
  | .list items => !items.isEmpty
  | .dict items => !items.isEmpty

def apostrophe : Char := Char.ofNat 0x27

def hexText (width n : Nat) : List Char :=
  let ds := Nat.toDigits 16 n
  List.replicate (width - ds.length) '0' ++ ds

section
variable (isPrintable : Char → Bool)

def reprChar (quote c : Char) : List Char :=
  if c = quote ∨ c = '\\' then ['\\', c]
  else if c = '\t' then ['\\', 't']
  else if c = '\n' then ['\\', 'n']
  else if c = '\r' then ['\\', 'r']
  else if 0x20 ≤ c.toNat ∧ c.toNat < 0x7F then [c]
  else if c.toNat ≥ 0x80 ∧ isPrintable c then [c]
  else if c.toNat ≤ 0xFF then ['\\', 'x'] ++ hexText 2 c.toNat
  else if c.toNat ≤ 0xFFFF then ['\\', 'u'] ++ hexText 4 c.toNat
  else ['\\', 'U'] ++ hexText 8 c.toNat

def reprStr (s : String) : List Char :=
  let quote := if apostrophe ∈ s.toList ∧ '"' ∉ s.toList then '"' else apostrophe
  quote :: s.toList.flatMap (reprChar isPrintable quote) ++ [quote]

mutual
def repr : PyValue → List Char
  | .none => "None".toList
  | .bool true => "True".toList
  | .bool false => "False".toList
  | .int n => (toString n).toList
  | .float text => text.toList
  | .str s => reprStr isPrintable s
  | .list items => ['['] ++ reprItems items ++ [']']
  | .dict items => ['{'] ++ reprMembers items ++ ['}']

def reprItems : List PyValue → List Char
  | [] => []
  | [v] => repr v
  | v :: vs => repr v ++ [',', ' '] ++ reprItems vs

def reprMembers : List (String × PyValue) → List Char
  | [] => []
  | [m] => reprStr isPrintable m.1 ++ [':', ' '] ++ repr m.2
  | m :: ms => reprStr isPrintable m.1 ++ [':', ' '] ++ repr m.2 ++ [',', ' '] ++ reprMembers ms
end

def strDict (items : List (String × PyValue)) : String := String.ofList (repr isPrintable (.dict items))

theorem strDict_ne_empty (items : List (String × PyValue)) : strDict isPrintable items ≠ "" := by
  intro h
  have := congrArg String.toList h
  simp [strDict, repr] at this

end

end PyValue

end CuckooEcho.Lib
