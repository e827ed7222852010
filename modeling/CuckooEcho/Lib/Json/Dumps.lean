import CuckooEcho.Lib.Json.Print
import CuckooEcho.Lib.Python

namespace CuckooEcho.Lib.Json
open PyValue (hexText)

/-! ## `json.dumps` -/

def escapeAscii (c : Char) : List Char :=
  if c.toNat < 0x7F then escapeChar c else (charUnits c).flatMap fun unit => ['\\', 'u'] ++ hexText 4 unit

def asciiQuoted (s : String) : List Char := ['"'] ++ s.toList.flatMap escapeAscii ++ ['"']

def floatText (text : String) : String :=
  if text = "inf" then "Infinity" else if text = "-inf" then "-Infinity" else if text = "nan" then "NaN" else text

mutual
def dumps : PyValue → List Char
  | .none => "null".toList
  | .bool true => "true".toList
  | .bool false => "false".toList
  | .int n => (toString n).toList
  | .float text => (floatText text).toList
  | .str s => asciiQuoted s
  | .list items => ['['] ++ dumpsItems items ++ [']']
  | .dict items => ['{'] ++ dumpsMembers items ++ ['}']

def dumpsItems : List PyValue → List Char
  | [] => []
  | [v] => dumps v
  | v :: vs => dumps v ++ [',', ' '] ++ dumpsItems vs

def dumpsMembers : List (String × PyValue) → List Char
  | [] => []
  | [m] => asciiQuoted m.1 ++ [':', ' '] ++ dumps m.2
  | m :: ms => asciiQuoted m.1 ++ [':', ' '] ++ dumps m.2 ++ [',', ' '] ++ dumpsMembers ms
end

def dumpsText (v : PyValue) : String := String.ofList (dumps v)

theorem dumpsText_list_ne_empty (items : List PyValue) : dumpsText (.list items) ≠ "" := by
  intro h
  have := congrArg String.toList h
  simp [dumpsText, dumps] at this

end CuckooEcho.Lib.Json
