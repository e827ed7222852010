import CuckooEcho.Lib.Json.Print

namespace CuckooEcho.Lib.Json

/-! ## `JSON.stringify` -/

def isHigh (unit : CodeUnit) : Bool := 0xD800 ≤ unit && unit < 0xDC00

def isLow (unit : CodeUnit) : Bool := 0xDC00 ≤ unit && unit < 0xE000

def ascii (text : String) : List CodeUnit := units text.toList

def hexEscape (unit : CodeUnit) : List CodeUnit :=
  units ['\\', 'u', hexDigits.getD (unit / 0x1000 % 16) '0', hexDigits.getD (unit / 0x100 % 16) '0',
    hexDigits.getD (unit / 16 % 16) '0', hexDigits.getD (unit % 16) '0']

/-- A surrogate that stands alone is escaped. -/
def escapeUnit (unit : CodeUnit) : List CodeUnit :=
  if unit = 0x08 then ascii "\\b"
  else if unit = 0x09 then ascii "\\t"
  else if unit = 0x0A then ascii "\\n"
  else if unit = 0x0C then ascii "\\f"
  else if unit = 0x0D then ascii "\\r"
  else if unit = 0x22 then ascii "\\\""
  else if unit = 0x5C then ascii "\\\\"
  else if unit < 0x20 || isHigh unit || isLow unit then hexEscape unit
  else [unit]

def escapeUnits : List CodeUnit → List CodeUnit
  | [] => []
  | [unit] => escapeUnit unit
  | unit :: next :: rest =>
      if isHigh unit && isLow next then unit :: next :: escapeUnits rest
      else escapeUnit unit ++ escapeUnits (next :: rest)

def quotedUnits (s : List CodeUnit) : List CodeUnit := ascii "\"" ++ escapeUnits s ++ ascii "\""

mutual
/-- A number has the text that `String` gives it, and an object the members that are not `undefined`. -/
def Value.stringify : Value → List CodeUnit
  | .null => ascii "null"
  | .bool true => ascii "true"
  | .bool false => ascii "false"
  | .num text => units text
  | .str s => quotedUnits s
  | .arr vs => ascii "[" ++ stringifyItems vs ++ ascii "]"
  | .obj ms => ascii "\x7b" ++ stringifyMembers ms ++ ascii "\x7d"

def stringifyItems : List Value → List CodeUnit
  | [] => []
  | [v] => v.stringify
  | v :: w :: vs => v.stringify ++ ascii "," ++ stringifyItems (w :: vs)

def stringifyMembers : List (List CodeUnit × Value) → List CodeUnit
  | [] => []
  | [m] => quotedUnits m.1 ++ ascii ":" ++ m.2.stringify
  | m :: n :: ms => quotedUnits m.1 ++ ascii ":" ++ m.2.stringify ++ ascii "," ++ stringifyMembers (n :: ms)
end

def unitBytes (unit : CodeUnit) : Nat := if unit < 0x80 then 1 else if unit < 0x800 then 2 else 3

/-- The bytes of a text in UTF-8. -/
def utf8Size : List CodeUnit → Nat
  | [] => 0
  | [unit] => unitBytes unit
  | unit :: next :: rest =>
      if isHigh unit && isLow next then 4 + utf8Size rest else unitBytes unit + utf8Size (next :: rest)

example : (Value.obj [(ascii "a", .arr [.null, .str (units ['é', '"'])])]).stringify =
    units "\x7b\"a\":[null,\"é\\\"\"]\x7d".toList := by decide

end CuckooEcho.Lib.Json
