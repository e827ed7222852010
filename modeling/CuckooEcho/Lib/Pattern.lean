import Mathlib.Data.List.Basic

namespace CuckooEcho.Lib

/-! ## Backtracking search for a pattern -/

inductive Pattern
  | empty
  | char (p : Char → Bool)
  | many (p : Char → Bool) (low : Nat) (high : Option Nat)
  | seq (a b : Pattern)
  | alt (a b : Pattern)
  | group (a : Pattern)

namespace Pattern

/-- What a repetition can leave of the text, the longest repetition first. -/
def manyRuns (p : Char → Bool) : Nat → Option Nat → List Char → List (List Char)
  | low, _, [] => if low = 0 then [[]] else []
  | low, high, c :: text =>
      let stop := if low = 0 then [c :: text] else []
      if p c ∧ high ≠ some 0 then manyRuns p (low - 1) (high.map (· - 1)) text ++ stop else stop

/-- The captured group and the text left, for each way to match a prefix, in the order in which a
backtracking matcher tries them. -/
def runs : Pattern → List Char → List (Option (List Char) × List Char)
  | .empty, text => [(none, text)]
  | .char _, [] => []
  | .char p, c :: text => if p c then [(none, text)] else []
  | .many p low high, text => (manyRuns p low high text).map fun rest => (none, rest)
  | .seq a b, text =>
      (a.runs text).flatMap fun first =>
        (b.runs first.2).map fun second => (second.1.orElse fun _ => first.1, second.2)
  | .alt a b, text => a.runs text ++ b.runs text
  | .group a, text =>
      (a.runs text).map fun found => (some (text.take (text.length - found.2.length)), found.2)

def search (pattern : Pattern) : List Char → Option (Option (List Char))
  | [] => (pattern.runs []).head?.map (·.1)
  | c :: text =>
      match pattern.runs (c :: text) with
      | found :: _ => some found.1
      | [] => pattern.search text

def found (pattern : Pattern) (text : String) : Bool := (pattern.search text.toList).isSome

/-- The characters that compare equal to an ASCII letter when case is ignored. -/
def foldCase (c : Char) : Char :=
  if c.toNat = 0x130 ∨ c.toNat = 0x131 then 'i'
  else if c.toNat = 0x17F then 's'
  else if c.toNat = 0x212A then 'k'
  else c.toLower

def sameLetter (a b : Char) : Bool := foldCase a = foldCase b

def literal (word : String) : Pattern :=
  word.toList.foldr (fun c rest => .seq (.char (sameLetter c)) rest) .empty

def anyOf : List String → Pattern
  | [] => .many (fun _ => false) 1 none
  | [word] => literal word
  | word :: words => .alt (literal word) (anyOf words)

/-- `.` does not match a line break. -/
def dot (c : Char) : Bool := c ≠ '\n'

def sequence : List Pattern → Pattern
  | [] => .empty
  | p :: ps => .seq p (sequence ps)

def isSpace (c : Char) : Bool :=
  c.toNat ∈ [0x09, 0x0A, 0x0B, 0x0C, 0x0D, 0x1C, 0x1D, 0x1E, 0x1F, 0x20, 0x85, 0xA0, 0x1680, 0x2028, 0x2029,
    0x202F, 0x205F, 0x3000] || (0x2000 ≤ c.toNat && c.toNat ≤ 0x200A)

/-- The digits 0 of the scripts of Unicode; each is followed by the nine others. -/
def zeroDigits : List Nat :=
  [0x30, 0x660, 0x6F0, 0x7C0, 0x966, 0x9E6, 0xA66, 0xAE6, 0xB66, 0xBE6, 0xC66, 0xCE6, 0xD66, 0xDE6, 0xE50,
    0xED0, 0xF20, 0x1040, 0x1090, 0x17E0, 0x1810, 0x1946, 0x19D0, 0x1A80, 0x1A90, 0x1B50, 0x1BB0, 0x1C40,
    0x1C50, 0xA620, 0xA8D0, 0xA900, 0xA9D0, 0xA9F0, 0xAA50, 0xABF0, 0xFF10, 0x104A0, 0x10D30, 0x11066,
    0x110F0, 0x11136, 0x111D0, 0x112F0, 0x11450, 0x114D0, 0x11650, 0x116C0, 0x11730, 0x118E0, 0x11950,
    0x11C50, 0x11D50, 0x11DA0, 0x11F50, 0x16A60, 0x16AC0, 0x16B50, 0x1D7CE, 0x1D7D8, 0x1D7E2, 0x1D7EC,
    0x1D7F6, 0x1E140, 0x1E2F0, 0x1E4F0, 0x1E950, 0x1FBF0]

def isDecimal (c : Char) : Bool := zeroDigits.any fun first => first ≤ c.toNat && c.toNat < first + 10

/-- The characters of `\w`: outside of ASCII those that `alnum` has. -/
def isWord (alnum : Char → Bool) (c : Char) : Bool :=
  if c.toNat < 0x80 then c.isAlphanum || c = '_' else alnum c

def oneOf (set : String) (c : Char) : Bool := set.toList.contains c

def times (p : Char → Bool) (n : Nat) : Pattern := .many p n (some n)

def optional (p : Char → Bool) : Pattern := .many p 0 (some 1)

end Pattern

def strip (text : String) : String :=
  String.ofList ((text.toList.dropWhile Pattern.isSpace).reverse.dropWhile Pattern.isSpace).reverse

end CuckooEcho.Lib
