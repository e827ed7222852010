import CuckooEcho.Lib.Json.Dumps
import Mathlib.Data.List.TakeDrop

namespace CuckooEcho.Lib.Json
open PyValue (hexText)

/-! ## `json.dumps` with separators that have no spaces -/

inductive Scalar
  | str (s : String)
  | nat (n : Nat)
  deriving DecidableEq, Repr

def Scalar.text : Scalar → List Char
  | .str s => asciiQuoted s
  | .nat n => Nat.toDigits 10 n

def Scalar.value : Scalar → Value
  | .str s => .str (units s.toList)
  | .nat n => .num (Nat.toDigits 10 n)

def memberText (m : String × Scalar) : List Char := asciiQuoted m.1 ++ [':'] ++ m.2.text

def compactObject (ms : List (String × Scalar)) : List Char := ['{'] ++ commaSeparated (ms.map memberText) ++ ['}']

/-! ### What is written is ASCII -/

def Ascii (text : List Char) : Prop := ∀ c ∈ text, c.toNat < 0x80

instance (text : List Char) : Decidable (Ascii text) := List.decidableBAll _ _

theorem Ascii.append {a b : List Char} (ha : Ascii a) (hb : Ascii b) : Ascii (a ++ b) :=
  List.forall_mem_append.mpr ⟨ha, hb⟩

theorem digitChar_ascii : ∀ d, d < 16 → d.digitChar.toNat < 0x80 := by decide

theorem hexText_succ {width : Nat} (positive : 0 < width) (n : Nat) :
    hexText (width + 1) n = hexText width (n / 16) ++ [(n % 16).digitChar] := by
  unfold hexText
  dsimp only
  rw [Nat.toDigits_eq_if (by decide)]
  split
  · rename_i small
    rw [Nat.div_eq_of_lt small, Nat.mod_eq_of_lt small, Nat.toDigits_zero]
    obtain ⟨width, rfl⟩ := Nat.exists_eq_succ_of_ne_zero (Nat.ne_of_gt positive)
    simp [List.replicate_succ']
  · simp

theorem hexText_four {n : Nat} (bound : n < 0x10000) : hexText 4 n =
    [(n / 16 / 16 / 16).digitChar, (n / 16 / 16 % 16).digitChar, (n / 16 % 16).digitChar, (n % 16).digitChar] := by
  have top : n / 16 / 16 / 16 < 16 := by omega
  have one : hexText 1 (n / 16 / 16 / 16) = [(n / 16 / 16 / 16).digitChar] := by
    simp [hexText, Nat.toDigits_of_lt_base top]
  rw [hexText_succ (by decide), hexText_succ (by decide), hexText_succ (by decide), one]
  rfl

theorem hexText_ascii {n : Nat} (bound : n < 0x10000) : Ascii (hexText 4 n) := by
  rw [hexText_four bound]
  simp only [Ascii, List.forall_mem_cons, List.not_mem_nil, false_implies, implies_true, and_true]
  exact ⟨digitChar_ascii _ (by omega), digitChar_ascii _ (by omega), digitChar_ascii _ (by omega),
    digitChar_ascii _ (by omega)⟩

theorem charUnits_lt (c : Char) : ∀ unit ∈ charUnits c, unit < 0x10000 := by
  have valid : c.toNat < 0xD800 ∨ 0xDFFF < c.toNat ∧ c.toNat < 0x110000 := c.valid
  unfold charUnits
  split
  · exact List.forall_mem_singleton.mpr ‹_›
  · have high : 0xD800 + (c.toNat - 0x10000) / 0x400 < 0x10000 := by omega
    have low : 0xDC00 + (c.toNat - 0x10000) % 0x400 < 0x10000 := by omega
    exact List.forall_mem_cons.mpr ⟨high, List.forall_mem_singleton.mpr low⟩

theorem hexDigits_ascii : ∀ n, n < 16 → (hexDigits.getD n '0').toNat < 0x80 := by decide

theorem escapeChar_ascii {c : Char} (ascii : c.toNat < 0x80) : Ascii (escapeChar c) := by
  unfold escapeChar
  split_ifs
  · decide
  · decide
  · decide
  · decide
  · decide
  · decide
  · decide
  · have high := hexDigits_ascii (c.toNat / 16) (by omega)
    have low := hexDigits_ascii (c.toNat % 16) (by omega)
    have opening : Ascii ['\\', 'u', '0', '0'] := by decide
    exact opening.append (List.forall_mem_cons.mpr ⟨high, List.forall_mem_singleton.mpr low⟩)
  · exact List.forall_mem_singleton.mpr ascii

theorem escapeAscii_ascii (c : Char) : Ascii (escapeAscii c) := by
  unfold escapeAscii
  split
  · rename_i plain
    exact escapeChar_ascii (by omega)
  · intro d member
    obtain ⟨unit, here, inside⟩ := List.mem_flatMap.mp member
    have opening : Ascii ['\\', 'u'] := by decide
    exact opening.append (hexText_ascii (charUnits_lt c unit here)) d inside

theorem asciiQuoted_ascii (s : String) : Ascii (asciiQuoted s) := by
  have quote : Ascii ['"'] := by decide
  refine (quote.append fun d member => ?_).append quote
  obtain ⟨c, -, inside⟩ := List.mem_flatMap.mp member
  exact escapeAscii_ascii c d inside

theorem isDigit_of_mem {n : Nat} {d : Char} (member : d ∈ Nat.toDigits 10 n) : d.isDigit :=
  Nat.isDigit_of_mem_toDigits (by decide) (by decide) member

theorem ne_of_mem_toDigits {n : Nat} {d c : Char} (member : d ∈ Nat.toDigits 10 n) (noDigit : c.isDigit = false) :
    d ≠ c := by
  rintro rfl
  rw [isDigit_of_mem member] at noDigit
  cases noDigit

theorem toDigits_ascii (n : Nat) : Ascii (Nat.toDigits 10 n) := by
  intro c member
  have digit := isDigit_of_mem member
  simp only [Char.isDigit, Bool.and_eq_true, decide_eq_true_eq] at digit
  have upper : c.toNat ≤ 57 := digit.2
  omega

theorem memberText_ascii (m : String × Scalar) : Ascii (memberText m) := by
  have colon : Ascii [':'] := by decide
  refine ((asciiQuoted_ascii m.1).append colon).append ?_
  cases m.2 with
  | str s => exact asciiQuoted_ascii s
  | nat n => exact toDigits_ascii n

theorem commaSeparated_ascii {texts : List (List Char)} (each : ∀ text ∈ texts, Ascii text) :
    Ascii (commaSeparated texts) := by
  have comma : Ascii [','] := by decide
  fun_induction commaSeparated texts with
  | case1 => exact List.forall_mem_nil _
  | case2 text => exact each text (List.mem_singleton_self _)
  | case3 text next texts ih =>
      obtain ⟨here, later⟩ := List.forall_mem_cons.mp each
      exact (here.append comma).append (ih later)

theorem compactObject_ascii (ms : List (String × Scalar)) : Ascii (compactObject ms) := by
  have opening : Ascii ['{'] := by decide
  have closing : Ascii ['}'] := by decide
  refine (opening.append (commaSeparated_ascii fun text member => ?_)).append closing
  obtain ⟨m, -, rfl⟩ := List.mem_map.mp member
  exact memberText_ascii m

/-! ### What is written is read back -/

theorem prepend_append {α : Type*} (a b : List α) (result : Option (List α × List Char)) :
    prepend (a ++ b) result = prepend a (prepend b result) := by
  cases result with
  | none => rfl
  | some r => simp [prepend, reading]

theorem hexDigit_digitChar : ∀ d, d < 16 → hexDigit d.digitChar = some d := by decide

theorem stringBody_hexText {unit : CodeUnit} (bound : unit < 0x10000) (rest : List Char) :
    stringBody (['\\', 'u'] ++ hexText 4 unit ++ rest) = prepend [unit] (stringBody rest) := by
  rw [hexText_four bound]
  refine stringBody_hex ?_ rest
  have whole : unit / 16 / 16 / 16 * 0x1000 + unit / 16 / 16 % 16 * 0x100 + unit / 16 % 16 * 0x10 + unit % 16 =
      unit := by
    have (n : Nat) : n / 16 / 16 / 16 * 0x1000 + n / 16 / 16 % 16 * 0x100 + n / 16 % 16 * 0x10 + n % 16 = n := by omega
    exact this unit
  have top : unit / 16 / 16 / 16 < 16 := by
    have (n : Nat) (small : n < 0x10000) : n / 16 / 16 / 16 < 16 := by omega
    exact this unit bound
  have digit (n : Nat) : n % 16 < 16 := Nat.mod_lt n (by decide)
  rw [hexUnit, hexDigit_digitChar _ top, hexDigit_digitChar _ (digit _), hexDigit_digitChar _ (digit _),
    hexDigit_digitChar _ (digit _)]
  exact congrArg some whole

theorem stringBody_hexTexts {us : List CodeUnit} (bound : ∀ unit ∈ us, unit < 0x10000) (rest : List Char) :
    stringBody (us.flatMap (fun unit => ['\\', 'u'] ++ hexText 4 unit) ++ rest) = prepend us (stringBody rest) := by
  induction us with
  | nil =>
      rw [List.flatMap_nil, List.nil_append]
      cases stringBody rest <;> rfl
  | cons unit us ih =>
      obtain ⟨here, later⟩ := List.forall_mem_cons.mp bound
      rw [List.flatMap_cons, List.append_assoc, stringBody_hexText here, ih later, ← prepend_append]
      rfl

theorem stringBody_escapeAscii (c : Char) (rest : List Char) :
    stringBody (escapeAscii c ++ rest) = prepend (charUnits c) (stringBody rest) := by
  unfold escapeAscii
  split
  · exact stringBody_escapeChar c rest
  · exact stringBody_hexTexts (charUnits_lt c) rest

theorem stringBody_asciiQuoted (s rest : List Char) :
    stringBody (s.flatMap escapeAscii ++ '"' :: rest) = some (units s, rest) := by
  induction s with
  | nil => exact stringBody_quote rest
  | cons c s ih =>
      rw [List.flatMap_cons, List.append_assoc, stringBody_escapeAscii, ih]
      rfl

theorem asciiQuoted_append (s : String) (rest : List Char) :
    asciiQuoted s ++ rest = '"' :: (s.toList.flatMap escapeAscii ++ '"' :: rest) := by
  simp [asciiQuoted]

theorem value_asciiQuoted (depth : Nat) (s : String) (rest : List Char) :
    value (depth + 1) (asciiQuoted s ++ rest) = some (.str (units s.toList), rest) := by
  rw [asciiQuoted_append, value, skipSpace_of_not_space (by decide)]
  simp only [↓reduceIte, stringBody_asciiQuoted, reading_some]

theorem digits_append {ds : List Char} (all : ∀ d ∈ ds, d.isDigit) {c : Char} (stop : c.isDigit = false)
    (rest : List Char) : digits (ds ++ c :: rest) = (ds, c :: rest) := by
  rw [digits, List.span_eq_takeWhile_dropWhile, List.takeWhile_append_of_pos all, List.dropWhile_append_of_pos all,
    List.takeWhile_cons_of_neg (by simp [stop]), List.dropWhile_cons_of_neg (by simp [stop]), List.append_nil]

theorem digitChar_ne_zero : ∀ d, d < 10 → d ≠ 0 → d.digitChar ≠ '0' := by decide

theorem toDigits_head {n : Nat} (positive : n ≠ 0) : ∃ d ds, Nat.toDigits 10 n = d :: ds ∧ d ≠ '0' := by
  induction n using Nat.strongRecOn with
  | ind n ih =>
      rw [Nat.toDigits_eq_if (by decide)]
      split
      · rename_i small
        exact ⟨_, [], rfl, digitChar_ne_zero n small positive⟩
      · obtain ⟨d, ds, front, nonzero⟩ := ih (n / 10) (by omega) (by omega)
        exact ⟨d, ds ++ [(n % 10).digitChar], by rw [front, List.cons_append], nonzero⟩

theorem integer_toDigits (n : Nat) {c : Char} (stop : c.isDigit = false) (rest : List Char) :
    integer (Nat.toDigits 10 n ++ c :: rest) = some (Nat.toDigits 10 n, c :: rest) := by
  have all : ∀ d ∈ Nat.toDigits 10 n, d.isDigit := fun _ => isDigit_of_mem
  by_cases zero : n = 0
  · subst zero
    rw [Nat.toDigits_zero]
    rfl
  · obtain ⟨d, ds, split, nonzero⟩ := toDigits_head zero
    have unsigned : d ≠ '-' := ne_of_mem_toDigits (split ▸ List.mem_cons_self) rfl
    rw [split] at all ⊢
    have read : integer (d :: ds ++ c :: rest) = digits₁ [] (d :: ds ++ c :: rest) := by
      rw [List.cons_append, integer.eq_def]
      split
      · rename_i same
        exact absurd (List.cons.inj same).1 unsigned
      · rename_i same
        exact absurd (List.cons.inj same).1 unsigned
      · rename_i same
        exact absurd (List.cons.inj same).1 nonzero
      · rfl
    rw [read, digits₁, digits_append all stop]
    rfl

theorem number_toDigits (n : Nat) {c : Char} (ends : c = ',' ∨ c = '}') (rest : List Char) :
    number (Nat.toDigits 10 n ++ c :: rest) = some (Nat.toDigits 10 n, c :: rest) := by
  have stop : c.isDigit = false := by
    obtain rfl | rfl := ends
    · decide
    · decide
  have noFraction : fraction (c :: rest) = some ([], c :: rest) := by
    obtain rfl | rfl := ends
    · rfl
    · rfl
  have noExponent : exponent (c :: rest) = some ([], c :: rest) := by
    obtain rfl | rfl := ends
    · rfl
    · rfl
  rw [number, integer_toDigits n stop]
  simp only [Option.bind_eq_bind, Option.bind_some, noFraction, noExponent]
  simp

theorem value_toDigits (depth n : Nat) {c : Char} (ends : c = ',' ∨ c = '}') (rest : List Char) :
    value (depth + 1) (Nat.toDigits 10 n ++ c :: rest) = some (.num (Nat.toDigits 10 n), c :: rest) := by
  have read := number_toDigits n ends rest
  obtain ⟨d, ds, split⟩ := List.exists_cons_of_ne_nil (Nat.toDigits_ne_nil (n := n) (b := 10))
  have other (e : Char) (noDigit : e.isDigit = false) : d ≠ e :=
    ne_of_mem_toDigits (split ▸ List.mem_cons_self) noDigit
  have notSpace : isSpace d = false := by
    simp [isSpace, other ' ' rfl, other '\t' rfl, other '\n' rfl, other '\r' rfl]
  rw [split, List.cons_append] at read ⊢
  rw [value, skipSpace_of_not_space notSpace]
  simp only [other '"' rfl, other '{' rfl, other '[' rfl, other 't' rfl,
    other 'f' rfl, other 'n' rfl, read, reading_some, ↓reduceIte]

theorem value_text (depth : Nat) (v : Scalar) {c : Char} (ends : c = ',' ∨ c = '}') (rest : List Char) :
    value (depth + 1) (v.text ++ c :: rest) = some (v.value, c :: rest) := by
  cases v with
  | str s => exact value_asciiQuoted depth s (c :: rest)
  | nat n => exact value_toDigits depth n ends rest

def memberValue (m : String × Scalar) : List CodeUnit × Value := (units m.1.toList, m.2.value)

theorem readAs_memberText (depth : Nat) (m : String × Scalar) :
    ReadAs (memberOf (value (depth + 1))) '}' (memberText m) (memberValue m) := by
  intro c rest ends
  have shape : memberText m ++ c :: rest = asciiQuoted m.1 ++ ':' :: (m.2.text ++ c :: rest) := by simp [memberText]
  rw [shape, asciiQuoted_append, memberOf, skipSpace_of_not_space (by decide)]
  simp only [stringBody_asciiQuoted, skipSpace_of_not_space (show isSpace ':' = false by decide),
    value_text depth m.2 ends, reading_some]
  rfl

theorem parse_compactObject (ms : List (String × Scalar)) :
    parse (compactObject ms) = some (.obj (ms.map memberValue)) := by
  have quotes : ∀ text ∈ ms.map memberText, ∃ rest, text = '"' :: rest := by
    intro text member
    obtain ⟨m, -, rfl⟩ := List.mem_map.mp member
    exact ⟨_, rfl⟩
  exact parse_object quotes fun depth => forall₂_readAs ms (readAs_memberText depth)

end CuckooEcho.Lib.Json
