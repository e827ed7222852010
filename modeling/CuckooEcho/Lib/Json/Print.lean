import CuckooEcho.Lib.Json.Parse
import Mathlib.Data.List.Forall2

namespace CuckooEcho.Lib.Json

/-! ## Items that are read one by one are read together -/

def commaSeparated : List (List Char) → List Char
  | [] => []
  | [text] => text
  | text :: next :: texts => text ++ [','] ++ commaSeparated (next :: texts)

section
variable {α : Type*} {item : List Char → Option (α × List Char)} {close : Char}

/-- The item is read of the text wherever a comma or the closing bracket follows. -/
def ReadAs (item : List Char → Option (α × List Char)) (close : Char) (text : List Char) (x : α) : Prop :=
  ∀ c rest, c = ',' ∨ c = close → item (text ++ c :: rest) = some (x, c :: rest)

theorem forall₂_readAs {β : Type*} {text : β → List Char} {x : β → α} (ms : List β)
    (read : ∀ m, ReadAs item close (text m) (x m)) : List.Forall₂ (ReadAs item close) (ms.map text) (ms.map x) :=
  List.forall₂_map_left_iff.mpr (List.forall₂_map_right_iff.mpr (List.forall₂_same.mpr fun m _ => read m))

theorem skipSpace_of_not_space {c : Char} (h : isSpace c = false) (rest : List Char) :
    skipSpace (c :: rest) = c :: rest := by
  simp [skipSpace, h]

theorem itemsTail_commaSeparated (closes : isSpace close = false) (bracket : close ≠ ',') {text : List Char}
    {texts : List (List Char)} {xs : List α} (read : List.Forall₂ (ReadAs item close) (text :: texts) xs) {n : Nat}
    (enough : texts.length < n) (rest : List Char) :
    itemsTail item close n (commaSeparated (text :: texts) ++ close :: rest) = some (xs, rest) := by
  induction texts generalizing text xs n with
  | nil =>
      obtain ⟨n, rfl⟩ : ∃ k, n = k + 1 := ⟨n - 1, by omega⟩
      obtain ⟨x, xs, here, later, rfl⟩ := List.forall₂_cons_left_iff.mp read
      obtain rfl := List.forall₂_nil_left_iff.mp later
      rw [commaSeparated, itemsTail, here close rest (Or.inr rfl)]
      simp only [skipSpace_of_not_space closes, ↓reduceIte]
  | cons next texts ih =>
      obtain ⟨n, rfl⟩ : ∃ k, n = k + 1 := ⟨n - 1, by omega⟩
      obtain ⟨x, xs, here, later, rfl⟩ := List.forall₂_cons_left_iff.mp read
      have shape : commaSeparated (text :: next :: texts) ++ close :: rest =
          text ++ ',' :: (commaSeparated (next :: texts) ++ close :: rest) := by
        simp [commaSeparated]
      have others := @ih next xs later n (by rw [List.length_cons] at enough; omega)
      rw [shape, itemsTail, here ',' _ (Or.inl rfl)]
      simp only [skipSpace_of_not_space (show isSpace ',' = false by decide), others, if_neg bracket.symm, ↓reduceIte]
      rfl

end

/-! ### Members of an object -/

section
variable {texts : List (List Char)} {ms : List (List CodeUnit × Value)}
  (quotes : ∀ text ∈ texts, ∃ rest, text = '"' :: rest)
include quotes

theorem length_le_commaSeparated : texts.length ≤ (commaSeparated texts).length := by
  fun_induction commaSeparated texts with
  | case1 => exact Nat.le_refl 0
  | case2 text =>
      obtain ⟨rest, rfl⟩ := quotes text (List.mem_singleton_self _)
      exact Nat.succ_le_succ (Nat.zero_le _)
  | case3 text next texts ih =>
      have later := ih (List.forall_mem_cons.mp quotes).2
      simp only [List.length_append, List.length_cons] at later ⊢
      omega

theorem value_object {depth : Nat} (read : List.Forall₂ (ReadAs (memberOf (value depth)) '}') texts ms)
    (rest : List Char) :
    value (depth + 1) ('{' :: (commaSeparated texts ++ '}' :: rest)) = some (.obj ms, rest) := by
  have long := length_le_commaSeparated quotes
  have all : items (memberOf (value depth)) '}' ('{' :: (commaSeparated texts ++ '}' :: rest)).length
      (commaSeparated texts ++ '}' :: rest) = some (ms, rest) := by
    cases texts with
    | nil =>
        obtain rfl := List.forall₂_nil_left_iff.mp read
        rfl
    | cons text texts =>
        have enough : texts.length < ('{' :: (commaSeparated (text :: texts) ++ '}' :: rest)).length := by
          simp only [List.length_append, List.length_cons] at long ⊢
          omega
        have tail := itemsTail_commaSeparated (by decide) (by decide) read enough rest
        obtain ⟨inner, first⟩ : ∃ inner, commaSeparated (text :: texts) = '"' :: inner := by
          obtain ⟨inner, rfl⟩ := quotes text List.mem_cons_self
          cases texts <;> exact ⟨_, rfl⟩
        rw [first, List.cons_append] at tail ⊢
        rw [items, skipSpace_of_not_space (by decide)]
        simp only [tail, show ('"' = '}') = False by decide, ↓reduceIte]
  rw [value, skipSpace_of_not_space (by decide)]
  simp only [show ('{' = '"') = False by decide, ↓reduceIte, all, reading_some]

theorem parse_object (read : ∀ depth, List.Forall₂ (ReadAs (memberOf (value (depth + 1))) '}') texts ms) :
    parse (['{'] ++ commaSeparated texts ++ ['}']) = some (.obj ms) := by
  have whole := value_object quotes (read ((commaSeparated texts).length + 1)) []
  have shape : ['{'] ++ commaSeparated texts ++ ['}'] = '{' :: (commaSeparated texts ++ ['}']) := by simp
  have depth : ('{' :: (commaSeparated texts ++ ['}'])).length + 1 = (commaSeparated texts).length + 1 + 1 + 1 := by
    simp
  rw [parse, shape, depth, whole]
  rfl

end

/-! ## Objects of strings as a compact serialiser writes them -/

def hexDigits : List Char := "0123456789abcdef".toList

def escapeChar (c : Char) : List Char :=
  if c = '"' then ['\\', '"']
  else if c = '\\' then ['\\', '\\']
  else if c.toNat = 0x08 then ['\\', 'b']
  else if c.toNat = 0x09 then ['\\', 't']
  else if c.toNat = 0x0A then ['\\', 'n']
  else if c.toNat = 0x0C then ['\\', 'f']
  else if c.toNat = 0x0D then ['\\', 'r']
  else if c.toNat < 0x20 then
    ['\\', 'u', '0', '0', hexDigits.getD (c.toNat / 16) '0', hexDigits.getD (c.toNat % 16) '0']
  else [c]

def quoted (s : List Char) : List Char := ['"'] ++ s.flatMap escapeChar ++ ['"']

def membersText : List (List Char × List Char) → List Char
  | [] => []
  | [(key, s)] => quoted key ++ [':'] ++ quoted s
  | (key, s) :: ms => quoted key ++ [':'] ++ quoted s ++ [','] ++ membersText ms

def objectText (ms : List (List Char × List Char)) : List Char := ['{'] ++ membersText ms ++ ['}']

/-! ## Control characters are escaped -/

def Printable (text : List Char) : Prop := ∀ c ∈ text, 0x20 ≤ c.toNat

theorem printable_append {a b : List Char} : Printable (a ++ b) ↔ Printable a ∧ Printable b :=
  List.forall_mem_append

theorem hexDigits_printable : ∀ n, n < 16 → 0x20 ≤ (hexDigits.getD n '0').toNat := by decide

theorem printable_cons {c : Char} {a : List Char} : Printable (c :: a) ↔ 0x20 ≤ c.toNat ∧ Printable a :=
  List.forall_mem_cons

theorem printable_nil : Printable [] := List.forall_mem_nil _

theorem printable_pair {c d : Char} (first : 0x20 ≤ c.toNat) (second : 0x20 ≤ d.toNat) : Printable [c, d] :=
  printable_cons.mpr ⟨first, printable_cons.mpr ⟨second, printable_nil⟩⟩

theorem escapeChar_printable (c : Char) : Printable (escapeChar c) := by
  unfold escapeChar
  split_ifs with _ _ _ _ _ _ _ control
  · exact printable_pair (by decide) (by decide)
  · exact printable_pair (by decide) (by decide)
  · exact printable_pair (by decide) (by decide)
  · exact printable_pair (by decide) (by decide)
  · exact printable_pair (by decide) (by decide)
  · exact printable_pair (by decide) (by decide)
  · exact printable_pair (by decide) (by decide)
  · have high := hexDigits_printable (c.toNat / 16) (by omega)
    have low := hexDigits_printable (c.toNat % 16) (by omega)
    have opening : Printable ['\\', 'u', '0', '0'] := by simp [printable_cons, printable_nil]
    exact printable_append.mpr ⟨opening, printable_pair high low⟩
  · exact printable_cons.mpr ⟨Nat.le_of_not_lt control, printable_nil⟩

theorem quoted_printable (s : List Char) : Printable (quoted s) := by
  have body : Printable (s.flatMap escapeChar) := by
    intro d h
    obtain ⟨c, -, here⟩ := List.mem_flatMap.mp h
    exact escapeChar_printable c d here
  simp only [quoted, printable_append]
  exact ⟨⟨by simp [Printable], body⟩, by simp [Printable]⟩

theorem membersText_printable (ms : List (List Char × List Char)) : Printable (membersText ms) := by
  induction ms with
  | nil => simp [membersText, Printable]
  | cons m ms ih =>
      have member : Printable (quoted m.1 ++ [':'] ++ quoted m.2) := by
        simp only [printable_append]
        exact ⟨⟨quoted_printable m.1, by simp [Printable]⟩, quoted_printable m.2⟩
      cases ms with
      | nil => exact member
      | cons next ms =>
          simp only [membersText, printable_append] at member ⊢
          exact ⟨⟨member, by simp [Printable]⟩, ih⟩

theorem objectText_printable (ms : List (List Char × List Char)) : Printable (objectText ms) := by
  simp only [objectText, printable_append]
  exact ⟨⟨by simp [Printable], membersText_printable ms⟩, by simp [Printable]⟩

/-! ## What is written is read back -/

theorem hexUnit_control : ∀ n, n < 0x20 →
    hexUnit '0' '0' (hexDigits.getD (n / 16) '0') (hexDigits.getD (n % 16) '0') = some n := by
  decide

theorem charUnits_of_lt {c : Char} {n : Nat} (eq : c.toNat = n) (small : n < 0x10000) : charUnits c = [n] := by
  rw [charUnits, if_pos (by omega), eq]

theorem stringBody_escapeChar (c : Char) (rest : List Char) :
    stringBody (escapeChar c ++ rest) = prepend (charUnits c) (stringBody rest) := by
  unfold escapeChar
  split_ifs with quote backslash b t n f r control
  · subst quote
    exact stringBody_escaped (by decide) rest
  · subst backslash
    exact stringBody_escaped (by decide) rest
  · rw [charUnits_of_lt b (by decide)]
    exact stringBody_escaped (by decide) rest
  · rw [charUnits_of_lt t (by decide)]
    exact stringBody_escaped (by decide) rest
  · rw [charUnits_of_lt n (by decide)]
    exact stringBody_escaped (by decide) rest
  · rw [charUnits_of_lt f (by decide)]
    exact stringBody_escaped (by decide) rest
  · rw [charUnits_of_lt r (by decide)]
    exact stringBody_escaped (by decide) rest
  · rw [charUnits_of_lt rfl (by omega)]
    exact stringBody_hex (hexUnit_control c.toNat control) rest
  · exact stringBody_plain quote backslash control rest

theorem stringBody_quoted (s rest : List Char) :
    stringBody (s.flatMap escapeChar ++ ['"'] ++ rest) = some (units s, rest) := by
  induction s with
  | nil => exact stringBody_quote rest
  | cons c s ih =>
      rw [List.flatMap_cons, List.append_assoc, List.append_assoc, stringBody_escapeChar,
        ← List.append_assoc, ih]
      rfl

theorem quoted_append (s rest : List Char) :
    quoted s ++ rest = '"' :: (s.flatMap escapeChar ++ ['"'] ++ rest) := by
  simp [quoted]

theorem value_quoted (depth : Nat) (s rest : List Char) :
    value (depth + 1) (quoted s ++ rest) = some (.str (units s), rest) := by
  rw [quoted_append, value, skipSpace_of_not_space (by decide)]
  simp only [↓reduceIte, stringBody_quoted, reading_some]

def memberUnits (m : List Char × List Char) : List CodeUnit × Value := (units m.1, .str (units m.2))

theorem memberOf_quoted (depth : Nat) (m : List Char × List Char) (rest : List Char) :
    memberOf (value (depth + 1)) (quoted m.1 ++ [':'] ++ quoted m.2 ++ rest) =
      some (memberUnits m, rest) := by
  have key : quoted m.1 ++ [':'] ++ quoted m.2 ++ rest = quoted m.1 ++ ':' :: (quoted m.2 ++ rest) := by simp
  rw [key, quoted_append, memberOf, skipSpace_of_not_space (by decide)]
  simp only [stringBody_quoted, skipSpace_of_not_space (show isSpace ':' = false by decide), value_quoted,
    reading_some]
  rfl

theorem membersText_eq (ms : List (List Char × List Char)) :
    membersText ms = commaSeparated (ms.map fun m => quoted m.1 ++ [':'] ++ quoted m.2) := by
  induction ms with
  | nil => rfl
  | cons m ms ih =>
      cases ms with
      | nil => rfl
      | cons next ms => exact congrArg (quoted m.1 ++ [':'] ++ quoted m.2 ++ [','] ++ ·) ih

/-- The object that is written is the object that is read. -/
theorem parse_objectText (ms : List (List Char × List Char)) :
    parse (objectText ms) = some (.obj (ms.map memberUnits)) := by
  have read (depth : Nat) : List.Forall₂ (ReadAs (memberOf (value (depth + 1))) '}')
      (ms.map fun m => quoted m.1 ++ [':'] ++ quoted m.2) (ms.map memberUnits) :=
    forall₂_readAs ms fun m c rest _ => memberOf_quoted depth m (c :: rest)
  have quotes : ∀ text ∈ ms.map fun m => quoted m.1 ++ [':'] ++ quoted m.2, ∃ rest, text = '"' :: rest := by
    intro text member
    obtain ⟨m, -, rfl⟩ := List.mem_map.mp member
    exact ⟨_, rfl⟩
  rw [objectText, membersText_eq]
  exact parse_object quotes read

end CuckooEcho.Lib.Json
