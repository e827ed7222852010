import CuckooEcho.Lib.Substitution

namespace CuckooEcho.Lib.Substitution

/-! ## Finding matches in one text and replacing them in another -/

section
variable {α : Type} (m : Matcher α)

def findall (text : Text) : List α := (pieces m text).filterMap Sum.getRight?

def search (text : Text) : Option α := (pieces m text).findSome? Sum.getRight?

def literally (old : Text) : Matcher Unit := fun text => (after old text).map fun _ => ((), old.length)

def replaceAll (old new text : Text) : Text := sub (literally old) (fun _ => new) text

def replaceEach (written new : α → Text) (found : List α) (text : Text) : Text :=
  found.foldl (fun result a => replaceAll (written a) (new a) result) text

/-- What the matcher has captured tells the text that it has matched. -/
structure Spells (written : α → Text) : Prop where
  nonempty : ∀ a, written a ≠ []
  found : ∀ {text a length}, m text = some (a, length) → written a <+: text ∧ length = (written a).length

variable {m} {written new : α → Text}

theorem Spells.piecesFrom_written (spells : Spells m written) (skip : Nat) (text : Text) :
    (piecesFrom m skip text).flatMap (Sum.elim (fun c => [c]) written) = text.drop skip := by
  induction text generalizing skip with
  | nil => simp [piecesFrom]
  | cons c text ih =>
      cases skip with
      | succ skip => exact ih skip
      | zero =>
          rw [piecesFrom]
          cases matched : m (c :: text) with
          | none =>
              rw [List.flatMap_cons, ih 0]
              rfl
          | some found =>
              obtain ⟨a, length⟩ := found
              obtain ⟨⟨rest, whole⟩, rfl⟩ := spells.found matched
              rw [List.flatMap_cons, ih, Text.drop_found (spells.nonempty a) whole]
              exact whole

theorem Spells.sub_written (spells : Spells m written) (text : Text) : sub m written text = text :=
  spells.piecesFrom_written 0 text

theorem spells_literally {old : Text} (nonempty : old ≠ []) : Spells (literally old) fun _ => old where
  nonempty _ := nonempty
  found {text a length} matched := by
    rw [literally, after] at matched
    split at matched
    · rename_i here
      exact ⟨here, (Prod.mk.inj (Option.some.inj matched)).2.symm⟩
    · cases matched

theorem replaceAll_self {old : Text} (nonempty : old ≠ []) (text : Text) : replaceAll old old text = text :=
  (spells_literally nonempty).sub_written text

theorem literally_of_not_prefix {old text : Text} (absent : ¬ old <+: text) : literally old text = none := by
  rw [literally, after, if_neg absent, Option.map_none]

theorem literally_append (old rest : Text) : literally old (old ++ rest) = some ((), old.length) := by
  rw [literally, after_append, Option.map_some]

theorem Free.of_prefix {literal longer text : Text} (free : Free literal text) (begins : literal <+: longer) :
    Free longer text :=
  fun before inside rest split nonempty found => free before inside rest split nonempty (begins.trans found)

theorem Free.scans_literally {old text : Text} (free : Free old text) : Scans (literally old) text (text.map .inl) :=
  free.scans fun _ => literally_of_not_prefix

theorem exists_suffix_of_mem_piecesFrom {a : α} {skip : Nat} {text : Text} (member : .inr a ∈ piecesFrom m skip text) :
    ∃ rest, rest <:+ text ∧ ∃ length, m rest = some (a, length) := by
  induction text generalizing skip with
  | nil => simp [piecesFrom] at member
  | cons c text ih =>
      have later {skip : Nat} (inText : .inr a ∈ piecesFrom m skip text) :
          ∃ rest, rest <:+ c :: text ∧ ∃ length, m rest = some (a, length) := by
        obtain ⟨rest, suffix, matched⟩ := ih inText
        exact ⟨rest, suffix.trans (List.suffix_cons c text), matched⟩
      cases skip with
      | succ skip => exact later member
      | zero =>
          rw [piecesFrom] at member
          cases matched : m (c :: text) with
          | none =>
              rw [matched] at member
              exact later ((List.mem_cons.mp member).resolve_left Sum.inr_ne_inl)
          | some found =>
              rw [matched] at member
              cases List.mem_cons.mp member with
              | inl same =>
                  obtain rfl := Sum.inr.inj same
                  exact ⟨c :: text, List.suffix_rfl, found.2, matched⟩
              | inr inText => exact later inText

theorem exists_suffix_of_search {a : α} {text : Text} (found : search m text = some a) :
    ∃ rest, rest <:+ text ∧ ∃ length, m rest = some (a, length) := by
  obtain ⟨piece, member, captured⟩ := List.exists_of_findSome?_eq_some found
  rw [Sum.getRight?_eq_some_iff.mp captured] at member
  exact exists_suffix_of_mem_piecesFrom member

variable (written) in
def unparse (parts : List (Char ⊕ α)) : Text := parts.flatMap (Sum.elim (fun c => [c]) written)

theorem unparse_inl (text : Text) : unparse written (text.map .inl) = text := flatMap_inl text written

theorem unparse_flatMap {β : Type} (parts : List β) (f : β → List (Char ⊕ α)) :
    unparse written (parts.flatMap f) = parts.flatMap fun part => unparse written (f part) :=
  List.flatMap_assoc

theorem unparse_inr (a : α) : unparse written [.inr a] = written a := List.flatMap_singleton _ _

theorem flatMap_map_inl {β : Type} {f : Char ⊕ α → List (Char ⊕ β)} (keeps : ∀ c, f (.inl c) = [.inl c]) (text : Text) :
    (text.map .inl).flatMap f = text.map .inl := by
  rw [List.flatMap_map, funext keeps]
  exact List.flatMap_pure_eq_map _ _

/-- A text, or one match. -/
def segment : Text ⊕ α → List (Char ⊕ α)
  | .inl t => t.map .inl
  | .inr a => [.inr a]

theorem mem_segments {segments : List (Text ⊕ α)} (found : pieces m text = segments.flatMap segment) {a : α}
    (member : a ∈ findall m text) : .inr a ∈ segments := by
  obtain ⟨part, inPieces, captured⟩ := List.mem_filterMap.mp member
  rw [Sum.getRight?_eq_some_iff.mp captured, found] at inPieces
  obtain ⟨piece, inSegments, here⟩ := List.mem_flatMap.mp inPieces
  cases piece with
  | inl t => simp [segment] at here
  | inr b =>
      obtain rfl := Sum.inr.inj (List.mem_singleton.mp here)
      exact inSegments

end

/-! ### One match after the other, or all at once

Replacing the text of one match can change a part that belongs to another match, or a text that has been put in. Where
it does not, it does not matter that the matches are replaced one after the other. -/

section
variable {α : Type} [DecidableEq α] (written new : α → Text)

/-- The matches in `done` have been replaced. -/
def replaced (done : List α) : Char ⊕ α → List (Char ⊕ α)
  | .inl c => [.inl c]
  | .inr a => if a ∈ done then (new a).map .inl else [.inr a]

/-- Where the text of `a` stands if it stands only where `a` has been matched. -/
def marked (a : α) : Char ⊕ α → List (Char ⊕ Unit)
  | .inl c => [.inl c]
  | .inr b => if b = a then [.inr ()] else (written b).map .inl

/-- The text of a match that is replaced is found at the matches that have it, and nowhere else in the text that the
replacements before it have made. -/
def Apart (m : Matcher α) (text : Text) : Prop :=
  ∀ done a later, findall m text = done ++ a :: later → new a ≠ written a →
    let parts := (pieces m text).flatMap (replaced new done)
    pieces (literally (written a)) (unparse written parts) = parts.flatMap (marked written a)

variable {written new}

theorem unparse_replaced_same {a : α} (same : new a = written a) (done : List α) (part : Char ⊕ α) :
    unparse written (replaced new (done ++ [a]) part) = unparse written (replaced new done part) := by
  cases part with
  | inl c => rfl
  | inr b =>
      by_cases before : b ∈ done
      · simp [replaced, before]
      · by_cases here : b = a
        · rw [here, replaced, replaced, if_pos List.mem_concat_self, if_neg (here ▸ before), unparse_inl, same,
            unparse_inr]
        · simp [replaced, before, here]

theorem marked_replaced (a : α) (done : List α) (part : Char ⊕ α) :
    ((replaced new done part).flatMap (marked written a)).flatMap (Sum.elim (fun c => [c]) fun _ => new a) =
      unparse written (replaced new (done ++ [a]) part) := by
  cases part with
  | inl c => rfl
  | inr b =>
      by_cases before : b ∈ done
      · have kept : ((new b).map Sum.inl).flatMap (marked written a) = (new b).map .inl :=
          flatMap_map_inl (fun _ => rfl) (new b)
        rw [replaced, replaced, if_pos before, if_pos (List.mem_append_left [a] before), kept, flatMap_inl, unparse_inl]
      · by_cases here : b = a
        · subst here
          simp [replaced, marked, before, unparse_inl]
        · have apart : b ∉ done ++ [a] := by simp [before, here]
          rw [replaced, replaced, if_neg before, if_neg apart, List.flatMap_singleton, marked, if_neg here, flatMap_inl,
            unparse_inr]

variable {m : Matcher α} {text : Text}

theorem Apart.replaceAll_unparse (apart : Apart written new m text) (nonempty : ∀ a, written a ≠ [])
    {done later : List α} {a : α} (found : findall m text = done ++ a :: later) :
    replaceAll (written a) (new a) (unparse written ((pieces m text).flatMap (replaced new done))) =
      unparse written ((pieces m text).flatMap (replaced new (done ++ [a]))) := by
  by_cases same : new a = written a
  · rw [same, replaceAll_self (nonempty a), unparse_flatMap, unparse_flatMap]
    exact List.flatMap_congr fun part _ => (unparse_replaced_same same done part).symm
  · rw [replaceAll, sub, apart done a later found same, List.flatMap_assoc, List.flatMap_assoc, unparse_flatMap]
    apply List.flatMap_congr
    intro part _
    rw [← marked_replaced, List.flatMap_assoc]

theorem Apart.replaceEach_unparse (apart : Apart written new m text) (nonempty : ∀ a, written a ≠ [])
    {later done : List α} (found : findall m text = done ++ later) :
    replaceEach written new later (unparse written ((pieces m text).flatMap (replaced new done))) =
      unparse written ((pieces m text).flatMap (replaced new (findall m text))) := by
  induction later generalizing done with
  | nil => rw [found, List.append_nil, replaceEach, List.foldl_nil]
  | cons a later ih =>
      have next : findall m text = (done ++ [a]) ++ later := by rw [found, List.append_assoc, List.singleton_append]
      rw [replaceEach, List.foldl_cons, apart.replaceAll_unparse nonempty found]
      exact ih next

theorem flatMap_replaced_nil (parts : List (Char ⊕ α)) : parts.flatMap (replaced new []) = parts := by
  have each (part : Char ⊕ α) : replaced new [] part = [part] := by
    cases part with
    | inl c => rfl
    | inr a => simp [replaced]
  rw [funext each]
  exact List.flatMap_singleton' parts

/-- Replacing the matches one after the other is replacing all of them at once. -/
theorem Apart.replaceEach_eq_sub (apart : Apart written new m text) (spells : Spells m written) :
    replaceEach written new (findall m text) text = sub m new text := by
  have all := apart.replaceEach_unparse spells.nonempty (List.nil_append (findall m text)).symm
  have start : unparse written (pieces m text) = text := spells.sub_written text
  rw [flatMap_replaced_nil, start] at all
  rw [all, unparse_flatMap, sub]
  apply List.flatMap_congr
  intro part member
  cases part with
  | inl c => rfl
  | inr a =>
      have known : a ∈ findall m text := List.mem_filterMap.mpr ⟨.inr a, member, rfl⟩
      rw [replaced, if_pos known, unparse_inl, Sum.elim_inr]

theorem scans_marked_text {a : α} {t : Text} (free : Free (written a) t) : Scans (literally (written a))
    (unparse written (t.map .inl)) ((t.map .inl).flatMap (marked written a)) := by
  have kept : (t.map Sum.inl).flatMap (marked written a) = t.map .inl := flatMap_map_inl (fun _ => rfl) t
  rw [unparse_inl, kept]
  exact free.scans_literally

theorem scans_marked_match {a b : α} (nonempty : written a ≠ []) (other : b ≠ a → Free (written a) (written b)) :
    Scans (literally (written a)) (unparse written [.inr b]) ([.inr b].flatMap (marked written a)) := by
  rw [unparse_inr, List.flatMap_singleton, marked]
  split
  · rename_i same
    rw [same]
    exact Scans.of_match nonempty (literally_append (written a))
  · rename_i different
    exact (other different).scans_literally

/-- Where the text of a match that is replaced begins nowhere but at the matches that have it, the replacements are
apart. -/
theorem apart_of_free (segments : List (Text ⊕ α)) (found : pieces m text = segments.flatMap segment)
    (nonempty : ∀ a, written a ≠ [])
    (texts : ∀ a, .inr a ∈ segments → new a ≠ written a → ∀ t, .inl t ∈ segments → Free (written a) t)
    (values : ∀ a, .inr a ∈ segments → new a ≠ written a → ∀ b, .inr b ∈ segments → Free (written a) (new b))
    (others : ∀ a, .inr a ∈ segments → new a ≠ written a → ∀ b, .inr b ∈ segments → b ≠ a →
      Free (written a) (written b)) : Apart written new m text := by
  intro done a later matched changed parts
  have inAll : a ∈ findall m text := by
    rw [matched]
    exact List.mem_append_right done List.mem_cons_self
  have known := mem_segments found inAll
  have each : ∀ piece ∈ segments, Scans (literally (written a))
      (unparse written ((segment piece).flatMap (replaced new done)))
      (((segment piece).flatMap (replaced new done)).flatMap (marked written a)) := by
    intro piece member
    cases piece with
    | inl t =>
        have kept : (t.map Sum.inl).flatMap (replaced new done) = t.map .inl := flatMap_map_inl (fun _ => rfl) t
        rw [segment, kept]
        exact scans_marked_text (texts a known changed t member)
    | inr b =>
        rw [segment, List.flatMap_singleton, replaced]
        split
        · exact scans_marked_text (values a known changed b member)
        · exact scans_marked_match (nonempty a) (others a known changed b member)
  have same : parts = segments.flatMap fun piece => (segment piece).flatMap (replaced new done) := by
    rw [← List.flatMap_assoc, ← found]
  rw [same, unparse_flatMap, List.flatMap_assoc]
  exact (Scans.flatMap each).pieces_eq

end

/-! ### Replacement templates

What a regular expression's replacement text stands for: an escape is a character or a group of the match. -/

section

def isDigit8 (c : Char) : Bool := '0' ≤ c && c ≤ '7'

def valueIn (base : Nat) (digits : Text) : Nat := digits.foldl (fun n d => n * base + (d.toNat - '0'.toNat)) 0

def controls : List (Char × Nat) :=
  [('a', 7), ('b', 8), ('f', 12), ('n', 10), ('r', 13), ('t', 9), ('v', 11), ('\\', 92)]

variable (groups : Nat)

def groupRef (index : Nat) : Option (Text ⊕ Nat) := if index ≤ groups then some (.inr index) else none

/-- `\g<index>`; groups have no names. -/
def readGroup (text : Text) : Option (Text ⊕ Nat) × Nat :=
  match (after ['<'] text).bind (textBefore ['>']) with
  | none => (none, 0)
  | some name =>
      (if name ≠ [] ∧ name.all Char.isDigit then groupRef groups (valueIn 10 name) else none, name.length + 2)

/-- The digits after a backslash: an octal number that begins with zero or has three digits, or a group. -/
def readDigits (text : Text) : Option (Text ⊕ Nat) × Nat :=
  let octal := (text.take 3).takeWhile isDigit8
  let digits := (text.take 2).takeWhile Char.isDigit
  if text.head? = some '0' then (some (.inl [Char.ofNat (valueIn 8 octal % 256)]), octal.length)
  else if octal.length = 3 then
    (if valueIn 8 octal < 256 then some (.inl [Char.ofNat (valueIn 8 octal)]) else none, 3)
  else (groupRef groups (valueIn 10 digits), digits.length)

/-- What an escape stands for, `none` for a bad one, and how many characters it has after the backslash. -/
def readEscape : Text → Option (Text ⊕ Nat) × Nat
  | [] => (none, 0)
  | c :: text =>
      if c = 'g' then ((readGroup groups text).1, (readGroup groups text).2 + 1)
      else if c.isDigit then readDigits groups (c :: text)
      else match controls.lookup c with
        | some code => (some (.inl [Char.ofNat code]), 1)
        | none => (if c.isAlpha then none else some (.inl ['\\', c]), 1)

def escape : Matcher (Option (Text ⊕ Nat))
  | '\\' :: text => some ((readEscape groups text).1, (readEscape groups text).2 + 1)
  | _ => none

def parseTemplate (template : Text) : Option (List (Text ⊕ Nat)) :=
  (pieces (escape groups) template).mapM (Sum.elim (fun c => some (.inl [c])) id)

def expand (parts : List (Text ⊕ Nat)) (group : Nat → Text) : Text := parts.flatMap (Sum.elim id group)

/-- The text stands for itself. -/
def Verbatim (template : Text) : Prop :=
  ∃ parts, parseTemplate groups template = some parts ∧ ∀ group, expand parts group = template

theorem verbatim_of_not_mem {template : Text} (absent : '\\' ∉ template) : Verbatim groups template := by
  have free : Free ['\\'] template := free_of_not_mem absent
  have begins (text : Text) (other : ¬ ['\\'] <+: text) : escape groups text = none := by
    cases text with
    | nil => rfl
    | cons c text =>
        have apart : c ≠ '\\' := fun same => other (by simp [same])
        unfold escape
        split
        · rename_i same
          exact absurd (List.cons.inj same).1 apart
        · rfl
  have kept : parseTemplate groups template = some (template.map fun c => .inl [c]) := by
    rw [parseTemplate, (free.scans begins).pieces_eq, List.mapM_map]
    exact List.mapM_pure
  refine ⟨_, kept, fun group => ?_⟩
  rw [expand, List.flatMap_map]
  exact List.flatMap_singleton' template

end

end CuckooEcho.Lib.Substitution
