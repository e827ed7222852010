import CuckooEcho.Lib.Text
import Mathlib.Data.List.TakeWhile

namespace CuckooEcho.Lib.Text
open Pattern (isSpace)

/-! ## White space around a text -/

def Blank (text : Text) : Prop := ∀ c ∈ text, isSpace c

theorem blank_nil : Blank [] := List.forall_mem_nil _

theorem Blank.cons {c : Char} {text : Text} (space : isSpace c) (blank : Blank text) : Blank (c :: text) :=
  List.forall_mem_cons.mpr ⟨space, blank⟩

theorem Blank.reverse {text : Text} (blank : Blank text) : Blank text.reverse :=
  fun c member => blank c (List.mem_reverse.mp member)

def Begins (text : Text) : Prop := ∃ c rest, text = c :: rest ∧ isSpace c = false

def Ends (text : Text) : Prop := ∃ front c, text = front ++ [c] ∧ isSpace c = false

theorem begins_cons {c : Char} {rest : Text} : Begins (c :: rest) ↔ isSpace c = false :=
  ⟨fun ⟨_, _, eq, black⟩ => (List.cons.inj eq).1 ▸ black, fun black => ⟨c, rest, rfl, black⟩⟩

theorem not_begins_nil : ¬ Begins [] := nofun

instance : ∀ text, Decidable (Begins text)
  | [] => isFalse not_begins_nil
  | _ :: _ => decidable_of_iff _ begins_cons.symm

theorem begins_reverse {text : Text} : Begins text.reverse ↔ Ends text := by
  constructor
  · rintro ⟨c, rest, eq, black⟩
    exact ⟨rest.reverse, c, by rw [← List.reverse_reverse text, eq, List.reverse_cons], black⟩
  · rintro ⟨front, c, rfl, black⟩
    exact ⟨c, front.reverse, by rw [List.reverse_append, List.reverse_singleton, List.singleton_append], black⟩

theorem Ends.append {text : Text} (ends : Ends text) (front : Text) : Ends (front ++ text) := by
  obtain ⟨inner, c, rfl, black⟩ := ends
  exact ⟨front ++ inner, c, (List.append_assoc ..).symm, black⟩

theorem Ends.suffix {text part : Text} (ends : Ends text) (suffix : part <:+ text) (nonempty : part ≠ []) :
    Ends part := by
  obtain ⟨front, c, rfl, black⟩ := ends
  obtain rfl | ⟨inner, rfl, -⟩ := List.suffix_concat_iff.mp suffix
  · exact absurd rfl nonempty
  · exact ⟨inner, c, rfl, black⟩

theorem Begins.append {text : Text} (begins : Begins text) (later : Text) : Begins (text ++ later) := by
  obtain ⟨c, rest, rfl, black⟩ := begins
  exact ⟨c, rest ++ later, rfl, black⟩

structure Trimmed (text : Text) : Prop where
  begins : Begins text
  ends : Ends text

theorem Trimmed.ne_nil {text : Text} (trimmed : Trimmed text) : text ≠ [] := by
  rintro rfl
  exact not_begins_nil trimmed.begins

/-! ### Stripping -/

theorem dropWhile_of_begins {text : Text} (begins : Begins text) : text.dropWhile isSpace = text := by
  obtain ⟨c, rest, rfl, black⟩ := begins
  rw [List.dropWhile_cons_of_neg (by simp [black])]

theorem dropWhile_of_blank {text : Text} (blank : Blank text) (later : Text) :
    (text ++ later).dropWhile isSpace = later.dropWhile isSpace :=
  List.dropWhile_append_of_pos blank

theorem exists_dropWhile (text : Text) : ∃ gap, Blank gap ∧ text = gap ++ text.dropWhile isSpace ∧
    (text.dropWhile isSpace = [] ∨ Begins (text.dropWhile isSpace)) := by
  refine ⟨text.takeWhile isSpace, fun c member => List.mem_takeWhile_imp member,
    List.takeWhile_append_dropWhile.symm, ?_⟩
  cases rest : text.dropWhile isSpace with
  | nil => exact Or.inl rfl
  | cons c rest' =>
      have black := List.head_dropWhile_not isSpace (l := text) (by simp [rest])
      simp only [rest, List.head_cons] at black
      exact Or.inr (begins_cons.mpr (by simpa using black))

theorem strip_append {before text after : Text} (blank : Blank before) (trimmed : Trimmed text) (blank' : Blank after) :
    (before ++ (text ++ after)).strip = text := by
  have reversed : Begins text.reverse := begins_reverse.mpr trimmed.ends
  have tail : (text ++ after).reverse.dropWhile isSpace = text.reverse := by
    rw [List.reverse_append, dropWhile_of_blank blank'.reverse, dropWhile_of_begins reversed]
  rw [strip, dropWhile_of_blank blank, dropWhile_of_begins (trimmed.begins.append after), tail, List.reverse_reverse]

theorem exists_strip_of_ends {text : Text} (ends : Ends text) :
    ∃ before, Blank before ∧ text = before ++ text.strip ∧ Trimmed text.strip := by
  obtain ⟨before, blank, whole, empty | begins⟩ := exists_dropWhile text
  · obtain ⟨front, c, eq, black⟩ := ends
    have space : isSpace c := by
      refine blank c ?_
      rw [empty, List.append_nil] at whole
      rw [← whole, eq]
      exact List.mem_append_right front (List.mem_singleton_self c)
    rw [space] at black
    cases black
  · have nonempty : text.dropWhile isSpace ≠ [] := fun none => not_begins_nil (none ▸ begins)
    have trimmed : Trimmed (text.dropWhile isSpace) := ⟨begins, ends.suffix (List.dropWhile_suffix _) nonempty⟩
    have same : text.strip = text.dropWhile isSpace := by
      have stripped := strip_append blank trimmed blank_nil
      rwa [List.append_nil, ← whole] at stripped
    rw [same]
    exact ⟨before, blank, whole, trimmed⟩

theorem strip_of_blank {text : Text} (blank : Blank text) : text.strip = [] := by
  have none : text.dropWhile isSpace = [] := List.dropWhile_eq_nil_iff.mpr blank
  rw [strip, none]
  rfl

/-- A text is what stripping leaves of it between white space. -/
theorem exists_strip (text : Text) : ∃ before after, Blank before ∧ Blank after ∧
    text = before ++ (text.strip ++ after) ∧ (text.strip = [] ∨ Trimmed text.strip) := by
  obtain ⟨gap, blank, reversed, empty | begins⟩ := exists_dropWhile text.reverse
  · have blank : Blank text := by
      rw [empty, List.append_nil] at reversed
      exact fun c member => blank c (reversed ▸ List.mem_reverse.mpr member)
    have none := strip_of_blank blank
    exact ⟨text, [], blank, blank_nil, by rw [none, List.nil_append, List.append_nil], Or.inl none⟩
  · generalize text.reverse.dropWhile isSpace = front at reversed begins
    have whole : text = front.reverse ++ gap.reverse := by
      rw [← List.reverse_append, ← reversed, List.reverse_reverse]
    obtain ⟨before, blank', inner, trimmed⟩ :=
      exists_strip_of_ends (begins_reverse.mp (by rwa [List.reverse_reverse]) : Ends front.reverse)
    have split : text = before ++ (strip front.reverse ++ gap.reverse) := by
      rw [← List.append_assoc, ← inner, whole]
    have same : text.strip = strip front.reverse := by
      rw [split]
      exact strip_append blank' trimmed blank.reverse
    rw [same]
    exact ⟨before, gap.reverse, blank', blank.reverse, split, Or.inr trimmed⟩

theorem strip_of_trimmed {text : Text} (trimmed : Trimmed text) : text.strip = text := by
  have same := strip_append blank_nil trimmed blank_nil
  rwa [List.nil_append, List.append_nil] at same

theorem length_strip_le (text : Text) : text.strip.length ≤ text.length := by
  obtain ⟨before, after, -, -, whole, -⟩ := exists_strip text
  have lengths := congrArg List.length whole
  simp only [List.length_append] at lengths
  omega

theorem length_strip_lt {text : Text} (nonempty : text ≠ []) (blank : ¬ Begins text) :
    text.strip.length < text.length := by
  obtain ⟨c, rest, rfl⟩ := List.exists_cons_of_ne_nil nonempty
  have space : isSpace c := by simpa [begins_cons] using blank
  have same : strip (c :: rest) = strip rest := by
    rw [strip, List.dropWhile_cons_of_pos space, strip]
  rw [same, List.length_cons]
  exact Nat.lt_succ_of_le (length_strip_le rest)

theorem infix_of_blank_append {part gap text : Text} (begins : Begins part) (blank : Blank gap)
    (inside : part <:+: gap ++ text) : part <:+: text := by
  obtain ⟨d, rest, rfl, black⟩ := begins
  induction gap with
  | nil => exact inside
  | cons c gap ih =>
      obtain ⟨space, blank⟩ := List.forall_mem_cons.mp blank
      obtain here | later := List.infix_cons_iff.mp inside
      · obtain ⟨rfl, -⟩ := List.cons_prefix_cons.mp here
        rw [space] at black
        cases black
      · exact ih blank later

theorem infix_of_append_blank {part gap text : Text} (ends : Ends part) (blank : Blank gap)
    (inside : part <:+: text ++ gap) : part <:+: text := by
  have reversed : part.reverse <:+: gap.reverse ++ text.reverse := by
    rw [← List.reverse_append]
    exact List.reverse_infix.mpr inside
  exact List.reverse_infix.mp (infix_of_blank_append (begins_reverse.mpr ends) blank.reverse reversed)

/-- What begins and ends with other characters is not touched where it stands in a text that is stripped. -/
theorem infix_strip {part text : Text} (trimmed : Trimmed part) : part <:+: text.strip ↔ part <:+: text := by
  obtain ⟨before, after, blank, blank', whole, -⟩ := exists_strip text
  constructor
  · intro inside
    rw [whole]
    exact List.infix_append_of_infix_right (List.infix_append_of_infix_left inside)
  · intro inside
    rw [whole] at inside
    exact infix_of_append_blank trimmed.ends blank' (infix_of_blank_append trimmed.begins blank inside)

/-! ## The words of a text -/

theorem wordsFrom_append (part a : Text) {c : Char} (space : isSpace c) (b : Text) :
    wordsFrom part (a ++ c :: b) = wordsFrom part a ++ words b := by
  induction a generalizing part with
  | nil =>
      rw [List.nil_append, wordsFrom, wordsFrom, if_pos space]
      split
      · rfl
      · rfl
  | cons d a ih =>
      rw [List.cons_append, wordsFrom, wordsFrom]
      split
      · split
        · exact ih []
        · rw [ih [], List.cons_append]
      · exact ih (d :: part)

theorem words_append (a : Text) {c : Char} (space : isSpace c) (b : Text) :
    words (a ++ c :: b) = words a ++ words b :=
  wordsFrom_append [] a space b

theorem words_blank_append {gap : Text} (blank : Blank gap) (text : Text) : words (gap ++ text) = words text := by
  induction gap with
  | nil => rfl
  | cons c gap ih =>
      obtain ⟨space, blank⟩ := List.forall_mem_cons.mp blank
      exact (words_append [] space (gap ++ text)).trans (ih blank)

theorem words_append_blank (text : Text) {gap : Text} (blank : Blank gap) : words (text ++ gap) = words text := by
  cases gap with
  | nil => rw [List.append_nil]
  | cons c gap =>
      obtain ⟨space, blank⟩ := List.forall_mem_cons.mp blank
      have none : words gap = [] := by
        have := words_blank_append blank []
        rwa [List.append_nil] at this
      rw [words_append text space gap, none, List.append_nil]

theorem words_strip (text : Text) : words text.strip = words text := by
  obtain ⟨before, after, blank, blank', whole, -⟩ := exists_strip text
  conv_rhs => rw [whole]
  rw [words_blank_append blank, words_append_blank _ blank']

end CuckooEcho.Lib.Text
