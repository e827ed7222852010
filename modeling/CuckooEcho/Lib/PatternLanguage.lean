import CuckooEcho.Lib.PatternSearch

namespace CuckooEcho.Lib.Pattern

/-! ## The texts a pattern matches -/

def Lang : Pattern → List Char → Prop
  | .empty, u => u = []
  | .char p, u => ∃ c, p c = true ∧ u = [c]
  | .many p low high, u => low ≤ u.length ∧ (∀ n ∈ high, u.length ≤ n) ∧ ∀ c ∈ u, p c = true
  | .seq a b, u => ∃ v w, u = v ++ w ∧ a.Lang v ∧ b.Lang w
  | .alt a b, u => a.Lang u ∨ b.Lang u
  | .group a, u => a.Lang u

variable {a b pattern : Pattern} {p : Char → Bool} {low : Nat} {high : Option Nat} {c : Char}
  {text rest u v : List Char}

theorem lang_many_nil : (Pattern.many p low high).Lang [] ↔ low = 0 := by simp [Lang]

theorem lang_many_cons : (Pattern.many p low high).Lang (c :: u) ↔
    (p c = true ∧ high ≠ some 0) ∧ (Pattern.many p (low - 1) (high.map (· - 1))).Lang u := by
  simp only [Lang, List.length_cons, List.forall_mem_cons, Nat.sub_le_iff_le_add]
  cases high with
  | none => simp [and_left_comm]
  | some n =>
      simp only [Option.mem_some_iff, forall_eq', Option.map_some, ne_eq, Option.some.injEq]
      constructor
      · rintro ⟨long, short, accepts, all⟩
        exact ⟨⟨accepts, by omega⟩, long, by omega, all⟩
      · rintro ⟨⟨accepts, more⟩, long, short, all⟩
        exact ⟨long, by omega, accepts, all⟩

theorem mem_manyRuns_nil : rest ∈ manyRuns p low high [] ↔ rest = [] ∧ low = 0 := by
  rw [manyRuns]
  split <;> simp [*]

/-- The repetition goes on over the first character, or it stops before it. -/
theorem mem_manyRuns_cons : rest ∈ manyRuns p low high (c :: text) ↔
    ((p c = true ∧ high ≠ some 0) ∧ rest ∈ manyRuns p (low - 1) (high.map (· - 1)) text) ∨
      c :: text = rest ∧ low = 0 := by
  have stops : rest ∈ (if low = 0 then [c :: text] else []) ↔ c :: text = rest ∧ low = 0 := by
    split <;> simp [*, eq_comm]
  rw [manyRuns, ← stops]
  split
  · next goes => rw [List.mem_append, and_iff_right goes]
  · next ends => rw [iff_false_intro ends, false_and, false_or]

theorem mem_manyRuns : rest ∈ manyRuns p low high text ↔
    ∃ u, text = u ++ rest ∧ (Pattern.many p low high).Lang u := by
  induction text generalizing low high with
  | nil =>
      rw [mem_manyRuns_nil]
      constructor
      · rintro ⟨rfl, zero⟩
        exact ⟨[], rfl, lang_many_nil.mpr zero⟩
      · rintro ⟨u, split, fits⟩
        obtain ⟨rfl, rfl⟩ := List.nil_eq_append_iff.mp split
        exact ⟨rfl, lang_many_nil.mp fits⟩
  | cons c text ih =>
      rw [mem_manyRuns_cons, ih]
      constructor
      · rintro (⟨goes, u, split, fits⟩ | ⟨rfl, zero⟩)
        · exact ⟨c :: u, congrArg (c :: ·) split, lang_many_cons.mpr ⟨goes, fits⟩⟩
        · exact ⟨[], rfl, lang_many_nil.mpr zero⟩
      · rintro ⟨u, split, fits⟩
        cases u with
        | nil => exact .inr ⟨split, lang_many_nil.mp fits⟩
        | cons d u =>
            obtain ⟨rfl, later⟩ := List.cons.inj split
            obtain ⟨goes, fits⟩ := lang_many_cons.mp fits
            exact .inl ⟨goes, u, later, fits⟩

/-! ## Matches, one kind of pattern at a time -/

theorem matches_empty : Matches .empty text rest ↔ text = rest := by
  constructor
  · rintro ⟨group, here⟩
    exact (Prod.mk.inj (List.mem_singleton.mp here)).2.symm
  · rintro rfl
    exact .empty

theorem matches_char : Matches (.char p) text rest ↔ ∃ c, p c = true ∧ text = c :: rest := by
  constructor
  · rintro ⟨group, here⟩
    cases text with
    | nil => cases here
    | cons c text =>
        rw [runs] at here
        split at here
        · next accepts =>
            obtain ⟨-, rfl⟩ := Prod.mk.inj (List.mem_singleton.mp here)
            exact ⟨c, accepts, rfl⟩
        · cases here
  · rintro ⟨c, accepts, rfl⟩
    exact .char accepts

theorem matches_many : Matches (.many p low high) text rest ↔ rest ∈ manyRuns p low high text := by
  constructor
  · rintro ⟨group, here⟩
    obtain ⟨left, there, same⟩ := List.mem_map.mp here
    obtain ⟨-, rfl⟩ := Prod.mk.inj same
    exact there
  · intro here
    exact ⟨none, List.mem_map_of_mem here⟩

theorem matches_seq : Matches (.seq a b) text rest ↔ ∃ mid, Matches a text mid ∧ Matches b mid rest := by
  constructor
  · rintro ⟨group, here⟩
    obtain ⟨first, before, here⟩ := List.mem_flatMap.mp here
    obtain ⟨second, after, same⟩ := List.mem_map.mp here
    obtain ⟨-, rfl⟩ := Prod.mk.inj same
    exact ⟨first.2, ⟨first.1, before⟩, second.1, after⟩
  · rintro ⟨mid, first, second⟩
    exact first.seq second

theorem matches_alt : Matches (.alt a b) text rest ↔ Matches a text rest ∨ Matches b text rest := by
  simp only [Matches, runs, List.mem_append, exists_or]

theorem matches_group : Matches (.group a) text rest ↔ Matches a text rest := by
  simp [Matches, runs]

theorem matches_iff : Matches pattern text rest ↔ ∃ u, text = u ++ rest ∧ pattern.Lang u := by
  induction pattern generalizing text rest with
  | empty => simp [matches_empty, Lang]
  | char p =>
      rw [matches_char]
      constructor
      · rintro ⟨c, accepts, rfl⟩
        exact ⟨[c], rfl, c, accepts, rfl⟩
      · rintro ⟨u, rfl, c, accepts, rfl⟩
        exact ⟨c, accepts, rfl⟩
  | many p low high => rw [matches_many, mem_manyRuns]
  | seq a b first second =>
      rw [matches_seq]
      constructor
      · rintro ⟨mid, here, there⟩
        obtain ⟨v, rfl, left⟩ := first.mp here
        obtain ⟨w, rfl, right⟩ := second.mp there
        exact ⟨v ++ w, (List.append_assoc ..).symm, v, w, rfl, left, right⟩
      · rintro ⟨u, rfl, v, w, rfl, left, right⟩
        exact ⟨w ++ rest, first.mpr ⟨v, List.append_assoc .., left⟩, second.mpr ⟨w, rfl, right⟩⟩
  | alt a b first second =>
      rw [matches_alt, first, second]
      simp only [Lang, and_or_left, exists_or]
  | group a first =>
      rw [matches_group, first]
      rfl

/-! ## Matches out of a set of characters -/

/-- Whether each part of the pattern that has to match something accepts one of the characters. -/
def madeOf (set : List Char) : Pattern → Bool
  | .empty => true
  | .char p => set.any p
  | .many p low _ => low = 0 || set.any p
  | .seq a b => a.madeOf set && b.madeOf set
  | .alt a b => a.madeOf set || b.madeOf set
  | .group a => a.madeOf set

theorem madeOf_of_lang {set : List Char} (all : ∀ c ∈ u, c ∈ set) (matched : pattern.Lang u) :
    pattern.madeOf set = true := by
  induction pattern generalizing u with
  | empty => rfl
  | char p =>
      obtain ⟨c, accepts, rfl⟩ := matched
      exact List.any_eq_true.mpr ⟨c, all c List.mem_cons_self, accepts⟩
  | many p low high =>
      apply Bool.or_eq_true_iff.mpr
      cases u with
      | nil => exact .inl (decide_eq_true (lang_many_nil.mp matched))
      | cons c u =>
          have accepts : p c = true := matched.2.2 c List.mem_cons_self
          exact .inr (List.any_eq_true.mpr ⟨c, all c List.mem_cons_self, accepts⟩)
  | seq a b first second =>
      obtain ⟨v, w, rfl, left, right⟩ := matched
      obtain ⟨before, after⟩ := List.forall_mem_append.mp all
      exact Bool.and_eq_true_iff.mpr ⟨first before left, second after right⟩
  | alt a b first second => exact Bool.or_eq_true_iff.mpr (matched.imp (first all) (second all))
  | group a first => exact first all matched

theorem ne_nil_of_lang (always : pattern.madeOf [] = false) (matched : pattern.Lang u) : u ≠ [] := by
  rintro rfl
  rw [madeOf_of_lang (fun c here => here) matched] at always
  cases always

/-! ## Characters that no match has -/

def avoids (pattern : Pattern) (c : Char) : Bool :=
  match pattern with
  | .empty => true
  | .char p | .many p _ _ => !p c
  | .seq a b | .alt a b => a.avoids c && b.avoids c
  | .group a => a.avoids c

theorem not_mem_of_avoids (avoids : pattern.avoids c = true) (matched : pattern.Lang u) : c ∉ u := by
  induction pattern generalizing u with
  | empty =>
      rw [show u = [] from matched]
      exact List.not_mem_nil
  | char p =>
      obtain ⟨d, accepts, rfl⟩ := matched
      intro here
      rw [List.mem_singleton.mp here, Pattern.avoids, accepts] at avoids
      cases avoids
  | many p low high =>
      intro here
      rw [Pattern.avoids, matched.2.2 c here] at avoids
      cases avoids
  | seq a b first second =>
      obtain ⟨left, right⟩ := Bool.and_eq_true_iff.mp avoids
      obtain ⟨v, w, rfl, before, after⟩ := matched
      exact List.not_mem_append (first left before) (second right after)
  | alt a b first second =>
      obtain ⟨left, right⟩ := Bool.and_eq_true_iff.mp avoids
      exact matched.elim (first left) (second right)
  | group a first => exact first avoids matched

/-! ## Repetitions at an end -/

/-- A character in front of a match that starts with a repetition without a bound makes another match. -/
theorem Lang.extend (accepts : p c = true) (matched : (Pattern.seq (.many p low none) b).Lang u) :
    (Pattern.seq (.many p low none) b).Lang (c :: u) := by
  obtain ⟨v, w, rfl, ⟨long, -, all⟩, after⟩ := matched
  have longer : (Pattern.many p low none).Lang (c :: v) :=
    ⟨Nat.le_succ_of_le long, fun n none => (Option.not_mem_none n none).elim,
      List.forall_mem_cons.mpr ⟨accepts, all⟩⟩
  exact ⟨c :: v, w, rfl, longer, after⟩

/-- The first way to match leaves a text that does not go on with such a character. -/
def Stops (p : Char → Bool) (pattern : Pattern) : Prop :=
  ∀ text, ∀ found ∈ (pattern.runs text).head?, found.2.head?.any p = false

theorem manyRuns_ne_nil (text : List Char) : manyRuns p 0 high text ≠ [] := by
  apply List.ne_nil_of_mem
  apply mem_manyRuns.mpr
  exact ⟨[], rfl, lang_many_nil.mpr rfl⟩

theorem manyRuns_head_stops (text : List Char) :
    ∀ rest ∈ (manyRuns p low none text).head?, rest.head?.any p = false := by
  induction text generalizing low with
  | nil =>
      intro rest first
      rw [manyRuns] at first
      split at first
      · obtain rfl := Option.mem_some_iff.mp first
        rfl
      · cases first
  | cons c text ih =>
      intro rest first
      rw [manyRuns] at first
      by_cases accepts : p c = true
      · -- Where the repetition may stop here, it can also go on, and that comes first
        rw [if_pos ⟨accepts, Option.some_ne_none 0 |>.symm⟩, Option.map_none, List.head?_append] at first
        cases longer : (manyRuns p (low - 1) none text).head? with
        | some found =>
            rw [longer] at first
            obtain rfl := Option.mem_some_iff.mp first
            exact ih found longer
        | none =>
            by_cases zero : low = 0
            · rw [zero] at longer
              exact absurd (List.head?_eq_none_iff.mp longer) (manyRuns_ne_nil text)
            · rw [longer, if_neg zero] at first
              cases first
      · rw [if_neg fun goes => accepts goes.1] at first
        split at first
        · obtain rfl := Option.mem_some_iff.mp first
          exact Bool.eq_false_iff.mpr accepts
        · cases first

theorem Stops.many : Stops p (.many p low none) := by
  intro text found first
  rw [runs, List.head?_map] at first
  obtain ⟨rest, longest, rfl⟩ := Option.map_eq_some_iff.mp first
  exact manyRuns_head_stops text rest longest

theorem Stops.seq (stops : Stops p b) : Stops p (.seq a b) := by
  intro text found first
  rw [runs, List.head?_flatMap] at first
  obtain ⟨start, -, here⟩ := List.exists_of_findSome?_eq_some first
  rw [List.head?_map] at here
  obtain ⟨second, last, rfl⟩ := Option.map_eq_some_iff.mp here
  exact stops start.2 second last

theorem Stops.last (stops : Stops p a) : Stops p (.seq a .empty) := by
  intro text found first
  have only : (Pattern.seq a .empty).runs text = (a.runs text).map fun first => (first.1, first.2) := by
    rw [runs, List.map_eq_flatMap]
    rfl
  rw [only, List.head?_map] at first
  obtain ⟨last, longest, rfl⟩ := Option.map_eq_some_iff.mp first
  exact stops text last longest

end CuckooEcho.Lib.Pattern
