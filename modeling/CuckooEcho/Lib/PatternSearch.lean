import CuckooEcho.Lib.Pattern

namespace CuckooEcho.Lib.Pattern

/-! ## Matches -/

/-- One of the ways to match a prefix of the text leaves the rest. -/
def Matches (pattern : Pattern) (text rest : List Char) : Prop := ∃ group, (group, rest) ∈ pattern.runs text

variable {a b pattern : Pattern} {p : Char → Bool} {c : Char} {text mid rest : List Char}

theorem Matches.empty : Matches .empty text text := ⟨none, List.mem_singleton.mpr rfl⟩

theorem Matches.char (accepts : p c = true) : Matches (.char p) (c :: text) text :=
  ⟨none, by simp [runs, accepts]⟩

theorem Matches.seq (first : Matches a text mid) (second : Matches b mid rest) : Matches (.seq a b) text rest := by
  obtain ⟨g, here⟩ := first
  obtain ⟨h, there⟩ := second
  exact ⟨_, List.mem_flatMap.mpr ⟨(g, mid), here, List.mem_map.mpr ⟨(h, rest), there, rfl⟩⟩⟩

theorem Matches.skip (p : Char → Bool) (high : Option Nat) (text : List Char) :
    Matches (.many p 0 high) text text := by
  have stops : text ∈ manyRuns p 0 high text := by
    cases text with
    | nil => simp [manyRuns]
    | cons c text =>
        simp only [manyRuns, ↓reduceIte]
        split <;> simp
  exact ⟨none, List.mem_map_of_mem stops⟩

theorem Matches.letters (word : List Char) (text : List Char) :
    Matches (word.foldr (fun c rest => .seq (.char (sameLetter c)) rest) .empty) (word ++ text) text := by
  induction word with
  | nil => exact .empty
  | cons c word ih => exact .seq (.char (by simp [sameLetter])) ih

theorem Matches.literal (word : String) (text : List Char) : Matches (literal word) (word.toList ++ text) text :=
  .letters word.toList text

theorem search_isSome_of_matches (h : Matches pattern text rest) : (pattern.search text).isSome := by
  obtain ⟨group, here⟩ := h
  cases text with
  | nil =>
      rw [search, Option.isSome_map, List.isSome_head?]
      exact List.ne_nil_of_mem here
  | cons c text =>
      cases some : pattern.runs (c :: text) with
      | nil =>
          rw [some] at here
          cases here
      | cons found others => simp [search, some]

/-! ## Characters that no match starts with -/

/-- Whether a match can start with the character, as far as the first part of the pattern tells. -/
def mayStart : Pattern → Char → Bool
  | .empty, _ => true
  | .char p, c => p c
  | .many p low _, c => low = 0 || p c
  | .seq a _, c => a.mayStart c
  | .alt a b, c => a.mayStart c || b.mayStart c
  | .group a, c => a.mayStart c

theorem runs_of_not_mayStart (no : pattern.mayStart c = false) : pattern.runs (c :: text) = [] := by
  induction pattern with
  | empty => cases no
  | char p =>
      have refuses : p c = false := no
      simp [runs, refuses]
  | many p low high =>
      obtain ⟨positive, refuses⟩ := Bool.or_eq_false_iff.mp no
      have positive : low ≠ 0 := of_decide_eq_false positive
      simp [runs, manyRuns, positive, refuses]
  | seq a b first _ => simp [runs, first no]
  | alt a b first second =>
      obtain ⟨left, right⟩ := Bool.or_eq_false_iff.mp no
      simp [runs, first left, second right]
  | group a first => simp [runs, first no]

theorem search_append {front : List Char} (no : ∀ c ∈ front, pattern.mayStart c = false) (text : List Char) :
    pattern.search (front ++ text) = pattern.search text := by
  induction front with
  | nil => rfl
  | cons c front ih =>
      obtain ⟨here, later⟩ := List.forall_mem_cons.mp no
      rw [List.cons_append, search, runs_of_not_mayStart here]
      exact ih later

end CuckooEcho.Lib.Pattern
