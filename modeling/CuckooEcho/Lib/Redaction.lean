import CuckooEcho.Lib.PatternLanguage

namespace CuckooEcho.Lib

/-! ## Patterns between word boundaries -/

/-- A pattern with `\b` in front of it and behind it, where the flags say so. -/
structure Bounded where
  before : Bool
  body : Pattern
  after : Bool
  nonempty : body.madeOf [] = false := by rfl

def boundary (word : Char → Bool) (left right : Option Char) : Bool := left.any word != right.any word

/-- What was matched, where `rest` is left of the text. -/
def consumed (text rest : List Char) : List Char := text.take (text.length - rest.length)

inductive Piece
  | kept (c : Char)
  | found (u : List Char)

def Piece.render (replacement : List Char) : Piece → List Char
  | .kept c => [c]
  | .found _ => replacement

structure Span where
  value : List Char
  start : Nat
  stop : Nat
  deriving DecidableEq

def spans : Nat → List Piece → List Span
  | _, [] => []
  | position, .kept _ :: pieces => spans (position + 1) pieces
  | position, .found u :: pieces => ⟨u, position, position + u.length⟩ :: spans (position + u.length) pieces

namespace Bounded

variable (word : Char → Bool) (P : Bounded)

/-- The ways to match at the start of the text, each with the text left. -/
def candidates (text : List Char) : List (List Char × List Char) :=
  (P.body.runs text).map fun found => (consumed text found.2, found.2)

def matchAt (prev : Option Char) (text : List Char) : Option (List Char) :=
  if !P.before || boundary word prev text.head? then
    ((P.candidates text).find? fun found => !P.after || boundary word found.1.getLast? found.2.head?).map (·.1)
  else none

/-- The text from left to right: where there is a match, the search goes on behind it. -/
def scan : Option Char → Nat → List Char → List Piece
  | _, _, [] => []
  | _, skip + 1, c :: text => scan (some c) skip text
  | prev, 0, c :: text =>
      match P.matchAt word prev (c :: text) with
      | some u => .found u :: scan (some c) (u.length - 1) text
      | none => .kept c :: scan (some c) 0 text

def finditer (text : List Char) : List Span := spans 0 (P.scan word none 0 text)

def sub (replacement text : List Char) : List Char := (P.scan word none 0 text).flatMap (Piece.render replacement)

def search (text : List Char) : Option Span := (P.finditer word text).head?

/-! ## What a match is -/

structure Fits (prev : Option Char) (u rest : List Char) : Prop where
  matched : P.body.Lang u
  before : P.before = true → boundary word prev u.head? = true
  after : P.after = true → boundary word u.getLast? rest.head? = true

variable {word P} {prev : Option Char} {c w : Char} {text rest u v : List Char} {pieces : List Piece}

theorem Fits.ne_nil (fits : P.Fits word prev u rest) : u ≠ [] := Pattern.ne_nil_of_lang P.nonempty fits.matched

theorem consumed_append (u rest : List Char) : consumed (u ++ rest) rest = u := by
  rw [consumed, List.length_append, Nat.add_sub_cancel, List.take_left]

theorem mem_candidates : (u, rest) ∈ P.candidates text ↔ text = u ++ rest ∧ P.body.Lang u := by
  constructor
  · intro here
    obtain ⟨⟨group, left⟩, run, same⟩ := List.mem_map.mp here
    obtain ⟨v, rfl, matched⟩ := Pattern.matches_iff.mp ⟨group, run⟩
    obtain ⟨rfl, rfl⟩ := Prod.mk.inj same
    rw [consumed_append]
    exact ⟨rfl, matched⟩
  · rintro ⟨rfl, matched⟩
    obtain ⟨group, run⟩ := Pattern.matches_iff.mpr ⟨u, rfl, matched⟩
    exact List.mem_map.mpr ⟨(group, rest), run, by rw [consumed_append]⟩

theorem flag_iff {flag b : Bool} : (!flag || b) = true ↔ (flag = true → b = true) := by
  cases flag <;> simp

theorem fits_of_matchAt (found : P.matchAt word prev text = some u) :
    ∃ rest, text = u ++ rest ∧ P.Fits word prev u rest := by
  rw [matchAt] at found
  split at found
  · next starts =>
      obtain ⟨⟨v, rest⟩, first, rfl⟩ := Option.map_eq_some_iff.mp found
      obtain ⟨rfl, matched⟩ := mem_candidates.mp (List.mem_of_find?_eq_some first)
      have ends := List.find?_some first
      have nonempty := Pattern.ne_nil_of_lang P.nonempty matched
      rw [List.head?_append_of_ne_nil _ nonempty] at starts
      exact ⟨rest, rfl, matched, flag_iff.mp starts, flag_iff.mp ends⟩
  · cases found

theorem matchAt_of_fits (fits : P.Fits word prev u rest) : P.matchAt word prev (u ++ rest) ≠ none := by
  intro none
  have starts : (!P.before || boundary word prev (u ++ rest).head?) = true := by
    rw [List.head?_append_of_ne_nil _ fits.ne_nil]
    exact flag_iff.mpr fits.before
  rw [matchAt, if_pos starts, Option.map_eq_none_iff, List.find?_eq_none] at none
  exact none (u, rest) (mem_candidates.mpr ⟨rfl, fits.matched⟩) (flag_iff.mpr fits.after)

theorem matchAt_eq_none (no : ∀ u rest, text = u ++ rest → ¬ P.Fits word prev u rest) :
    P.matchAt word prev text = none := by
  cases found : P.matchAt word prev text with
  | none => rfl
  | some u =>
      obtain ⟨rest, split, fits⟩ := fits_of_matchAt found
      exact absurd fits (no u rest split)

/-! ## Pieces of a scanned text -/

variable (word P) in
inductive Scanned : Option Char → List Char → List Piece → Prop
  | done (prev : Option Char) : Scanned prev [] []
  | kept {prev : Option Char} {c : Char} {text : List Char} {pieces : List Piece} :
      P.matchAt word prev (c :: text) = none → Scanned (some c) text pieces →
        Scanned prev (c :: text) (.kept c :: pieces)
  | found {prev : Option Char} {u rest : List Char} {pieces : List Piece} :
      P.matchAt word prev (u ++ rest) = some u → Scanned u.getLast? rest pieces →
        Scanned prev (u ++ rest) (.found u :: pieces)

theorem getLast?_cons_or (c : Char) (u : List Char) : (c :: u).getLast? = u.getLast?.or (some c) := by
  rw [List.getLast?_cons]
  cases u.getLast? <;> rfl

theorem scan_skip (front : List Char) :
    P.scan word prev front.length (front ++ text) = P.scan word (front.getLast?.or prev) 0 text := by
  induction front generalizing prev with
  | nil => rfl
  | cons c front ih =>
      rw [List.length_cons, List.cons_append, scan, ih, getLast?_cons_or, Option.or_assoc]
      rfl

theorem scanned_scan (prev : Option Char) (text : List Char) : P.Scanned word prev text (P.scan word prev 0 text) := by
  induction size : text.length using Nat.strongRecOn generalizing prev text with
  | ind n ih =>
      subst size
      cases text with
      | nil => exact .done prev
      | cons c text =>
          rw [scan]
          cases here : P.matchAt word prev (c :: text) with
          | none => exact .kept here (ih _ (Nat.lt_succ_self _) (some c) text rfl)
          | some u =>
              obtain ⟨rest, split, fits⟩ := fits_of_matchAt here
              cases u with
              | nil => exact absurd rfl fits.ne_nil
              | cons d u =>
                  obtain ⟨rfl, rfl⟩ := List.cons.inj split
                  have shorter : rest.length < (c :: (u ++ rest)).length := by
                    rw [List.length_cons, List.length_append]
                    omega
                  have later := ih _ shorter (c :: u).getLast? rest rfl
                  rw [getLast?_cons_or, ← scan_skip] at later
                  rw [← getLast?_cons_or] at later
                  exact .found here later

theorem lang_of_scanned (scanned : P.Scanned word prev text pieces) (here : .found u ∈ pieces) : P.body.Lang u := by
  induction scanned with
  | done => cases here
  | kept unmatched scanned ih =>
      rcases List.mem_cons.mp here with same | later
      · cases same
      · exact ih later
  | found matched scanned ih =>
      rcases List.mem_cons.mp here with same | later
      · cases same
        obtain ⟨rest, -, fits⟩ := fits_of_matchAt matched
        exact fits.matched
      · exact ih later

theorem found_mem_of_spans {position : Nat} {span : Span} (here : span ∈ spans position pieces) :
    .found span.value ∈ pieces := by
  induction pieces generalizing position with
  | nil => cases here
  | cons piece pieces ih =>
      cases piece with
      | kept c => exact List.mem_cons_of_mem _ (ih here)
      | found u =>
          rcases List.mem_cons.mp here with rfl | later
          · exact List.mem_cons_self
          · exact List.mem_cons_of_mem _ (ih later)

theorem lang_of_search {span : Span} (found : P.search word text = some span) : P.body.Lang span.value :=
  lang_of_scanned (scanned_scan none text) (found_mem_of_spans (List.mem_of_head? found))

/-! ## Texts without a match -/

variable (word P) in
inductive Clean : Option Char → List Char → Prop
  | nil (prev : Option Char) : Clean prev []
  | cons {prev : Option Char} {c : Char} {text : List Char} : P.matchAt word prev (c :: text) = none →
      Clean (some c) text → Clean prev (c :: text)

theorem Clean.append {front : List Char} (clean : P.Clean word prev (front ++ text)) :
    P.Clean word (front.getLast?.or prev) text := by
  induction front generalizing prev with
  | nil => exact clean
  | cons c front ih =>
      cases clean with
      | cons here later =>
          rw [getLast?_cons_or, Option.or_assoc]
          exact ih later

theorem scan_of_clean (clean : P.Clean word prev text) : P.scan word prev 0 text = text.map .kept := by
  induction clean with
  | nil => rfl
  | @cons prev c text here later ih =>
      rw [scan, here]
      exact congrArg (Piece.kept c :: ·) ih

theorem spans_kept (position : Nat) (text : List Char) : spans position (text.map .kept) = [] := by
  induction text generalizing position with
  | nil => rfl
  | cons c text ih => exact ih (position + 1)

theorem finditer_of_clean (clean : P.Clean word none text) : P.finditer word text = [] := by
  rw [finditer, scan_of_clean clean, spans_kept]

theorem sub_of_clean (clean : P.Clean word none text) (replacement : List Char) :
    P.sub word replacement text = text := by
  rw [sub, scan_of_clean clean, List.flatMap_map]
  exact List.flatMap_singleton' text

/-! ## Replacements in brackets -/

/-- What keeps a replacement in brackets from making new matches at its two sides. -/
structure Replaceable (word : Char → Bool) (P : Bounded) : Prop where
  plain : (['[', ']'].all P.body.avoids) = true
  /-- A match that ends with a word character ends with a word. -/
  closes : ∀ {prev u rest}, P.matchAt word prev (u ++ rest) = some u → u.getLast?.any word = true →
    rest.head?.any word = false
  /-- A match behind a word character that is in no match does not go on with the word. -/
  opens : ∀ {w prev u text}, P.matchAt word prev (w :: text) = none → P.matchAt word (some w) text = some u →
    word w = true → u.head?.any word = false

def bracketed (inner : List Char) : List Char := '[' :: (inner ++ [']'])

variable {Q : Bounded} {inner : List Char}

theorem Fits.not_mem (plain : P.Replaceable word) (fits : P.Fits word prev u rest) (here : c ∈ u) :
    c ∉ ['[', ']'] :=
  fun bracket => Pattern.not_mem_of_avoids (List.all_eq_true.mp plain.plain c bracket) fits.matched here

theorem matchAt_bracket (plain : P.Replaceable word) (bracket : c ∈ ['[', ']']) (prev : Option Char)
    (text : List Char) : P.matchAt word prev (c :: text) = none := by
  apply matchAt_eq_none
  intro u rest split fits
  cases u with
  | nil => exact fits.ne_nil rfl
  | cons d u =>
      obtain ⟨rfl, -⟩ := List.cons.inj split
      exact fits.not_mem plain List.mem_cons_self bracket

theorem matchAt_inner (plain : P.Replaceable word) (quiet : P.body.madeOf inner = false) {front : List Char}
    (within : ∀ c ∈ front, c ∈ inner) (prev : Option Char) (text : List Char) :
    P.matchAt word prev (front ++ ']' :: text) = none := by
  apply matchAt_eq_none
  intro u rest split fits
  have all : ∀ c ∈ u, c ∈ inner := by
    intro c here
    apply within c
    rcases List.append_eq_append_iff.mp split with ⟨more, rfl, after⟩ | ⟨more, rfl, -⟩
    · cases more with
      | nil => rwa [List.append_nil] at here
      | cons d more =>
          obtain ⟨rfl, -⟩ := List.cons.inj after
          have inMatch := List.mem_append_right front (List.mem_cons_self (a := ']') (l := more))
          exact absurd (List.mem_cons_of_mem _ List.mem_cons_self) (fits.not_mem plain inMatch)
    · exact List.mem_append_left more here
  rw [Pattern.madeOf_of_lang all fits.matched] at quiet
  cases quiet

theorem clean_inner (plain : P.Replaceable word) (quiet : P.body.madeOf inner = false) {front : List Char}
    (within : ∀ c ∈ front, c ∈ inner) (after : P.Clean word (some ']') text) (prev : Option Char) :
    P.Clean word prev (front ++ ']' :: text) := by
  induction front generalizing prev with
  | nil => exact .cons (matchAt_bracket plain (by simp) prev text) after
  | cons c front ih =>
      have later := ih (List.forall_mem_cons.mp within).2 (some c)
      exact .cons (matchAt_inner plain quiet within prev text) later

theorem clean_bracketed (plain : P.Replaceable word) (quiet : P.body.madeOf inner = false)
    (after : P.Clean word (some ']') text) (prev : Option Char) : P.Clean word prev (bracketed inner ++ text) := by
  rw [bracketed, List.cons_append, List.append_assoc]
  have later := clean_inner plain quiet (fun c here => here) after (some '[')
  exact .cons (matchAt_bracket plain (by simp) prev _) later

variable (opening : word '[' = false) (closing : word ']' = false)

theorem boundary_nonword {left : Option Char} (nonword : word c = false) :
    boundary word left (some c) = left.any word := by
  rw [boundary, Option.any_some, nonword, Bool.bne_false]

include opening in
/-- A match between replaced texts was between the same boundaries before. -/
theorem exists_original (plain : P.Replaceable word) (scanned : P.Scanned word (some w) text pieces)
    (kept : P.matchAt word prev (w :: text) = none) (free : ∀ c ∈ u, c ∉ ['[', ']'])
    (split : pieces.flatMap (Piece.render (bracketed inner)) = u ++ rest) :
    ∃ more, text = u ++ more ∧ (boundary word (u.getLast?.or (some w)) rest.head? = true →
      boundary word (u.getLast?.or (some w)) more.head? = true) := by
  induction u generalizing w prev text pieces with
  | nil =>
      refine ⟨text, rfl, ?_⟩
      rw [← List.nil_append rest, ← split]
      cases scanned with
      | done => exact id
      | kept => exact id
      | @found _ v rest pieces here later =>
          intro ends
          have inWord : word w = true := (boundary_nonword opening).symm.trans ends
          have stops := plain.opens kept here inWord
          obtain ⟨more, same, fits⟩ := fits_of_matchAt here
          rw [List.head?_append_of_ne_nil _ fits.ne_nil, boundary, stops]
          exact (Bool.bne_false _).trans inWord
  | cons d u ih =>
      obtain ⟨here, later⟩ := List.forall_mem_cons.mp free
      cases scanned with
      | done => cases split
      | kept unmatched scanned =>
          obtain ⟨rfl, apart⟩ := List.cons.inj split
          obtain ⟨more, rfl, ends⟩ := ih scanned unmatched later apart
          refine ⟨more, rfl, ?_⟩
          rw [getLast?_cons_or, Option.or_assoc]
          exact ends
      | found matched scanned =>
          obtain ⟨rfl, -⟩ := List.cons.inj split
          exact absurd List.mem_cons_self here

include opening in
/-- Where there was no match at a character that is kept, there is none after the replacements. -/
theorem matchAt_render (plain : P.Replaceable word) (other : Q.Replaceable word)
    (unmatched : P.matchAt word prev (c :: text) = none) (scanned : P.Scanned word (some c) text pieces)
    (clean : Q.matchAt word prev (c :: text) = none) {before : Option Char}
    (starts : boundary word before (some c) = true → boundary word prev (some c) = true) :
    Q.matchAt word before (c :: pieces.flatMap (Piece.render (bracketed inner))) = none := by
  apply matchAt_eq_none
  intro u rest split fits
  cases u with
  | nil => exact fits.ne_nil rfl
  | cons d u =>
      obtain ⟨rfl, apart⟩ := List.cons.inj split
      have free : ∀ d ∈ u, d ∉ ['[', ']'] := fun d here => fits.not_mem other (List.mem_cons_of_mem _ here)
      obtain ⟨more, rfl, ends⟩ := exists_original opening plain scanned unmatched free apart
      rw [← getLast?_cons_or] at ends
      have fitted : Q.Fits word prev (c :: u) more :=
        ⟨fits.matched, fun flag => starts (fits.before flag), fun flag => ends (fits.after flag)⟩
      exact matchAt_of_fits fitted clean

include closing in
/-- A word that begins behind a replacement began behind the match. -/
theorem boundary_of_found (plain : P.Replaceable word) (matched : P.matchAt word prev (u ++ rest) = some u)
    (starts : boundary word (some ']') rest.head? = true) : boundary word u.getLast? rest.head? = true := by
  have begins : rest.head?.any word = true := by
    rw [boundary, Option.any_some, closing, Bool.false_bne] at starts
    exact starts
  cases ends : u.getLast?.any word with
  | true =>
      rw [plain.closes matched ends] at begins
      cases begins
  | false =>
      rw [boundary, ends, begins]
      rfl

theorem Clean.behind_found (clean : Q.Clean word prev (u ++ rest))
    (matched : P.matchAt word prev (u ++ rest) = some u) : Q.Clean word u.getLast? rest := by
  obtain ⟨more, -, fits⟩ := fits_of_matchAt matched
  have later := clean.append
  cases u with
  | nil => exact absurd rfl fits.ne_nil
  | cons c u =>
      rw [getLast?_cons_or, Option.or_assoc] at later
      rw [getLast?_cons_or]
      exact later

include opening closing in
theorem clean_render (plain : P.Replaceable word) (other : Q.Replaceable word) (quiet : Q.body.madeOf inner = false)
    (scanned : P.Scanned word prev text pieces) (clean : Q = P ∨ Q.Clean word prev text) {before : Option Char}
    (starts : boundary word before text.head? = true → boundary word prev text.head? = true) :
    Q.Clean word before (pieces.flatMap (Piece.render (bracketed inner))) := by
  induction scanned generalizing before with
  | done => exact .nil before
  | @kept prev c text pieces unmatched scanned ih =>
      have first : Q.matchAt word prev (c :: text) = none := by
        rcases clean with rfl | (_ | ⟨here, -⟩)
        · exact unmatched
        · exact here
      have later : Q = P ∨ Q.Clean word (some c) text := by
        apply clean.imp_right
        rintro (_ | ⟨-, later⟩)
        exact later
      exact .cons (matchAt_render opening plain other unmatched scanned first starts) (ih later id)
  | found matched scanned ih =>
      apply clean_bracketed other quiet
      apply ih
      · exact clean.imp_right fun clean => clean.behind_found matched
      · exact boundary_of_found closing plain matched

include opening closing in
theorem clean_sub (plain : P.Replaceable word) (other : Q.Replaceable word) (quiet : Q.body.madeOf inner = false)
    (clean : Q = P ∨ Q.Clean word none text) : Q.Clean word none (P.sub word (bracketed inner) text) :=
  clean_render opening closing plain other quiet (scanned_scan none text) clean id

/-! ## Patterns that are replaceable -/

theorem closes_of_after (after : P.after = true) (found : P.matchAt word prev (u ++ rest) = some u)
    (ends : u.getLast?.any word = true) : rest.head?.any word = false := by
  obtain ⟨more, same, fits⟩ := fits_of_matchAt found
  obtain rfl := List.append_cancel_left same
  have apart := fits.after after
  rw [boundary, ends, Bool.true_bne] at apart
  exact (Bool.not_eq_true' _).mp apart

theorem closes_of_stops (free : P.after = false) (stops : P.body.Stops word)
    (found : P.matchAt word prev (u ++ rest) = some u) : rest.head?.any word = false := by
  rw [matchAt] at found
  split at found
  · obtain ⟨⟨v, left⟩, first, rfl⟩ := Option.map_eq_some_iff.mp found
    obtain ⟨same, -⟩ := mem_candidates.mp (List.mem_of_find?_eq_some first)
    obtain rfl := List.append_cancel_left same
    have anything : (fun found : List Char × List Char => !P.after || boundary word found.1.getLast? found.2.head?) =
        fun _ => true := by
      rw [free]
      rfl
    rw [anything, ← List.head?_filter, List.filter_true, candidates, List.head?_map] at first
    obtain ⟨run, longest, same⟩ := Option.map_eq_some_iff.mp first
    obtain ⟨-, rfl⟩ := Prod.mk.inj same
    exact stops _ run longest
  · cases found

theorem opens_of_before (before : P.before = true) (found : P.matchAt word (some w) text = some u)
    (inWord : word w = true) : u.head?.any word = false := by
  obtain ⟨rest, rfl, fits⟩ := fits_of_matchAt found
  have apart := fits.before before
  rw [boundary, Option.any_some, inWord, Bool.true_bne] at apart
  exact (Bool.not_eq_true' _).mp apart

theorem matchAt_of_extends (free : P.before = false) (extends' : ∀ u, P.body.Lang u → P.body.Lang (w :: u))
    (unmatched : P.matchAt word prev (w :: text) = none) : P.matchAt word (some w) text = none := by
  apply matchAt_eq_none
  rintro u rest rfl fits
  have longer : P.Fits word prev (w :: u) rest := by
    refine ⟨extends' u fits.matched, fun before => ?_, fun after => ?_⟩
    · rw [free] at before
      cases before
    · rw [List.getLast?_cons_of_ne_nil fits.ne_nil]
      exact fits.after after
  exact matchAt_of_fits longer unmatched

theorem replaceable_of_boundaries (before : P.before = true) (after : P.after = true)
    (plain : (['[', ']'].all P.body.avoids) = true) : P.Replaceable word where
  plain := plain
  closes := closes_of_after after
  opens := fun _ => opens_of_before before

end Bounded

/-! ## One replacement after another -/

structure Rule where
  pattern : Bounded
  replacement : List Char

def redact (word : Char → Bool) (rules : List Rule) (text : List Char) : List Char :=
  rules.foldl (fun text rule => rule.pattern.sub word rule.replacement text) text

/-- The replacements are in brackets, with characters that are not enough for any pattern of the list. -/
structure Separated (word : Char → Bool) (rules : List Rule) : Prop where
  opening : word '[' = false
  closing : word ']' = false
  replaceable : ∀ rule ∈ rules, rule.pattern.Replaceable word
  quiet : ∀ rule ∈ rules, ∃ inner, rule.replacement = Bounded.bracketed inner ∧
    ∀ other ∈ rules, other.pattern.body.madeOf inner = false

section
variable {word : Char → Bool} {rules : List Rule} {text : List Char}

theorem redact_of_clean (clean : ∀ rule ∈ rules, rule.pattern.Clean word none text) :
    redact word rules text = text := by
  induction rules with
  | nil => rfl
  | cons rule rules ih =>
      obtain ⟨here, later⟩ := List.forall_mem_cons.mp clean
      rw [redact, List.foldl_cons, Bounded.sub_of_clean here]
      exact ih later

variable (separated : Separated word rules)
include separated

theorem clean_foldl (done later : List Rule) (all : ∀ rule ∈ done ++ later, rule ∈ rules)
    (clean : ∀ rule ∈ done, rule.pattern.Clean word none text) :
    ∀ rule ∈ done ++ later, rule.pattern.Clean word none (redact word later text) := by
  induction later generalizing done text with
  | nil => simpa [redact] using clean
  | cons rule later ih =>
      rw [List.append_cons] at all ⊢
      have here : rule ∈ rules := all rule (List.mem_append_left later List.mem_concat_self)
      obtain ⟨inner, brackets, quiet⟩ := separated.quiet rule here
      have step : ∀ other ∈ done ++ [rule],
          other.pattern.Clean word none (rule.pattern.sub word rule.replacement text) := by
        intro other listed
        have known : other ∈ rules := all other (List.mem_append_left later listed)
        rw [brackets]
        apply Bounded.clean_sub separated.opening separated.closing (separated.replaceable rule here)
          (separated.replaceable other known) (quiet other known)
        rcases List.mem_append.mp listed with earlier | last
        · exact .inr (clean other earlier)
        · exact .inl (congrArg Rule.pattern (List.mem_singleton.mp last))
      exact ih _ all step

/-- After all the replacements, no pattern of the list matches. -/
theorem clean_redact (text : List Char) : ∀ rule ∈ rules, rule.pattern.Clean word none (redact word rules text) :=
  clean_foldl separated [] rules (fun _ listed => listed) (fun _ here => (List.not_mem_nil here).elim)

theorem redact_redact (text : List Char) : redact word rules (redact word rules text) = redact word rules text :=
  redact_of_clean (clean_redact separated text)

end

end CuckooEcho.Lib
