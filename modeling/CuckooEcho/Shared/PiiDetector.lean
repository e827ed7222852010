import CuckooEcho.Lib.Redaction

namespace CuckooEcho.Shared.PiiDetector
open Lib Lib.Pattern

/-! ## The patterns -/

variable (alnum : Char → Bool)

def email : Bounded where
  before := false
  body :=
    .sequence
      [.many (fun c => isWord alnum c || oneOf ".+-" c) 1 none, .char (· = '@'),
        .many (fun c => isWord alnum c || c = '-') 1 none, .char (· = '.'), .many (isWord alnum) 1 none]
  after := false

def phone : Bounded where
  before := true
  body :=
    .sequence
      [times isDecimal 3, .optional (oneOf "-."), times isDecimal 3, .optional (oneOf "-."), times isDecimal 4]
  after := true

def ssn : Bounded where
  before := true
  body := .sequence [times isDecimal 3, .char (· = '-'), times isDecimal 2, .char (· = '-'), times isDecimal 4]
  after := true

def creditCard : Bounded where
  before := true
  body :=
    let separator : Pattern := .optional fun c => c = '-' || isSpace c
    .sequence
      [times isDecimal 4, separator, times isDecimal 4, separator, times isDecimal 4, separator, times isDecimal 4]
  after := true

def ip : Bounded where
  before := true
  body :=
    let part : Pattern := .many isDecimal 1 (some 3)
    .sequence [part, .char (· = '.'), part, .char (· = '.'), part, .char (· = '.'), part]
  after := true

def passport : Bounded where
  before := true
  body := .sequence [.many (fun c => 'A' ≤ c && c ≤ 'Z') 1 (some 2), .many isDecimal 6 (some 9)]
  after := true

def patterns : List (String × Bounded) :=
  [("email", email alnum), ("phone", phone), ("ssn", ssn), ("credit_card", creditCard), ("ip", ip),
    ("passport", passport)]

/-! ## `detect` and `redact` -/

structure PIIMatch where
  piiType : String
  value : String
  start : Nat
  stop : Nat
  deriving DecidableEq, Repr

def detect (text : String) : List PIIMatch :=
  (patterns alnum).flatMap fun (piiType, pattern) =>
    (pattern.finditer (isWord alnum) text.toList).map fun m => ⟨piiType, String.ofList m.value, m.start, m.stop⟩

def placeholder (piiType : String) : List Char := "[".toList ++ piiType.toList.map Char.toUpper ++ "_REDACTED]".toList

def redact (text : String) : String :=
  (patterns alnum).foldl
    (fun text (piiType, pattern) =>
      String.ofList (pattern.sub (isWord alnum) (placeholder piiType) text.toList))
    text

/-! ## What redaction leaves -/

def rules : List Rule := (patterns alnum).map fun (piiType, pattern) => ⟨pattern, placeholder piiType⟩

theorem toList_redact (text : String) :
    (redact alnum text).toList = Lib.redact (isWord alnum) (rules alnum) text.toList := by
  rw [redact, Lib.redact, rules, List.foldl_map]
  induction patterns alnum generalizing text with
  | nil => rfl
  | cons pattern patterns ih => rw [List.foldl_cons, List.foldl_cons, ih, String.toList_ofList]

theorem replaceable_email : (email alnum).Replaceable (isWord alnum) where
  plain := rfl
  closes := fun found _ => Bounded.closes_of_stops rfl (.seq (.seq (.seq (.seq (.last .many))))) found
  opens := by
    intro w prev u text unmatched found inWord
    have longer (u : List Char) (matched : (email alnum).body.Lang u) : (email alnum).body.Lang (w :: u) :=
      Lang.extend (Bool.or_eq_true_iff.mpr (.inl inWord)) matched
    rw [Bounded.matchAt_of_extends rfl longer unmatched] at found
    cases found

theorem replaceable_patterns : ∀ pattern ∈ patterns alnum, pattern.2.Replaceable (isWord alnum) := by
  simp only [patterns, List.forall_mem_cons]
  refine ⟨replaceable_email alnum, ?_, ?_, ?_, ?_, ?_, fun _ none => (List.not_mem_nil none).elim⟩
  all_goals exact Bounded.replaceable_of_boundaries rfl rfl rfl

def inner (piiType : String) : List Char := piiType.toList.map Char.toUpper ++ "_REDACTED".toList

theorem placeholder_eq (piiType : String) : placeholder piiType = Bounded.bracketed (inner piiType) := by
  rw [placeholder, Bounded.bracketed, inner]
  simp

/-- Every pattern needs an `@` or a digit. -/
theorem madeOf_of_plain {set : List Char} (at' : set.any (· = '@') = false) (digit : set.any isDecimal = false) :
    ∀ pattern ∈ patterns alnum, pattern.2.body.madeOf set = false := by
  simp [patterns, email, phone, ssn, creditCard, ip, passport, Pattern.sequence, times, madeOf, at', digit]

theorem inner_plain : ∀ pattern ∈ patterns alnum,
    (inner pattern.1).any (· = '@') = false ∧ (inner pattern.1).any isDecimal = false := by
  simp only [patterns, List.forall_mem_cons]
  decide

theorem separated_rules : Separated (isWord alnum) (rules alnum) where
  opening := rfl
  closing := rfl
  replaceable := List.forall_mem_map.mpr (replaceable_patterns alnum)
  quiet := by
    intro rule listed
    obtain ⟨pattern, here, rfl⟩ := List.mem_map.mp listed
    obtain ⟨at', digit⟩ := inner_plain alnum pattern here
    exact ⟨inner pattern.1, placeholder_eq pattern.1, List.forall_mem_map.mpr (madeOf_of_plain alnum at' digit)⟩

theorem detect_of_clean {text : String}
    (clean : ∀ rule ∈ rules alnum, rule.pattern.Clean (isWord alnum) none text.toList) :
    detect alnum text = [] := by
  apply List.flatMap_eq_nil_iff.mpr
  rintro ⟨piiType, pattern⟩ listed
  have none := Bounded.finditer_of_clean (clean _ (List.mem_map_of_mem listed))
  exact List.map_eq_nil_iff.mpr none

theorem detect_redact (text : String) : detect alnum (redact alnum text) = [] := by
  apply detect_of_clean
  rw [toList_redact]
  exact clean_redact (separated_rules alnum) text.toList

theorem redact_redact (text : String) : redact alnum (redact alnum text) = redact alnum text := by
  apply String.toList_inj.mp
  rw [toList_redact, toList_redact]
  exact Lib.redact_redact (separated_rules alnum) text.toList

end CuckooEcho.Shared.PiiDetector
