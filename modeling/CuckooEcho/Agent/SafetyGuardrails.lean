import CuckooEcho.Lib.Redaction
import Mathlib.Data.List.Infix

namespace CuckooEcho.Agent.SafetyGuardrails
open Lib Lib.Pattern

/-! ## `PIIDetector` -/

structure PIIPattern where
  pattern : Bounded
  label : String
  replacement : String

/-- A letter of ASCII when case is ignored. -/
def letter (c : Char) : Bool := 'a' ≤ foldCase c && foldCase c ≤ 'z'

def letterOrDigit (c : Char) : Bool := letter c || ('0' ≤ c && c ≤ '9')

variable (alnum : Char → Bool)

def email : Bounded where
  before := true
  body :=
    .sequence
      [.many (fun c => letterOrDigit c || oneOf "._%+-" c) 1 none, .char (· = '@'),
        .many (fun c => letterOrDigit c || oneOf ".-" c) 1 none, .char (· = '.'),
        .many (fun c => letter c || c = '|') 2 none]
  after := true

def phone : Bounded where
  before := true
  body :=
    let separator : Pattern := .optional fun c => oneOf "-." c || isSpace c
    .sequence [times isDecimal 3, separator, times isDecimal 3, separator, times isDecimal 4]
  after := true

/-- `[-\s]?` -/
def separator : Pattern := .optional fun c => c = '-' || isSpace c

def creditCard : Bounded where
  before := true
  body :=
    .sequence
      [times isDecimal 4, separator, times isDecimal 4, separator, times isDecimal 4, separator, times isDecimal 4]
  after := true

def ssn : Bounded where
  before := true
  body := .sequence [times isDecimal 3, separator, times isDecimal 2, separator, times isDecimal 4]
  after := true

def passport : Bounded where
  before := true
  body :=
    .sequence
      [.char letter, .char isDecimal, .char letter, separator, .char isDecimal, .char letter, .char isDecimal]
  after := true

def address : Bounded where
  before := true
  body :=
    .sequence
      [anyOf ["street", "avenue", "road", "blvd"], .many (fun c => oneOf ".,?" c || isSpace c) 1 none,
        .many (isWord alnum) 1 none]
  after := false

def compiled : List PIIPattern :=
  [⟨email, "email", "[EMAIL]"⟩, ⟨phone, "phone", "[PHONE]"⟩, ⟨creditCard, "credit_card", "[CARD]"⟩,
    ⟨ssn, "ssn", "[SSN]"⟩, ⟨passport, "passport", "[PASSPORT]"⟩, ⟨address alnum, "address", "[ADDRESS]"⟩]

def findall (pattern : Bounded) (text : String) : List String :=
  (pattern.finditer (isWord alnum) text.toList).map fun m => String.ofList m.value

def detect (text : String) : List (String × String) :=
  (compiled alnum).flatMap fun pii => (findall alnum pii.pattern text).map fun value => (value, pii.label)

/-- The text with the replacements, and what the patterns find in the text as it was. -/
def redact (text : String) : String × List String :=
  (compiled alnum).foldl
    (fun (redacted, allFound) pii =>
      (String.ofList (pii.pattern.sub (isWord alnum) pii.replacement.toList redacted.toList),
        allFound ++ findall alnum pii.pattern text))
    (text, [])

/-! ## `OutputFilter` -/

inductive SafetyLevel
  | safe | warn | block
  deriving DecidableEq, Repr

structure SafetyResult where
  level : SafetyLevel
  reason : String
  violations : List String := []
  sanitizedContent : Option String := none
  deriving DecidableEq, Repr

def twoWords (first second : List String) : Bounded where
  before := false
  body := .sequence [.group (anyOf first), .many isSpace 1 none, .group (anyOf second)]
  after := false
  nonempty := by
    simp [Pattern.sequence, madeOf]

def blockPatterns : List Bounded :=
  [twoWords ["hack", "exploit", "vulnerability"] ["system", "server", "database", "account"],
    twoWords ["steal", "bypass", "steal", "phish"] ["credentials", "passwords", "data"],
    twoWords ["generate", "create"] ["malware", "virus", "ransomware", "trojan"]]

def warnPatterns : List Bounded :=
  [twoWords ["confidential", "proprietary", "secret"] ["information", "data", "document"],
    twoWords ["internal", "private", "restricted"] ["code", "document", "policy"]]

def search (pattern : Bounded) (text : String) : Option String :=
  (pattern.search (isWord alnum) text.toList).map fun m => String.ofList m.value

/-- A violation for each pattern that is found, with its first match. -/
def violationsOf (label : String) (patterns : List Bounded) (text : String) : List String :=
  patterns.filterMap fun pattern => (search alnum pattern text).map (label ++ ·)

def check (text : String) : SafetyResult :=
  let violations :=
    violationsOf alnum "blocked_pattern: " blockPatterns text ++
      violationsOf alnum "warning_pattern: " warnPatterns text
  if violations ≠ [] then
    let blocked := violations.any fun v => "blocked".toList <:+: v.toList
    { level := if blocked then .block else .warn, reason := "Policy violation", violations := violations }
  else { level := .safe, reason := "Content passed all checks" }

/-! ## `AgentSafetyGuardrails` -/

def inspectInput (text : String) : SafetyResult :=
  let findings := detect alnum text
  if findings = [] then { level := .safe, reason := "No PII detected" }
  else
    { level := .warn
      reason := "Detected " ++ toString findings.length ++ " potential PII items"
      violations := findings.map fun finding => "pii: " ++ finding.2 }

def inspectOutput (text : String) : SafetyResult :=
  let filterResult := check alnum text
  if filterResult.level ≠ .safe then filterResult
  else
    let findings := detect alnum text
    if findings ≠ [] then
      { level := .warn
        reason := "Detected " ++ toString findings.length ++ " potential PII in output"
        violations := findings.map fun finding => "pii: " ++ finding.2
        sanitizedContent := some (redact alnum text).1 }
    else { level := .safe, reason := "Output passed all checks" }

example : (redact Char.isAlphanum "mail ann@x.org").1 = "mail [EMAIL]" := by decide

/-! ## What redaction leaves -/

def rules : List Rule := (compiled alnum).map fun pii => ⟨pii.pattern, pii.replacement.toList⟩

theorem redact_fst (text : String) :
    (redact alnum text).1.toList = Lib.redact (isWord alnum) (rules alnum) text.toList := by
  have general (piis : List PIIPattern) (redacted : String) (found : List String) :
      (piis.foldl (fun (redacted, allFound) pii =>
        (String.ofList (pii.pattern.sub (isWord alnum) pii.replacement.toList redacted.toList),
          allFound ++ findall alnum pii.pattern text)) (redacted, found)).1.toList =
        piis.foldl (fun redacted pii => pii.pattern.sub (isWord alnum) pii.replacement.toList redacted)
          redacted.toList := by
    induction piis generalizing redacted found with
    | nil => rfl
    | cons pii piis ih => rw [List.foldl_cons, List.foldl_cons, ih, String.toList_ofList]
  rw [redact, general, Lib.redact, rules, List.foldl_map]

theorem replaceable_address : (address alnum).Replaceable (isWord alnum) where
  plain := rfl
  closes := fun found _ => Bounded.closes_of_stops rfl (.seq (.seq (.last .many))) found
  opens := fun _ => Bounded.opens_of_before rfl

theorem replaceable_compiled : ∀ pii ∈ compiled alnum, pii.pattern.Replaceable (isWord alnum) := by
  simp only [compiled, List.forall_mem_cons]
  refine ⟨?_, ?_, ?_, ?_, ?_, replaceable_address alnum, fun _ none => (List.not_mem_nil none).elim⟩
  all_goals exact Bounded.replaceable_of_boundaries rfl rfl rfl

/-- Every pattern needs an `@`, a digit, or a separator between two words. -/
theorem madeOf_of_plain {set : List Char} (at' : set.any (· = '@') = false) (digit : set.any isDecimal = false)
    (gap : (set.any fun c => oneOf ".,?" c || isSpace c) = false) :
    ∀ pii ∈ compiled alnum, pii.pattern.body.madeOf set = false := by
  simp [compiled, email, phone, creditCard, ssn, passport, address, Pattern.sequence, times, madeOf, at', digit, gap]

def inner (pii : PIIPattern) : List Char := pii.replacement.toList.tail.dropLast

theorem inner_plain : ∀ pii ∈ compiled alnum, pii.replacement.toList = Bounded.bracketed (inner pii) ∧
    (inner pii).any (· = '@') = false ∧ (inner pii).any isDecimal = false ∧
      ((inner pii).any fun c => oneOf ".,?" c || isSpace c) = false := by
  simp only [compiled, List.forall_mem_cons, inner]
  decide

theorem separated_rules : Separated (isWord alnum) (rules alnum) where
  opening := rfl
  closing := rfl
  replaceable := List.forall_mem_map.mpr (replaceable_compiled alnum)
  quiet := by
    intro rule listed
    obtain ⟨pii, here, rfl⟩ := List.mem_map.mp listed
    obtain ⟨brackets, at', digit, gap⟩ := inner_plain alnum pii here
    exact ⟨inner pii, brackets, List.forall_mem_map.mpr (madeOf_of_plain alnum at' digit gap)⟩

theorem detect_of_clean {text : String}
    (clean : ∀ rule ∈ rules alnum, rule.pattern.Clean (isWord alnum) none text.toList) :
    detect alnum text = [] := by
  apply List.flatMap_eq_nil_iff.mpr
  intro pii listed
  have none := Bounded.finditer_of_clean (clean _ (List.mem_map_of_mem listed))
  rw [findall, none]
  rfl

theorem detect_redact (text : String) : detect alnum (redact alnum text).1 = [] := by
  apply detect_of_clean
  rw [redact_fst]
  exact clean_redact (separated_rules alnum) text.toList

theorem inspectInput_redact (text : String) : (inspectInput alnum (redact alnum text).1).level = .safe := by
  rw [inspectInput, detect_redact]
  rfl

theorem redact_redact (text : String) : (redact alnum (redact alnum text).1).1 = (redact alnum text).1 := by
  apply String.toList_inj.mp
  rw [redact_fst, redact_fst]
  exact Lib.redact_redact (separated_rules alnum) text.toList

end CuckooEcho.Agent.SafetyGuardrails
