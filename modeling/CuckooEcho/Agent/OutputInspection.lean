import CuckooEcho.Agent.SafetyGuardrails
import CuckooEcho.Shared.PiiDetector

namespace CuckooEcho.Agent.SafetyGuardrails
open Lib Lib.Pattern

/-! ## Both detectors -/

theorem redaction_complete_and_stable (alnum : Char → Bool) (text : String) :
    (Shared.PiiDetector.detect alnum (Shared.PiiDetector.redact alnum text) = [] ∧
      Shared.PiiDetector.redact alnum (Shared.PiiDetector.redact alnum text) = Shared.PiiDetector.redact alnum text) ∧
    detect alnum (redact alnum text).1 = [] ∧ (redact alnum (redact alnum text).1).1 = (redact alnum text).1 :=
  ⟨⟨Shared.PiiDetector.detect_redact alnum text, Shared.PiiDetector.redact_redact alnum text⟩,
    detect_redact alnum text, redact_redact alnum text⟩

/-! ## The levels of the policy check -/

variable (alnum : Char → Bool) (text : String)

def Blocked : Prop := ∃ pattern ∈ blockPatterns, search alnum pattern text ≠ none

def Warned : Prop := ∃ pattern ∈ warnPatterns, search alnum pattern text ≠ none

variable {alnum text} {label v : String} {patterns : List Bounded}

theorem mem_violationsOf : v ∈ violationsOf alnum label patterns text ↔
    ∃ pattern ∈ patterns, ∃ value, search alnum pattern text = some value ∧ label ++ value = v := by
  simp only [violationsOf, List.mem_filterMap, Option.map_eq_some_iff]

theorem violationsOf_ne_nil_iff : violationsOf alnum label patterns text ≠ [] ↔
    ∃ pattern ∈ patterns, search alnum pattern text ≠ none := by
  simp [violationsOf, List.filterMap_eq_nil_iff]

theorem avoids_of_mem_warnPatterns : ∀ pattern ∈ warnPatterns, pattern.body.avoids 'b' = true := by decide

/-- A warning does not read like a block. -/
theorem not_blocked_of_warning (warning : v ∈ violationsOf alnum "warning_pattern: " warnPatterns text) :
    ¬ "blocked".toList <:+: v.toList := by
  intro within
  obtain ⟨pattern, listed, value, found, rfl⟩ := mem_violationsOf.mp warning
  obtain ⟨span, first, rfl⟩ := Option.map_eq_some_iff.mp found
  have matched := Bounded.lang_of_search first
  have free := not_mem_of_avoids (avoids_of_mem_warnPatterns pattern listed) matched
  have here : 'b' ∈ "blocked".toList := by decide
  have here := within.subset here
  rw [String.toList_append] at here
  rcases List.mem_append.mp here with inLabel | inValue
  · exact absurd inLabel (by decide)
  · rw [String.toList_ofList] at inValue
    exact free inValue

theorem blocked_of_block (block : v ∈ violationsOf alnum "blocked_pattern: " blockPatterns text) :
    "blocked".toList <:+: v.toList := by
  obtain ⟨pattern, -, value, -, rfl⟩ := mem_violationsOf.mp block
  have start : "blocked".toList <+: "blocked_pattern: ".toList := by decide
  rw [String.toList_append]
  exact (start.trans (List.prefix_append _ _)).isInfix

theorem check_of_blocked (blocked : Blocked alnum text) : (check alnum text).level = .block := by
  obtain ⟨v, block⟩ := List.exists_mem_of_ne_nil _ (violationsOf_ne_nil_iff.mpr blocked)
  have listed := List.mem_append_left (violationsOf alnum "warning_pattern: " warnPatterns text) block
  have any : ((violationsOf alnum "blocked_pattern: " blockPatterns text ++
      violationsOf alnum "warning_pattern: " warnPatterns text).any fun v => "blocked".toList <:+: v.toList) = true :=
    List.any_eq_true.mpr ⟨v, listed, decide_eq_true (blocked_of_block block)⟩
  rw [check, if_pos (List.ne_nil_of_mem listed)]
  exact if_pos any

theorem check_of_warned (calm : ¬ Blocked alnum text) (warned : Warned alnum text) :
    (check alnum text).level = .warn ∧ (check alnum text).sanitizedContent = none := by
  have none : violationsOf alnum "blocked_pattern: " blockPatterns text = [] :=
    not_not.mp fun some => calm (violationsOf_ne_nil_iff.mp some)
  have some : violationsOf alnum "warning_pattern: " warnPatterns text ≠ [] := violationsOf_ne_nil_iff.mpr warned
  have any : ¬ ((violationsOf alnum "warning_pattern: " warnPatterns text).any
      fun v => "blocked".toList <:+: v.toList) = true := by
    intro any
    obtain ⟨v, warning, reads⟩ := List.any_eq_true.mp any
    exact not_blocked_of_warning warning (of_decide_eq_true reads)
  rw [check, none, List.nil_append, if_pos some]
  exact ⟨if_neg any, rfl⟩

theorem check_of_calm (calm : ¬ Blocked alnum text) (plain : ¬ Warned alnum text) :
    (check alnum text).level = .safe := by
  have none : violationsOf alnum "blocked_pattern: " blockPatterns text = [] :=
    not_not.mp fun some => calm (violationsOf_ne_nil_iff.mp some)
  have nothing : violationsOf alnum "warning_pattern: " warnPatterns text = [] :=
    not_not.mp fun some => plain (violationsOf_ne_nil_iff.mp some)
  rw [check, none, nothing]
  rfl

/-! ## Personal data in an output -/

/-- The output is held back, or there is a text without personal data to send instead. -/
def Protected (alnum : Char → Bool) (result : SafetyResult) : Prop :=
  result.level = .block ∨ ∃ content, result.sanitizedContent = some content ∧ detect alnum content = []

theorem inspectOutput_of_check {level : SafetyLevel} (checked : (check alnum text).level = level)
    (flagged : level ≠ .safe) : inspectOutput alnum text = check alnum text :=
  if_pos (checked ▸ flagged)

theorem inspectOutput_protects_iff (alnum : Char → Bool) (text : String) (personal : detect alnum text ≠ []) :
    Protected alnum (inspectOutput alnum text) ↔ Blocked alnum text ∨ ¬ Warned alnum text := by
  by_cases blocked : Blocked alnum text
  · have level := check_of_blocked blocked
    rw [inspectOutput_of_check level (by decide)]
    exact iff_of_true (.inl level) (.inl blocked)
  · by_cases warned : Warned alnum text
    · obtain ⟨level, unset⟩ := check_of_warned blocked warned
      rw [inspectOutput_of_check level (by decide)]
      apply iff_of_false
      · rintro (block | ⟨content, set, -⟩)
        · rw [level] at block
          cases block
        · rw [unset] at set
          cases set
      · rintro (block | calm)
        · exact blocked block
        · exact calm warned
    · have level := check_of_calm blocked warned
      have redacts : (inspectOutput alnum text).sanitizedContent = some (redact alnum text).1 := by
        rw [inspectOutput, if_neg (not_not.mpr level)]
        exact congrArg SafetyResult.sanitizedContent (if_pos personal)
      exact iff_of_true (.inr ⟨_, redacts, detect_redact alnum text⟩) (.inr warned)

theorem inspectOutput_protects_iff_phone :
    Protected Char.isAlphanum (inspectOutput Char.isAlphanum "call 555-123-4567") ↔
      Blocked Char.isAlphanum "call 555-123-4567" ∨ ¬ Warned Char.isAlphanum "call 555-123-4567" :=
  inspectOutput_protects_iff Char.isAlphanum "call 555-123-4567" (by decide)

def leakedOutput : String := "confidential information: call 555-123-4567"

theorem leakedOutput_not_protected :
    detect Char.isAlphanum leakedOutput = [("555-123-4567", "phone")] ∧
      ¬ Protected Char.isAlphanum (inspectOutput Char.isAlphanum leakedOutput) := by
  have result : inspectOutput Char.isAlphanum leakedOutput =
      { level := .warn, reason := "Policy violation", violations := ["warning_pattern: confidential information"] } := by
    decide +kernel
  refine ⟨by decide +kernel, ?_⟩
  rw [result]
  rintro (block | ⟨content, set, -⟩)
  · cases block
  · cases set

end CuckooEcho.Agent.SafetyGuardrails
