import CuckooEcho.Lib.Json.Parse
import Mathlib.Algebra.GroupWithZero.Nat
import Mathlib.Data.List.TakeDrop
import Mathlib.Data.Nat.Basic
import Mathlib.Order.Basic

namespace CuckooEcho.Lib.Json

/-! ## A parsed value is no larger than its text -/

mutual
/-- The code units that the value's strings take in any text, their quotes included. -/
def Value.weight : Value → Nat
  | .str s => s.length + 2
  | .arr vs => weights vs
  | .obj ms => memberWeights ms
  | .null | .bool _ | .num _ => 0

def weights : List Value → Nat
  | [] => 0
  | v :: vs => v.weight + weights vs

def memberWeights : List (List CodeUnit × Value) → Nat
  | [] => 0
  | m :: ms => m.2.weight + memberWeights ms
end

theorem weight_le_weights {v : Value} {vs : List Value} (h : v ∈ vs) : v.weight ≤ weights vs := by
  induction vs with
  | nil => simp at h
  | cons w vs ih =>
      rw [weights]
      cases h with
      | head => omega
      | tail _ h =>
          have := ih h
          omega

theorem weight_le_memberWeights {m : List CodeUnit × Value} {ms : List (List CodeUnit × Value)}
    (h : m ∈ ms) : m.2.weight ≤ memberWeights ms := by
  induction ms with
  | nil => simp at h
  | cons w ms ih =>
      rw [memberWeights]
      cases h with
      | head => omega
      | tail _ h =>
          have := ih h
          omega

theorem weight_member_le {key : String} {v w : Value} (h : v.member key = some w) :
    w.weight ≤ v.weight := by
  cases v with
  | obj ms =>
      obtain ⟨m, found, rfl⟩ := Option.map_eq_some_iff.mp h
      have here : m ∈ ms := List.mem_reverse.mp (List.mem_of_find?_eq_some found)
      rw [Value.weight]
      exact weight_le_memberWeights here
  | _ => simp [Value.member] at h

theorem width_skipSpace_le (text : List Char) : width (skipSpace text) ≤ width text :=
  width_drop_le text isSpace

theorem width_of_skipSpace {text rest : List Char} {c : Char} (h : skipSpace text = c :: rest) :
    width rest < width text := by
  have skipped := width_skipSpace_le text
  have first := width_cons_pos c rest
  rw [h] at skipped
  omega

theorem prepend_width {front : List CodeUnit} {result : Option (List CodeUnit × List Char)} {text : List Char}
    (bound : ∀ {s rest}, result = some (s, rest) → s.length + 1 + width rest ≤ width text)
    {s : List CodeUnit} {rest : List Char} (h : prepend front result = some (s, rest)) :
    s.length + 1 + width rest ≤ front.length + width text := by
  obtain ⟨back, found, rfl⟩ := reading_eq_some h
  have := bound found
  rw [List.length_append]
  omega

theorem stringBody_width {text : List Char} : ∀ {s : List CodeUnit} {rest : List Char},
    stringBody text = some (s, rest) → s.length + 1 + width rest ≤ width text := by
  induction text using stringBody.induct with
  | case1 => simp
  | case2 rest =>
      intro s rest' h
      rw [stringBody_quote] at h
      obtain ⟨rfl, rfl⟩ := Prod.mk.inj (Option.some.inj h)
      have := width_cons_pos '"' rest
      rw [List.length_nil]
      omega
  | case3 => simp [stringBody]
  | case4 e rest unit found _ ih =>
      intro s rest' h
      rw [stringBody_escaped found] at h
      have bound := prepend_width ih h
      have first := width_cons_pos '\\' (e :: rest)
      have second := width_cons_pos e rest
      rw [List.length_singleton] at bound
      omega
  | case5 h₁ h₂ h₃ h₄ rest unit found _ none ih =>
      intro s rest' h
      rw [stringBody_hex found] at h
      have bound := prepend_width ih h
      rw [List.length_singleton] at bound
      have more : width rest + 1 ≤ width ('\\' :: 'u' :: h₁ :: h₂ :: h₃ :: h₄ :: rest) := by
        simp only [width_cons]
        have := charUnits_length_pos h₁
        omega
      omega
  | case6 h₁ h₂ h₃ h₄ rest noHex _ none =>
      rw [stringBody.eq_def]
      simp [noHex, none]
  | case7 rest short _ none =>
      rw [stringBody.eq_def]
      simp [none]
  | case8 e rest none notU =>
      rw [stringBody.eq_def]
      simp [none, notU]
  | case9 c rest quote backslash control =>
      rw [stringBody.eq_def]
      simp [quote, backslash, control]
  | case10 c rest quote backslash control ih =>
      intro s rest' h
      rw [stringBody_plain quote backslash control] at h
      have bound := prepend_width ih h
      rw [width_cons]
      omega

theorem width_digits_le (text : List Char) : width (digits text).2 ≤ width text := by
  rw [digits, List.span_eq_takeWhile_dropWhile]
  exact width_drop_le text Char.isDigit

theorem digits₁_width {front text ds rest : List Char} (h : digits₁ front text = some (ds, rest)) :
    width rest ≤ width text := by
  have bound := width_digits_le text
  unfold digits₁ at h
  split at h
  · simp at h
  · rename_i found
    obtain ⟨-, rfl⟩ := Prod.mk.inj (Option.some.inj h)
    rwa [found] at bound

theorem width_sign_le (text : List Char) : width (sign text).2 ≤ width text := by
  unfold sign
  split
  · exact (width_cons_pos _ _).le
  · exact (width_cons_pos _ _).le
  · exact le_rfl

theorem integer_width {text ds rest : List Char} (h : integer text = some (ds, rest)) :
    width rest ≤ width text := by
  unfold integer at h
  split at h
  · obtain ⟨-, rfl⟩ := Prod.mk.inj (Option.some.inj h)
    exact ((width_cons_pos _ _).trans (width_cons_pos _ _)).le
  · exact (digits₁_width h).trans (width_cons_pos _ _).le
  · obtain ⟨-, rfl⟩ := Prod.mk.inj (Option.some.inj h)
    exact (width_cons_pos _ _).le
  · exact digits₁_width h

theorem fraction_width {text ds rest : List Char} (h : fraction text = some (ds, rest)) :
    width rest ≤ width text := by
  unfold fraction at h
  split at h
  · exact (digits₁_width h).trans (width_cons_pos _ _).le
  · obtain ⟨-, rfl⟩ := Prod.mk.inj (Option.some.inj h)
    exact le_rfl

theorem exponent_width {text ds rest : List Char} (h : exponent text = some (ds, rest)) :
    width rest ≤ width text := by
  cases text with
  | nil =>
      obtain ⟨-, rfl⟩ := Prod.mk.inj (Option.some.inj h)
      exact le_rfl
  | cons c text =>
      simp only [exponent] at h
      split at h
      · exact ((digits₁_width h).trans (width_sign_le text)).trans (width_cons_pos c text).le
      · obtain ⟨-, rfl⟩ := Prod.mk.inj (Option.some.inj h)
        exact le_rfl

theorem number_width {text ds rest : List Char} (h : number text = some (ds, rest)) :
    width rest ≤ width text := by
  obtain ⟨⟨whole, afterWhole⟩, whole_eq, h⟩ := Option.bind_eq_some_iff.mp h
  obtain ⟨⟨part, afterPart⟩, part_eq, h⟩ := Option.bind_eq_some_iff.mp h
  obtain ⟨⟨power, afterPower⟩, power_eq, h⟩ := Option.bind_eq_some_iff.mp h
  obtain ⟨-, rfl⟩ := Prod.mk.inj (Option.some.inj h)
  calc width afterPower ≤ width afterPart := exponent_width power_eq
    _ ≤ width afterWhole := fraction_width part_eq
    _ ≤ width text := integer_width whole_eq

theorem literal_width {word text rest : List Char} {v w : Value} (h : literal word v text = some (w, rest)) :
    w = v ∧ width rest ≤ width text := by
  unfold literal at h
  split at h
  · obtain ⟨rfl, rfl⟩ := Prod.mk.inj (Option.some.inj h)
    refine ⟨rfl, ?_⟩
    have cut := congrArg width (List.take_append_drop word.length text)
    rw [width_append] at cut
    omega
  · simp at h

section Items
variable {α : Type*} {item : List Char → Option (α × List Char)} {close : Char} (size : α → Nat)

theorem itemsTail_width
    (bound : ∀ {text x rest}, item text = some (x, rest) → size x + width rest ≤ width text)
    {n : Nat} {text : List Char} {xs : List α} {rest : List Char}
    (h : itemsTail item close n text = some (xs, rest)) :
    (xs.map size).sum + width rest < width text := by
  induction n generalizing text xs with
  | zero => simp [itemsTail] at h
  | succ n ih =>
      unfold itemsTail at h
      cases first : item text with
      | none => simp [first] at h
      | some found =>
          cases skipped : skipSpace found.2 with
          | nil => simp [first, skipped] at h
          | cons c after =>
              simp only [first, skipped] at h
              have taken : size found.1 + width found.2 ≤ width text := bound first
              have separator := width_of_skipSpace skipped
              split at h
              · obtain ⟨rfl, rfl⟩ := Prod.mk.inj (Option.some.inj h)
                rw [List.map_singleton, List.sum_singleton]
                omega
              · split at h
                · obtain ⟨ys, others, rfl⟩ := reading_eq_some h
                  have later := ih others
                  rw [List.map_append, List.sum_append, List.map_singleton, List.sum_singleton]
                  omega
                · simp at h

theorem items_width
    (bound : ∀ {text x rest}, item text = some (x, rest) → size x + width rest ≤ width text)
    {n : Nat} {text : List Char} {xs : List α} {rest : List Char}
    (h : items item close n text = some (xs, rest)) : (xs.map size).sum + width rest < width text := by
  unfold items at h
  cases skipped : skipSpace text with
  | nil => simp [skipped] at h
  | cons c after =>
      simp only [skipped] at h
      split at h
      · obtain ⟨rfl, rfl⟩ := Prod.mk.inj (Option.some.inj h)
        simpa using width_of_skipSpace skipped
      · have inside := itemsTail_width size bound h
        have outside := width_skipSpace_le text
        rw [skipped] at outside
        omega

end Items

theorem weights_eq (vs : List Value) : weights vs = (vs.map Value.weight).sum := by
  induction vs with
  | nil => rfl
  | cons v vs ih => rw [weights, ih, List.map_cons, List.sum_cons]

theorem memberWeights_eq (ms : List (List CodeUnit × Value)) :
    memberWeights ms = (ms.map fun m => m.2.weight).sum := by
  induction ms with
  | nil => rfl
  | cons m ms ih => rw [memberWeights, ih, List.map_cons, List.sum_cons]

theorem memberOf_width {item : List Char → Option (Value × List Char)}
    (bound : ∀ {text v rest}, item text = some (v, rest) → v.weight + width rest ≤ width text)
    {text rest : List Char} {m : List CodeUnit × Value} (h : memberOf item text = some (m, rest)) :
    m.2.weight + width rest ≤ width text := by
  unfold memberOf at h
  split at h
  · rename_i afterQuote opened
    cases key : stringBody afterQuote with
    | none => simp [key] at h
    | some found =>
        simp only [key] at h
        split at h
        · rename_i afterColon colon
          obtain ⟨v, parsed, rfl⟩ := reading_eq_some h
          have inValue := bound parsed
          have atColon := width_of_skipSpace colon
          have inKey : found.1.length + 1 + width found.2 ≤ width afterQuote := stringBody_width key
          have atQuote := width_of_skipSpace opened
          show v.weight + width rest ≤ width text
          omega
        · simp at h
  · simp at h

theorem value_width {depth : Nat} {text rest : List Char} {v : Value}
    (h : value depth text = some (v, rest)) : v.weight + width rest ≤ width text := by
  induction depth generalizing text rest v with
  | zero => simp [value] at h
  | succ depth ih =>
      unfold value at h
      cases skipped : skipSpace text with
      | nil => simp [skipped] at h
      | cons c after =>
          have opening := width_of_skipSpace skipped
          have leading := width_skipSpace_le text
          simp only [skipped] at h leading
          split_ifs at h
          · obtain ⟨s, body, rfl⟩ := reading_eq_some h
            have := stringBody_width body
            rw [Value.weight]
            omega
          · obtain ⟨ms, body, rfl⟩ := reading_eq_some h
            have := items_width (fun m => m.2.weight) (memberOf_width ih) body
            rw [Value.weight, memberWeights_eq]
            omega
          · obtain ⟨vs, body, rfl⟩ := reading_eq_some h
            have := items_width Value.weight ih body
            rw [Value.weight, weights_eq]
            omega
          · obtain ⟨rfl, bound⟩ := literal_width h
            rw [Value.weight]
            omega
          · obtain ⟨rfl, bound⟩ := literal_width h
            rw [Value.weight]
            omega
          · obtain ⟨rfl, bound⟩ := literal_width h
            rw [Value.weight]
            omega
          · obtain ⟨ds, body, rfl⟩ := reading_eq_some h
            have := number_width body
            rw [Value.weight]
            omega

/-- The strings of a parsed text are no longer than the text. -/
theorem parse_width {text : List Char} {v : Value} (h : parse text = some v) : v.weight ≤ width text := by
  unfold parse at h
  split at h
  · simp at h
  · rename_i found
    obtain ⟨-, eq⟩ := Option.ite_none_right_eq_some.mp h
    have := value_width found
    rw [← Option.some.inj eq]
    omega

end CuckooEcho.Lib.Json
