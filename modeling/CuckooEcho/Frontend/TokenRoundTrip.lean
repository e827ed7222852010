import CuckooEcho.Chat.Frames
import CuckooEcho.Frontend.SseClient
import CuckooEcho.Lib.Json.Size

namespace CuckooEcho.Frontend
open Lib Json Chat

/-! ## Lines of a data event as the client sees them -/

def fieldLine (line : List Char) : List Char := dataPrefix ++ ' ' :: line ++ ['\r']

def eventLines (data : String) : List (List Char) := (dataLines data.toList).map fieldLine ++ [['\r']]

theorem cut_dataFields (lines : List (List Char)) (free : ∀ line ∈ lines, LineFree line) (rest : List Char) :
    cut '\n' (lines.flatMap dataField ++ rest) =
      (lines.map fieldLine ++ (cut '\n' rest).1, (cut '\n' rest).2) := by
  induction lines with
  | nil => rfl
  | cons line lines ih =>
      obtain ⟨here, later⟩ := List.forall_mem_cons.mp free
      have shape : (line :: lines).flatMap dataField ++ rest =
          fieldLine line ++ '\n' :: (lines.flatMap dataField ++ rest) := by
        simp [dataField, fieldLine, show fieldName = dataPrefix from rfl]
      have inside : '\n' ∉ fieldLine line := by
        simp [fieldLine, here.2, show '\n' ∉ dataPrefix by decide]
      rw [shape, cut_line _ _ _ inside, ih later]
      rfl

theorem cut_wire (yields : List String) : cut '\n' (wire yields) = (yields.flatMap eventLines, []) := by
  induction yields with
  | nil => rfl
  | cons data yields ih =>
      have shape : wire (data :: yields) =
          (dataLines data.toList).flatMap dataField ++ (['\r'] ++ '\n' :: wire yields) := by
        simp [wire, frame]
      rw [shape, cut_dataFields _ (dataLines_free data.toList), cut_line _ _ _ (by decide), ih]
      simp [eventLines]

theorem rdropWhile_append_of_not {p : Char → Bool} {front : List Char} {c : Char} (keep : p c = false)
    (text : List Char) :
    (front ++ [c] ++ text).rdropWhile p = front ++ [c] ++ text.rdropWhile p := by
  induction text using List.reverseRecOn with
  | nil => simp [List.rdropWhile_concat_neg, keep]
  | append_singleton text d ih =>
      by_cases h : p d = true
      · rw [← List.append_assoc, List.rdropWhile_concat_pos _ _ _ h, ih, List.rdropWhile_concat_pos _ _ _ h]
      · rw [← List.append_assoc, List.rdropWhile_concat_neg _ _ _ h, List.rdropWhile_concat_neg _ _ _ h]
        simp

def payloadOf (line : List Char) : List Char := trim ((' ' :: line).rdropWhile isTrimmed)

theorem trim_fieldLine (line : List Char) :
    trim (fieldLine line) = dataPrefix ++ (' ' :: line).rdropWhile isTrimmed := by
  have start : (fieldLine line).dropWhile isTrimmed = fieldLine line := rfl
  have shape : fieldLine line = "data".toList ++ [':'] ++ (' ' :: line) ++ ['\r'] := rfl
  rw [trim, start, shape, List.rdropWhile_concat_pos _ _ _ (by decide), rdropWhile_append_of_not (by decide)]
  rfl

theorem handleLine_fieldLine (id : JsString) (line : List Char) :
    handleLine id (fieldLine line) = handlePayload id (payloadOf line) := by
  have nonempty : dataPrefix ++ (' ' :: line).rdropWhile isTrimmed ≠ [] := by
    simp [dataPrefix]
  rw [handleLine, trim_fieldLine, if_neg nonempty, if_neg (not_not.mpr (List.prefix_append _ _))]
  rfl

theorem handleLine_blank (id : JsString) : handleLine id ['\r'] = ([], some id) := rfl

/-! ## What the callbacks deliver -/

/-- The contents handed to `onToken`, put together; `none` when one of them is not a string. -/
def received : List Callback → Option JsString
  | [] => some []
  | .onToken (.str s) _ :: calls => (received calls).map (s ++ ·)
  | .onToken _ _ :: _ => none
  | .onDone _ :: calls | .onError _ :: calls => received calls

def Callback.isDone : Callback → Bool
  | .onDone _ => true
  | _ => false

structure Delivers (tokens : List String) (calls : List Callback) : Prop where
  contents : received calls = some (units (tokens.flatMap String.toList))
  noError : ∀ error, Callback.onError error ∉ calls
  doneOnce : calls.countP Callback.isDone = 1

theorem received_append (as bs : List Callback) :
    received (as ++ bs) = (received as).bind fun a => (received bs).map (a ++ ·) := by
  induction as with
  | nil => simp [received]
  | cons call as ih =>
      cases call with
      | onDone id => exact ih
      | onError error => exact ih
      | onToken content id =>
          cases content with
          | str s =>
              simp only [List.cons_append, received, ih]
              cases received as <;> cases received bs <;> simp
          | _ => rfl

/-! ## A text that is not wrapped arrives shortened -/

theorem width_prefix_le {a b : List Char} (h : a <+: b) : width a ≤ width b := by
  obtain ⟨rest, rfl⟩ := h
  rw [width_append]
  exact Nat.le_add_right _ _

theorem width_payloadOf_le (line : List Char) : width (payloadOf line) ≤ width line := by
  have cutBack := List.rdropWhile_prefix isTrimmed (l := ' ' :: line)
  have outer : width (payloadOf line) ≤ width (((' ' :: line).rdropWhile isTrimmed).dropWhile isTrimmed) :=
    width_prefix_le (List.rdropWhile_prefix isTrimmed _)
  cases kept : (' ' :: line).rdropWhile isTrimmed with
  | nil =>
      rw [kept] at outer
      exact outer.trans (Nat.zero_le _)
  | cons c text =>
      rw [kept] at cutBack outer
      obtain ⟨rfl, inside⟩ := List.cons_prefix_cons.mp cutBack
      calc width (payloadOf line) ≤ width (text.dropWhile isTrimmed) := outer
        _ ≤ width text := width_drop_le text isTrimmed
        _ ≤ width line := width_prefix_le inside

theorem firstItem_weight {v w : Value} (h : firstItem v = some w) : w.weight ≤ v.weight := by
  cases v with
  | arr vs =>
      rw [Value.weight]
      exact weight_le_weights (List.mem_of_mem_head? h)
  | str s =>
      obtain ⟨unit, first, rfl⟩ := Option.map_eq_some_iff.mp h
      have := List.length_pos_of_mem (List.mem_of_mem_head? first)
      simp only [Value.weight, List.length_singleton]
      omega
  | obj ms => exact weight_member_le h
  | _ => simp [firstItem] at h

theorem defined_eq_some {v : Option Value} {w : Value} (h : defined v = some w) : v = some w := by
  cases v with
  | none => exact h
  | some v =>
      cases v with
      | null => simp [defined] at h
      | _ => exact h

theorem extractTokenContent_weight {v w : Value} (h : extractTokenContent v = some w) : w.weight ≤ v.weight := by
  unfold extractTokenContent at h
  split at h
  · rename_i s found
    rw [← Option.some.inj h]
    exact weight_member_le found
  · obtain ⟨delta, inDelta, content⟩ := Option.bind_eq_some_iff.mp (defined_eq_some h)
    obtain ⟨first, inFirst, isDelta⟩ := Option.bind_eq_some_iff.mp inDelta
    obtain ⟨choices, isChoices, isFirst⟩ := Option.bind_eq_some_iff.mp inFirst
    calc w.weight ≤ delta.weight := weight_member_le content
      _ ≤ first.weight := weight_member_le isDelta
      _ ≤ choices.weight := firstItem_weight isFirst
      _ ≤ v.weight := weight_member_le isChoices

theorem handlePayload_width {id : JsString} {payload : List Char} {s : JsString}
    (h : received (handlePayload id payload).1 = some s) : s = [] ∨ s.length < width payload := by
  unfold handlePayload at h
  split at h
  · exact Or.inl (Option.some.inj h).symm
  · split at h
    · exact Or.inl (Option.some.inj h).symm
    · exact Or.inl (Option.some.inj h).symm
    · rename_i v _ parsed
      have fits := parse_width parsed
      split at h
      · exact Or.inl (Option.some.inj h).symm
      · split at h
        · rename_i content extracted
          have inside := extractTokenContent_weight extracted
          cases content with
          | str token =>
              simp only [received, Option.map_some, List.append_nil, Option.some.injEq] at h
              rw [Value.weight, h] at inside
              exact Or.inr (by omega)
          | _ => simp [received] at h
        · exact Or.inl (Option.some.inj h).symm

theorem handleLine_width {id : JsString} {line : List Char} {s : JsString}
    (h : received (handleLine id (fieldLine line)).1 = some s) : s = [] ∨ s.length < width line := by
  rw [handleLine_fieldLine] at h
  have := width_payloadOf_le line
  cases handlePayload_width h with
  | inl empty => exact Or.inl empty
  | inr short => exact Or.inr (by omega)

theorem handleLines_singleton (id : JsString) (line : List Char) :
    handleLines id [line] = handleLine id line := by
  rw [handleLines]
  cases handleLine id line with
  | mk calls next => cases next <;> simp [handleLines]

theorem received_handleLines_append {id : JsString} {as bs : List (List Char)} {s : JsString}
    (h : received (handleLines id (as ++ bs)).1 = some s) :
    ∃ front, received (handleLines id as).1 = some front ∧
      (s = front ∨ ∃ next back, received (handleLines next bs).1 = some back ∧ s = front ++ back) := by
  rw [handleLines_append] at h
  cases here : handleLines id as with
  | mk calls next =>
      cases next with
      | none =>
          rw [here] at h
          exact ⟨s, h, Or.inl rfl⟩
      | some next =>
          rw [here] at h
          simp only [received_append] at h
          obtain ⟨front, first, h⟩ := Option.bind_eq_some_iff.mp h
          obtain ⟨back, later, rfl⟩ := Option.map_eq_some_iff.mp h
          exact ⟨front, first, Or.inr ⟨next, back, later, rfl⟩⟩

theorem handleLines_width {id : JsString} {lines : List (List Char)} {s : JsString}
    (h : received (handleLines id (lines.map fieldLine)).1 = some s) :
    s.length ≤ (lines.map width).sum := by
  induction lines generalizing id s with
  | nil =>
      rw [← Option.some.inj h]
      exact Nat.zero_le _
  | cons line lines ih =>
      rw [List.map_cons, List.sum_cons]
      rw [List.map_cons, ← List.singleton_append] at h
      obtain ⟨front, first, rest⟩ := received_handleLines_append h
      rw [handleLines_singleton] at first
      have bound : front.length ≤ width line := by
        cases handleLine_width first with
        | inl empty => simp [empty]
        | inr short => exact short.le
      cases rest with
      | inl only =>
          rw [only]
          omega
      | inr more =>
          obtain ⟨next, back, later, rfl⟩ := more
          have := ih later
          rw [List.length_append]
          omega

theorem handleLines_eventLines (id : JsString) (data : String) :
    handleLines id (eventLines data) = handleLines id ((dataLines data.toList).map fieldLine) := by
  rw [eventLines, handleLines_append]
  cases handleLines id ((dataLines data.toList).map fieldLine) with
  | mk calls next =>
      cases next with
      | none => rfl
      | some next => simp [handleLines, handleLine_blank]

theorem braced_width {id : JsString} {token : String} (braced : startsWithBrace token = true) {s : JsString}
    (h : received (handleLines id (eventLines token)).1 = some s) : s.length < width token.toList := by
  obtain ⟨text, shape⟩ : ∃ text, token.toList = '{' :: text := by
    cases h : token.toList with
    | nil => simp [startsWithBrace, h] at braced
    | cons c text =>
        obtain rfl : c = '{' := by simpa [startsWithBrace, h] using braced
        exact ⟨text, rfl⟩
  obtain ⟨line, lines, split⟩ := dataLines_cons text
  have total := dataLines_width token.toList
  rw [handleLines_eventLines, shape, dataLines_char (by decide), split, List.modifyHead_cons, List.map_cons] at h
  rw [shape, dataLines_char (by decide), split, List.modifyHead_cons, List.map_cons, List.sum_cons] at total
  rw [shape]
  have opening := width_cons_pos '{' line
  rw [← List.singleton_append] at h
  obtain ⟨front, first, rest⟩ := received_handleLines_append h
  rw [handleLines_singleton] at first
  have short : front.length < width ('{' :: line) := by
    cases handleLine_width first with
    | inl empty =>
        rw [empty, List.length_nil]
        omega
    | inr short => exact short
  cases rest with
  | inl only =>
      rw [only]
      omega
  | inr more =>
      obtain ⟨next, back, later, rfl⟩ := more
      have := handleLines_width later
      rw [List.length_append]
      omega

/-! ## A wrapped token arrives whole -/

theorem payloadOf_dumps (members : List (String × String)) :
    payloadOf (dumps members).toList = (dumps members).toList := by
  obtain ⟨inner, shape⟩ := dumps_braced members
  have whole : (' ' :: ('{' :: inner ++ ['}'])).rdropWhile isTrimmed = ' ' :: ('{' :: inner ++ ['}']) :=
    List.rdropWhile_concat_neg (p := isTrimmed) (l := ' ' :: '{' :: inner) '}' (by decide)
  have again : ('{' :: inner ++ ['}']).rdropWhile isTrimmed = '{' :: inner ++ ['}'] :=
    List.rdropWhile_concat_neg _ _ '}' (by decide)
  rw [shape, payloadOf, whole, trim]
  exact again

theorem handleLine_contentJson (id : JsString) (token : String) :
    handleLine id (fieldLine (contentJson token).toList) =
      ([.onToken (.str (units token.toList)) id], some id) := by
  have parsed : parse (contentJson token).toList =
      some (.obj [(units "content".toList, .str (units token.toList))]) := by
    rw [contentJson, toList_dumps, parse_objectText, List.map_singleton, List.map_singleton, memberUnits]
  have notDone : (contentJson token).toList ≠ "[DONE]".toList := by
    obtain ⟨inner, shape⟩ := dumps_braced [("content", token)]
    rw [contentJson, shape]
    exact fun same => absurd (List.cons.inj same).1 (by decide)
  rw [handleLine_fieldLine, contentJson, payloadOf_dumps, ← contentJson, handlePayload, if_neg notDone, parsed]
  rfl

theorem handleLines_contentJson (id : JsString) (token : String) :
    handleLines id (eventLines (contentJson token)) =
      ([.onToken (.str (units token.toList)) id], some id) := by
  rw [handleLines_eventLines, contentJson, dataLines_of_free (dumps_free _), List.map_singleton, handleLines,
    ← contentJson, handleLine_contentJson]
  rfl

/-! ## Whole streams -/

/-- The decoded text of a response that streams these tokens. -/
def streamOf (tokens : List String) : List Char := wire (tokens.map yieldItem ++ [done])

def tokensLines (tokens : List String) : List (List Char) := (tokens.map yieldItem ++ [done]).flatMap eventLines

theorem tokensLines_cons (token : String) (tokens : List String) :
    tokensLines (token :: tokens) = eventLines (yieldItem token) ++ tokensLines tokens := by
  simp [tokensLines]

theorem parseStream_streamOf {chunks : List (List Char)} {tokens : List String}
    (whole : chunks.flatten = streamOf tokens) : parseStream chunks = (handleLines [] (tokensLines tokens)).1 := by
  rw [parseStream_eq, whole, streamOf, cut_wire, tokensLines]

theorem yieldItem_plain {token : String} (plain : startsWithBrace token = false) :
    yieldItem token = contentJson token := by
  simp [yieldItem, plain]

theorem yieldItem_braced {token : String} (braced : startsWithBrace token = true) : yieldItem token = token := by
  simp [yieldItem, braced]

theorem handleLines_plain (id : JsString) (tokens : List String) (plain : ∀ t ∈ tokens, startsWithBrace t = false) :
    (handleLines id (tokensLines tokens)).1 =
      tokens.map (fun t => .onToken (.str (units t.toList)) id) ++ [.onDone id] := by
  induction tokens with
  | nil => rfl
  | cons token tokens ih =>
      obtain ⟨here, later⟩ := List.forall_mem_cons.mp plain
      rw [tokensLines_cons, handleLines_append, yieldItem_plain here, handleLines_contentJson]
      simp only [ih later, List.map_cons, List.cons_append, List.nil_append]

theorem delivers_plain (id : JsString) (tokens : List String) :
    Delivers tokens (tokens.map (fun t => .onToken (.str (units t.toList)) id) ++ [.onDone id]) := by
  constructor
  · induction tokens with
    | nil => rfl
    | cons token tokens ih =>
        rw [List.map_cons, List.cons_append, received, ih]
        simp
  · simp
  · rw [List.countP_append, List.countP_map]
    simp [Function.comp_def, Callback.isDone]

theorem yieldItem_width {id : JsString} {token : String} {s : JsString}
    (h : received (handleLines id (eventLines (yieldItem token))).1 = some s) :
    s.length ≤ width token.toList ∧ (startsWithBrace token = true → s.length < width token.toList) := by
  cases braced : startsWithBrace token with
  | true =>
      rw [yieldItem_braced braced] at h
      have short := braced_width braced h
      exact ⟨short.le, fun _ => short⟩
  | false =>
      rw [yieldItem_plain braced, handleLines_contentJson] at h
      simp only [received, Option.map_some, List.append_nil, Option.some.injEq] at h
      rw [← h]
      exact ⟨le_rfl, by simp⟩

theorem width_pos {token : String} (nonempty : token ≠ "") : 0 < width token.toList := by
  cases h : token.toList with
  | nil => exact absurd (String.toList_eq_nil_iff.mp h) nonempty
  | cons c text => exact (Nat.zero_le _).trans_lt (width_cons_pos c text)

theorem width_flatMap_pos {tokens : List String} {t : String} (here : t ∈ tokens) (nonempty : t ≠ "") :
    0 < width (tokens.flatMap String.toList) := by
  induction tokens with
  | nil => simp at here
  | cons token tokens ih =>
      rw [List.flatMap_cons, width_append]
      cases here with
      | head =>
          have := width_pos nonempty
          omega
      | tail _ here =>
          have := ih here
          omega

/-- What a stream delivers is no longer than its tokens, and shorter when one of them is not wrapped. -/
theorem tokensLines_width {id : JsString} {tokens : List String} (nonempty : ∀ t ∈ tokens, t ≠ "")
    {s : JsString} (h : received (handleLines id (tokensLines tokens)).1 = some s) :
    s.length ≤ width (tokens.flatMap String.toList) ∧
      ((∃ t ∈ tokens, startsWithBrace t = true) → s.length < width (tokens.flatMap String.toList)) := by
  induction tokens generalizing id s with
  | nil =>
      rw [← Option.some.inj h]
      simp
  | cons token tokens ih =>
      obtain ⟨-, later⟩ := List.forall_mem_cons.mp nonempty
      rw [tokensLines_cons] at h
      obtain ⟨front, first, rest⟩ := received_handleLines_append h
      obtain ⟨fits, shorter⟩ := yieldItem_width first
      rw [List.flatMap_cons, width_append]
      cases rest with
      | inl only =>
          rw [only]
          refine ⟨by omega, ?_⟩
          rintro ⟨t, here, braced⟩
          cases here with
          | head =>
              have := shorter braced
              omega
          | tail _ here =>
              have := width_flatMap_pos here (later t here)
              omega
      | inr more =>
          obtain ⟨next, back, others, rfl⟩ := more
          obtain ⟨fits', shorter'⟩ := ih later others
          rw [List.length_append]
          refine ⟨by omega, ?_⟩
          rintro ⟨t, here, braced⟩
          cases here with
          | head =>
              have := shorter braced
              omega
          | tail _ here =>
              have := shorter' ⟨t, here, braced⟩
              omega

/-- A stream delivers its tokens exactly when none of them starts with a brace. -/
theorem delivers_iff_plain (chunks : List (List Char)) (tokens : List String) (nonempty : ∀ t ∈ tokens, t ≠ "")
    (whole : chunks.flatten = streamOf tokens) :
    Delivers tokens (parseStream chunks) ↔ ∀ t ∈ tokens, startsWithBrace t = false := by
  rw [parseStream_streamOf whole]
  constructor
  · intro delivered t here
    by_contra braced
    have short := (tokensLines_width nonempty delivered.contents).2 ⟨t, here, by simpa using braced⟩
    exact absurd short (lt_irrefl _)
  · intro plain
    rw [handleLines_plain [] tokens plain]
    exact delivers_plain [] tokens

/-- A reply that starts with code. -/
theorem brace_lost : ¬ ∀ (chunks : List (List Char)) (tokens : List String), (∀ t ∈ tokens, t ≠ "") →
    chunks.flatten = streamOf tokens → Delivers tokens (parseStream chunks) := by
  intro claim
  have delivered := claim [streamOf ["\x7b"]] ["\x7b"] (by decide) (List.append_nil _)
  have read : parseStream [streamOf ["\x7b"]] = [.onDone []] := by
    rw [parseStream_streamOf (List.append_nil _)]
    rfl
  have contents := delivered.contents
  rw [read] at contents
  exact absurd contents (by decide)

theorem delivers_iff_plain_greeting :
    Delivers ["你", "好"] (parseStream [streamOf ["你", "好"]]) ↔
      ∀ t ∈ ["你", "好"], startsWithBrace t = false :=
  delivers_iff_plain [streamOf ["你", "好"]] ["你", "好"] (by decide) (List.append_nil _)

end CuckooEcho.Frontend
