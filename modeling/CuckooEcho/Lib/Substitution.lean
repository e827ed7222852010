import CuckooEcho.Lib.Text

namespace CuckooEcho.Lib.Substitution

/-! ## Replacing what a matcher finds, from left to right

A matcher looks at the beginning of a text. It captures something and says how many characters belong to the match;
a match is not empty. -/

abbrev Matcher (α : Type) := Text → Option (α × Nat)

section
variable {α : Type} (m : Matcher α)

def piecesFrom : Nat → Text → List (Char ⊕ α)
  | _, [] => []
  | skip + 1, _ :: text => piecesFrom skip text
  | 0, c :: text =>
      match m (c :: text) with
      | some (a, length) => .inr a :: piecesFrom (length - 1) text
      | none => .inl c :: piecesFrom 0 text

/-- The characters that belong to no match, and what the matches captured. -/
def pieces (text : Text) : List (Char ⊕ α) := piecesFrom m 0 text

def sub (replacement : α → Text) (text : Text) : Text :=
  (pieces m text).flatMap (Sum.elim (fun c => [c]) replacement)

variable {m}

theorem piecesFrom_skip (front rest : Text) : piecesFrom m front.length (front ++ rest) = pieces m rest := by
  induction front with
  | nil => rfl
  | cons c front ih => exact ih

theorem pieces_of_match {tag rest : Text} {a : α} (nonempty : tag ≠ [])
    (matched : m (tag ++ rest) = some (a, tag.length)) : pieces m (tag ++ rest) = .inr a :: pieces m rest := by
  obtain ⟨c, tag, rfl⟩ := List.exists_cons_of_ne_nil nonempty
  rw [List.cons_append] at matched ⊢
  rw [pieces, piecesFrom, matched]
  exact congrArg (Sum.inr a :: ·) (piecesFrom_skip tag rest)

theorem pieces_of_none {c : Char} {rest : Text} (missed : m (c :: rest) = none) :
    pieces m (c :: rest) = .inl c :: pieces m rest := by
  rw [pieces, piecesFrom, missed]
  rfl

/-- Whatever follows the text, the matcher finds these pieces in it. -/
def Scans (m : Matcher α) (text : Text) (found : List (Char ⊕ α)) : Prop :=
  ∀ rest, pieces m (text ++ rest) = found ++ pieces m rest

theorem Scans.pieces_eq {text : Text} {found : List (Char ⊕ α)} (scans : Scans m text found) :
    pieces m text = found := by
  have whole := scans []
  rw [List.append_nil] at whole
  exact whole.trans (List.append_nil found)

theorem Scans.append {a b : Text} {foundA foundB : List (Char ⊕ α)} (first : Scans m a foundA)
    (second : Scans m b foundB) : Scans m (a ++ b) (foundA ++ foundB) := by
  intro rest
  rw [List.append_assoc, first, second, List.append_assoc]

theorem Scans.flatMap {β : Type} {print : β → Text} {found : β → List (Char ⊕ α)} {parts : List β}
    (each : ∀ part ∈ parts, Scans m (print part) (found part)) :
    Scans m (parts.flatMap print) (parts.flatMap found) := by
  induction parts with
  | nil => exact fun rest => rfl
  | cons part parts ih =>
      exact (each part List.mem_cons_self).append (ih fun other member => each other (List.mem_cons_of_mem part member))

theorem Scans.of_match {tag : Text} {a : α} (nonempty : tag ≠ [])
    (matched : ∀ rest, m (tag ++ rest) = some (a, tag.length)) : Scans m tag [.inr a] :=
  fun rest => pieces_of_match nonempty (matched rest)

theorem flatMap_inl (text : Text) (f : α → Text) : (text.map .inl).flatMap (Sum.elim (fun c => [c]) f) = text := by
  induction text with
  | nil => rfl
  | cons c text ih => rw [List.map_cons, List.flatMap_cons, ih, Sum.elim_inl, List.singleton_append]

theorem sub_flatMap {β : Type} {text : Text} {parts : List β} {piecesOf : β → List (Char ⊕ α)}
    (found : pieces m text = parts.flatMap piecesOf) (replacement : α → Text) :
    sub m replacement text =
      parts.flatMap fun part => (piecesOf part).flatMap (Sum.elim (fun c => [c]) replacement) := by
  rw [sub, found, List.flatMap_assoc]

end

/-! ### Parts that may fail, put together -/

def concatM {α β : Type} (f : β → Option (List α)) (l : List β) : Option (List α) := (l.mapM f).map List.flatten

section
variable {α β γ : Type} {f : β → Option (List α)}

theorem concatM_cons (b : β) (l : List β) :
    concatM f (b :: l) = (f b).bind fun first => (concatM f l).map (first ++ ·) := by
  rw [concatM, concatM, List.mapM_cons]
  cases f b with
  | none => rfl
  | some first => cases l.mapM f <;> rfl

theorem concatM_singleton (b : β) : concatM f [b] = f b := by
  rw [concatM_cons]
  cases f b with
  | none => rfl
  | some first => exact congrArg some (List.append_nil first)

theorem concatM_append (l l' : List β) :
    concatM f (l ++ l') = (concatM f l).bind fun first => (concatM f l').map (first ++ ·) := by
  induction l with
  | nil =>
      have whole : (concatM f l').map ([] ++ ·) = concatM f l' := Option.map_id'
      exact whole.symm
  | cons b l ih =>
      rw [List.cons_append, concatM_cons, concatM_cons, ih]
      cases f b <;> cases concatM f l <;> cases concatM f l' <;> simp

theorem concatM_flatMap {l : List γ} {parts : γ → List β} {g : γ → Option (List α)}
    (each : ∀ c ∈ l, concatM f (parts c) = g c) : concatM f (l.flatMap parts) = concatM g l := by
  induction l with
  | nil => rfl
  | cons c l ih =>
      rw [List.flatMap_cons, concatM_append, concatM_cons, each c List.mem_cons_self,
        ih fun d member => each d (List.mem_cons_of_mem c member)]

theorem concatM_inl (f : α → Option Text) (text : Text) :
    concatM (Sum.elim (fun c => some [c]) f) (text.map .inl) = some text := by
  induction text with
  | nil => rfl
  | cons c text ih =>
      rw [List.map_cons, concatM_cons, ih]
      rfl

/-- Text by text is the same as altogether. -/
theorem map_concatM (h : List α → List γ) (nil : h [] = []) (append : ∀ a b, h (a ++ b) = h a ++ h b) (l : List β) :
    (concatM f l).map h = concatM (fun b => (f b).map h) l := by
  induction l with
  | nil => exact congrArg some nil
  | cons b l ih =>
      rw [concatM_cons, concatM_cons, ← ih]
      cases f b <;> cases concatM f l <;> simp [append]

theorem concatM_of_some {g : β → List α} {l : List β} (each : ∀ b ∈ l, f b = some (g b)) :
    concatM f l = some (l.flatMap g) := by
  induction l with
  | nil => rfl
  | cons b l ih =>
      rw [concatM_cons, each b List.mem_cons_self, ih fun c member => each c (List.mem_cons_of_mem b member)]
      rfl

theorem concatM_congr {g : β → Option (List α)} {l : List β} (same : ∀ b ∈ l, f b = g b) :
    concatM f l = concatM g l := by
  induction l with
  | nil => rfl
  | cons b l ih =>
      have others := ih fun c member => same c (List.mem_cons_of_mem b member)
      rw [concatM_cons, concatM_cons, same b List.mem_cons_self, others]

theorem forall_mem_concatM {P : α → Prop} {l : List β} (each : ∀ b ∈ l, ∀ part, f b = some part → ∀ a ∈ part, P a)
    {whole : List α} (all : concatM f l = some whole) : ∀ a ∈ whole, P a := by
  induction l generalizing whole with
  | nil =>
      obtain rfl : [] = whole := Option.some.inj all
      simp
  | cons b l ih =>
      rw [concatM_cons] at all
      obtain ⟨first, found, all⟩ := Option.bind_eq_some_iff.mp all
      obtain ⟨rest, more, rfl⟩ := Option.map_eq_some_iff.mp all
      intro a member
      cases List.mem_append.mp member with
      | inl inFirst => exact each b List.mem_cons_self first found a inFirst
      | inr inRest => exact ih (fun c inList => each c (List.mem_cons_of_mem b inList)) more a inRest

theorem forall_mem_intercalate {P : α → Prop} {sep : List α} {l : List (List α)} (inSep : ∀ a ∈ sep, P a)
    (each : ∀ part ∈ l, ∀ a ∈ part, P a) : ∀ a ∈ List.intercalate sep l, P a := by
  induction l with
  | nil => simp [List.intercalate]
  | cons part l ih =>
      have first := each part List.mem_cons_self
      have others := ih fun other member => each other (List.mem_cons_of_mem part member)
      cases l with
      | nil => simpa [List.intercalate] using first
      | cons other l =>
          intro a member
          rw [List.intercalate_cons_cons, List.mem_append, List.mem_append] at member
          rcases member with (inPart | inSeparator) | inOthers
          · exact first a inPart
          · exact inSep a inSeparator
          · exact others a inOthers

theorem map_intercalate (h : List α → List γ) (nil : h [] = []) (append : ∀ a b, h (a ++ b) = h a ++ h b) (sep : List α)
    (l : List (List α)) : h (List.intercalate sep l) = List.intercalate (h sep) (l.map h) := by
  induction l with
  | nil => exact nil
  | cons a l ih =>
      cases l with
      | nil => simp [List.intercalate]
      | cons b l =>
          rw [List.map_cons, List.map_cons, List.intercalate_cons_cons, List.intercalate_cons_cons, append, append, ih,
            List.map_cons]

end

/-! ### Literals, runs and lazy bodies -/

/-- What follows the literal. -/
def after (literal text : Text) : Option Text := if literal <+: text then some (text.drop literal.length) else none

/-- The text before the first `stop`. -/
def textBefore (stop : Text) : Text → Option Text
  | [] => if stop = [] then some [] else none
  | c :: text => if stop <+: c :: text then some [] else (textBefore stop text).map (c :: ·)

theorem after_append (literal rest : Text) : after literal (literal ++ rest) = some rest := by
  rw [after, if_pos (List.prefix_append literal rest), List.drop_left]

theorem eq_append_of_after {literal text rest : Text} (found : after literal text = some rest) :
    text = literal ++ rest := by
  rw [after] at found
  split at found
  · rename_i begins
    rw [← Option.some.inj found]
    exact List.prefix_append_drop begins
  · cases found

theorem exists_of_textBefore {stop text body : Text} (found : textBefore stop text = some body) :
    ∃ rest, text = body ++ (stop ++ rest) := by
  induction text generalizing body with
  | nil =>
      rw [textBefore] at found
      split at found
      · rename_i empty
        exact ⟨[], by rw [empty, ← Option.some.inj found]; rfl⟩
      · cases found
  | cons c text ih =>
      rw [textBefore] at found
      split at found
      · rename_i here
        obtain ⟨rest, whole⟩ := here
        exact ⟨rest, by rw [← Option.some.inj found, List.nil_append, whole]⟩
      · obtain ⟨body, later, rfl⟩ := Option.map_eq_some_iff.mp found
        obtain ⟨rest, rfl⟩ := ih later
        exact ⟨rest, rfl⟩

theorem takeWhile_append_of_stop {p : Char → Bool} {run rest : Text} (inside : ∀ c ∈ run, p c)
    (stops : ∀ c ∈ rest.head?, p c = false) : (run ++ rest).takeWhile p = run := by
  rw [List.takeWhile_append_of_pos inside]
  cases rest with
  | nil => simp
  | cons c rest => simp [stops c rfl]

/-- The literal begins nowhere in the text, whatever follows. -/
def Free (literal text : Text) : Prop :=
  ∀ before inside rest, text = before ++ inside → inside ≠ [] → ¬ literal <+: inside ++ rest

section
variable {literal : Text}

theorem free_nil : Free literal [] :=
  fun _ _ _ split nonempty => absurd (List.append_eq_nil_iff.mp split.symm).2 nonempty

theorem free_cons {c : Char} {text : Text} (here : ∀ rest, ¬ literal <+: c :: (text ++ rest))
    (later : Free literal text) : Free literal (c :: text) := by
  intro before inside rest split nonempty
  cases before with
  | nil =>
      rw [← split.trans (List.nil_append inside)]
      exact here rest
  | cons d before => exact later before inside rest (List.cons.inj split).2 nonempty

theorem free_of_not_mem {c : Char} {tail text : Text} (absent : c ∉ text) : Free (c :: tail) text := by
  intro before inside rest split nonempty found
  obtain ⟨d, inside, rfl⟩ := List.exists_cons_of_ne_nil nonempty
  have same : c = d := (List.cons_prefix_cons.mp found).1
  exact absent (by simp [split, same])

theorem not_prefix_append {a b : Text} (shorter : ¬ a <+: b) (longer : ¬ b <+: a) (rest : Text) :
    ¬ a <+: b ++ rest := by
  intro found
  cases List.prefix_or_prefix_of_prefix found (List.prefix_append b rest) with
  | inl within => exact shorter within
  | inr beyond => exact longer beyond

theorem Free.append {a b : Text} (first : Free literal a) (second : Free literal b) : Free literal (a ++ b) := by
  induction a with
  | nil => exact second
  | cons c a ih =>
      apply free_cons
      · intro rest
        have here := first [] (c :: a) (b ++ rest) rfl (List.cons_ne_nil c a)
        rwa [List.cons_append, ← List.append_assoc] at here
      · exact ih fun before inside rest split => first (c :: before) inside rest (congrArg (c :: ·) split)

/-- A tag that is not the literal and does not begin it, and has the literal's first character at its beginning only. -/
theorem free_tag {c : Char} {tail tag rest : Text} (shorter : ¬ c :: tail <+: c :: tag)
    (longer : ¬ c :: tag <+: c :: tail) (absent : c ∉ tag) (later : Free (c :: tail) rest) :
    Free (c :: tail) (c :: tag ++ rest) := by
  apply Free.append _ later
  apply free_cons
  · exact fun rest => not_prefix_append shorter longer rest
  · exact free_of_not_mem absent

/-- A tag that has the literal's first character at its first two places only, and not the second one after them. -/
theorem free_doubled {a b c : Char} {tail tag : Text} (other : b ≠ a) (next : b ≠ c) (absent : a ∉ c :: tag) :
    Free (a :: b :: tail) (a :: a :: c :: tag) := by
  apply free_cons
  · intro rest found
    exact other (List.cons_prefix_cons.mp (List.cons_prefix_cons.mp found).2).1
  apply free_cons
  · intro rest found
    exact next (List.cons_prefix_cons.mp (List.cons_prefix_cons.mp found).2).1
  · exact free_of_not_mem absent

theorem Free.flatMap {β : Type} {print : β → Text} {parts : List β} (each : ∀ part ∈ parts, Free literal (print part)) :
    Free literal (parts.flatMap print) := by
  induction parts with
  | nil => exact free_nil
  | cons part parts ih =>
      exact (each part List.mem_cons_self).append (ih fun other member => each other (List.mem_cons_of_mem part member))

/-- Where what a match begins with does not begin, the text is kept. -/
theorem Free.scans {α : Type} {m : Matcher α} {text : Text} (free : Free literal text)
    (begins : ∀ text, ¬ literal <+: text → m text = none) : Scans m text (text.map .inl) := by
  intro rest
  induction text with
  | nil => rfl
  | cons c text ih =>
      have here : m (c :: (text ++ rest)) = none := begins _ (free [] (c :: text) rest rfl (List.cons_ne_nil c text))
      have later := ih fun before inside rest split => free (c :: before) inside rest (congrArg (c :: ·) split)
      rw [List.cons_append, pieces_of_none here, later, List.map_cons, List.cons_append]

theorem textBefore_append {body : Text} (free : Free literal body) (rest : Text) :
    textBefore literal (body ++ (literal ++ rest)) = some body := by
  induction body with
  | nil =>
      cases whole : literal ++ rest with
      | nil => simp [textBefore, List.append_eq_nil_iff.mp whole]
      | cons c text =>
          have found : literal <+: c :: text := whole ▸ List.prefix_append literal rest
          rw [List.nil_append, textBefore, if_pos found]
  | cons c body ih =>
      have here : ¬ literal <+: c :: (body ++ (literal ++ rest)) :=
        free [] (c :: body) (literal ++ rest) rfl (List.cons_ne_nil c body)
      have later := ih fun before inside rest split => free (c :: before) inside rest (congrArg (c :: ·) split)
      rw [List.cons_append, textBefore, if_neg here, later, Option.map_some]

/-! ### Splitting at a literal -/

theorem splitFrom_of_free {text : Text} (free : Free literal text) (part : Text) :
    Text.splitFrom literal 0 part text = [part.reverse ++ text] := by
  induction text generalizing part with
  | nil => rw [Text.splitFrom, List.append_nil]
  | cons c text ih =>
      have here : ¬ literal <+: c :: text := by
        simpa using free [] (c :: text) [] rfl (List.cons_ne_nil c text)
      have later : Free literal text := fun before inside rest split =>
        free (c :: before) inside rest (congrArg (c :: ·) split)
      rw [Text.splitFrom, if_neg here, ih later, List.reverse_cons, List.append_assoc, List.singleton_append]

theorem split_of_free {text : Text} (free : Free literal text) : Text.split literal text = [text] :=
  splitFrom_of_free free []

theorem splitFrom_skip (front part rest : Text) :
    Text.splitFrom literal front.length part (front ++ rest) = Text.splitFrom literal 0 part rest := by
  induction front with
  | nil => rfl
  | cons c front ih => exact ih

theorem splitFrom_append (nonempty : literal ≠ []) {before : Text} (free : Free literal before) (part rest : Text) :
    Text.splitFrom literal 0 part (before ++ (literal ++ rest)) =
      (part.reverse ++ before) :: Text.split literal rest := by
  induction before generalizing part with
  | nil =>
      obtain ⟨c, tail, rfl⟩ := List.exists_cons_of_ne_nil nonempty
      have found : c :: tail <+: c :: (tail ++ rest) := List.prefix_append (c :: tail) rest
      rw [List.nil_append, List.cons_append, Text.splitFrom, if_pos found, List.append_nil]
      exact congrArg (part.reverse :: ·) (splitFrom_skip tail [] rest)
  | cons c before ih =>
      have here : ¬ literal <+: c :: (before ++ (literal ++ rest)) :=
        free [] (c :: before) (literal ++ rest) rfl (List.cons_ne_nil c before)
      have later : Free literal before := fun front inside rest split =>
        free (c :: front) inside rest (congrArg (c :: ·) split)
      rw [List.cons_append, Text.splitFrom, if_neg here, ih later, List.reverse_cons, List.append_assoc,
        List.singleton_append]

theorem split_append (nonempty : literal ≠ []) {before : Text} (free : Free literal before) (rest : Text) :
    Text.split literal (before ++ (literal ++ rest)) = before :: Text.split literal rest :=
  splitFrom_append nonempty free [] rest

end

end CuckooEcho.Lib.Substitution
