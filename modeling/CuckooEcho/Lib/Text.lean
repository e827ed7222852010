import CuckooEcho.Lib.Pattern
import Mathlib.Data.List.Infix

namespace CuckooEcho.Lib

/-! ## Texts as sequences of characters -/

abbrev Text := List Char

namespace Text
open Pattern (isSpace)

def strip (text : Text) : Text := ((text.dropWhile isSpace).reverse.dropWhile isSpace).reverse

/-- The pieces of the text between the separators found from left to right; `skip` characters belong
to the separator found last, and `part` is the current piece, its last character first. -/
def splitFrom (sep : Text) : Nat → Text → Text → List Text
  | _, part, [] => [part.reverse]
  | skip + 1, part, _ :: rest => splitFrom sep skip part rest
  | 0, part, c :: rest =>
      if sep <+: c :: rest then part.reverse :: splitFrom sep (sep.length - 1) [] rest
      else splitFrom sep 0 (c :: part) rest

def split (sep text : Text) : List Text := splitFrom sep 0 [] text

/-- The pieces between runs of white space, none of them empty. -/
def wordsFrom : Text → Text → List Text
  | part, [] => if part = [] then [] else [part.reverse]
  | part, c :: rest =>
      if isSpace c then if part = [] then wordsFrom [] rest else part.reverse :: wordsFrom [] rest
      else wordsFrom (c :: part) rest

def words (text : Text) : List Text := wordsFrom [] text

/-- A negative index counts from the end. -/
def index (length : Nat) (i : Int) : Nat := if i < 0 then (i + length).toNat else i.toNat

def slice (text : Text) (start stop : Int) : Text :=
  (text.take (index text.length stop)).drop (index text.length start)

theorem drop_found {sep rest tail : Text} {c : Char} (nonempty : sep ≠ []) (split : sep ++ tail = c :: rest) :
    rest.drop (sep.length - 1) = tail := by
  have whole : (c :: rest).drop sep.length = tail := by rw [← split, List.drop_left]
  obtain ⟨n, length⟩ := Nat.exists_eq_succ_of_ne_zero (List.length_eq_zero_iff.not.mpr nonempty)
  rw [length] at whole ⊢
  exact whole

theorem slice_of_nonneg (text : Text) (start size : Nat) :
    text.slice start (start + size) = (text.drop start).take size := by
  have ends : index text.length (start + size) = start + size := by
    rw [index, if_neg (by omega)]
    omega
  have starts : index text.length start = start := by
    rw [index, if_neg (by omega)]
    omega
  rw [slice, ends, starts, List.drop_take, Nat.add_sub_cancel_left]

theorem splitFrom_of_not_mem {sep text : Text} {c : Char} (sepHas : c ∈ sep) (free : c ∉ text) (part : Text) :
    splitFrom sep 0 part text = [part.reverse ++ text] := by
  induction text generalizing part with
  | nil => rw [splitFrom, List.append_nil]
  | cons d rest ih =>
      have apart : ¬ sep <+: d :: rest := fun found => free (found.subset sepHas)
      rw [splitFrom, if_neg apart, ih (fun member => free (List.mem_cons_of_mem d member)), List.reverse_cons,
        List.append_assoc, List.singleton_append]

theorem split_of_not_mem {sep text : Text} {c : Char} (sepHas : c ∈ sep) (free : c ∉ text) :
    split sep text = [text] :=
  splitFrom_of_not_mem sepHas free []

/-! ### What splitting and stripping keep

A class of characters that leaves out the white space, or the characters of a separator. -/

section Filter
variable {p : Char → Bool}

theorem filter_dropWhile (space : ∀ c, isSpace c → p c = false) (text : Text) :
    (text.dropWhile isSpace).filter p = text.filter p := by
  induction text with
  | nil => rfl
  | cons c rest ih =>
      by_cases blank : isSpace c
      · rw [List.dropWhile_cons_of_pos blank, ih, List.filter_cons_of_neg (by simp [space c blank])]
      · rw [List.dropWhile_cons_of_neg blank]

theorem filter_strip (space : ∀ c, isSpace c → p c = false) (text : Text) :
    text.strip.filter p = text.filter p := by
  rw [strip, List.filter_reverse, filter_dropWhile space, List.filter_reverse, List.reverse_reverse,
    filter_dropWhile space]

theorem filter_of_strip_eq_nil (space : ∀ c, isSpace c → p c = false) {text : Text}
    (blank : text.strip = []) : text.filter p = [] := by
  rw [← filter_strip space, blank]
  rfl

theorem filter_nonblank_map (space : ∀ c, isSpace c → p c = false) {f : Text → Text}
    (kept : ∀ text, (f text).filter p = text.filter p) (texts : List Text) :
    ((texts.filter (·.strip ≠ [])).map f).flatten.filter p = texts.flatten.filter p := by
  induction texts with
  | nil => rfl
  | cons text texts ih =>
      by_cases blank : text.strip = []
      · rw [List.filter_cons_of_neg (by simp [blank]), ih, List.flatten_cons, List.filter_append,
          filter_of_strip_eq_nil space blank, List.nil_append]
      · rw [List.filter_cons_of_pos (by simp [blank]), List.map_cons, List.flatten_cons, List.flatten_cons,
          List.filter_append, List.filter_append, ih, kept]

theorem filter_stripped (space : ∀ c, isSpace c → p c = false) (texts : List Text) :
    ((texts.filter (·.strip ≠ [])).map strip).flatten.filter p = texts.flatten.filter p :=
  filter_nonblank_map space (fun text => filter_strip space text) texts

theorem filter_nonblank (space : ∀ c, isSpace c → p c = false) (texts : List Text) :
    (texts.filter (·.strip ≠ [])).flatten.filter p = texts.flatten.filter p := by
  have kept := filter_nonblank_map (f := id) space (fun _ => rfl) texts
  rwa [List.map_id] at kept

theorem filter_splitFrom {sep : Text} (nonempty : sep ≠ []) (none : sep.filter p = []) (skip : Nat)
    (part text : Text) : (splitFrom sep skip part text).flatten.filter p =
      part.reverse.filter p ++ (text.drop skip).filter p := by
  induction text generalizing skip part with
  | nil => simp [splitFrom]
  | cons c rest ih =>
      cases skip with
      | succ skip => rw [splitFrom, ih, List.drop_succ_cons]
      | zero =>
          rw [splitFrom]
          split
          · rename_i found
            obtain ⟨tail, split⟩ := found
            rw [List.flatten_cons, List.filter_append, ih, drop_found nonempty split, List.drop_zero, ← split,
              List.filter_append, none]
            rfl
          · rw [ih, List.reverse_cons, List.filter_append, List.drop_zero, List.drop_zero,
              List.append_assoc, ← List.filter_append]
            rfl

theorem filter_split {sep : Text} (nonempty : sep ≠ []) (none : sep.filter p = []) (text : Text) :
    (split sep text).flatten.filter p = text.filter p := by
  rw [split, filter_splitFrom nonempty none]
  rfl

end Filter

/-! ### The pieces of a split text -/

section Pieces
variable {sep : Text}

theorem splitFrom_ne_nil (skip : Nat) (part text : Text) : splitFrom sep skip part text ≠ [] := by
  induction text generalizing skip part with
  | nil => exact List.cons_ne_nil _ _
  | cons c rest ih =>
      cases skip with
      | succ skip => exact ih skip part
      | zero =>
          rw [splitFrom]
          split
          · exact List.cons_ne_nil _ _
          · exact ih 0 (c :: part)

theorem infix_of_mem_splitFrom {skip : Nat} {part text piece : Text} (begun : skip = 0 ∨ part = [])
    (member : piece ∈ splitFrom sep skip part text) : piece <:+: part.reverse ++ text := by
  induction text generalizing skip part with
  | nil =>
      rw [splitFrom, List.mem_singleton] at member
      rw [member, List.append_nil]
  | cons c rest ih =>
      cases skip with
      | succ skip =>
          obtain rfl : part = [] := begun.resolve_left (Nat.succ_ne_zero skip)
          exact (ih (Or.inr rfl) member).trans (List.suffix_cons c rest).isInfix
      | zero =>
          rw [splitFrom] at member
          split at member
          · obtain rfl | later := List.mem_cons.mp member
            · exact (List.prefix_append _ _).isInfix
            · have inRest : piece <:+: rest := ih (Or.inr rfl) later
              exact inRest.trans ((List.suffix_cons c rest).trans (List.suffix_append _ _)).isInfix
          · have inRest := ih (Or.inl rfl) member
            rwa [List.reverse_cons, List.append_assoc] at inRest

theorem infix_of_mem_split {text piece : Text} (member : piece ∈ split sep text) : piece <:+: text :=
  infix_of_mem_splitFrom (Or.inl rfl) member

theorem infix_or_infix {run before after : Text} {c : Char} (free : c ∉ run)
    (found : run <:+: before ++ c :: after) : run <:+: before ∨ run <:+: after := by
  induction before with
  | nil =>
      obtain starts | later := List.infix_cons_iff.mp found
      · cases run with
        | nil => exact Or.inl (List.nil_infix)
        | cons d run =>
            obtain ⟨rfl, -⟩ := List.cons_prefix_cons.mp starts
            exact absurd (List.mem_cons_self ..) free
      · exact Or.inr later
  | cons d before ih =>
      obtain starts | later := List.infix_cons_iff.mp found
      · have upTo : (d :: before) ++ [c] <+: d :: before ++ c :: after := ⟨after, by simp⟩
        obtain short | long := List.prefix_or_prefix_of_prefix starts upTo
        · obtain rfl | inside := List.prefix_concat_iff.mp short
          · exact absurd (List.mem_concat_self) free
          · exact Or.inl inside.isInfix
        · exact absurd (long.subset (by simp)) free
      · obtain here | there := ih later
        · exact Or.inl (here.trans (List.suffix_cons d before).isInfix)
        · exact Or.inr there

theorem infix_or_infix_append {run after : Text} (nonempty : sep ≠ []) (free : ∀ c ∈ run, c ∉ sep)
    (before : Text) (found : run <:+: before ++ (sep ++ after)) : run <:+: before ∨ run <:+: after := by
  induction sep generalizing before with
  | nil => exact absurd rfl nonempty
  | cons c sep ih =>
      obtain inside | later := infix_or_infix (fun member => free c member (List.mem_cons_self ..)) found
      · exact Or.inl inside
      · cases sep with
        | nil => exact Or.inr later
        | cons d sep =>
            have rest := ih (List.cons_ne_nil d sep)
              (fun c' member found => free c' member (List.mem_cons_of_mem _ found)) [] later
            obtain empty | there := rest
            · rw [List.infix_nil.mp empty]
              exact Or.inl List.nil_infix
            · exact Or.inr there

/-- What has no character of the separator is not cut. -/
theorem exists_mem_splitFrom (nonempty : sep ≠ []) {run : Text} (free : ∀ c ∈ run, c ∉ sep) (skip : Nat)
    (part : Text) {text : Text} (found : run <:+: part.reverse ++ text.drop skip) :
    ∃ piece ∈ splitFrom sep skip part text, run <:+: piece := by
  induction text generalizing skip part with
  | nil =>
      rw [List.drop_nil, List.append_nil] at found
      exact ⟨part.reverse, List.mem_singleton_self _, found⟩
  | cons c rest ih =>
      cases skip with
      | succ skip => exact ih skip part found
      | zero =>
          rw [splitFrom]
          split
          · rename_i here
            obtain ⟨tail, whole⟩ := here
            rw [List.drop_zero, ← whole] at found
            obtain inside | later := infix_or_infix_append nonempty free _ found
            · exact ⟨_, List.mem_cons_self .., inside⟩
            · rw [← drop_found nonempty whole] at later
              obtain ⟨piece, member, inside⟩ := ih (sep.length - 1) [] later
              exact ⟨piece, List.mem_cons_of_mem _ member, inside⟩
          · refine ih 0 (c :: part) ?_
            rwa [List.drop_zero, List.reverse_cons, List.append_assoc]

theorem exists_mem_split (nonempty : sep ≠ []) {run text : Text} (free : ∀ c ∈ run, c ∉ sep)
    (found : run <:+: text) : ∃ piece ∈ split sep text, run <:+: piece :=
  exists_mem_splitFrom nonempty free 0 [] found

theorem free_of_mem_splitFrom {c : Char} {part text piece : Text} (free : c ∉ part)
    (member : piece ∈ splitFrom [c] 0 part text) : c ∉ piece := by
  induction text generalizing part with
  | nil =>
      obtain rfl := List.mem_singleton.mp member
      rwa [List.mem_reverse]
  | cons d rest ih =>
      rw [splitFrom] at member
      split at member
      · obtain rfl | later := List.mem_cons.mp member
        · rwa [List.mem_reverse]
        · exact ih List.not_mem_nil later
      · rename_i differs
        refine ih ?_ member
        rintro found
        obtain rfl | earlier := List.mem_cons.mp found
        · exact differs (List.cons_prefix_cons.mpr ⟨rfl, List.nil_prefix⟩)
        · exact free earlier

theorem free_of_mem_split {c : Char} {text piece : Text} (member : piece ∈ split [c] text) : c ∉ piece :=
  free_of_mem_splitFrom List.not_mem_nil member

end Pieces

end Text

end CuckooEcho.Lib
