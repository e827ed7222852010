import CuckooEcho.Lib.Dict
import CuckooEcho.Lib.Python
import CuckooEcho.Lib.Substitution
import Mathlib.Data.String.Basic

namespace CuckooEcho.Shared.TemplateEngine
open Lib

/-! ## `_eval_condition` and `_get_nested_value` -/

abbrev Context := Dict String PyValue

def getItem (value : PyValue) (key : Text) : PyValue :=
  match value with
  | .dict items => ((items.find? fun item => item.1 = String.ofList key).map Prod.snd).getD .none
  | _ => .none

def getNestedValue (context : Context) (path : Text) : PyValue :=
  (Text.split ['.'] path).foldl getItem (.dict context.items)

inductive Op
  | eq | ne | gt | lt | ge | le
  deriving DecidableEq, Repr

def Op.text : Op → Text
  | .eq => "==".toList
  | .ne => "!=".toList
  | .gt => ">".toList
  | .lt => "<".toList
  | .ge => ">=".toList
  | .le => "<=".toList

/-- The operators in the order in which they are tried. -/
def ops : List Op := [.eq, .ne, .gt, .lt, .ge, .le]

def Op.compare {α : Type} [LinearOrder α] (op : Op) (a b : α) : Bool :=
  match op with
  | .eq => a = b
  | .ne => a ≠ b
  | .gt => b < a
  | .lt => a < b
  | .ge => b ≤ a
  | .le => a ≤ b

/-- `op_func(left, right)`: a value that is no string differs from one and has no order with it. -/
def evaluate (op : Op) (left : PyValue) (right : Text) : Bool :=
  match left with
  | .str s => op.compare s (String.ofList right)
  | _ => op = .ne

def stripOf (p : Char → Bool) (text : Text) : Text := ((text.dropWhile p).reverse.dropWhile p).reverse

def isQuote (c : Char) : Bool := c = '"' || c = PyValue.apostrophe

/-- The texts beside an operator that splits the condition in two. -/
def readAt (condition : Text) (op : Op) : Option (Op × Text × Text) :=
  match Text.split op.text condition with
  | [left, right] => some (op, left.strip, stripOf isQuote right.strip)
  | _ => none

def reading (condition : Text) : Option (Op × Text × Text) := ops.findSome? (readAt condition)

def evalCondition (context : Context) (condition : Text) : Bool :=
  match reading condition with
  | some (op, left, right) => evaluate op (getNestedValue context left) right
  | none => (getItem (.dict context.items) condition.strip).truthy

/-! ### Conditions as they are written -/

def isOperatorChar (c : Char) : Bool := c = '=' || c = '!' || c = '<' || c = '>'

/-- A literal stands as it is, or between quotes that are not in it. -/
inductive Literal : Type
  | bare (text : Text) (trimmed : text.strip = text) (unquoted : stripOf isQuote text = text)
  | quoted (quote : Char) (isQuote : isQuote quote) (text : Text) (closed : quote ∉ text)

def Literal.text : Literal → Text
  | .bare text _ _ => text
  | .quoted _ _ text _ => text

def Literal.print : Literal → Text
  | .bare text _ _ => text
  | .quoted quote _ text _ => quote :: (text ++ [quote])

structure Comparison where
  path : Text
  op : Op
  literal : Literal
  plain : ∀ c ∈ path, isOperatorChar c = false
  trimmed : path.strip = path

def Comparison.print (c : Comparison) : Text := c.path ++ ' ' :: (c.op.text ++ ' ' :: c.literal.print)

inductive Operand
  | str (s : String)
  | int (n : Int)

def Operand.value : Operand → PyValue
  | .str s => .str s
  | .int n => .int n

section
variable (readInt : Text → Option Int)

/-- What the condition says of the value; an integer is compared with the literal read as an integer. -/
def Comparison.Means (c : Comparison) : Operand → Prop
  | .str s => c.op.compare s (String.ofList c.literal.text)
  | .int n => ∃ m, readInt c.literal.text = some m ∧ c.op.compare n m

/-- A string is compared as it is meant. An integer is compared with a text: it differs, and nothing else. -/
def Comparison.Agrees (c : Comparison) : Operand → Prop
  | .str _ => True
  | .int n => if c.op = .ne then ∃ m, readInt c.literal.text = some m ∧ n ≠ m
      else ∀ m, readInt c.literal.text = some m → c.op.compare n m = false

end

/-! ### Literals without the characters of operators -/

def Comparison.Clear (c : Comparison) : Prop := ∀ b ∈ c.literal.print, isOperatorChar b = false

instance (c : Comparison) : Decidable c.Clear := inferInstanceAs (Decidable (∀ b ∈ c.literal.print, _))

/-- The operator that is found where another one is written. -/
def Op.read : Op → Op
  | .ge => .gt
  | .le => .lt
  | op => op

/-- The equals sign that is not taken for a part of the operator is one of the literal. -/
def Comparison.readText (c : Comparison) : Text :=
  stripOf isQuote (if c.op.read = c.op then c.literal.print.strip else Text.strip ('=' :: ' ' :: c.literal.print))

section
variable {c : Comparison}

theorem stripOf_cons {p : Char → Bool} {a : Char} (stripped : p a) (text : Text) :
    stripOf p (a :: text) = stripOf p text := by
  rw [stripOf, List.dropWhile_cons_of_pos stripped, stripOf]

theorem stripOf_concat {p : Char → Bool} {a : Char} (stripped : p a) (text : Text) :
    stripOf p (text ++ [a]) = stripOf p text := by
  rw [stripOf, stripOf, List.dropWhile_append]
  split
  · rename_i empty
    rw [List.isEmpty_iff.mp empty, List.dropWhile_cons_of_pos stripped]
    rfl
  · rw [List.reverse_append, List.reverse_singleton, List.singleton_append, List.dropWhile_cons_of_pos stripped]

open Substitution

theorem free_of_plain {text : Text} (plain : ∀ a ∈ text, isOperatorChar a = false) (op : Op) : Free op.text text := by
  have absent (a : Char) (isOperator : isOperatorChar a) : a ∉ text := fun member => by
    rw [plain a member] at isOperator
    cases isOperator
  cases op with
  | eq => exact free_of_not_mem (absent '=' rfl)
  | ne => exact free_of_not_mem (absent '!' rfl)
  | gt => exact free_of_not_mem (absent '>' rfl)
  | lt => exact free_of_not_mem (absent '<' rfl)
  | ge => exact free_of_not_mem (absent '>' rfl)
  | le => exact free_of_not_mem (absent '<' rfl)

theorem free_eq {before after : Text} {a : Char} (plainBefore : ∀ b ∈ before, isOperatorChar b = false)
    (plainAfter : ∀ b ∈ after, isOperatorChar b = false) (other : a ≠ '=') :
    Free Op.eq.text (before ++ a :: '=' :: ' ' :: after) := by
  apply (free_of_plain plainBefore .eq).append
  apply free_cons
  · intro rest found
    exact other (List.cons_prefix_cons.mp found).1.symm
  apply free_cons
  · intro rest found
    exact absurd (List.cons_prefix_cons.mp (List.cons_prefix_cons.mp found).2).1 (by decide)
  apply free_of_plain
  exact List.forall_mem_cons.mpr ⟨by decide, plainAfter⟩

theorem split_other {before after : Text} (plainBefore : ∀ b ∈ before, isOperatorChar b = false)
    (plainAfter : ∀ b ∈ after, isOperatorChar b = false) (op : Op) (written : Text) {a : Char} (needed : a ∈ op.text)
    (isOperator : isOperatorChar a) (absent : a ∉ written) :
    Text.split op.text (before ++ (written ++ after)) = [before ++ (written ++ after)] := by
  apply Text.split_of_not_mem needed
  simp only [List.mem_append, not_or]
  refine ⟨fun member => ?_, absent, fun member => ?_⟩
  · rw [plainBefore a member] at isOperator
    cases isOperator
  · rw [plainAfter a member] at isOperator
    cases isOperator

theorem split_written {before after : Text} (plainBefore : ∀ b ∈ before, isOperatorChar b = false) (op : Op)
    (free : Free op.text after) : Text.split op.text (before ++ (op.text ++ after)) = [before, after] := by
  have nonempty : op.text ≠ [] := by
    cases op with
    | _ => decide
  rw [split_append nonempty (free_of_plain plainBefore op), split_of_free free]

theorem print_eq (c : Comparison) : c.print = (c.path ++ [' ']) ++ (c.op.text ++ (' ' :: c.literal.print)) := by
  rw [Comparison.print, List.append_assoc, List.singleton_append]

theorem plain_before (c : Comparison) : ∀ b ∈ c.path ++ [' '], isOperatorChar b = false :=
  List.forall_mem_append.mpr ⟨c.plain, List.forall_mem_singleton.mpr (by decide)⟩

theorem plain_after (plain : ∀ b ∈ c.literal.print, isOperatorChar b = false) :
    ∀ b ∈ ' ' :: c.literal.print, isOperatorChar b = false :=
  List.forall_mem_cons.mpr ⟨by decide, plain⟩

theorem readAt_of_free {condition : Text} {op : Op} (free : Free op.text condition) : readAt condition op = none := by
  rw [readAt, split_of_free free]

theorem strip_before (c : Comparison) : (c.path ++ [' ']).strip = c.path :=
  (stripOf_concat (p := Pattern.isSpace) (by decide) c.path).trans c.trimmed

theorem readAt_eq_none (plain : ∀ b ∈ c.literal.print, isOperatorChar b = false)
    (other : c.op = .ne ∨ c.op = .ge ∨ c.op = .le) : readAt c.print .eq = none := by
  apply readAt_of_free
  rw [print_eq]
  rcases other with op | op | op
  · rw [op]
    exact free_eq (plain_before c) plain (by decide)
  · rw [op]
    exact free_eq (plain_before c) plain (by decide)
  · rw [op]
    exact free_eq (plain_before c) plain (by decide)

theorem readAt_other (plain : ∀ b ∈ c.literal.print, isOperatorChar b = false) (op : Op) {a : Char}
    (needed : a ∈ op.text) (isOperator : isOperatorChar a) (absent : a ∉ c.op.text) : readAt c.print op = none := by
  rw [readAt, print_eq, split_other (plain_before c) (plain_after plain) op c.op.text needed isOperator absent]

/-- An operator that is no beginning of another one is found where it is written. -/
theorem reading_of_simple (plain : ∀ b ∈ c.literal.print, isOperatorChar b = false)
    (simple : c.op ∈ [.eq, .ne, .gt, .lt]) :
    reading c.print = some (c.op, c.path, stripOf isQuote c.literal.print.strip) := by
  have written : readAt c.print c.op = some (c.op, c.path, stripOf isQuote c.literal.print.strip) := by
    rw [readAt, print_eq, split_written (plain_before c) c.op (free_of_plain (plain_after plain) c.op)]
    dsimp only
    rw [strip_before]
    exact congrArg (fun text => some (c.op, c.path, stripOf isQuote text)) (stripOf_cons (by decide) c.literal.print)
  have noEquals (absent : '=' ∉ c.op.text) : readAt c.print .eq = none ∧ readAt c.print .ne = none :=
    ⟨readAt_other plain .eq (List.mem_cons_self) rfl absent, readAt_other plain .ne (by decide) rfl absent⟩
  rw [reading, ops]
  cases op : c.op with
  | eq => rw [List.findSome?_cons, ← op, written]
  | ne => rw [List.findSome?_cons, readAt_eq_none plain (Or.inl op), List.findSome?_cons, ← op, written]
  | gt =>
      obtain ⟨noEq, noNe⟩ := noEquals (by rw [op]; decide)
      rw [List.findSome?_cons, noEq, List.findSome?_cons, noNe, List.findSome?_cons, ← op, written]
  | lt =>
      obtain ⟨noEq, noNe⟩ := noEquals (by rw [op]; decide)
      have noGt : readAt c.print .gt = none := readAt_other plain .gt List.mem_cons_self rfl (by rw [op]; decide)
      rw [List.findSome?_cons, noEq, List.findSome?_cons, noNe, List.findSome?_cons, noGt, List.findSome?_cons, ← op,
        written]
  | ge => simp [op] at simple
  | le => simp [op] at simple

theorem not_mem_rest (plain : ∀ b ∈ c.literal.print, isOperatorChar b = false) {a : Char}
    (isOperator : isOperatorChar a) (other : a ≠ '=') (blank : a ≠ ' ') : a ∉ '=' :: ' ' :: c.literal.print := by
  simp only [List.mem_cons, not_or]
  exact ⟨other, blank, fun member => absurd isOperator (by simp [plain a member])⟩

/-- `>=` is read as `>` and `<=` as `<`, with the equals sign in the literal. -/
theorem reading_orEqual (plain : ∀ b ∈ c.literal.print, isOperatorChar b = false) {strict : Op}
    (orEqual : c.op = .ge ∧ strict = .gt ∨ c.op = .le ∧ strict = .lt) :
    reading c.print = some (strict, c.path, stripOf isQuote (Text.strip ('=' :: ' ' :: c.literal.print))) := by
  have noEq : readAt c.print .eq = none := readAt_eq_none plain (Or.inr (orEqual.imp And.left And.left))
  have noNe : readAt c.print .ne = none := by
    apply readAt_other plain .ne List.mem_cons_self rfl
    rcases orEqual with ⟨op, -⟩ | ⟨op, -⟩ <;> rw [op] <;> decide
  have found : readAt c.print strict =
      some (strict, c.path, stripOf isQuote (Text.strip ('=' :: ' ' :: c.literal.print))) := by
    have text : c.op.text ++ (' ' :: c.literal.print) = strict.text ++ ('=' :: ' ' :: c.literal.print) := by
      rcases orEqual with ⟨op, rfl⟩ | ⟨op, rfl⟩ <;> rw [op] <;> rfl
    have free : Free strict.text ('=' :: ' ' :: c.literal.print) := by
      rcases orEqual with ⟨-, rfl⟩ | ⟨-, rfl⟩
      · exact free_of_not_mem (not_mem_rest plain (a := '>') rfl (by decide) (by decide))
      · exact free_of_not_mem (not_mem_rest plain (a := '<') rfl (by decide) (by decide))
    rw [readAt, print_eq, text, split_written (plain_before c) strict free]
    dsimp only
    rw [strip_before]
  rw [reading, ops, List.findSome?_cons, noEq, List.findSome?_cons, noNe]
  rcases orEqual with ⟨-, rfl⟩ | ⟨op, rfl⟩
  · rw [List.findSome?_cons, found]
  · have noGt : readAt c.print .gt = none := readAt_other plain .gt List.mem_cons_self rfl (by rw [op]; decide)
    rw [List.findSome?_cons, noGt, List.findSome?_cons, found]

/-- What is read where the literal has no operator characters. -/
theorem reading_of_clear (clear : c.Clear) : reading c.print = some (c.op.read, c.path, c.readText) := by
  unfold Comparison.readText
  cases op : c.op with
  | eq | ne | gt | lt =>
      rw [reading_of_simple clear (by simp [op]), op]
      rfl
  | ge =>
      rw [reading_orEqual clear (Or.inl ⟨op, rfl⟩)]
      rfl
  | le =>
      rw [reading_orEqual clear (Or.inr ⟨op, rfl⟩)]
      rfl

end

/-! ### Conditions that mean what they say -/

section
variable (readInt : Text → Option Int)

/-- Without operator characters in the literal, a string has to compare with the text that is read as it does with the
literal, and an integer differs from every text. With such characters, the condition is taken for what is written, and
the value agrees with that; or it is taken for another comparison, or for the name of a variable, and this comes out
the same. -/
def Comparison.Right (c : Comparison) (context : Context) (value : Operand) : Prop :=
  if c.Clear then
    match value with
    | .str s => c.op.read.compare s (String.ofList c.readText) = c.op.compare s (String.ofList c.literal.text)
    | .int _ => c.Agrees readInt value
  else
    match reading c.print with
    | some (op, left, right) =>
        if (op, left, right) = (c.op, c.path, c.literal.text) then c.Agrees readInt value
        else match getNestedValue context left with
          | .str s => op.compare s (String.ofList right) ↔ c.Means readInt value
          | _ => op = .ne ↔ c.Means readInt value
    | none => (getItem (.dict context.items) c.print.strip).truthy ↔ c.Means readInt value

end

section
variable {readInt : Text → Option Int} {c : Comparison} {context : Context} {value : Operand}

/-- Whatever text an integer is compared with, only `!=` can hold. -/
theorem ne_iff_means {n : Int} : (c.op = .ne ↔ c.Means readInt (.int n)) ↔ c.Agrees readInt (.int n) := by
  rw [Comparison.Means, Comparison.Agrees]
  by_cases ne : c.op = .ne
  · simp [ne, Op.compare]
  · simp [ne]

theorem read_eq_ne (op : Op) : op.read = .ne ↔ op = .ne := by
  cases op <;> simp [Op.read]

theorem evaluate_int (op : Op) (n : Int) (right : Text) : evaluate op (.int n) right = decide (op = .ne) := rfl

theorem evaluate_iff_of_written :
    (evaluate c.op value.value c.literal.text ↔ c.Means readInt value) ↔ c.Agrees readInt value := by
  cases value with
  | str s => exact iff_of_true Iff.rfl trivial
  | int n => rw [Operand.value, evaluate_int, decide_eq_true_iff, ne_iff_means]

theorem evaluate_iff (op : Op) (left : PyValue) (right : Text) (P : Prop) : (evaluate op left right ↔ P) ↔
    match left with
    | .str s => op.compare s (String.ofList right) ↔ P
    | _ => op = .ne ↔ P := by
  cases left with
  | str s => exact Iff.rfl
  | _ => simp [evaluate]

/-- A condition means what it says exactly if it is read as it is written and its value is no integer that a comparison
with a text gets wrong, or if what it is read as comes out the same. -/
theorem evalCondition_iff (readInt : Text → Option Int) (c : Comparison) (context : Context) (value : Operand)
    (found : getNestedValue context c.path = value.value) :
    (evalCondition context c.print ↔ c.Means readInt value) ↔ c.Right readInt context value := by
  unfold Comparison.Right
  by_cases clear : c.Clear
  · rw [if_pos clear, evalCondition, reading_of_clear clear]
    dsimp only
    rw [found]
    cases value with
    | str s => exact Bool.eq_iff_iff.symm
    | int n => rw [Operand.value, evaluate_int, decide_eq_true_iff, read_eq_ne, ne_iff_means]
  · rw [if_neg clear, evalCondition]
    cases reading c.print with
    | none => exact Iff.rfl
    | some read =>
        obtain ⟨op, left, right⟩ := read
        dsimp only
        split
        · rename_i same
          obtain ⟨rfl, rfl, rfl⟩ : op = c.op ∧ left = c.path ∧ right = c.literal.text := by simpa using same
          rw [found]
          exact evaluate_iff_of_written
        · exact evaluate_iff op _ right _

end

/-- `age >= 18` -/
def adult : Comparison where
  path := "age".toList
  op := .ge
  literal := .bare "18".toList (by decide) (by decide)
  plain := by simp [isOperatorChar]
  trimmed := by decide

def twenty : Context := Dict.empty.set "age" (.int 20)

def readDigits (text : Text) : Option Int :=
  if text ≠ [] ∧ text.all Char.isDigit then some (text.foldl (fun n d => n * 10 + (d.toNat - '0'.toNat)) 0) else none

theorem evalCondition_iff_adult :
    (evalCondition twenty adult.print ↔ adult.Means readDigits (.int 20)) ↔ adult.Right readDigits twenty (.int 20) :=
  evalCondition_iff readDigits adult twenty (.int 20) rfl

/-- Twenty is not at least eighteen. -/
theorem adult_refused : ¬ ∀ (readInt : Text → Option Int) (c : Comparison) (context : Context) (value : Operand),
    getNestedValue context c.path = value.value → (evalCondition context c.print ↔ c.Means readInt value) := by
  intro claim
  have means := (claim readDigits adult twenty (.int 20) rfl).mpr ⟨18, rfl, by decide⟩
  exact absurd means (by decide)

end CuckooEcho.Shared.TemplateEngine
