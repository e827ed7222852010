import CuckooEcho.Lib.Python
import CuckooEcho.Lib.Substitution
import Mathlib.Logic.Function.Basic

namespace CuckooEcho.Agent.PromptTemplate
open Lib Substitution Pattern

/-! ## `PromptTemplate.render` -/

/-- What the engine does with the values of a context; `items` is `none` where a loop over the value raises. -/
structure Values (V : Type) where
  str : V → Text
  isNone : V → Bool
  truthy : V → Bool
  items : V → Option (List V)

def pyItems : PyValue → Option (List PyValue)
  | .str s => some (s.toList.map fun c => .str (String.singleton c))
  | .list items => some items
  | .dict items => some (items.map fun member => .str member.1)
  | _ => none

def pyValues (isPrintable : Char → Bool) : Values PyValue where
  str
    | .str s => s.toList
    | value => value.repr isPrintable
  isNone
    | .none => true
    | _ => false
  truthy := PyValue.truthy
  items := pyItems

abbrev Context (V : Type) := Text → Option V

def openVar : Text := "\x7b\x7b".toList
def closeVar : Text := "\x7d\x7d".toList
def openIf : Text := "\x7b% if ".toList
def openFor : Text := "\x7b% for ".toList
def inWord : Text := " in ".toList
def closeTag : Text := " %\x7d".toList
def endif : Text := "\x7b% endif %\x7d".toList
def endfor : Text := "\x7b% endfor %\x7d".toList

section
variable (alnum : Char → Bool)

/-- `\w+` and what follows it. -/
def word (text : Text) : Option (Text × Text) :=
  let run := text.takeWhile (isWord alnum)
  if run = [] then none else some (run, text.drop run.length)

def varPattern : Matcher Text := fun text => do
  let (name, rest) ← word alnum (← after openVar text)
  let _ ← after closeVar rest
  return (name, openVar.length + name.length + closeVar.length)

def ifPattern : Matcher (Text × Text) := fun text => do
  let (condition, rest) ← word alnum (← after openIf text)
  let body ← textBefore endif (← after closeTag rest)
  return ((condition, body), openIf.length + condition.length + closeTag.length + body.length + endif.length)

def forPattern : Matcher (Text × Text × Text) := fun text => do
  let (item, rest) ← word alnum (← after openFor text)
  let (list, rest) ← word alnum (← after inWord rest)
  let body ← textBefore endfor (← after closeTag rest)
  return ((item, list, body), openFor.length + item.length + inWord.length + list.length + closeTag.length +
    body.length + endfor.length)

variable {V : Type} (values : Values V)

/-- The text of a variable: nothing for a missing value and for `None`. -/
def shown (context : Context V) (name : Text) : Text :=
  match context name with
  | some value => if values.isNone value then [] else values.str value
  | none => []

def holds (context : Context V) (condition : Text) : Bool := (context condition).any values.truthy

def itemsOf (context : Context V) (list : Text) : Option (List V) :=
  match context list with
  | some value => values.items value
  | none => some []

def renderVariables (context : Context V) (text : Text) : Text :=
  sub (varPattern alnum) (shown values context) text

def renderIfBlocks (context : Context V) (text : Text) : Text :=
  sub (ifPattern alnum) (fun (condition, body) =>
    if holds values context condition then renderVariables alnum values context body else []) text

def joinLines (texts : List Text) : Text := List.intercalate ['\n'] texts

def renderFor (context : Context V) (item list body : Text) : Option Text :=
  (itemsOf values context list).map fun items =>
    joinLines (items.map fun value => renderVariables alnum values (Function.update context item (some value)) body)

def renderForLoops (context : Context V) (text : Text) : Option Text :=
  concatM (Sum.elim (fun c => some [c]) fun (item, list, body) => renderFor alnum values context item list body)
    (pieces (forPattern alnum) text)

/-- `none` where a loop raises. -/
def render (template : Text) (context : Context V) : Option Text :=
  (renderForLoops alnum values context template).map fun result =>
    (renderVariables alnum values context (renderIfBlocks alnum values context result)).strip

end

/-! ## Templates as trees -/

/-- A name is a non-empty run of word characters. -/
structure Name (alnum : Char → Bool) where
  text : Text
  nonempty : text ≠ []
  word : ∀ c ∈ text, isWord alnum c

inductive Leaf (alnum : Char → Bool)
  | text (t : Text)
  | var (name : Name alnum)

inductive Inner (alnum : Char → Bool)
  | leaf (part : Leaf alnum)
  | ifBlock (condition : Name alnum) (body : List (Leaf alnum))

inductive Node (alnum : Char → Bool)
  | inner (part : Inner alnum)
  | forBlock (item list : Name alnum) (body : List (Inner alnum))

variable {alnum : Char → Bool}

def Leaf.print : Leaf alnum → Text
  | .text t => t
  | .var name => openVar ++ (name.text ++ closeVar)

def printLeaves (body : List (Leaf alnum)) : Text := body.flatMap Leaf.print

def Inner.print : Inner alnum → Text
  | .leaf part => part.print
  | .ifBlock condition body => openIf ++ (condition.text ++ (closeTag ++ (printLeaves body ++ endif)))

def printInners (body : List (Inner alnum)) : Text := body.flatMap Inner.print

def Node.print : Node alnum → Text
  | .inner part => part.print
  | .forBlock item list body =>
      openFor ++ (item.text ++ (inWord ++ (list.text ++ (closeTag ++ (printInners body ++ endfor)))))

def printNodes (nodes : List (Node alnum)) : Text := nodes.flatMap Node.print

/-! ### What a template means -/

section
variable {V : Type} (values : Values V)

def Leaf.meaning (context : Context V) : Leaf alnum → Text
  | .text t => t
  | .var name => shown values context name.text

def meaningOfLeaves (context : Context V) (body : List (Leaf alnum)) : Text :=
  body.flatMap (Leaf.meaning values context)

def Inner.meaning (context : Context V) : Inner alnum → Text
  | .leaf part => part.meaning values context
  | .ifBlock condition body => if holds values context condition.text then meaningOfLeaves values context body else []

def meaningOfInners (context : Context V) (body : List (Inner alnum)) : Text :=
  body.flatMap (Inner.meaning values context)

/-- The body of a loop is rendered for each item, with the item under its name for variables and conditions. -/
def Node.meaning (context : Context V) : Node alnum → Option Text
  | .inner part => some (part.meaning values context)
  | .forBlock item list body => (itemsOf values context list.text).map fun items =>
      joinLines (items.map fun value => meaningOfInners values (Function.update context item.text (some value)) body)

def meaning (nodes : List (Node alnum)) (context : Context V) : Option Text :=
  (concatM (Node.meaning values context) nodes).map Text.strip

end

end CuckooEcho.Agent.PromptTemplate
