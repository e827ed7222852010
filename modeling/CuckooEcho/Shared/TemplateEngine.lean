import CuckooEcho.Lib.Replacement
import CuckooEcho.Shared.TemplateConditions

namespace CuckooEcho.Shared.TemplateEngine
open Lib Substitution

/-! ## `_render_string` -/

def openVar : Text := "\x7b\x7b".toList
def closeVar : Text := "\x7d\x7d".toList
def openIf : Text := "\x7b% if ".toList
def openFor : Text := "\x7b% for ".toList
def inWord : Text := " in ".toList
def closeTag : Text := " %\x7d".toList
def endif : Text := "\x7b% endif %\x7d".toList
def endfor : Text := "\x7b% endfor %\x7d".toList

def varText (path : Text) : Text := openVar ++ (path ++ closeVar)

def ifText (block : Text × Text) : Text := openIf ++ (block.1 ++ (closeTag ++ (block.2 ++ endif)))

/-- The item, the list and the body of a loop. -/
abbrev Loop := Text × Text × Text

def forHead (item list : Text) : Text := openFor ++ (item ++ (inWord ++ (list ++ closeTag)))

def forText (loop : Loop) : Text := forHead loop.1 loop.2.1 ++ (loop.2.2 ++ endfor)

def varPattern : Matcher Text := fun text => do
  let rest ← after openVar text
  let path := rest.takeWhile (· ≠ '\x7d')
  if path = [] then none
  else (after closeVar (rest.drop path.length)).map fun _ => (path, (varText path).length)

/-- `([^%]+) %\}`: the group ends one blank before the first percent sign. -/
def beforeClose (text : Text) : Option (Text × Text) :=
  let group := (text.takeWhile (· ≠ '%')).dropLast
  if group = [] then none else (after closeTag (text.drop group.length)).map fun rest => (group, rest)

def ifPattern : Matcher (Text × Text) := fun text => do
  let (condition, rest) ← beforeClose (← after openIf text)
  let content ← textBefore endif rest
  return ((condition, content), (ifText (condition, content)).length)

/-- The first of two greedy groups takes what it can. -/
def splitLast (sep : Text) : Text → Option (Text × Text)
  | [] => none
  | c :: text =>
      match splitLast sep text with
      | some (front, rest) => some (c :: front, rest)
      | none => (after sep text).bind fun rest => if rest = [] then none else some ([c], rest)

/-- Without `DOTALL` the body has no line break. -/
def forPattern (dotall : Bool) : Matcher Loop := fun text => do
  let (head, rest) ← beforeClose (← after openFor text)
  let (item, list) ← splitLast inWord head
  let body ← textBefore endfor rest
  if dotall = false ∧ '\n' ∈ body then none
  else some ((item, list, body), (forText (item, list, body)).length)

def groupOf (loop : Loop) : Nat → Text
  | 0 => forText loop
  | 1 => loop.1
  | 2 => loop.2.1
  | 3 => loop.2.2
  | _ => []

section
variable (isPrintable : Char → Bool)

def strOf : PyValue → Text
  | .str s => s.toList
  | value => value.repr isPrintable

/-- `none` for a value that is no list. -/
def itemsOf (context : Context) (list : Text) : Option (List PyValue) :=
  match context.get (String.ofList list.strip) with
  | none => some []
  | some (.list items) => some items
  | some _ => none

def withItem (context : Context) (item : Text) (value : PyValue) : Context :=
  context.set (String.ofList item.strip) value

def renderIfBlocks (template : Text) (context : Context) : Text :=
  (findall ifPattern template).foldl (fun result (condition, content) =>
    if evalCondition context condition.strip then replaceAll (ifText (condition, content)) content result
    else replaceAll (ifText (condition, content)) [] result) template

def renderForLoop (render : Text → Context → Option Text) (template : Text) (context : Context) (result : Text) :
    Option Text :=
  match search (forPattern false) template with
  | none => some result
  | some (item, list, body) =>
      match itemsOf context list with
      | none => some result
      | some items => do
          let loopResult ← concatM (fun value => render body (withItem context item value)) items
          let parts ← parseTemplate 3 loopResult
          return sub (forPattern true) (fun loop => expand parts (groupOf loop)) result

def replaceVariable (context : Context) (result path : Text) : Text :=
  match getNestedValue context path.strip with
  | .none => result
  | value => replaceAll (varText path) (strOf isPrintable value) result

def renderVariables (context : Context) (text : Text) : Text :=
  (findall varPattern text).foldl (replaceVariable isPrintable context) text

/-- `none` where the replacement of the loops raises, or when there is no fuel. -/
def renderFrom : Nat → Text → Context → Option Text
  | 0, _, _ => none
  | fuel + 1, template, context => do
      let result ← renderForLoop (renderFrom fuel) template context (renderIfBlocks template context)
      return renderVariables isPrintable context result

/-- The body of a loop is shorter than the template. -/
def renderString (template : Text) (context : Context) : Option Text :=
  renderFrom isPrintable (template.length + 1) template context

end

/-! ## Templates as trees -/

/-- A name ends where the tag does. -/
structure Name (stop : Char) where
  text : Text
  nonempty : text ≠ []
  stops : stop ∉ text

inductive Leaf
  | text (t : Text)
  | var (path : Name '\x7d')

inductive Inner
  | leaf (part : Leaf)
  | ifBlock (condition : Name '%') (body : List Leaf)

inductive Node
  | inner (part : Inner)
  | forBlock (item list : Name '%') (body : List Inner)

def Leaf.print : Leaf → Text
  | .text t => t
  | .var path => varText path.text

def printLeaves (body : List Leaf) : Text := body.flatMap Leaf.print

def Inner.print : Inner → Text
  | .leaf part => part.print
  | .ifBlock condition body => ifText (condition.text, printLeaves body)

def printInners (body : List Inner) : Text := body.flatMap Inner.print

def Node.print : Node → Text
  | .inner part => part.print
  | .forBlock item list body => forText (item.text, list.text, printInners body)

def printNodes (nodes : List Node) : Text := nodes.flatMap Node.print

/-! ### What a template means -/

section
variable (isPrintable : Char → Bool) (context : Context)

/-- A variable without a value stays as it is written. -/
def shown (path : Text) : Text :=
  match getNestedValue context path.strip with
  | .none => varText path
  | value => strOf isPrintable value

def Leaf.meaning : Leaf → Text
  | .text t => t
  | .var path => shown isPrintable context path.text

def meaningOfLeaves (body : List Leaf) : Text := body.flatMap (Leaf.meaning isPrintable context)

def Inner.meaning : Inner → Text
  | .leaf part => part.meaning isPrintable context
  | .ifBlock condition body =>
      if evalCondition context condition.text.strip then meaningOfLeaves isPrintable context body else []

def meaningOfInners (body : List Inner) : Text := body.flatMap (Inner.meaning isPrintable context)

/-- The body of a loop for each element of its list, with the element under the name of the item. -/
def meaningOfLoop (item list : Text) (body : List Inner) : Option Text :=
  (itemsOf context list).map fun items =>
    items.flatMap fun value => meaningOfInners isPrintable (withItem context item value) body

/-- A loop over something that is no list stays where it is. -/
def Node.meaning : Node → Text
  | .inner part => part.meaning isPrintable context
  | .forBlock item list body =>
      (meaningOfLoop isPrintable context item.text list.text body).getD
        (forHead item.text list.text ++ (meaningOfInners isPrintable context body ++ endfor))

def meaning (nodes : List Node) : Text := nodes.flatMap (Node.meaning isPrintable context)

end

end CuckooEcho.Shared.TemplateEngine
