import CuckooEcho.Shared.TemplateEngine

namespace CuckooEcho.Shared.TemplateEngine
open Lib Substitution

/-! ### What the patterns match -/

theorem beforeClose_eq_some {text group rest : Text} (found : beforeClose text = some (group, rest)) :
    text = group ++ (closeTag ++ rest) := by
  rw [beforeClose] at found
  split at found
  · cases found
  · obtain ⟨rest', closed, same⟩ := Option.map_eq_some_iff.mp found
    obtain ⟨rfl, rfl⟩ := Prod.mk.inj same
    have front : (text.takeWhile (· ≠ '%')).dropLast <+: text :=
      (List.dropLast_prefix _).trans (List.takeWhile_prefix _)
    rw [← eq_append_of_after closed]
    exact List.prefix_append_drop front

theorem splitLast_eq_some {sep text front rest : Text} (found : splitLast sep text = some (front, rest)) :
    text = front ++ (sep ++ rest) := by
  induction text generalizing front rest with
  | nil => cases found
  | cons c text ih =>
      rw [splitLast] at found
      cases later : splitLast sep text with
      | some split =>
          rw [later] at found
          obtain ⟨rfl, rfl⟩ := Prod.mk.inj (Option.some.inj found)
          rw [ih later]
          rfl
      | none =>
          rw [later] at found
          obtain ⟨rest', here, found⟩ := Option.bind_eq_some_iff.mp found
          split at found
          · cases found
          · obtain ⟨rfl, rfl⟩ := Prod.mk.inj (Option.some.inj found)
            rw [eq_append_of_after here]
            rfl

theorem spells_varPattern : Spells varPattern varText where
  nonempty _ := List.cons_ne_nil _ _
  found {text path length} matched := by
    obtain ⟨rest, opened, matched⟩ := Option.bind_eq_some_iff.mp matched
    dsimp only at matched
    split at matched
    · cases matched
    · obtain ⟨rest', closed, same⟩ := Option.map_eq_some_iff.mp matched
      obtain ⟨rfl, rfl⟩ := Prod.mk.inj same
      have front := List.prefix_append_drop (List.takeWhile_prefix (l := rest) (· ≠ '\x7d'))
      rw [eq_append_of_after closed] at front
      refine ⟨⟨rest', ?_⟩, rfl⟩
      rw [eq_append_of_after opened, varText, List.append_assoc, List.append_assoc]
      exact congrArg (openVar ++ ·) front.symm

theorem spells_ifPattern : Spells ifPattern ifText where
  nonempty _ := List.cons_ne_nil _ _
  found {text block length} matched := by
    obtain ⟨rest, opened, matched⟩ := Option.bind_eq_some_iff.mp matched
    obtain ⟨⟨condition, inside⟩, closed, matched⟩ := Option.bind_eq_some_iff.mp matched
    obtain ⟨content, ended, same⟩ := Option.bind_eq_some_iff.mp matched
    obtain ⟨rfl, rfl⟩ := Prod.mk.inj (Option.some.inj same)
    obtain ⟨rest', whole⟩ := exists_of_textBefore ended
    refine ⟨⟨rest', ?_⟩, rfl⟩
    rw [eq_append_of_after opened, beforeClose_eq_some closed, whole]
    simp only [ifText, List.append_assoc]

theorem spells_forPattern (dotall : Bool) : Spells (forPattern dotall) forText where
  nonempty _ := List.cons_ne_nil _ _
  found {text loop length} matched := by
    obtain ⟨rest, opened, matched⟩ := Option.bind_eq_some_iff.mp matched
    obtain ⟨⟨head, inside⟩, closed, matched⟩ := Option.bind_eq_some_iff.mp matched
    obtain ⟨⟨item, list⟩, names, matched⟩ := Option.bind_eq_some_iff.mp matched
    obtain ⟨body, ended, matched⟩ := Option.bind_eq_some_iff.mp matched
    split at matched
    · cases matched
    · obtain ⟨rfl, rfl⟩ := Prod.mk.inj (Option.some.inj matched)
      obtain ⟨rest', whole⟩ := exists_of_textBefore ended
      refine ⟨⟨rest', ?_⟩, rfl⟩
      rw [eq_append_of_after opened, beforeClose_eq_some closed, splitLast_eq_some names, whole]
      simp only [forText, forHead, List.append_assoc]

/-! ### The recursion -/

theorem length_lt_of_search {dotall : Bool} {template : Text} {loop : Loop}
    (found : search (forPattern dotall) template = some loop) : loop.2.2.length < template.length := by
  obtain ⟨rest, suffix, length, matched⟩ := exists_suffix_of_search found
  have begins := ((spells_forPattern dotall).found matched).1
  have bound := begins.length_le.trans suffix.length_le
  have opened : 0 < openFor.length := by decide
  simp only [forText, forHead, List.length_append] at bound
  omega

theorem renderForLoop_congr {render render' : Text → Context → Option Text} {template : Text}
    (same : ∀ body, body.length < template.length → ∀ context, render body context = render' body context)
    (context : Context) (result : Text) :
    renderForLoop render template context result = renderForLoop render' template context result := by
  rw [renderForLoop, renderForLoop]
  cases found : search (forPattern false) template with
  | none => rfl
  | some loop =>
      obtain ⟨item, list, body⟩ := loop
      have shorter := length_lt_of_search found
      simp only [same body shorter]

variable {isPrintable : Char → Bool}

theorem renderFrom_of_enough {fuel fuel' : Nat} {template : Text} (enough : template.length < fuel)
    (enough' : template.length < fuel') (context : Context) :
    renderFrom isPrintable fuel template context = renderFrom isPrintable fuel' template context := by
  induction fuel generalizing fuel' template context with
  | zero => exact absurd enough (Nat.not_lt_zero _)
  | succ fuel ih =>
      cases fuel' with
      | zero => exact absurd enough' (Nat.not_lt_zero _)
      | succ fuel' =>
          have same (body : Text) (shorter : body.length < template.length) (context : Context) :
              renderFrom isPrintable fuel body context = renderFrom isPrintable fuel' body context := by
            apply ih
            · omega
            · omega
          rw [renderFrom, renderFrom, renderForLoop_congr same]

/-- A template renders the bodies of its loops as templates; the fuel does not run out. -/
theorem renderString_eq (template : Text) (context : Context) :
    renderString isPrintable template context =
      (renderForLoop (renderString isPrintable) template context (renderIfBlocks template context)).map
        (renderVariables isPrintable context) := by
  have same (body : Text) (shorter : body.length < template.length) (context : Context) :
      renderFrom isPrintable template.length body context = renderString isPrintable body context :=
    renderFrom_of_enough shorter (Nat.lt_succ_self body.length) context
  rw [renderString, renderFrom, renderForLoop_congr same]
  exact Option.map_eq_bind.symm

/-! ### The template after each pass -/

section
variable (isPrintable : Char → Bool) (context : Context)

def Inner.choose : Inner → List Leaf
  | .leaf part => [part]
  | .ifBlock condition body => if evalCondition context condition.text.strip then body else []

def Node.decide : Node → List Node
  | .inner part => (part.choose context).map fun leaf => .inner (.leaf leaf)
  | .forBlock item list body => [.forBlock item list ((body.flatMap (Inner.choose context)).map .leaf)]

/-- The template without its if blocks, those in the bodies of loops decided as well. -/
def decided (nodes : List Node) : List Node := nodes.flatMap (Node.decide context)

def Node.onLine : Node → Option (Name '%' × Name '%' × List Inner)
  | .inner _ => none
  | .forBlock item list body => if '\n' ∈ printInners body then none else some (item, list, body)

/-- The first loop whose body is on one line. -/
def firstLoop (nodes : List Node) : Option (Name '%' × Name '%' × List Inner) := nodes.findSome? Node.onLine

/-- What the first loop on one line comes to; `none` without one, and if it is over no list. -/
def loopText (nodes : List Node) : Option Text :=
  (firstLoop nodes).bind fun (item, list, body) => meaningOfLoop isPrintable context item.text list.text body

def Node.assemble (loop : Option Text) : Node → List Leaf
  | .inner part => part.choose context
  | .forBlock item list body =>
      match loop with
      | some text => [.text text]
      | none => .text (forHead item.text list.text) :: (body.flatMap (Inner.choose context) ++ [.text endfor])

/-- The template without its blocks. -/
def assembled (nodes : List Node) : List Leaf :=
  nodes.flatMap (Node.assemble context (loopText isPrintable context nodes))

/-! ### What each pass is to find -/

/-- A variable without a value counts as text. -/
def valued : Char ⊕ Text → List (Char ⊕ Text)
  | .inl c => [.inl c]
  | .inr path => if shown isPrintable context path = varText path then (varText path).map .inl else [.inr path]

def Leaf.vars : Leaf → List (Char ⊕ Text)
  | .text t => t.map .inl
  | .var path => valued isPrintable context (.inr path.text)

def Inner.ifs : Inner → List (Char ⊕ Text × Text)
  | .leaf part => part.print.map .inl
  | .ifBlock condition body => [.inr (condition.text, printLeaves body)]

def Node.ifs : Node → List (Char ⊕ Text × Text)
  | .inner part => part.ifs
  | .forBlock item list body =>
      (forHead item.text list.text).map .inl ++ (body.flatMap Inner.ifs ++ endfor.map .inl)

def Node.fors : Node → List (Char ⊕ Loop)
  | .inner part => part.print.map .inl
  | .forBlock item list body => [.inr (item.text, list.text, printInners body)]

def kept (block : Text × Text) : Text := if evalCondition context block.1.strip then block.2 else []

/-- The passes find the blocks and the variables of the template and nothing else, and no replacement of one touches
another. -/
structure PassesRead (nodes : List Node) : Prop where
  ifBlocks : pieces ifPattern (printNodes nodes) = nodes.flatMap Node.ifs
  ifsApart : Apart ifText (kept context) ifPattern (printNodes nodes)
  loop : search (forPattern false) (printNodes nodes) =
    (firstLoop nodes).map fun (item, list, body) => (item.text, list.text, printInners body)
  forBlocks : (loopText isPrintable context nodes).isSome →
    pieces (forPattern true) (printNodes (decided context nodes)) = (decided context nodes).flatMap Node.fors
  vars : (pieces varPattern (printLeaves (assembled isPrintable context nodes))).flatMap
      (valued isPrintable context) = (assembled isPrintable context nodes).flatMap (Leaf.vars isPrintable context)
  varsApart : Apart varText (shown isPrintable context) varPattern (printLeaves (assembled isPrintable context nodes))

/-- All loops come to the text of the first one on one line, or to none if there is no such loop or it is over no list,
and this text is no replacement template that stands for something else. -/
structure ReadAsWritten (nodes : List Node) : Prop where
  passes : PassesRead isPrintable context nodes
  bodies : ∀ item list body, firstLoop nodes = some (item, list, body) →
    ∀ items, itemsOf context list.text = some items → ∀ value ∈ items,
      PassesRead isPrintable (withItem context item.text value) (body.map .inner)
  alike : ∀ item list body, .forBlock item list body ∈ nodes →
    meaningOfLoop isPrintable context item.text list.text body = loopText isPrintable context nodes
  verbatim : ∀ text, loopText isPrintable context nodes = some text → Verbatim 3 text

end

end CuckooEcho.Shared.TemplateEngine
