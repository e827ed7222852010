import CuckooEcho.Agent.PromptTemplate

namespace CuckooEcho.Agent.PromptTemplate
open Lib Substitution Pattern

variable {alnum : Char → Bool} {V : Type} (values : Values V)

/-! ### The template after each pass -/

/-- A value that has been put in is text. -/
def Leaf.fill (context : Context V) (leaf : Leaf alnum) : Leaf alnum := .text (leaf.meaning values context)

def Inner.fill (context : Context V) : Inner alnum → Inner alnum
  | .leaf part => .leaf (part.fill values context)
  | .ifBlock condition body => .ifBlock condition (body.map (Leaf.fill values context))

/-- The bodies of a loop, with its values put in and its conditions still to be decided. -/
def loopBodies (context : Context V) (item : Name alnum) (body : List (Inner alnum)) (items : List V) :
    List (List (Inner alnum)) :=
  items.map fun value => body.map (Inner.fill values (Function.update context item.text (some value)))

def Node.unroll (context : Context V) : Node alnum → Option (List (Inner alnum))
  | .inner part => some [part]
  | .forBlock item list body => (itemsOf values context list.text).map fun items =>
      List.intercalate [.leaf (.text ['\n'])] (loopBodies values context item body items)

def unroll (context : Context V) (nodes : List (Node alnum)) : Option (List (Inner alnum)) :=
  concatM (Node.unroll values context) nodes

def Inner.choose (context : Context V) : Inner alnum → List (Leaf alnum)
  | .leaf part => [part]
  | .ifBlock condition body =>
      if holds values context condition.text then body.map (Leaf.fill values context) else []

def choose (context : Context V) (body : List (Inner alnum)) : List (Leaf alnum) :=
  body.flatMap (Inner.choose values context)

/-! ### What each pass is to find -/

def Leaf.vars : Leaf alnum → List (Char ⊕ Text)
  | .text t => t.map .inl
  | .var name => [.inr name.text]

def Inner.vars : Inner alnum → List (Char ⊕ Text)
  | .leaf part => part.vars
  | .ifBlock condition body =>
      (openIf ++ (condition.text ++ closeTag)).map .inl ++ (body.flatMap Leaf.vars ++ endif.map .inl)

def Inner.ifs : Inner alnum → List (Char ⊕ Text × Text)
  | .leaf part => part.print.map .inl
  | .ifBlock condition body => [.inr (condition.text, printLeaves body)]

def Node.fors : Node alnum → List (Char ⊕ Text × Text × Text)
  | .inner part => part.print.map .inl
  | .forBlock item list body => [.inr (item.text, list.text, printInners body)]

/-- A condition in the body of a loop comes out in the context of the template as with each item of the loop. -/
def ConditionsIgnoreItems (nodes : List (Node alnum)) (context : Context V) : Prop :=
  ∀ item list body, .forBlock item list body ∈ nodes →
    ∀ items, itemsOf values context list.text = some items → ∀ value ∈ items,
      ∀ condition inside, .ifBlock condition inside ∈ body →
        holds values (Function.update context item.text (some value)) condition.text =
          holds values context condition.text

/-- The passes find the blocks and variables of the template and nothing else, neither in the template's text nor in
the values that earlier passes have put in. -/
structure ReadAsWritten (nodes : List (Node alnum)) (context : Context V) : Prop where
  forBlocks : pieces (forPattern alnum) (printNodes nodes) = nodes.flatMap Node.fors
  forBodies : ∀ item list body, .forBlock item list body ∈ nodes →
    pieces (varPattern alnum) (printInners body) = body.flatMap Inner.vars
  conditions : ConditionsIgnoreItems values nodes context
  ifBlocks : ∀ inners, unroll values context nodes = some inners →
    pieces (ifPattern alnum) (printInners inners) = inners.flatMap Inner.ifs
  ifBodies : ∀ inners, unroll values context nodes = some inners → ∀ condition body, .ifBlock condition body ∈ inners →
    holds values context condition.text → pieces (varPattern alnum) (printLeaves body) = body.flatMap Leaf.vars
  lastVariables : ∀ inners, unroll values context nodes = some inners →
    pieces (varPattern alnum) (printLeaves (choose values context inners)) =
      (choose values context inners).flatMap Leaf.vars

/-! ### The patterns at the tags -/

theorem varPattern_none {text : Text} (absent : ¬ openVar <+: text) : varPattern alnum text = none := by
  simp [varPattern, after, absent]

theorem ifPattern_none {text : Text} (absent : ¬ openIf <+: text) : ifPattern alnum text = none := by
  simp [ifPattern, after, absent]

theorem forPattern_none {text : Text} (absent : ¬ openFor <+: text) : forPattern alnum text = none := by
  simp [forPattern, after, absent]

theorem Name.not_mem (name : Name alnum) {c : Char} (other : isWord alnum c = false) : c ∉ name.text := by
  intro member
  rw [name.word c member] at other
  cases other

theorem Name.word_append (name : Name alnum) {c : Char} {tail rest : Text} (begins : rest = c :: tail)
    (other : isWord alnum c = false) : PromptTemplate.word alnum (name.text ++ rest) = some (name.text, rest) := by
  have stops : ∀ d ∈ rest.head?, isWord alnum d = false := by
    intro d head
    rw [begins] at head
    exact Option.some.inj head ▸ other
  rw [PromptTemplate.word, takeWhile_append_of_stop name.word stops, if_neg name.nonempty, List.drop_left]

theorem varPattern_print (name : Name alnum) (rest : Text) :
    varPattern alnum ((Leaf.var name).print ++ rest) = some (name.text, (Leaf.var name).print.length) := by
  have named : word alnum (name.text ++ (closeVar ++ rest)) = some (name.text, closeVar ++ rest) :=
    name.word_append (rfl : closeVar ++ rest = '\x7d' :: '\x7d' :: rest) rfl
  simp only [varPattern, Leaf.print, List.append_assoc, after_append, bind, Option.bind_some, named, pure]
  simp [Nat.add_assoc]

theorem ifPattern_print (condition : Name alnum) {body : List (Leaf alnum)} (free : Free endif (printLeaves body))
    (rest : Text) : ifPattern alnum ((Inner.ifBlock condition body).print ++ rest) =
      some ((condition.text, printLeaves body), (Inner.ifBlock condition body).print.length) := by
  have named (more : Text) : word alnum (condition.text ++ (closeTag ++ more)) =
      some (condition.text, closeTag ++ more) :=
    condition.word_append (rfl : closeTag ++ more = ' ' :: '%' :: '\x7d' :: more) rfl
  simp only [ifPattern, Inner.print, List.append_assoc, after_append, bind, Option.bind_some, named,
    textBefore_append free, pure]
  simp [Nat.add_assoc]

theorem forPattern_print (item list : Name alnum) {body : List (Inner alnum)} (free : Free endfor (printInners body))
    (rest : Text) : forPattern alnum ((Node.forBlock item list body).print ++ rest) =
      some ((item.text, list.text, printInners body), (Node.forBlock item list body).print.length) := by
  have itemNamed (more : Text) : word alnum (item.text ++ (inWord ++ more)) = some (item.text, inWord ++ more) :=
    item.word_append (rfl : inWord ++ more = ' ' :: ['i', 'n', ' '] ++ more) rfl
  have listNamed (more : Text) : word alnum (list.text ++ (closeTag ++ more)) = some (list.text, closeTag ++ more) :=
    list.word_append (rfl : closeTag ++ more = ' ' :: '%' :: '\x7d' :: more) rfl
  simp only [forPattern, Node.print, List.append_assoc, after_append, bind, Option.bind_some, itemNamed, listNamed,
    textBefore_append free, pure]
  simp [Nat.add_assoc]

/-! ### Templates and values without an opening brace -/

def Leaf.Plain : Leaf alnum → Prop
  | .text t => '\x7b' ∉ t
  | .var _ => True

def Inner.Plain : Inner alnum → Prop
  | .leaf part => part.Plain
  | .ifBlock _ body => ∀ leaf ∈ body, leaf.Plain

def Node.Plain : Node alnum → Prop
  | .inner part => part.Plain
  | .forBlock _ _ body => ∀ inner ∈ body, inner.Plain

theorem Leaf.free_print {tail : Text} (leaf : Leaf alnum) (plain : leaf.Plain) :
    Free ('\x7b' :: '%' :: tail) leaf.print := by
  cases leaf with
  | text t => exact free_of_not_mem plain
  | var name =>
      obtain ⟨c, rest, named⟩ := List.exists_cons_of_ne_nil name.nonempty
      have printed : (Leaf.var name).print = '\x7b' :: '\x7b' :: c :: (rest ++ closeVar) := by
        rw [Leaf.print, named]
        rfl
      have braceless : '\x7b' ∉ c :: rest ++ closeVar :=
        List.not_mem_append (named ▸ name.not_mem rfl) (by decide)
      have percentless : '%' ≠ c := fun same => name.not_mem rfl (same ▸ named ▸ List.mem_cons_self)
      rw [printed]
      exact free_doubled (by decide) percentless braceless

theorem Inner.free_print {tail : Text} (inner : Inner alnum) (plain : inner.Plain)
    (notIf : ¬ '\x7b' :: '%' :: tail <+: openIf) (ifNot : ¬ openIf <+: '\x7b' :: '%' :: tail)
    (notEndif : ¬ '\x7b' :: '%' :: tail <+: endif) (endifNot : ¬ endif <+: '\x7b' :: '%' :: tail) :
    Free ('\x7b' :: '%' :: tail) inner.print := by
  cases inner with
  | leaf part => exact part.free_print plain
  | ifBlock condition body =>
      have named : Free ('\x7b' :: '%' :: tail) condition.text := free_of_not_mem (condition.not_mem rfl)
      have closed : Free ('\x7b' :: '%' :: tail) closeTag := free_of_not_mem (by decide)
      have inside : Free ('\x7b' :: '%' :: tail) (printLeaves body) :=
        Free.flatMap fun leaf member => leaf.free_print (plain leaf member)
      have ended : Free ('\x7b' :: '%' :: tail) endif := free_tag notEndif endifNot (by decide) free_nil
      exact free_tag notIf ifNot (by decide) (named.append (closed.append (inside.append ended)))

theorem Leaf.scans_vars (leaf : Leaf alnum) (plain : leaf.Plain) : Scans (varPattern alnum) leaf.print leaf.vars := by
  cases leaf with
  | text t =>
      have free : Free openVar t := free_of_not_mem plain
      exact free.scans fun _ => varPattern_none
  | var name => exact Scans.of_match (List.cons_ne_nil _ _) (varPattern_print name)

theorem Inner.scans_vars (inner : Inner alnum) (plain : inner.Plain) :
    Scans (varPattern alnum) inner.print inner.vars := by
  cases inner with
  | leaf part => exact part.scans_vars plain
  | ifBlock condition body =>
      have named : Free openVar (condition.text ++ closeTag) :=
        free_of_not_mem (List.not_mem_append (condition.not_mem rfl) (by decide))
      have opened : Free openVar (openIf ++ (condition.text ++ closeTag)) :=
        free_tag (by decide) (by decide) (by decide) named
      have ended : Free openVar endif :=
        free_tag (by decide : ¬ openVar <+: endif) (by decide : ¬ endif <+: openVar) (by decide) free_nil
      have inside : Scans (varPattern alnum) (printLeaves body) (body.flatMap Leaf.vars) :=
        Scans.flatMap fun leaf member => leaf.scans_vars (plain leaf member)
      have before : Scans (varPattern alnum) (openIf ++ (condition.text ++ closeTag)) _ :=
        opened.scans fun _ => varPattern_none
      have whole := before.append (inside.append (ended.scans fun _ => varPattern_none))
      simpa only [Inner.print, Inner.vars, List.append_assoc] using whole

theorem Inner.scans_ifs (inner : Inner alnum) (plain : inner.Plain) :
    Scans (ifPattern alnum) inner.print inner.ifs := by
  cases inner with
  | leaf part =>
      have free : Free openIf part.print := part.free_print plain
      exact free.scans fun _ => ifPattern_none
  | ifBlock condition body =>
      have free : Free endif (printLeaves body) := Free.flatMap fun leaf member => leaf.free_print (plain leaf member)
      exact Scans.of_match (List.cons_ne_nil _ _) (ifPattern_print condition free)

theorem Node.scans_fors (node : Node alnum) (plain : node.Plain) : Scans (forPattern alnum) node.print node.fors := by
  cases node with
  | inner part =>
      have free : Free openFor part.print := part.free_print plain (by decide) (by decide) (by decide) (by decide)
      exact free.scans fun _ => forPattern_none
  | forBlock item list body =>
      have free : Free endfor (printInners body) := Free.flatMap fun inner member =>
        inner.free_print (plain inner member) (by decide) (by decide) (by decide) (by decide)
      exact Scans.of_match (List.cons_ne_nil _ _) (forPattern_print item list free)

section
variable {values} {context : Context V}

theorem Leaf.plain_fill (braceless : ∀ name, '\x7b' ∉ shown values context name) (leaf : Leaf alnum)
    (plain : leaf.Plain) : (leaf.fill values context).Plain := by
  cases leaf with
  | text t => exact plain
  | var name => exact braceless name.text

theorem Inner.plain_fill (braceless : ∀ name, '\x7b' ∉ shown values context name) (inner : Inner alnum)
    (plain : inner.Plain) : (inner.fill values context).Plain := by
  cases inner with
  | leaf part => exact part.plain_fill braceless plain
  | ifBlock condition body =>
      intro leaf member
      obtain ⟨original, inBody, rfl⟩ := List.mem_map.mp member
      exact original.plain_fill braceless (plain original inBody)

theorem Inner.plain_choose (braceless : ∀ name, '\x7b' ∉ shown values context name) (inner : Inner alnum)
    (plain : inner.Plain) : ∀ leaf ∈ inner.choose values context, leaf.Plain := by
  intro leaf member
  cases inner with
  | leaf part => exact List.mem_singleton.mp member ▸ plain
  | ifBlock condition body =>
      rw [choose] at member
      split at member
      · exact (Inner.ifBlock condition body).plain_fill braceless plain leaf member
      · cases member

theorem shown_update {name item : Text} {value : V} (braceless : ∀ name, '\x7b' ∉ shown values context name)
    (valueBraceless : '\x7b' ∉ values.str value) :
    '\x7b' ∉ shown values (Function.update context item (some value)) name := by
  by_cases same : name = item
  · simp only [shown, same, Function.update_self]
    cases values.isNone value with
    | true => exact List.not_mem_nil
    | false => exact valueBraceless
  · rw [shown, Function.update_of_ne same]
    exact braceless name

variable (values context) in
/-- Neither the texts of the template nor the values have an opening brace. -/
structure Plain (nodes : List (Node alnum)) : Prop where
  nodes : ∀ node ∈ nodes, node.Plain
  shown : ∀ name, '\x7b' ∉ shown values context name
  items : ∀ list items, itemsOf values context list = some items → ∀ value ∈ items, '\x7b' ∉ values.str value

theorem Plain.unroll {nodes : List (Node alnum)} (plain : Plain values context nodes) {inners : List (Inner alnum)}
    (unrolled : unroll values context nodes = some inners) : ∀ inner ∈ inners, inner.Plain := by
  refine forall_mem_concatM (P := Inner.Plain) ?_ unrolled
  intro node member part found
  have plainNode := plain.nodes node member
  cases node with
  | inner written =>
      obtain rfl : [written] = part := Option.some.inj found
      intro inner inPart
      exact List.mem_singleton.mp inPart ▸ plainNode
  | forBlock item list body =>
      obtain ⟨items, listed, rfl⟩ := Option.map_eq_some_iff.mp found
      apply forall_mem_intercalate
      · intro inner inSeparator
        have braceless : '\x7b' ∉ ['\n'] := by decide
        exact List.mem_singleton.mp inSeparator ▸ braceless
      · intro filled inBodies inner inFilled
        obtain ⟨value, inItems, rfl⟩ := List.mem_map.mp inBodies
        obtain ⟨original, inBody, rfl⟩ := List.mem_map.mp inFilled
        have braceless := plain.items list.text items listed value inItems
        exact original.plain_fill (fun _ => shown_update plain.shown braceless) (plainNode original inBody)

/-- Such a template is read as it was written, when no condition depends on a loop's item. -/
theorem Plain.readAsWritten {nodes : List (Node alnum)} (plain : Plain values context nodes)
    (conditions : ConditionsIgnoreItems values nodes context) : ReadAsWritten values nodes context where
  forBlocks := (Scans.flatMap fun node member => node.scans_fors (plain.nodes node member)).pieces_eq
  forBodies item list body member :=
    (Scans.flatMap fun inner inBody => inner.scans_vars (plain.nodes _ member inner inBody)).pieces_eq
  conditions := conditions
  ifBlocks inners unrolled :=
    (Scans.flatMap fun inner member => inner.scans_ifs (plain.unroll unrolled inner member)).pieces_eq
  ifBodies inners unrolled condition body member _ :=
    (Scans.flatMap fun leaf inBody => leaf.scans_vars (plain.unroll unrolled _ member leaf inBody)).pieces_eq
  lastVariables inners unrolled := by
    apply Scans.pieces_eq
    apply Scans.flatMap
    intro leaf chosen
    obtain ⟨inner, member, chosen⟩ := List.mem_flatMap.mp chosen
    exact leaf.scans_vars (inner.plain_choose plain.shown (plain.unroll unrolled inner member) leaf chosen)

end

end CuckooEcho.Agent.PromptTemplate
