import CuckooEcho.Shared.TemplateReading

namespace CuckooEcho.Shared.TemplateEngine
open Lib Substitution

/-! ## Templates and values without an opening brace -/

def Leaf.Plain : Leaf → Prop
  | .text t => '\x7b' ∉ t
  | .var path => '\x7b' ∉ path.text ∧ '%' ∉ path.text

def Inner.Plain : Inner → Prop
  | .leaf part => part.Plain
  | .ifBlock condition body => '\x7b' ∉ condition.text ∧ ∀ leaf ∈ body, leaf.Plain

def Node.Plain : Node → Prop
  | .inner part => part.Plain
  | .forBlock item list body =>
      ('\x7b' ∉ item.text ∧ '\x7b' ∉ list.text ∧ ' ' ∉ list.text) ∧ ∀ inner ∈ body, inner.Plain

/-! ### The patterns at the tags -/

theorem varPattern_none {text : Text} (absent : ¬ openVar <+: text) : varPattern text = none := by
  simp [varPattern, after, absent]

theorem ifPattern_none {text : Text} (absent : ¬ openIf <+: text) : ifPattern text = none := by
  simp [ifPattern, after, absent]

theorem forPattern_none {dotall : Bool} {text : Text} (absent : ¬ openFor <+: text) :
    forPattern dotall text = none := by
  simp [forPattern, after, absent]

theorem takeWhile_stop {stop : Char} {run : Text} (inside : stop ∉ run) (rest : Text) :
    (run ++ stop :: rest).takeWhile (· ≠ stop) = run := by
  apply takeWhile_append_of_stop
  · intro c member
    have other : c ≠ stop := fun same => inside (same ▸ member)
    simpa using other
  · simp

theorem varPattern_append (path : Name '\x7d') (rest : Text) :
    varPattern (varText path.text ++ rest) = some (path.text, (varText path.text).length) := by
  have named : (path.text ++ (closeVar ++ rest)).takeWhile (· ≠ '\x7d') = path.text :=
    takeWhile_stop path.stops ('\x7d' :: rest)
  have split : varText path.text ++ rest = openVar ++ (path.text ++ (closeVar ++ rest)) := by
    rw [varText, List.append_assoc, List.append_assoc]
  rw [varPattern, split, after_append]
  simp only [bind, Option.bind_some, named, if_neg path.nonempty, List.drop_left, after_append, Option.map_some]

theorem beforeClose_append {group : Text} (nonempty : group ≠ []) (percentless : '%' ∉ group) (rest : Text) :
    beforeClose (group ++ (closeTag ++ rest)) = some (group, rest) := by
  have blank : '%' ∉ group ++ [' '] := List.not_mem_append percentless (by decide)
  have run : (group ++ (closeTag ++ rest)).takeWhile (· ≠ '%') = group ++ [' '] := by
    have whole : group ++ (closeTag ++ rest) = (group ++ [' ']) ++ '%' :: '\x7d' :: rest := by
      rw [List.append_assoc]
      rfl
    rw [whole]
    exact takeWhile_stop blank _
  rw [beforeClose, run, List.dropLast_concat, if_neg nonempty, List.drop_left, after_append, Option.map_some]

theorem ifPattern_append (condition : Name '%') {body : Text} (free : Free endif body) (rest : Text) :
    ifPattern (ifText (condition.text, body) ++ rest) =
      some ((condition.text, body), (ifText (condition.text, body)).length) := by
  have split : ifText (condition.text, body) ++ rest =
      openIf ++ (condition.text ++ (closeTag ++ (body ++ (endif ++ rest)))) := by
    simp only [ifText, List.append_assoc]
  rw [ifPattern, split, after_append]
  simp only [bind, Option.bind_some, beforeClose_append condition.nonempty condition.stops, textBefore_append free,
    pure]

theorem splitLast_eq_none {sep text : Text}
    (absent : ∀ front rest, text = front ++ rest → front ≠ [] → ¬ sep <+: rest) : splitLast sep text = none := by
  induction text with
  | nil => rfl
  | cons c text ih =>
      have later : splitLast sep text = none := by
        apply ih
        intro front rest split _
        exact absent (c :: front) rest (congrArg (c :: ·) split) (List.cons_ne_nil c front)
      have here : ¬ sep <+: text := absent [c] text rfl (List.cons_ne_nil c [])
      rw [splitLast, later, after, if_neg here, Option.bind_none]

/-- Two blanks belong to the word; what comes after the first has only one. -/
theorem splitLast_inWord {list : Text} (one : ' ' ∉ list) : splitLast inWord (inWord ++ list) = none := by
  apply splitLast_eq_none
  intro front rest split begun found
  have needed : inWord.count ' ' ≤ rest.count ' ' := found.sublist.count_le ' '
  obtain ⟨d, front, rfl⟩ := List.exists_cons_of_ne_nil begun
  have first : ' ' = d := (List.cons.inj (split : ' ' :: 'i' :: 'n' :: ' ' :: list = d :: (front ++ rest))).1
  have blanks := congrArg (List.count ' ') split
  rw [List.count_append, List.count_append, List.count_eq_zero_of_not_mem one, ← first, List.count_cons_self] at blanks
  omega

theorem splitLast_append {item list : Text} (nonempty : item ≠ []) (listed : list ≠ []) (one : ' ' ∉ list) :
    splitLast inWord (item ++ (inWord ++ list)) = some (item, list) := by
  induction item with
  | nil => exact absurd rfl nonempty
  | cons c item ih =>
      cases item with
      | nil =>
          rw [List.singleton_append, splitLast, splitLast_inWord one, after_append, Option.bind_some, if_neg listed]
      | cons d item => rw [List.cons_append, splitLast, ih (List.cons_ne_nil d item)]

theorem forPattern_append (dotall : Bool) (item list : Name '%') {body : Text} (one : ' ' ∉ list.text)
    (free : Free endfor body) (rest : Text) :
    forPattern dotall (forText (item.text, list.text, body) ++ rest) =
      if dotall = false ∧ '\n' ∈ body then none
      else some ((item.text, list.text, body), (forText (item.text, list.text, body)).length) := by
  have split : forText (item.text, list.text, body) ++ rest =
      openFor ++ ((item.text ++ (inWord ++ list.text)) ++ (closeTag ++ (body ++ (endfor ++ rest)))) := by
    simp only [forText, forHead, List.append_assoc]
  have headless : item.text ++ (inWord ++ list.text) ≠ [] := fun empty =>
    item.nonempty (List.append_eq_nil_iff.mp empty).1
  have percentless : '%' ∉ item.text ++ (inWord ++ list.text) :=
    List.not_mem_append item.stops (List.not_mem_append (by decide) list.stops)
  rw [forPattern, split, after_append]
  simp only [bind, Option.bind_some, beforeClose_append headless percentless,
    splitLast_append item.nonempty list.nonempty one, textBefore_append free]

/-! ### Where no tag begins -/

theorem Leaf.free_print {tail : Text} (leaf : Leaf) (plain : leaf.Plain) : Free ('\x7b' :: '%' :: tail) leaf.print := by
  cases leaf with
  | text t => exact free_of_not_mem plain
  | var path =>
      obtain ⟨braceless, percentless⟩ := plain
      obtain ⟨c, rest, named⟩ := List.exists_cons_of_ne_nil path.nonempty
      have printed : (Leaf.var path).print = '\x7b' :: '\x7b' :: c :: (rest ++ closeVar) := by
        rw [Leaf.print, named]
        rfl
      have absent : '\x7b' ∉ c :: rest ++ closeVar := List.not_mem_append (named ▸ braceless) (by decide)
      have next : '%' ≠ c := fun same => percentless (named ▸ same ▸ List.mem_cons_self)
      rw [printed]
      exact free_doubled (by decide) next absent

theorem free_printLeaves {tail : Text} {body : List Leaf} (plain : ∀ leaf ∈ body, leaf.Plain) :
    Free ('\x7b' :: '%' :: tail) (printLeaves body) :=
  Free.flatMap fun leaf member => leaf.free_print (plain leaf member)

theorem Inner.free_print {tail : Text} (inner : Inner) (plain : inner.Plain)
    (notIf : ¬ '\x7b' :: '%' :: tail <+: openIf) (ifNot : ¬ openIf <+: '\x7b' :: '%' :: tail)
    (notEndif : ¬ '\x7b' :: '%' :: tail <+: endif) (endifNot : ¬ endif <+: '\x7b' :: '%' :: tail) :
    Free ('\x7b' :: '%' :: tail) inner.print := by
  cases inner with
  | leaf part => exact part.free_print plain
  | ifBlock condition body =>
      have named : Free ('\x7b' :: '%' :: tail) condition.text := free_of_not_mem plain.1
      have closed : Free ('\x7b' :: '%' :: tail) closeTag := free_of_not_mem (by decide)
      have ended : Free ('\x7b' :: '%' :: tail) endif := free_tag notEndif endifNot (by decide) free_nil
      exact free_tag notIf ifNot (by decide) (named.append (closed.append ((free_printLeaves plain.2).append ended)))

theorem free_openFor {inner : Inner} (plain : inner.Plain) : Free openFor inner.print :=
  inner.free_print plain (by decide) (by decide) (by decide) (by decide)

theorem free_endfor {body : List Inner} (plain : ∀ inner ∈ body, inner.Plain) : Free endfor (printInners body) :=
  Free.flatMap fun inner member =>
    inner.free_print (plain inner member) (by decide) (by decide) (by decide) (by decide)

theorem braceless_names {item list : Text} (itemPlain : '\x7b' ∉ item) (listPlain : '\x7b' ∉ list) :
    '\x7b' ∉ item ++ (inWord ++ (list ++ closeTag)) :=
  List.not_mem_append itemPlain (List.not_mem_append (by decide) (List.not_mem_append listPlain (by decide)))

theorem free_forHead {c : Char} {tail item list : Text} (shorter : ¬ '\x7b' :: c :: tail <+: openFor)
    (longer : ¬ openFor <+: '\x7b' :: c :: tail) (itemPlain : '\x7b' ∉ item) (listPlain : '\x7b' ∉ list) :
    Free ('\x7b' :: c :: tail) (forHead item list) :=
  free_tag shorter longer (by decide) (free_of_not_mem (braceless_names itemPlain listPlain))

theorem free_endforTag {c : Char} {tail : Text} (shorter : ¬ '\x7b' :: c :: tail <+: endfor)
    (longer : ¬ endfor <+: '\x7b' :: c :: tail) : Free ('\x7b' :: c :: tail) endfor :=
  free_tag shorter longer (by decide) free_nil

/-- The block `b` has the text of another block neither at its beginning nor inside. -/
theorem free_ifText {a : Text × Text} {condition condition' : Name '%'} {body body' : List Leaf}
    (block : a = (condition'.text, printLeaves body')) (plainBody : ∀ leaf ∈ body', leaf.Plain)
    (plain : '\x7b' ∉ condition.text) (plainLeaves : ∀ leaf ∈ body, leaf.Plain)
    (other : (condition.text, printLeaves body) ≠ a) : Free (ifText a) (ifText (condition.text, printLeaves body)) := by
  apply free_cons
  · intro rest found
    obtain ⟨rest', whole⟩ := found
    have here := ifPattern_append condition (free_printLeaves plainLeaves) rest
    have there := ifPattern_append condition' (free_printLeaves plainBody) rest'
    rw [← block] at there
    have same := there.symm.trans ((congrArg ifPattern whole).trans here)
    exact other (Prod.mk.inj (Option.some.inj same)).1.symm
  · have inside : Free openIf ("% if ".toList ++ (condition.text ++ (closeTag ++ (printLeaves body ++ endif)))) := by
      apply Free.append
      · exact free_of_not_mem (by decide)
      apply Free.append
      · exact free_of_not_mem plain
      apply Free.append
      · exact free_of_not_mem (by decide)
      apply (free_printLeaves plainLeaves).append
      exact free_tag (by decide : ¬ openIf <+: endif) (by decide : ¬ endif <+: openIf) (by decide) free_nil
    exact inside.of_prefix (List.prefix_append openIf _)

theorem free_varText {a b : Name '\x7d'} (plain : '\x7b' ∉ b.text) (other : b.text ≠ a.text) :
    Free (varText a.text) (varText b.text) := by
  obtain ⟨c, tail, named⟩ := List.exists_cons_of_ne_nil b.nonempty
  show Free ('\x7b' :: '\x7b' :: (a.text ++ closeVar)) ('\x7b' :: '\x7b' :: (b.text ++ closeVar))
  apply free_cons
  · intro rest found
    obtain ⟨rest', whole⟩ := found
    have here := varPattern_append b rest
    have there := varPattern_append a rest'
    have same := there.symm.trans ((congrArg varPattern whole).trans here)
    exact other (Prod.mk.inj (Option.some.inj same)).1.symm
  apply free_cons
  · intro rest found
    rw [named] at found
    have second : '\x7b' = c := (List.cons_prefix_cons.mp (List.cons_prefix_cons.mp found).2).1
    exact plain (named ▸ second ▸ List.mem_cons_self)
  · exact free_of_not_mem (List.not_mem_append plain (by decide))

/-! ### What the passes find -/

def Inner.segments : Inner → List (Text ⊕ Text × Text)
  | .leaf part => [.inl part.print]
  | .ifBlock condition body => [.inr (condition.text, printLeaves body)]

def Node.segments : Node → List (Text ⊕ Text × Text)
  | .inner part => part.segments
  | .forBlock item list body => .inl (forHead item.text list.text) :: (body.flatMap Inner.segments ++ [.inl endfor])

def PlainSegment : Text ⊕ Text × Text → Prop
  | .inl t => Free openIf t
  | .inr block => ∃ (condition : Name '%') (body : List Leaf), block = (condition.text, printLeaves body) ∧
      '\x7b' ∉ condition.text ∧ ∀ leaf ∈ body, leaf.Plain

theorem Inner.flatMap_segment (inner : Inner) : inner.segments.flatMap segment = inner.ifs := by
  cases inner with
  | leaf part => exact List.flatMap_singleton _ _
  | ifBlock condition body => exact List.flatMap_singleton _ _

theorem Node.flatMap_segment (node : Node) : node.segments.flatMap segment = node.ifs := by
  cases node with
  | inner part => exact part.flatMap_segment
  | forBlock item list body =>
      have inside : (body.flatMap Inner.segments).flatMap segment = body.flatMap Inner.ifs := by
        rw [List.flatMap_assoc]
        exact List.flatMap_congr fun inner _ => inner.flatMap_segment
      rw [Node.segments, List.flatMap_cons, List.flatMap_append, inside, List.flatMap_singleton]
      rfl

theorem Inner.plainSegment {inner : Inner} (plain : inner.Plain) : ∀ piece ∈ inner.segments, PlainSegment piece := by
  intro piece member
  cases inner with
  | leaf part =>
      obtain rfl := List.mem_singleton.mp member
      have free : Free openIf part.print := part.free_print plain
      exact free
  | ifBlock condition body =>
      obtain rfl := List.mem_singleton.mp member
      exact ⟨condition, body, rfl, plain⟩

theorem Node.plainSegment {node : Node} (plain : node.Plain) : ∀ piece ∈ node.segments, PlainSegment piece := by
  intro piece member
  cases node with
  | inner part => exact part.plainSegment plain piece member
  | forBlock item list body =>
      obtain ⟨⟨itemPlain, listPlain, -⟩, plainBody⟩ := plain
      rw [Node.segments, List.mem_cons, List.mem_append, List.mem_flatMap, List.mem_singleton] at member
      have opened : Free openIf (forHead item.text list.text) :=
        free_forHead (by decide) (by decide) itemPlain listPlain
      have ended : Free openIf endfor := free_endforTag (by decide) (by decide)
      rcases member with rfl | ⟨inner, inBody, inInner⟩ | rfl
      · exact opened
      · exact inner.plainSegment (plainBody inner inBody) piece inInner
      · exact ended

theorem Inner.scans_ifs {inner : Inner} (plain : inner.Plain) : Scans ifPattern inner.print inner.ifs := by
  cases inner with
  | leaf part =>
      have free : Free openIf part.print := part.free_print plain
      exact free.scans fun _ => ifPattern_none
  | ifBlock condition body =>
      have free : Free endif (printLeaves body) := free_printLeaves plain.2
      exact Scans.of_match (List.cons_ne_nil _ _) (ifPattern_append condition free)

theorem Node.scans_ifs {node : Node} (plain : node.Plain) : Scans ifPattern node.print node.ifs := by
  cases node with
  | inner part => exact part.scans_ifs plain
  | forBlock item list body =>
      obtain ⟨⟨itemPlain, listPlain, -⟩, plainBody⟩ := plain
      have opened : Free openIf (forHead item.text list.text) :=
        free_forHead (by decide) (by decide) itemPlain listPlain
      have ended : Free openIf endfor := free_endforTag (by decide) (by decide)
      have inside : Scans ifPattern (printInners body) (body.flatMap Inner.ifs) :=
        Scans.flatMap fun inner member => inner.scans_ifs (plainBody inner member)
      have whole := (opened.scans fun _ => ifPattern_none).append
        (inside.append (ended.scans fun _ => ifPattern_none))
      exact whole

def Node.lineFors (node : Node) : List (Char ⊕ Loop) :=
  match node.onLine with
  | some (item, list, body) => [.inr (item.text, list.text, printInners body)]
  | none => node.print.map .inl

theorem Node.scans_leaf {dotall : Bool} {inner : Inner} (plain : inner.Plain) :
    Scans (forPattern dotall) inner.print (inner.print.map .inl) :=
  (free_openFor plain).scans fun _ => forPattern_none

theorem Node.scans_fors {node : Node} (plain : node.Plain) : Scans (forPattern true) node.print node.fors := by
  cases node with
  | inner part => exact Node.scans_leaf plain
  | forBlock item list body =>
      have free := free_endfor plain.2
      exact Scans.of_match (List.cons_ne_nil _ _) (forPattern_append true item list plain.1.2.2 free)

/-- No loop begins after the first character of a loop. -/
theorem free_forTail {item list : Text} {body : List Inner} (itemPlain : '\x7b' ∉ item) (listPlain : '\x7b' ∉ list)
    (plain : ∀ inner ∈ body, inner.Plain) : Free openFor
      ("% for ".toList ++ (item ++ (inWord ++ (list ++ closeTag))) ++ (printInners body ++ endfor)) := by
  apply (free_of_not_mem (List.not_mem_append (by decide) (braceless_names itemPlain listPlain))).append
  apply (Free.flatMap fun inner member => free_openFor (plain inner member)).append
  exact free_endforTag (by decide : ¬ openFor <+: endfor) (by decide : ¬ endfor <+: openFor)

theorem Node.scans_lineFors {node : Node} (plain : node.Plain) :
    Scans (forPattern false) node.print node.lineFors := by
  cases node with
  | inner part => exact Node.scans_leaf plain
  | forBlock item list body =>
      obtain ⟨⟨itemPlain, listPlain, one⟩, plainBody⟩ := plain
      have here := forPattern_append false item list one (free_endfor plainBody)
      rw [Node.lineFors, Node.onLine]
      by_cases lines : '\n' ∈ printInners body
      · rw [if_pos lines]
        intro rest
        have missed := here rest
        rw [if_pos ⟨rfl, lines⟩] at missed
        have noLater (text : Text) (absent : ¬ openFor <+: text) : forPattern false text = none :=
          forPattern_none absent
        have kept := (free_forTail itemPlain listPlain plainBody).scans noLater rest
        exact (pieces_of_none missed).trans (congrArg (Sum.inl '\x7b' :: ·) kept)
      · rw [if_neg lines]
        apply Scans.of_match (List.cons_ne_nil _ _)
        intro rest
        have matched := here rest
        rw [if_neg fun both => lines both.2] at matched
        exact matched

theorem findSome?_lineFors (nodes : List Node) : (nodes.flatMap Node.lineFors).findSome? Sum.getRight? =
    (firstLoop nodes).map fun (item, list, body) => (item.text, list.text, printInners body) := by
  induction nodes with
  | nil => rfl
  | cons node nodes ih =>
      rw [List.flatMap_cons, List.findSome?_append, ih, firstLoop, firstLoop, List.findSome?_cons, Node.lineFors]
      cases node.onLine with
      | none =>
          have nothing : (node.print.map Sum.inl).findSome? (Sum.getRight? (β := Loop)) = none := by
            simp [List.findSome?_eq_none_iff]
          rw [nothing]
          rfl
      | some loop => rfl

/-! ### Before the last pass

The tags of the loops that are left are text by now. -/

/-- The text before the last pass, in which variables stand only where they are written. -/
def Leaf.Clear : Leaf → Prop
  | .text t => Free openVar t
  | .var path => '\x7b' ∉ path.text

def Leaf.segment : Leaf → Text ⊕ Text
  | .text t => .inl t
  | .var path => .inr path.text

theorem Leaf.clear {leaf : Leaf} (plain : leaf.Plain) : leaf.Clear := by
  cases leaf with
  | text t => exact free_of_not_mem plain
  | var path => exact plain.1

section
variable {isPrintable : Char → Bool} {context : Context}

theorem Leaf.scans_segment {leaf : Leaf} (clear : leaf.Clear) :
    Scans varPattern leaf.print (Substitution.segment leaf.segment) := by
  cases leaf with
  | text t =>
      have free : Free openVar t := clear
      exact free.scans fun _ => varPattern_none
  | var path => exact Scans.of_match (List.cons_ne_nil _ _) (varPattern_append path)

theorem Leaf.flatMap_valued (leaf : Leaf) :
    (Substitution.segment leaf.segment).flatMap (valued isPrintable context) = leaf.vars isPrintable context := by
  cases leaf with
  | text t => exact flatMap_map_inl (fun _ => rfl) t
  | var path => exact List.flatMap_singleton _ _

theorem Inner.plain_choose {inner : Inner} (plain : inner.Plain) : ∀ leaf ∈ inner.choose context, leaf.Plain := by
  intro leaf member
  cases inner with
  | leaf part => exact List.mem_singleton.mp member ▸ plain
  | ifBlock condition body =>
      rw [Inner.choose] at member
      split at member
      · exact plain.2 leaf member
      · cases member

theorem Node.plain_decide {node : Node} (plain : node.Plain) : ∀ part ∈ node.decide context, part.Plain := by
  intro part member
  cases node with
  | inner inner =>
      obtain ⟨leaf, chosen, rfl⟩ := List.mem_map.mp member
      exact inner.plain_choose plain leaf chosen
  | forBlock item list body =>
      obtain rfl := List.mem_singleton.mp member
      refine ⟨plain.1, fun inner inBody => ?_⟩
      obtain ⟨leaf, chosen, rfl⟩ := List.mem_map.mp inBody
      obtain ⟨original, written, chosen⟩ := List.mem_flatMap.mp chosen
      exact original.plain_choose (plain.2 original written) leaf chosen

theorem Node.clear_assemble {node : Node} (plain : node.Plain) {loop : Option Text}
    (braceless : ∀ text, loop = some text → '\x7b' ∉ text) : ∀ leaf ∈ node.assemble context loop, leaf.Clear := by
  intro leaf member
  cases node with
  | inner part => exact leaf.clear (part.plain_choose plain leaf member)
  | forBlock item list body =>
      cases loop with
      | some text =>
          obtain rfl := List.mem_singleton.mp member
          have free : Free openVar text := free_of_not_mem (braceless text rfl)
          exact free
      | none =>
          rw [Node.assemble, List.mem_cons, List.mem_append, List.mem_flatMap, List.mem_singleton] at member
          obtain ⟨⟨itemPlain, listPlain, -⟩, plainBody⟩ := plain
          have opened : Free openVar (forHead item.text list.text) :=
            free_forHead (by decide) (by decide) itemPlain listPlain
          have ended : Free openVar endfor := free_endforTag (by decide) (by decide)
          rcases member with rfl | ⟨inner, inBody, chosen⟩ | rfl
          · exact opened
          · exact leaf.clear (inner.plain_choose (plainBody inner inBody) leaf chosen)
          · exact ended

variable (isPrintable context) in
def PlainValues : Prop :=
  ∀ path, shown isPrintable context path ≠ varText path → '\x7b' ∉ shown isPrintable context path

theorem varsApart_of_clear {leaves : List Leaf} (clear : ∀ leaf ∈ leaves, leaf.Clear)
    (values : PlainValues isPrintable context) :
    Apart varText (shown isPrintable context) varPattern (printLeaves leaves) := by
  have path {a : Text} (member : .inr a ∈ leaves.map Leaf.segment) :
      ∃ name : Name '\x7d', a = name.text ∧ '\x7b' ∉ name.text := by
    obtain ⟨leaf, inLeaves, same⟩ := List.mem_map.mp member
    cases leaf with
    | text t => cases same
    | var name => exact ⟨name, (Sum.inr.inj same).symm, clear _ inLeaves⟩
  apply apart_of_free (leaves.map Leaf.segment)
  · rw [List.flatMap_map]
    exact (Scans.flatMap fun leaf member => leaf.scans_segment (clear leaf member)).pieces_eq
  · exact fun _ => List.cons_ne_nil _ _
  · intro a _ _ t member
    obtain ⟨leaf, inLeaves, same⟩ := List.mem_map.mp member
    cases leaf with
    | var name => cases same
    | text t' =>
        obtain rfl := Sum.inl.inj same
        have free : Free openVar t' := clear _ inLeaves
        exact free.of_prefix (List.prefix_append openVar _)
  · intro a inA changed b inB
    by_cases unchanged : shown isPrintable context b = varText b
    · have other : b ≠ a := fun same => changed (same ▸ unchanged)
      obtain ⟨name, rfl, -⟩ := path inA
      obtain ⟨name', rfl, plain⟩ := path inB
      rw [unchanged]
      exact free_varText plain other
    · exact free_of_not_mem (values b unchanged)
  · intro a inA _ b inB other
    obtain ⟨name, rfl, -⟩ := path inA
    obtain ⟨name', rfl, plain⟩ := path inB
    exact free_varText plain other

theorem ifsApart_of_plain {nodes : List Node} (plain : ∀ node ∈ nodes, node.Plain) :
    Apart ifText (kept context) ifPattern (printNodes nodes) := by
  have piece : ∀ part ∈ nodes.flatMap Node.segments, PlainSegment part := by
    intro part member
    obtain ⟨node, inNodes, inNode⟩ := List.mem_flatMap.mp member
    exact node.plainSegment (plain node inNodes) part inNode
  apply apart_of_free (nodes.flatMap Node.segments)
  · rw [List.flatMap_assoc, List.flatMap_congr fun node _ => node.flatMap_segment]
    exact (Scans.flatMap fun node member => node.scans_ifs (plain node member)).pieces_eq
  · exact fun _ => List.cons_ne_nil _ _
  · intro a _ _ t member
    have free : Free openIf t := piece _ member
    exact free.of_prefix (List.prefix_append openIf _)
  · intro a _ _ b member
    obtain ⟨condition, body, rfl, -, plainBody⟩ := piece _ member
    rw [kept]
    split
    · have free : Free openIf (printLeaves body) := free_printLeaves plainBody
      exact free.of_prefix (List.prefix_append openIf _)
    · exact free_nil
  · intro a inA _ b inB other
    obtain ⟨condition', body', rfl, -, plainBody'⟩ := piece _ inA
    obtain ⟨condition, body, rfl, braceless, plainBody⟩ := piece _ inB
    exact free_ifText rfl plainBody' braceless plainBody other

theorem passesRead_of_plain {nodes : List Node} (plain : ∀ node ∈ nodes, node.Plain)
    (values : PlainValues isPrintable context)
    (loop : ∀ text, loopText isPrintable context nodes = some text → '\x7b' ∉ text) :
    PassesRead isPrintable context nodes := by
  have decidedPlain : ∀ node ∈ decided context nodes, node.Plain := by
    intro part member
    obtain ⟨node, inNodes, inNode⟩ := List.mem_flatMap.mp member
    exact node.plain_decide (plain node inNodes) part inNode
  have clear : ∀ leaf ∈ assembled isPrintable context nodes, leaf.Clear := by
    intro leaf member
    obtain ⟨node, inNodes, inNode⟩ := List.mem_flatMap.mp member
    exact node.clear_assemble (plain node inNodes) loop leaf inNode
  constructor
  · exact (Scans.flatMap fun node member => node.scans_ifs (plain node member)).pieces_eq
  · exact ifsApart_of_plain plain
  · have found := (Scans.flatMap fun node member => Node.scans_lineFors (plain node member)).pieces_eq
    rw [search, printNodes, found, findSome?_lineFors]
  · intro _
    exact (Scans.flatMap fun node member => node.scans_fors (decidedPlain node member)).pieces_eq
  · have found := (Scans.flatMap fun leaf member => Leaf.scans_segment (clear leaf member)).pieces_eq
    rw [printLeaves, found, List.flatMap_assoc]
    exact List.flatMap_congr fun leaf _ => leaf.flatMap_valued
  · exact varsApart_of_clear clear values

/-! ### Contexts without dictionaries in them -/

def isDict : PyValue → Bool
  | .dict _ => true
  | _ => false

theorem foldl_getItem {value : PyValue} (flat : isDict value = false) (keys : List Text) :
    keys.foldl getItem value = value ∨ keys.foldl getItem value = .none := by
  induction keys generalizing value with
  | nil => exact Or.inl rfl
  | cons key keys ih =>
      have missing : getItem value key = .none := by
        cases value with
        | dict items => cases flat
        | _ => rfl
      rw [List.foldl_cons, missing]
      exact Or.inr ((ih rfl).elim id id)

theorem getNestedValue_of_flat (flat : ∀ item ∈ context.items, isDict item.2 = false) (path : Text) :
    getNestedValue context path = .none ∨ ∃ item ∈ context.items, getNestedValue context path = item.2 := by
  rw [getNestedValue]
  cases split : Text.split ['.'] path with
  | nil => exact absurd split (Text.splitFrom_ne_nil 0 [] path)
  | cons key keys =>
      rw [List.foldl_cons, getItem]
      cases found : context.items.find? fun item => item.1 = String.ofList key with
      | none => exact Or.inl ((foldl_getItem rfl keys).elim id id)
      | some item =>
          have member := List.mem_of_find?_eq_some found
          cases foldl_getItem (flat item member) keys with
          | inl whole => exact Or.inr ⟨item, member, whole⟩
          | inr missing => exact Or.inl missing

theorem plainValues_of_flat (flat : ∀ item ∈ context.items, isDict item.2 = false)
    (braceless : ∀ item ∈ context.items, '\x7b' ∉ strOf isPrintable item.2) : PlainValues isPrintable context := by
  intro path valued
  rw [shown] at valued ⊢
  cases getNestedValue_of_flat flat path.strip with
  | inl missing =>
      rw [missing] at valued
      exact absurd rfl valued
  | inr found =>
      obtain ⟨item, member, value⟩ := found
      have plain := braceless item member
      rw [value] at valued ⊢
      cases inside : item.2 with
      | none =>
          rw [inside] at valued
          exact absurd rfl valued
      | _ =>
          rw [inside] at plain
          exact plain

variable (isPrintable context) in
/-- Neither the texts and names of the template nor the values have an opening brace; all loops come to the same text,
and this has no backslash. -/
structure Plain (nodes : List Node) : Prop where
  written : ∀ node ∈ nodes, node.Plain
  values : PlainValues isPrintable context
  items : ∀ item list body, firstLoop nodes = some (item, list, body) →
    ∀ items, itemsOf context list.text = some items → ∀ value ∈ items,
      PlainValues isPrintable (withItem context item.text value)
  loop : ∀ text, loopText isPrintable context nodes = some text → '\x7b' ∉ text ∧ '\\' ∉ text
  alike : ∀ item list body, .forBlock item list body ∈ nodes →
    meaningOfLoop isPrintable context item.text list.text body = loopText isPrintable context nodes

theorem onLine_eq_some {node : Node} {item list : Name '%'} {body : List Inner}
    (found : node.onLine = some (item, list, body)) : node = .forBlock item list body := by
  cases node with
  | inner part => cases found
  | forBlock item' list' body' =>
      rw [Node.onLine] at found
      split at found
      · cases found
      · obtain ⟨rfl, rfl, rfl⟩ : item' = item ∧ list' = list ∧ body' = body := by simpa using found
        rfl

theorem Plain.readAsWritten {nodes : List Node} (plain : Plain isPrintable context nodes) :
    ReadAsWritten isPrintable context nodes where
  passes := passesRead_of_plain plain.written plain.values fun text found => (plain.loop text found).1
  bodies item list body first items listed value member := by
    obtain ⟨node, inNodes, onLine⟩ := List.exists_of_findSome?_eq_some first
    have plainNode := plain.written node inNodes
    rw [onLine_eq_some onLine] at plainNode
    apply passesRead_of_plain _ (plain.items item list body first items listed value member)
    · intro text found
      have noLoop : firstLoop (body.map .inner) = none := by simp [firstLoop, Node.onLine]
      rw [loopText, noLoop] at found
      cases found
    · intro node inBody
      obtain ⟨inner, written, rfl⟩ := List.mem_map.mp inBody
      exact plainNode.2 inner written
  alike := plain.alike
  verbatim text found := verbatim_of_not_mem 3 (plain.loop text found).2

end

end CuckooEcho.Shared.TemplateEngine
