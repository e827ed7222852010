import CuckooEcho.Shared.PlainTemplates

namespace CuckooEcho.Shared.TemplateEngine
open Lib Substitution

variable {isPrintable : Char → Bool} {context : Context} {nodes : List Node}

/-! ### The passes, one after the other -/

theorem renderIfBlocks_eq (template : Text) : renderIfBlocks template context =
    replaceEach ifText (kept context) (findall ifPattern template) template := by
  have step : (fun (result : Text) (block : Text × Text) =>
      if evalCondition context block.1.strip then replaceAll (ifText (block.1, block.2)) block.2 result
      else replaceAll (ifText (block.1, block.2)) [] result) =
        fun result block => replaceAll (ifText block) (kept context block) result := by
    funext result block
    rw [kept]
    split <;> rfl
  exact congrArg (fun f => List.foldl f template (findall ifPattern template)) step

theorem flatMap_ifs (inner : Inner) :
    inner.ifs.flatMap (Sum.elim (fun c => [c]) (kept context)) = printLeaves (inner.choose context) := by
  cases inner with
  | leaf part => rw [Inner.ifs, flatMap_inl, Inner.choose, printLeaves, List.flatMap_singleton]
  | ifBlock condition body =>
      rw [Inner.ifs, List.flatMap_singleton, Sum.elim_inr, kept, Inner.choose]
      split <;> rfl

theorem printInners_leaves (leaves : List Leaf) : printInners (leaves.map .leaf) = printLeaves leaves :=
  List.flatMap_map _ _ _

theorem printLeaves_choose (body : List Inner) :
    (body.flatMap Inner.ifs).flatMap (Sum.elim (fun c => [c]) (kept context)) =
      printLeaves (body.flatMap (Inner.choose context)) := by
  rw [List.flatMap_assoc, printLeaves, List.flatMap_assoc]
  exact List.flatMap_congr fun inner _ => flatMap_ifs inner

theorem printNodes_leaves (leaves : List Leaf) :
    printNodes (leaves.map fun leaf => .inner (.leaf leaf)) = printLeaves leaves :=
  List.flatMap_map _ _ _

/-- The first pass decides the conditions. -/
theorem PassesRead.renderIfBlocks_printNodes (read : PassesRead isPrintable context nodes) :
    renderIfBlocks (printNodes nodes) context = printNodes (decided context nodes) := by
  rw [renderIfBlocks_eq, read.ifsApart.replaceEach_eq_sub spells_ifPattern, sub_flatMap read.ifBlocks, decided,
    printNodes, List.flatMap_assoc]
  apply List.flatMap_congr
  intro node _
  cases node with
  | inner part =>
      rw [Node.ifs, flatMap_ifs]
      exact (printNodes_leaves _).symm
  | forBlock item list body =>
      rw [Node.ifs, List.flatMap_append, List.flatMap_append, flatMap_inl, flatMap_inl, printLeaves_choose, Node.decide,
        List.flatMap_singleton, Node.print, printInners_leaves]
      rfl

theorem printNodes_decided (node : Node) :
    printNodes (node.decide context) = printLeaves (node.assemble context none) := by
  cases node with
  | inner part => exact printNodes_leaves (part.choose context)
  | forBlock item list body =>
      simp [Node.decide, Node.assemble, printNodes, Node.print, printInners_leaves, printLeaves, Leaf.print, forText]

theorem printNodes_decided_all (nodes : List Node) :
    printNodes (decided context nodes) = printLeaves (nodes.flatMap (Node.assemble context none)) := by
  rw [decided, printNodes, printLeaves, List.flatMap_assoc, List.flatMap_assoc]
  exact List.flatMap_congr fun node _ => printNodes_decided node

theorem flatMap_fors (text : Text) (node : Node) :
    ((node.decide context).flatMap Node.fors).flatMap (Sum.elim (fun c => [c]) fun _ => text) =
      printLeaves (node.assemble context (some text)) := by
  cases node with
  | inner part =>
      rw [Node.decide, Node.assemble, List.flatMap_map, List.flatMap_assoc]
      exact List.flatMap_congr fun leaf _ => flatMap_inl leaf.print _
  | forBlock item list body =>
      rw [Node.decide, Node.assemble, List.flatMap_singleton, Node.fors, List.flatMap_singleton, printLeaves,
        List.flatMap_singleton]
      rfl

/-- Every loop is replaced by the same text. -/
theorem sub_loops (text : Text) (found : pieces (forPattern true) (printNodes (decided context nodes)) =
    (decided context nodes).flatMap Node.fors) :
    sub (forPattern true) (fun _ => text) (printNodes (decided context nodes)) =
      printLeaves (nodes.flatMap (Node.assemble context (some text))) := by
  rw [sub_flatMap found, decided, List.flatMap_assoc, printLeaves, List.flatMap_assoc]
  apply List.flatMap_congr
  intro node _
  rw [← List.flatMap_assoc]
  exact flatMap_fors text node

/-- The bodies of the first loop on one line are rendered as they are meant. -/
def RendersBodies (isPrintable : Char → Bool) (render : Text → Context → Option Text) (context : Context)
    (nodes : List Node) : Prop :=
  ∀ item list body, firstLoop nodes = some (item, list, body) →
    ∀ items, itemsOf context list.text = some items → ∀ value ∈ items,
      render (printInners body) (withItem context item.text value) =
        some (meaningOfInners isPrintable (withItem context item.text value) body)

theorem PassesRead.renderForLoop_decided (read : PassesRead isPrintable context nodes)
    {render : Text → Context → Option Text} (bodies : RendersBodies isPrintable render context nodes)
    (verbatim : ∀ text, loopText isPrintable context nodes = some text → Verbatim 3 text) :
    renderForLoop render (printNodes nodes) context (printNodes (decided context nodes)) =
      some (printLeaves (assembled isPrintable context nodes)) := by
  rw [renderForLoop, read.loop, assembled]
  cases first : firstLoop nodes with
  | none =>
      have noText : loopText isPrintable context nodes = none := by rw [loopText, first, Option.bind_none]
      rw [noText, Option.map_none]
      exact congrArg some (printNodes_decided_all nodes)
  | some loop =>
      obtain ⟨item, list, body⟩ := loop
      have text : loopText isPrintable context nodes = meaningOfLoop isPrintable context item.text list.text body := by
        rw [loopText, first, Option.bind_some]
      cases listed : itemsOf context list.text with
      | none =>
          rw [meaningOfLoop, listed, Option.map_none] at text
          simp only [Option.map_some, listed, text]
          exact congrArg some (printNodes_decided_all nodes)
      | some items =>
          rw [meaningOfLoop, listed, Option.map_some] at text
          obtain ⟨parts, parsed, same⟩ := verbatim _ text
          have rendered := concatM_of_some (bodies item list body first items listed)
          have replaced := sub_loops (items.flatMap fun value =>
            meaningOfInners isPrintable (withItem context item.text value) body) (read.forBlocks (by rw [text]; rfl))
          simp only [Option.map_some, listed, text, rendered, parsed, same, bind, pure, Option.bind_some]
          exact congrArg some replaced

/-! ### The last pass -/

theorem renderVariables_eq (text : Text) : renderVariables isPrintable context text =
    replaceEach varText (shown isPrintable context) (findall varPattern text) text := by
  have step : replaceVariable isPrintable context =
      fun result path => replaceAll (varText path) (shown isPrintable context path) result := by
    funext result path
    rw [replaceVariable, shown]
    cases getNestedValue context path.strip with
    | none => exact (replaceAll_self (List.cons_ne_nil _ _) result).symm
    | _ => rfl
  rw [renderVariables, step]
  rfl

theorem flatMap_valued (part : Char ⊕ Text) :
    (valued isPrintable context part).flatMap (Sum.elim (fun c => [c]) (shown isPrintable context)) =
      Sum.elim (fun c => [c]) (shown isPrintable context) part := by
  cases part with
  | inl c => rfl
  | inr path =>
      rw [valued]
      split
      · rename_i unchanged
        rw [flatMap_inl, Sum.elim_inr, unchanged]
      · exact List.flatMap_singleton _ _

theorem flatMap_vars (leaf : Leaf) :
    (leaf.vars isPrintable context).flatMap (Sum.elim (fun c => [c]) (shown isPrintable context)) =
      leaf.meaning isPrintable context := by
  cases leaf with
  | text t => exact flatMap_inl t _
  | var path => exact flatMap_valued (.inr path.text)

theorem PassesRead.renderVariables_assembled (read : PassesRead isPrintable context nodes) :
    renderVariables isPrintable context (printLeaves (assembled isPrintable context nodes)) =
      meaningOfLeaves isPrintable context (assembled isPrintable context nodes) := by
  have found := congrArg (List.flatMap (Sum.elim (fun c => [c]) (shown isPrintable context))) read.vars
  rw [List.flatMap_assoc, List.flatMap_assoc] at found
  rw [renderVariables_eq, read.varsApart.replaceEach_eq_sub spells_varPattern, sub, meaningOfLeaves]
  simpa only [flatMap_valued, flatMap_vars] using found

/-! ### What the passes make is the meaning -/

theorem meaningOfLeaves_choose (inner : Inner) :
    meaningOfLeaves isPrintable context (inner.choose context) = inner.meaning isPrintable context := by
  cases inner with
  | leaf part => exact List.flatMap_singleton _ part
  | ifBlock condition body =>
      rw [Inner.choose, Inner.meaning]
      split <;> rfl

theorem meaningOfLeaves_chosen (body : List Inner) :
    meaningOfLeaves isPrintable context (body.flatMap (Inner.choose context)) =
      meaningOfInners isPrintable context body := by
  rw [meaningOfLeaves, List.flatMap_assoc]
  exact List.flatMap_congr fun inner _ => meaningOfLeaves_choose inner

theorem meaningOfLeaves_assemble (node : Node) {loop : Option Text}
    (alike : ∀ item list body, node = .forBlock item list body →
      meaningOfLoop isPrintable context item.text list.text body = loop) :
    meaningOfLeaves isPrintable context (node.assemble context loop) = node.meaning isPrintable context := by
  cases node with
  | inner part => exact meaningOfLeaves_choose part
  | forBlock item list body =>
      rw [Node.meaning, alike item list body rfl]
      cases loop with
      | some text => exact List.flatMap_singleton _ _
      | none =>
          have inside : (body.flatMap (Inner.choose context)).flatMap (Leaf.meaning isPrintable context) =
              meaningOfInners isPrintable context body := meaningOfLeaves_chosen body
          simp [Node.assemble, meaningOfLeaves, Leaf.meaning, inside]

theorem PassesRead.renderFrom_printNodes (read : PassesRead isPrintable context nodes) {fuel : Nat}
    (bodies : RendersBodies isPrintable (renderFrom isPrintable fuel) context nodes)
    (alike : ∀ item list body, .forBlock item list body ∈ nodes →
      meaningOfLoop isPrintable context item.text list.text body = loopText isPrintable context nodes)
    (verbatim : ∀ text, loopText isPrintable context nodes = some text → Verbatim 3 text) :
    renderFrom isPrintable (fuel + 1) (printNodes nodes) context = some (meaning isPrintable context nodes) := by
  have loops := read.renderForLoop_decided bodies verbatim
  have last : meaningOfLeaves isPrintable context (assembled isPrintable context nodes) =
      meaning isPrintable context nodes := by
    rw [assembled, meaningOfLeaves, List.flatMap_assoc]
    apply List.flatMap_congr
    intro node member
    exact meaningOfLeaves_assemble node fun item list body same => alike item list body (same ▸ member)
  rw [renderFrom, read.renderIfBlocks_printNodes, loops, ← last, ← read.renderVariables_assembled]
  rfl

/-- A body has no loops. -/
theorem PassesRead.renderFrom_printInners {body : List Inner} (read : PassesRead isPrintable context (body.map .inner))
    (fuel : Nat) :
    renderFrom isPrintable (fuel + 1) (printInners body) context = some (meaningOfInners isPrintable context body) := by
  have noLoop : firstLoop (body.map .inner) = none := by simp [firstLoop, Node.onLine]
  have noText : loopText isPrintable context (body.map .inner) = none := by rw [loopText, noLoop, Option.bind_none]
  have printed : printNodes (body.map .inner) = printInners body := List.flatMap_map _ _ _
  have means : meaning isPrintable context (body.map .inner) = meaningOfInners isPrintable context body :=
    List.flatMap_map _ _ _
  rw [← printed, ← means]
  apply read.renderFrom_printNodes
  · intro item list inside first
    rw [noLoop] at first
    cases first
  · intro item list inside member
    simp at member
  · intro text found
    rw [noText] at found
    cases found

/-- Rendering is the meaning of the template wherever every pass reads the template as it was written and all loops
come to the same text. -/
theorem ReadAsWritten.renderString_eq_meaning {isPrintable : Char → Bool} {context : Context} {nodes : List Node}
    (read : ReadAsWritten isPrintable context nodes) :
    renderString isPrintable (printNodes nodes) context = some (meaning isPrintable context nodes) := by
  apply read.passes.renderFrom_printNodes _ read.alike read.verbatim
  intro item list body first items listed value member
  have inside := read.bodies item list body first items listed value member
  cases template : printNodes nodes with
  | nil =>
      have found := read.passes.loop
      rw [template, first] at found
      cases found
  | cons c rest => exact inside.renderFrom_printInners rest.length

/-! ### Two lists -/

def loopItem : Name '%' := ⟨['x'], by decide, by decide⟩

def firstList : Name '%' := ⟨['x', 's'], by decide, by decide⟩

def secondList : Name '%' := ⟨['y', 's'], by decide, by decide⟩

def itemVar : Leaf := .var ⟨['x'], by decide, by decide⟩

def isFirst : Name '%' := ⟨['x', ' ', '=', '=', ' ', 'a'], by decide, by decide⟩

def listsOf (xs ys : List String) : Context :=
  (Dict.empty.set "xs" (.list (xs.map .str))).set "ys" (.list (ys.map .str))

def each (list : Name '%') (body : List Inner) : Node := .forBlock loopItem list body

def marking : List Inner := [.leaf itemVar, .ifBlock isFirst [.text ['!']]]

/-- Both loops come to the same text. -/
def report : List Node := [.inner (.leaf (.text ['-'])), each firstList marking, each secondList marking]

theorem plain_report : Plain (fun _ => true) (listsOf ["a", "b"] ["a", "b"]) report where
  written := by
    simp [report, each, marking, itemVar, loopItem, firstList, secondList, isFirst, Node.Plain, Inner.Plain, Leaf.Plain]
  values := plainValues_of_flat (by decide +kernel) (by decide +kernel)
  items := by
    intro item list body found items listed value member
    have same : (loopItem, firstList, marking) = (item, list, body) := Option.some.inj found
    obtain ⟨rfl, rfl, rfl⟩ := same
    obtain rfl : [PyValue.str "a", .str "b"] = items := Option.some.inj listed
    rcases List.mem_pair.mp member with rfl | rfl
    · exact plainValues_of_flat (by decide +kernel) (by decide +kernel)
    · exact plainValues_of_flat (by decide +kernel) (by decide +kernel)
  loop := by
    intro text found
    obtain rfl : "a!b".toList = text := Option.some.inj found
    decide
  alike := by
    intro item list body member
    simp only [report, each, List.mem_cons, Node.forBlock.injEq, List.not_mem_nil, or_false, reduceCtorEq,
      false_or] at member
    rcases member with ⟨rfl, rfl, rfl⟩ | ⟨rfl, rfl, rfl⟩
    · decide +kernel
    · decide +kernel

theorem report_rendered :
    renderString (fun _ => true) (printNodes report) (listsOf ["a", "b"] ["a", "b"]) =
      some (meaning (fun _ => true) (listsOf ["a", "b"] ["a", "b"]) report) :=
  ReadAsWritten.renderString_eq_meaning plain_report.readAsWritten

/-- The first loop's text for both loops, a loop over several lines, a backslash in an element, and a value that is
read as a variable. -/
theorem loops_and_values_mixed :
    let both := [each firstList [.leaf itemVar], each secondList [.leaf itemVar]]
    let lines := [each firstList [.leaf (.text ['\n'])]]
    let single := [each firstList [.leaf itemVar]]
    let pair := [Node.inner (.leaf itemVar), .inner (.leaf (.var ⟨['y'], by decide, by decide⟩))]
    let keyed : Context := (Dict.empty.set "x" (.str "\x7b\x7by\x7d\x7d")).set "y" (.str "s")
    let printable : Char → Bool := fun _ => true
    renderString printable (printNodes both) (listsOf ["a"] ["b"]) = some ['a', 'a'] ∧
      meaning printable (listsOf ["a"] ["b"]) both = ['a', 'b'] ∧
      renderString printable (printNodes lines) (listsOf ["a"] []) = some (printNodes lines) ∧
      meaning printable (listsOf ["a"] []) lines = ['\n'] ∧
      renderString printable (printNodes single) (listsOf ["\\n"] []) = some ['\n'] ∧
      meaning printable (listsOf ["\\n"] []) single = ['\\', 'n'] ∧
      renderString printable (printNodes pair) keyed = some ['s', 's'] ∧
      meaning printable keyed pair = "\x7b\x7by\x7d\x7ds".toList := by
  decide +kernel

end CuckooEcho.Shared.TemplateEngine
