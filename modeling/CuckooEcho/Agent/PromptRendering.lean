import CuckooEcho.Agent.PromptReading

namespace CuckooEcho.Agent.PromptTemplate
open Lib Substitution

variable {alnum : Char → Bool} {V : Type} {values : Values V} {context : Context V}

/-! ### The passes, one after the other -/

theorem Leaf.flatMap_vars (leaf : Leaf alnum) :
    leaf.vars.flatMap (Sum.elim (fun c => [c]) (shown values context)) = leaf.meaning values context := by
  cases leaf with
  | text t => exact flatMap_inl t _
  | var name => simp [vars, meaning]

theorem flatMap_vars_leaves (body : List (Leaf alnum)) :
    (body.flatMap Leaf.vars).flatMap (Sum.elim (fun c => [c]) (shown values context)) =
      printLeaves (body.map (Leaf.fill values context)) := by
  rw [List.flatMap_assoc, printLeaves, List.flatMap_map]
  exact List.flatMap_congr fun leaf _ => leaf.flatMap_vars

theorem Inner.flatMap_vars (inner : Inner alnum) :
    inner.vars.flatMap (Sum.elim (fun c => [c]) (shown values context)) = (inner.fill values context).print := by
  cases inner with
  | leaf part => exact part.flatMap_vars
  | ifBlock condition body =>
      rw [vars, List.flatMap_append, List.flatMap_append, flatMap_inl, flatMap_inl, flatMap_vars_leaves, fill, print]
      simp only [List.append_assoc]

/-- The variables of a loop's body are replaced, those inside of its if blocks as well. -/
theorem renderVariables_inners {body : List (Inner alnum)}
    (found : pieces (varPattern alnum) (printInners body) = body.flatMap Inner.vars) :
    renderVariables alnum values context (printInners body) = printInners (body.map (Inner.fill values context)) := by
  rw [renderVariables, sub_flatMap found, printInners, List.flatMap_map]
  exact List.flatMap_congr fun inner _ => inner.flatMap_vars

theorem renderVariables_leaves {body : List (Leaf alnum)}
    (found : pieces (varPattern alnum) (printLeaves body) = body.flatMap Leaf.vars) :
    renderVariables alnum values context (printLeaves body) = meaningOfLeaves values context body := by
  rw [renderVariables, sub_flatMap found, meaningOfLeaves]
  exact List.flatMap_congr fun leaf _ => leaf.flatMap_vars

theorem printInners_append (a b : List (Inner alnum)) : printInners (a ++ b) = printInners a ++ printInners b :=
  List.flatMap_append

theorem printInners_intercalate (bodies : List (List (Inner alnum))) :
    printInners (List.intercalate [.leaf (.text ['\n'])] bodies) = joinLines (bodies.map printInners) :=
  map_intercalate printInners rfl printInners_append [.leaf (.text ['\n'])] bodies

theorem renderFor_printInners {item list : Name alnum} {body : List (Inner alnum)}
    (found : pieces (varPattern alnum) (printInners body) = body.flatMap Inner.vars) :
    renderFor alnum values context item.text list.text (printInners body) =
      (Node.unroll values context (.forBlock item list body)).map printInners := by
  rw [renderFor, Node.unroll, Option.map_map]
  refine congrArg (Option.map · (itemsOf values context list.text)) (funext fun items => ?_)
  rw [Function.comp_apply, printInners_intercalate, loopBodies, List.map_map]
  exact congrArg joinLines (List.map_congr_left fun value _ => renderVariables_inners found)

/-- The first pass: the loops are unrolled, with the variables of their bodies replaced. -/
theorem ReadAsWritten.renderForLoops_printNodes {nodes : List (Node alnum)}
    (read : ReadAsWritten values nodes context) :
    renderForLoops alnum values context (printNodes nodes) = (unroll values context nodes).map printInners := by
  rw [renderForLoops, read.forBlocks, unroll, map_concatM printInners rfl printInners_append]
  apply concatM_flatMap
  intro node member
  cases node with
  | inner part =>
      rw [Node.fors, concatM_inl, Node.unroll, Option.map_some, printInners, List.flatMap_singleton]
  | forBlock item list body =>
      rw [Node.fors, concatM_singleton]
      exact renderFor_printInners (read.forBodies item list body member)

theorem printLeaves_fill (body : List (Leaf alnum)) :
    printLeaves (body.map (Leaf.fill values context)) = meaningOfLeaves values context body := by
  rw [printLeaves, List.flatMap_map]
  rfl

/-- The second pass: the conditions are decided, with the variables of the bodies that are kept replaced. -/
theorem ReadAsWritten.renderIfBlocks_printInners {nodes : List (Node alnum)} (read : ReadAsWritten values nodes context)
    {inners : List (Inner alnum)} (unrolled : unroll values context nodes = some inners) :
    renderIfBlocks alnum values context (printInners inners) = printLeaves (choose values context inners) := by
  rw [renderIfBlocks, sub_flatMap (read.ifBlocks inners unrolled), choose, printLeaves, List.flatMap_assoc]
  apply List.flatMap_congr
  intro inner member
  cases inner with
  | leaf part =>
      rw [Inner.ifs, flatMap_inl, Inner.choose, List.flatMap_singleton]
  | ifBlock condition body =>
      simp only [Inner.ifs, List.flatMap_singleton, Sum.elim_inr, Inner.choose]
      cases holding : holds values context condition.text with
      | false => rfl
      | true =>
          have found := read.ifBodies inners unrolled condition body member holding
          rw [if_pos rfl, if_pos rfl, renderVariables_leaves found]
          exact (printLeaves_fill body).symm

theorem meaningOfLeaves_fill (later : Context V) (body : List (Leaf alnum)) :
    meaningOfLeaves values later (body.map (Leaf.fill values context)) = meaningOfLeaves values context body := by
  rw [meaningOfLeaves, List.flatMap_map]
  rfl

/-! ### What the passes make is the meaning -/

theorem Inner.meaningOfLeaves_choose (inner : Inner alnum) :
    meaningOfLeaves values context (inner.choose values context) = inner.meaning values context := by
  cases inner with
  | leaf part => exact List.flatMap_singleton _ part
  | ifBlock condition body =>
      rw [Inner.choose, Inner.meaning]
      cases holds values context condition.text with
      | false => rfl
      | true => exact meaningOfLeaves_fill context body

theorem meaningOfLeaves_choose (inners : List (Inner alnum)) :
    meaningOfLeaves values context (choose values context inners) = meaningOfInners values context inners := by
  rw [meaningOfLeaves, choose, List.flatMap_assoc]
  exact List.flatMap_congr fun inner _ => inner.meaningOfLeaves_choose

/-- With its values put in, a body means the same in another context in which its conditions come out the same. -/
theorem meaningOfInners_fill {later : Context V} {body : List (Inner alnum)}
    (conditions : ∀ condition inside, .ifBlock condition inside ∈ body →
      holds values context condition.text = holds values later condition.text) :
    meaningOfInners values later (body.map (Inner.fill values context)) = meaningOfInners values context body := by
  rw [meaningOfInners, List.flatMap_map]
  apply List.flatMap_congr
  intro inner member
  cases inner with
  | leaf part => rfl
  | ifBlock condition inside =>
      rw [Inner.fill, Inner.meaning, Inner.meaning, conditions condition inside member, meaningOfLeaves_fill]

theorem meaningOfInners_intercalate (bodies : List (List (Inner alnum))) :
    meaningOfInners values context (List.intercalate [.leaf (.text ['\n'])] bodies) =
      joinLines (bodies.map (meaningOfInners values context)) :=
  map_intercalate (meaningOfInners values context) rfl (fun _ _ => List.flatMap_append) [.leaf (.text ['\n'])] bodies

theorem ReadAsWritten.meaning_unroll {nodes : List (Node alnum)} (read : ReadAsWritten values nodes context) :
    (unroll values context nodes).map (meaningOfInners values context) =
      concatM (Node.meaning values context) nodes := by
  rw [unroll, map_concatM (meaningOfInners values context) rfl fun _ _ => List.flatMap_append]
  apply concatM_congr
  intro node member
  cases node with
  | inner part => exact congrArg some (List.flatMap_singleton _ part)
  | forBlock item list body =>
      rw [Node.unroll, Node.meaning, Option.map_map]
      cases listed : itemsOf values context list.text with
      | none => rfl
      | some items =>
          have each : ∀ value ∈ items, meaningOfInners values context
              (body.map (Inner.fill values (Function.update context item.text (some value)))) =
              meaningOfInners values (Function.update context item.text (some value)) body := fun value inItems =>
            meaningOfInners_fill (read.conditions item list body member items listed value inItems)
          rw [Option.map_some, Option.map_some, Function.comp_apply, meaningOfInners_intercalate, loopBodies,
            List.map_map]
          exact congrArg (some ∘ joinLines) (List.map_congr_left each)

/-- Rendering is the meaning of the template wherever every pass reads the template as it was written. -/
theorem ReadAsWritten.render_eq_meaning {nodes : List (Node alnum)} {context : Context V}
    (read : ReadAsWritten values nodes context) :
    render alnum values (printNodes nodes) context = meaning values nodes context := by
  rw [render, read.renderForLoops_printNodes, meaning, ← read.meaning_unroll, Option.map_map, Option.map_map]
  cases unrolled : unroll values context nodes with
  | none => rfl
  | some inners =>
      have blocks := read.renderIfBlocks_printInners unrolled
      have last : renderVariables alnum values context (printLeaves (choose values context inners)) =
          meaningOfLeaves values context (choose values context inners) :=
        renderVariables_leaves (read.lastVariables inners unrolled)
      rw [Option.map_some, Option.map_some, Function.comp_apply, Function.comp_apply, blocks, last]
      exact congrArg (some ∘ Text.strip) (meaningOfLeaves_choose inners)

/-! ### A list of documents -/

abbrev ascii : Char → Bool := fun _ => false

def doc : Name ascii := ⟨['d', 'o', 'c'], List.cons_ne_nil _ _, List.all_eq_true.mp rfl⟩

def docs : Name ascii := ⟨['d', 'o', 'c', 's'], List.cons_ne_nil _ _, List.all_eq_true.mp rfl⟩

def listing (body : List (Inner ascii)) : List (Node ascii) := [.forBlock doc docs body]

def contextOf (documents : List PyValue) : Context PyValue := fun name =>
  if name = docs.text then some (.list documents)
  else if name = "key".toList then some (.str "k1")
  else none

def digest : List (Node ascii) := listing [.leaf (.var doc), .ifBlock docs [.text ['!']]]

theorem plain_digest : Plain (pyValues fun _ => true) (contextOf [.str "a", .str "b"]) digest where
  nodes := by simp [digest, listing, Node.Plain, Inner.Plain, Leaf.Plain]
  shown := by
    intro name
    unfold shown contextOf
    split_ifs
    · decide +kernel
    · decide +kernel
    · decide
  items := by
    intro list items
    unfold itemsOf contextOf
    split_ifs
    · rintro ⟨⟩
      decide +kernel
    · rintro ⟨⟩
      decide +kernel
    · rintro ⟨⟩
      simp

theorem digest_rendered :
    render ascii (pyValues fun _ => true) (printNodes digest) (contextOf [.str "a", .str "b"]) =
      meaning (pyValues fun _ => true) digest (contextOf [.str "a", .str "b"]) := by
  apply ReadAsWritten.render_eq_meaning
  apply plain_digest.readAsWritten
  intro item list body member items listed value inItems condition inside inBody
  obtain ⟨rfl, rfl, rfl⟩ := Node.forBlock.inj (List.mem_singleton.mp member)
  obtain ⟨rfl, rfl⟩ : condition = docs ∧ inside = [.text ['!']] := by simpa using inBody
  rfl

theorem values_read_as_template :
    let values := pyValues fun _ => true
    let item := listing [.leaf (.var doc)]
    let condition := listing [.ifBlock doc [.text ['!']]]
    let keyed := contextOf [.str "\x7b\x7bkey\x7d\x7d"]
    render ascii values (printNodes item) keyed = some "k1".toList ∧
      meaning values item keyed = some "\x7b\x7bkey\x7d\x7d".toList ∧
      render ascii values (printNodes condition) keyed = some [] ∧ meaning values condition keyed = some ['!'] := by
  decide +kernel

end CuckooEcho.Agent.PromptTemplate
