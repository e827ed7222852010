import CuckooEcho.Agent.ToolExecutor
import CuckooEcho.Lib.Run
import Mathlib.Logic.Function.Basic

namespace CuckooEcho.Agent
open Lib

/-! ## What the registry says -/

/-- The handler of the latest registration of a name, and whether it is enabled. -/
structure Listing (η : Type*) where
  handler : Option η
  enabled : Bool
  deriving DecidableEq, Repr

def Listing.active {η : Type*} (listing : Listing η) : Option η := if listing.enabled then listing.handler else none

inductive RegistryOp (η α : Type*)
  | registerTool (args : Registration η α)
  | enableTool (name : String)
  | disableTool (name : String)
  | unregisterTool (name : String)

/-- A registry beside what has been said of each name. -/
structure ListedRegistry (η α : Type*) where
  registry : ToolRegistry η α
  listings : String → Option (Listing η)

namespace ListedRegistry
variable {η α ρ ω : Type*}

def empty : ListedRegistry η α := ⟨.empty, fun _ => none⟩

def step (s : ListedRegistry η α) : RegistryOp η α → Option (ListedRegistry η α)
  | .registerTool args =>
      some ⟨s.registry.registerTool args, Function.update s.listings args.name (some ⟨args.handler, true⟩)⟩
  | .enableTool name =>
      some ⟨(s.registry.enableTool name).1,
        Function.update s.listings name ((s.listings name).map fun listing => { listing with enabled := true })⟩
  | .disableTool name =>
      some ⟨(s.registry.disableTool name).1,
        Function.update s.listings name ((s.listings name).map fun listing => { listing with enabled := false })⟩
  | .unregisterTool name => some ⟨(s.registry.unregisterTool name).1, Function.update s.listings name none⟩

/-- An executor of the registry calls the handlers of the enabled tools, and no others. -/
def Agrees (env : Environment η α ρ ω) (world : ω) (s : ListedRegistry η α) : Prop :=
  ∀ history name params,
    ((ToolExecutor.mk (some s.registry) history).executeTool env name params world).invoked.map Prod.fst =
      (s.listings name).bind Listing.active

/-- The tool has no handler that disabling it, or registering it again without one, would leave. -/
def Harmless (s : ListedRegistry η α) : RegistryOp η α → Prop
  | .registerTool args => args.handler = none → s.registry.toolHandlers.get args.name = none
  | .disableTool name => s.registry.toolHandlers.get name = none
  | .enableTool _ | .unregisterTool _ => True

/-! ## The two maps -/

/-- What holds in every run: the definitions say what has been said, no handler is kept without a definition, and
the handler of a definition is the one that is kept. -/
structure Coherent (s : ListedRegistry η α) : Prop where
  listings : ∀ name, s.listings name = (s.registry.tools.get name).map fun tool => ⟨tool.handler, tool.enabled⟩
  absent : ∀ name, s.registry.tools.get name = none → s.registry.toolHandlers.get name = none
  stored : ∀ name tool handler, s.registry.tools.get name = some tool → tool.handler = some handler →
    s.registry.toolHandlers.get name = some handler

variable {env : Environment η α ρ ω} {world : ω} {s t : ListedRegistry η α}

theorem invoked_executeTool (x : ToolExecutor η α ρ) (name : String) (params : Dict String α) :
    (x.executeTool env name params world).invoked.map Prod.fst = (x.dispatch name).toOption := by
  unfold ToolExecutor.executeTool ToolExecutor.attempt
  cases x.dispatch name <;> rfl

theorem Coherent.dispatch (h : Coherent s) (history : List (ToolExecution α ρ)) (name : String) :
    ((ToolExecutor.mk (some s.registry) history).dispatch name).toOption = s.registry.toolHandlers.get name := by
  unfold ToolExecutor.dispatch ToolRegistry.getTool
  dsimp only
  split
  · rename_i unknown
    exact (h.absent name unknown).symm
  · have handler : (ToolExecutor.mk (some s.registry) history).getHandler name = s.registry.toolHandlers.get name := rfl
    rw [handler]
    cases s.registry.toolHandlers.get name <;> rfl

theorem Coherent.agrees_iff (h : Coherent s) :
    Agrees env world s ↔ ∀ name, s.registry.toolHandlers.get name = (s.listings name).bind Listing.active := by
  constructor
  · intro agrees name
    have here := agrees [] name .empty
    rwa [invoked_executeTool, h.dispatch] at here
  · intro same history name params
    rw [invoked_executeTool, h.dispatch]
    exact same name

/-! ## What each operation keeps -/

/-- The outcome of `enable_tool` and of `disable_tool`. -/
def switch (s : ListedRegistry η α) (name : String) (enabled : Bool) : ListedRegistry η α :=
  ⟨(s.registry.setEnabled name enabled).1,
    Function.update s.listings name ((s.listings name).map fun listing => { listing with enabled })⟩

/-- An operation on one name is judged at that name. -/
theorem Coherent.update (h : Coherent s) {registry : ToolRegistry η α} {name : String} {listing : Option (Listing η)}
    (tools : ∀ other ≠ name, registry.tools.get other = s.registry.tools.get other)
    (handlers : ∀ other ≠ name, registry.toolHandlers.get other = s.registry.toolHandlers.get other)
    (listed : listing = (registry.tools.get name).map fun tool => ⟨tool.handler, tool.enabled⟩)
    (absent : registry.tools.get name = none → registry.toolHandlers.get name = none)
    (stored : ∀ tool handler, registry.tools.get name = some tool → tool.handler = some handler →
      registry.toolHandlers.get name = some handler) :
    Coherent ⟨registry, Function.update s.listings name listing⟩ := by
  constructor
  · intro other
    dsimp only
    by_cases same : other = name
    · rw [same, Function.update_self, listed]
    · rw [Function.update_of_ne same, tools other same]
      exact h.listings other
  · intro other unknown
    by_cases same : other = name
    · exact same ▸ absent (same ▸ unknown)
    · exact (handlers other same).trans (h.absent other ((tools other same).symm.trans unknown))
  · intro other tool handler known has
    by_cases same : other = name
    · exact same ▸ stored tool handler (same ▸ known) has
    · exact (handlers other same).trans (h.stored other tool handler ((tools other same).symm.trans known) has)

theorem Coherent.registerTool (h : Coherent s) (args : Registration η α) :
    Coherent ⟨s.registry.registerTool args, Function.update s.listings args.name (some ⟨args.handler, true⟩)⟩ := by
  have here : (s.registry.registerTool args).tools.get args.name = some args.definition :=
    (ToolRegistry.tools_registerTool args args.name).trans (if_pos rfl)
  apply h.update
  · intro other different
    rw [ToolRegistry.tools_registerTool, if_neg different]
  · intro other different
    rw [ToolRegistry.toolHandlers_registerTool, if_neg different]
  · rw [here]
    rfl
  · intro unknown
    rw [here] at unknown
    cases unknown
  · intro tool handler known has
    obtain rfl := Option.some.inj (here.symm.trans known)
    have given : args.handler = some handler := has
    rw [ToolRegistry.toolHandlers_registerTool, if_pos rfl, given, Option.some_or]

theorem Coherent.switch (h : Coherent s) (name : String) (enabled : Bool) : Coherent (s.switch name enabled) := by
  have here : (s.registry.setEnabled name enabled).1.tools.get name =
      (s.registry.tools.get name).map fun tool => { tool with enabled } :=
    (ToolRegistry.tools_setEnabled name name enabled).trans (if_pos rfl)
  have handlers : (s.registry.setEnabled name enabled).1.toolHandlers = s.registry.toolHandlers :=
    ToolRegistry.toolHandlers_setEnabled name enabled
  apply h.update
  · intro other different
    rw [ToolRegistry.tools_setEnabled, if_neg different]
  · intro other different
    rw [handlers]
  · rw [here, h.listings, Option.map_map, Option.map_map]
    rfl
  · intro unknown
    rw [here] at unknown
    rw [handlers]
    exact h.absent name (Option.map_eq_none_iff.mp unknown)
  · intro tool handler known has
    rw [here] at known
    obtain ⟨old, found, rfl⟩ := Option.map_eq_some_iff.mp known
    rw [handlers]
    exact h.stored name old handler found has

theorem Coherent.unregisterTool (h : Coherent s) (name : String) :
    Coherent ⟨(s.registry.unregisterTool name).1, Function.update s.listings name none⟩ := by
  have here : (s.registry.unregisterTool name).1.tools.get name = none :=
    (ToolRegistry.tools_unregisterTool name name).trans (if_pos rfl)
  apply h.update
  · intro other different
    rw [ToolRegistry.tools_unregisterTool, if_neg different]
  · intro other different
    rw [ToolRegistry.toolHandlers_unregisterTool, if_neg fun gone => different gone.1]
  · rw [here]
    rfl
  · intro _
    rw [ToolRegistry.toolHandlers_unregisterTool]
    split
    · rfl
    · next kept => exact h.absent name (not_not.mp fun known => kept ⟨rfl, known⟩)
  · intro tool handler known
    rw [here] at known
    cases known

theorem Coherent.step (h : Coherent s) {op : RegistryOp η α} (next : s.step op = some t) : Coherent t := by
  cases op with
  | registerTool args => exact Option.some.inj next ▸ h.registerTool args
  | enableTool name => exact Option.some.inj next ▸ h.switch name true
  | disableTool name => exact Option.some.inj next ▸ h.switch name false
  | unregisterTool name => exact Option.some.inj next ▸ h.unregisterTool name

/-- The handlers that are kept are the active ones. -/
def Active (s : ListedRegistry η α) : Prop :=
  ∀ name, s.registry.toolHandlers.get name = (s.listings name).bind Listing.active

theorem active_registerTool_iff (active : Active s) (args : Registration η α) :
    Active ⟨s.registry.registerTool args, Function.update s.listings args.name (some ⟨args.handler, true⟩)⟩ ↔
      (args.handler = none → s.registry.toolHandlers.get args.name = none) := by
  constructor
  · intro after none
    have here := after args.name
    dsimp only at here
    rwa [ToolRegistry.toolHandlers_registerTool, if_pos rfl, none, Option.none_or, Function.update_self] at here
  · intro harmless name
    dsimp only
    rw [ToolRegistry.toolHandlers_registerTool]
    by_cases same : name = args.name
    · rw [same, if_pos rfl, Function.update_self]
      cases given : args.handler with
      | some handler => rfl
      | none => exact harmless given
    · rw [if_neg same, Function.update_of_ne same]
      exact active name

/-- Enabling and disabling leave the handlers as they are. -/
theorem active_switch_iff (h : Coherent s) (active : Active s) (name : String) (enabled : Bool) :
    Active (s.switch name enabled) ↔ (enabled = false → s.registry.toolHandlers.get name = none) := by
  constructor
  · rintro after rfl
    have here := after name
    unfold switch at here
    dsimp only at here
    rw [ToolRegistry.toolHandlers_setEnabled, Function.update_self] at here
    rw [here]
    cases s.listings name <;> rfl
  · intro harmless other
    unfold switch
    dsimp only
    rw [ToolRegistry.toolHandlers_setEnabled]
    by_cases same : other = name
    · rw [same, Function.update_self]
      cases enabled with
      | false =>
          rw [harmless rfl]
          cases s.listings name <;> rfl
      | true =>
          have before := active name
          cases known : s.registry.tools.get name with
          | none =>
              rw [h.listings, known]
              exact h.absent name known
          | some tool =>
              rw [h.listings, known] at before ⊢
              have on : (Listing.mk tool.handler true).active = tool.handler := if_pos rfl
              rw [Option.map_some, Option.map_some, Option.bind_some, on]
              cases has : tool.handler with
              | some handler => exact h.stored name tool handler known has
              | none =>
                  rw [before, Option.map_some, Option.bind_some, Listing.active, has, ite_self]
    · rw [Function.update_of_ne same]
      exact active other

theorem active_unregisterTool (h : Coherent s) (active : Active s) (name : String) :
    Active ⟨(s.registry.unregisterTool name).1, Function.update s.listings name none⟩ := by
  intro other
  dsimp only
  rw [ToolRegistry.toolHandlers_unregisterTool]
  by_cases same : other = name
  · rw [same, Function.update_self]
    split
    · rfl
    · rename_i unknown
      exact h.absent name (not_not.mp fun known => unknown ⟨rfl, known⟩)
  · rw [if_neg fun gone => same gone.1, Function.update_of_ne same]
    exact active other

theorem active_step_iff (h : Coherent s) (active : Active s) {op : RegistryOp η α} (next : s.step op = some t) :
    Active t ↔ s.Harmless op := by
  cases op with
  | registerTool args => exact Option.some.inj next ▸ active_registerTool_iff active args
  | enableTool name =>
      obtain rfl := Option.some.inj next
      exact iff_of_true ((active_switch_iff h active name true).mpr fun off => absurd off (by decide)) trivial
  | disableTool name =>
      obtain rfl := Option.some.inj next
      exact (active_switch_iff h active name false).trans ⟨fun harmless => harmless rfl, fun harmless _ => harmless⟩
  | unregisterTool name =>
      obtain rfl := Option.some.inj next
      exact iff_of_true (active_unregisterTool h active name) trivial

theorem coherent_empty : Coherent (empty : ListedRegistry η α) :=
  ⟨fun _ => rfl, fun _ _ => rfl, fun _ _ _ known => absurd known (Option.some_ne_none _).symm⟩

/-- The executor does what the registry says in exactly the runs in which no tool with a handler is disabled or
registered again without one. -/
theorem agrees_iff_harmless (env : Environment η α ρ ω) (world : ω) (ops : List (RegistryOp η α)) :
    Throughout step (Agrees env world) empty ops ↔ Along step Harmless empty ops := by
  refine throughout_iff_along_any (fun s => Coherent s ∧ Active s) ?_ ?_ ?_ ⟨coherent_empty, fun _ => rfl⟩
  · exact fun s h => h.1.agrees_iff.mpr h.2
  · intro s op t h harmless next
    exact ⟨h.1.step next, (active_step_iff h.1 h.2 next).mpr harmless⟩
  · intro s op t h next agrees
    exact (active_step_iff h.1 h.2 next).mp ((h.1.step next).agrees_iff.mp agrees)

/-- A tool that is disabled is still called. -/
def disabled : List (RegistryOp String Unit) :=
  [.registerTool ⟨"refund", "", .function, none, some "refund", none⟩, .disableTool "refund"]

theorem disabled_not_agrees :
    ¬ ∀ (η α ρ ω : Type) (env : Environment η α ρ ω) (world : ω) (ops : List (RegistryOp η α)),
      Throughout step (Agrees env world) empty ops := by
  intro claim
  let env : Environment String Unit Unit Unit := ⟨fun _ _ _ world => (.returned (), world), fun _ => 0, fun _ _ => 0⟩
  have agrees := (claim String Unit Unit Unit env () disabled).last rfl
  exact absurd (agrees [] "refund" .empty) (by decide)

end ListedRegistry

end CuckooEcho.Agent
