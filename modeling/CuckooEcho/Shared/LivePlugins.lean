import CuckooEcho.Shared.PluginSystem

namespace CuckooEcho.Shared.PluginSystem
open Lib

/-! ## Whose tools and handlers run -/

inductive Provision (Callable : Type*)
  | tool (name : String) (tool : Callable)
  | handler (eventType : String) (handler : Callable)

section
variable {Callable : Type*}

namespace PluginModule
variable (m : PluginModule Callable)

def tool (name : String) : Option Callable := (Dict.empty.setAll (m.registerTools.getD [])).get name

def handlers (eventType : String) : List Callable :=
  ((m.registerTriggers.getD []).filter (·.1 = eventType)).map (·.2)

def Provides : Provision Callable → Prop
  | .tool name tool => m.tool name = some tool
  | .handler eventType handler => handler ∈ m.handlers eventType

end PluginModule

/-- No other handlers raise. -/
def RaisesWithin (mayRaise : Callable → Prop) (run : Callable → Except String PyValue) : Prop :=
  ∀ handler error, run handler = .error error → mayRaise handler

namespace PluginRegistry
variable (r : PluginRegistry Callable)

def Live (what : Provision Callable) : Prop :=
  ∃ key plugin, r.plugins.get key = some plugin ∧ plugin.enabled = true ∧ plugin.module.Provides what

def LiveBesides (name : String) (what : Provision Callable) : Prop :=
  ∃ key plugin, key ≠ name ∧ r.plugins.get key = some plugin ∧ plugin.enabled = true ∧ plugin.module.Provides what

/-- A tool runs if it was provided by a live plugin, and only then; so does a handler, once for each event, whichever
of the handlers that may raise do so. -/
structure OnlyLive [DecidableEq Callable] (mayRaise : String → Callable → Prop) : Prop where
  tools : ∀ name tool, r.executeTool name = .ok tool ↔ r.Live (.tool name tool)
  handlers : ∀ eventType run, RaisesWithin (mayRaise eventType) run → ∀ handler,
    (r.Live (.handler eventType handler) → (r.triggerEvent run eventType).1.count handler = 1) ∧
      (handler ∈ (r.triggerEvent run eventType).1 → r.Live (.handler eventType handler))

/-- Whatever is live is provided by another live plugin, too. -/
def Spares (name : String) : Prop := ∀ what, r.Live what → r.LiveBesides name what

/-- The new module brings a tool under a name only where no other live plugin has a different one, and handlers only
once and which no live plugin has; the plugin that it replaces leaves nothing behind. -/
structure Joins (mayRaise : String → Callable → Prop) (name : String) (module : PluginModule Callable) : Prop where
  tools : ∀ toolName tool other, module.tool toolName = some tool → r.LiveBesides name (.tool toolName other) →
    other = tool
  replaced : ∀ toolName tool, module.tool toolName = none → r.Live (.tool toolName tool) →
    r.LiveBesides name (.tool toolName tool)
  once : ∀ eventType, (module.handlers eventType).Nodup
  handlers : ∀ eventType handler, r.Live (.handler eventType handler) →
    r.LiveBesides name (.handler eventType handler) ∧ handler ∉ module.handlers eventType
  -- A handler that may raise is called after all the others
  returns : ∀ eventType, module.handlers eventType ≠ [] → ∀ handler, r.Live (.handler eventType handler) →
    ¬ mayRaise eventType handler
  last : ∀ eventType, ∀ handler ∈ (module.handlers eventType).dropLast, ¬ mayRaise eventType handler

/-- The operation takes nothing away from a live plugin. -/
def Harmless (mayRaise : String → Callable → Prop) (r : PluginRegistry Callable) : Op Callable → Prop
  | .register manifest module => r.Joins mayRaise manifest.name module
  | .enable name => ∀ plugin, r.plugins.get name = some plugin → ∀ what, plugin.module.Provides what → r.Live what
  | .disable name | .uninstall name => r.Spares name

end PluginRegistry

/-! ### Calling the handlers of an event -/

/-- Each of the live handlers is in the list once, and only the last one may raise. -/
structure Once (mayRaise live : Callable → Prop) (handlers : List Callable) : Prop where
  nodup : handlers.Nodup
  mem_iff : ∀ handler, handler ∈ handlers ↔ live handler
  returns : ∀ handler ∈ handlers.dropLast, ¬ mayRaise handler

theorem runHandlers_cons {run : Callable → Except String PyValue} {handler : Callable}
    (returns : ∀ error, run handler ≠ .error error) (handlers : List Callable) :
    (runHandlers run (handler :: handlers)).1 = handler :: (runHandlers run handlers).1 := by
  rw [runHandlers]
  cases result : run handler with
  | ok value => rfl
  | error error => exact absurd result (returns error)

theorem runHandlers_of_dropLast {run : Callable → Except String PyValue} {handlers : List Callable}
    (returns : ∀ handler ∈ handlers.dropLast, ∀ error, run handler ≠ .error error) :
    (runHandlers run handlers).1 = handlers := by
  induction handlers with
  | nil => rfl
  | cons handler handlers ih =>
      cases handlers with
      | nil =>
          rw [runHandlers]
          cases run handler <;> rfl
      | cons next handlers =>
          obtain ⟨here, later⟩ := List.forall_mem_cons.mp returns
          rw [runHandlers_cons here, ih later]

section
variable [DecidableEq Callable]

/-- Only that handler raises. -/
def raising (handler : Callable) : Callable → Except String PyValue := fun other =>
  if other = handler then .error "" else .ok .none

theorem runHandlers_raising {handler : Callable} {before : List Callable} (first : handler ∉ before)
    (after : List Callable) :
    (runHandlers (raising handler) (before ++ handler :: after)).1 = before ++ [handler] := by
  induction before with
  | nil => simp [runHandlers, raising]
  | cons other before ih =>
      obtain ⟨differs, first⟩ := not_or.mp (List.mem_cons.not.mp first)
      have returns : ∀ error, raising handler other ≠ .error error := by
        simp [raising, Ne.symm differs]
      rw [List.cons_append, runHandlers_cons returns, ih first]
      rfl

theorem raisesWithin_raising {mayRaise : Callable → Prop} {handler : Callable} (may : mayRaise handler) :
    RaisesWithin mayRaise (raising handler) := by
  intro other error raises
  rw [raising] at raises
  split at raises
  · rename_i same
    exact same ▸ may
  · cases raises

/-- A handler that raises keeps the last one from being called. -/
theorem getLast_not_called {handlers : List Callable} (nodup : handlers.Nodup) (nonempty : handlers ≠ [])
    {handler : Callable} (member : handler ∈ handlers.dropLast) :
    handlers.getLast nonempty ∉ (runHandlers (raising handler) handlers).1 := by
  obtain ⟨before, after, split⟩ := List.append_of_mem member
  have whole : handlers = before ++ handler :: (after ++ [handlers.getLast nonempty]) := by
    rw [← List.cons_append, ← List.append_assoc, ← split, List.dropLast_append_getLast]
  have apart : (before ++ [handler] ++ (after ++ [handlers.getLast nonempty])).Nodup := by
    rwa [List.append_assoc, List.singleton_append, ← whole]
  obtain ⟨front, -, disjoint⟩ := List.nodup_append.mp apart
  have first : handler ∉ before := by
    intro earlier
    exact (List.nodup_append.mp front).2.2 _ earlier _ (List.mem_singleton_self _) rfl
  have reaches : (runHandlers (raising handler) handlers).1 = before ++ [handler] := by
    rw [whole]
    exact runHandlers_raising first _
  rw [reaches]
  intro reached
  exact disjoint _ reached _ (List.mem_append_right _ (List.mem_singleton_self _)) rfl

theorem once_iff {mayRaise live : Callable → Prop} {handlers : List Callable} :
    Once mayRaise live handlers ↔ ∀ run, RaisesWithin mayRaise run → ∀ handler,
      (live handler → (runHandlers run handlers).1.count handler = 1) ∧
        (handler ∈ (runHandlers run handlers).1 → live handler) := by
  constructor
  · intro h run within handler
    rw [runHandlers_of_dropLast fun other member error raises => h.returns other member (within other error raises)]
    exact ⟨fun live => List.count_eq_one_of_mem h.nodup ((h.mem_iff handler).mpr live), (h.mem_iff handler).mp⟩
  · intro calls
    have counted (handler : Callable) :
        (live handler → handlers.count handler = 1) ∧ (handler ∈ handlers → live handler) := by
      have here := calls (fun _ => .ok .none) (by rintro other error ⟨⟩) handler
      rwa [runHandlers_of_dropLast (by rintro other member error ⟨⟩)] at here
    have nodup : handlers.Nodup := by
      refine List.nodup_iff_count_le_one.mpr fun handler => ?_
      by_cases member : handler ∈ handlers
      · exact Nat.le_of_eq ((counted handler).1 ((counted handler).2 member))
      · rw [List.count_eq_zero_of_not_mem member]
        exact Nat.zero_le 1
    refine ⟨nodup, fun handler => ⟨(counted handler).2, fun live => ?_⟩, fun handler member may => ?_⟩
    · exact List.count_pos_iff.mp (by rw [(counted handler).1 live]; exact Nat.one_pos)
    · have nonempty : handlers ≠ [] := by
        rintro rfl
        cases member
      have called := (calls (raising handler) (raisesWithin_raising may) (handlers.getLast nonempty)).1
        ((counted _).2 (List.getLast_mem nonempty))
      exact getLast_not_called nodup nonempty member (List.count_pos_iff.mp (called ▸ Nat.one_pos))

end

/-! ### What the operations change -/

namespace PluginRegistry
variable {r r' : PluginRegistry Callable}

theorem live_of_slot {name : String} {slot : Option (RegisteredPlugin Callable)}
    (plugins : ∀ key, r'.plugins.get key = if key = name then slot else r.plugins.get key) (what : Provision Callable) :
    r'.Live what ↔ r.LiveBesides name what ∨
      ∃ plugin, slot = some plugin ∧ plugin.enabled = true ∧ plugin.module.Provides what := by
  constructor
  · rintro ⟨key, plugin, found, enabled, provides⟩
    rw [plugins] at found
    by_cases same : key = name
    · rw [if_pos same] at found
      exact Or.inr ⟨plugin, found, enabled, provides⟩
    · rw [if_neg same] at found
      exact Or.inl ⟨key, plugin, same, found, enabled, provides⟩
  · rintro (⟨key, plugin, differs, found, enabled, provides⟩ | ⟨plugin, rfl, enabled, provides⟩)
    · exact ⟨key, plugin, (plugins key).trans ((if_neg differs).trans found), enabled, provides⟩
    · exact ⟨name, plugin, (plugins name).trans (if_pos rfl), enabled, provides⟩

theorem live_of_liveBesides {name : String} {what : Provision Callable} (live : r.LiveBesides name what) :
    r.Live what := by
  obtain ⟨key, plugin, -, found, enabled, provides⟩ := live
  exact ⟨key, plugin, found, enabled, provides⟩

theorem executeTool_eq_ok {name : String} {tool : Callable} :
    r.executeTool name = .ok tool ↔ r.getTool name = some tool := by
  rw [executeTool]
  cases r.getTool name with
  | none => simp
  | some found => simp

theorem getTool_register (manifest : PluginManifest) (module : PluginModule Callable) (name : String) :
    (r.register manifest module).getTool name = (module.tool name).or (r.getTool name) := by
  rw [getTool, register, PluginModule.tool]
  cases module.registerTools with
  | none => rfl
  | some tools => exact Dict.get_setAll r.tools tools name

theorem getTriggerHandlers_register (manifest : PluginManifest) (module : PluginModule Callable)
    (eventType : String) : (r.register manifest module).getTriggerHandlers eventType =
      r.getTriggerHandlers eventType ++ module.handlers eventType := by
  have appended (items : List (String × Callable)) (triggers : Dict String (List Callable)) :
      ((items.foldl appendHandler triggers).get eventType).getD [] =
        (triggers.get eventType).getD [] ++ (items.filter (·.1 = eventType)).map (·.2) := by
    induction items generalizing triggers with
    | nil => simp
    | cons item items ih =>
        rw [List.foldl_cons, ih, appendHandler, Dict.get_set]
        by_cases here : eventType = item.1
        · rw [if_pos here, List.filter_cons_of_pos (by simp [here])]
          simp [here]
        · rw [if_neg here, List.filter_cons_of_neg (by simpa using Ne.symm here)]
  rw [getTriggerHandlers, register, PluginModule.handlers]
  cases module.registerTriggers with
  | none => simp [getTriggerHandlers]
  | some items => exact appended items r.triggers

theorem plugins_register (manifest : PluginManifest) (module : PluginModule Callable) (key : String) :
    (r.register manifest module).plugins.get key =
      if key = manifest.name then some { manifest, module } else r.plugins.get key :=
  Dict.get_set r.plugins manifest.name key { manifest, module }

theorem live_register (manifest : PluginManifest) (module : PluginModule Callable) (what : Provision Callable) :
    (r.register manifest module).Live what ↔ r.LiveBesides manifest.name what ∨ module.Provides what := by
  rw [live_of_slot (plugins_register manifest module)]
  simp

theorem setEnabled_spec (name : String) (enabled : Bool) :
    (r.setEnabled name enabled).1.tools = r.tools ∧ (r.setEnabled name enabled).1.triggers = r.triggers ∧
      ∀ key, (r.setEnabled name enabled).1.plugins.get key =
        if key = name then (r.plugins.get name).map ({ · with enabled }) else r.plugins.get key := by
  rw [setEnabled]
  cases found : r.plugins.get name with
  | none =>
      refine ⟨rfl, rfl, fun key => ?_⟩
      by_cases same : key = name
      · rw [if_pos same, same]
        exact found
      · rw [if_neg same]
  | some plugin => exact ⟨rfl, rfl, fun key => Dict.get_set r.plugins name key _⟩

def Keyed (r : PluginRegistry Callable) : Prop :=
  ∀ key plugin, r.plugins.get key = some plugin → plugin.manifest.name = key

theorem uninstallPlugin_spec (keyed : r.Keyed) (name : String) :
    (r.uninstallPlugin name).1.tools = r.tools ∧ (r.uninstallPlugin name).1.triggers = r.triggers ∧
      ∀ key, (r.uninstallPlugin name).1.plugins.get key = if key = name then none else r.plugins.get key := by
  rw [uninstallPlugin]
  split
  · obtain ⟨tools, triggers, plugins⟩ := setEnabled_spec (r := r) name false
    refine ⟨tools, triggers, fun key => ?_⟩
    refine (Dict.get_erase _ name key).trans ?_
    split
    · rfl
    · rename_i differs
      exact (plugins key).trans (if_neg differs)
  · rename_i absent
    refine ⟨rfl, rfl, fun key => ?_⟩
    split
    · rename_i same
      subst same
      refine Option.eq_none_iff_forall_ne_some.mpr fun plugin found => absent ?_
      refine List.mem_map.mpr ⟨plugin.manifest, List.mem_map_of_mem ?_, keyed key plugin found⟩
      exact Dict.mem_values.mpr ⟨key, found⟩
    · rfl

theorem Keyed.step {op : Op Callable} (keyed : r.Keyed) (next : step r op = some r') : r'.Keyed := by
  have enabled (name : String) (enabled : Bool) : (r.setEnabled name enabled).1.Keyed := by
    intro key plugin found
    obtain ⟨-, -, plugins⟩ := setEnabled_spec (r := r) name enabled
    rw [plugins] at found
    split at found
    · rename_i same
      obtain ⟨old, there, rfl⟩ := Option.map_eq_some_iff.mp found
      exact same ▸ keyed name old there
    · exact keyed key plugin found
  cases op with
  | register manifest module =>
      obtain rfl := Option.some.inj next
      intro key plugin found
      rw [plugins_register] at found
      split at found
      · rename_i same
        obtain rfl := Option.some.inj found
        exact same.symm
      · exact keyed key plugin found
  | enable name =>
      obtain rfl := Option.some.inj next
      exact enabled name true
  | disable name =>
      obtain rfl := Option.some.inj next
      exact enabled name false
  | uninstall name =>
      obtain rfl := Option.some.inj next
      intro key plugin found
      obtain ⟨-, -, plugins⟩ := uninstallPlugin_spec keyed name
      rw [plugins] at found
      split at found
      · cases found
      · exact keyed key plugin found

end PluginRegistry

/-! ### Only live plugins run -/

section
variable [DecidableEq Callable] {mayRaise : String → Callable → Prop}

namespace PluginRegistry
variable {r r' : PluginRegistry Callable}

theorem onlyLive_iff : r.OnlyLive mayRaise ↔
    (∀ name tool, r.getTool name = some tool ↔ r.Live (.tool name tool)) ∧
      ∀ eventType, Once (mayRaise eventType) (fun handler => r.Live (.handler eventType handler))
        (r.getTriggerHandlers eventType) := by
  constructor
  · intro h
    exact ⟨fun name tool => executeTool_eq_ok.symm.trans (h.tools name tool),
      fun eventType => once_iff.mpr (h.handlers eventType)⟩
  · rintro ⟨tools, handlers⟩
    exact ⟨fun name tool => executeTool_eq_ok.trans (tools name tool),
      fun eventType => once_iff.mp (handlers eventType)⟩

/-- The maps stay as they are, and so must what is live. -/
theorem OnlyLive.iff_of_same (h : r.OnlyLive mayRaise) (tools : r'.tools = r.tools)
    (triggers : r'.triggers = r.triggers) :
    r'.OnlyLive mayRaise ↔ ∀ what, r'.Live what ↔ r.Live what := by
  have sameTools (name : String) : r'.getTool name = r.getTool name := by rw [getTool, getTool, tools]
  have sameHandlers (eventType : String) : r'.getTriggerHandlers eventType = r.getTriggerHandlers eventType := by
    rw [getTriggerHandlers, getTriggerHandlers, triggers]
  obtain ⟨here, handlersHere⟩ := onlyLive_iff.mp h
  rw [onlyLive_iff]
  constructor
  · rintro ⟨there, handlersThere⟩ what
    cases what with
    | tool name tool => rw [← there, ← here, sameTools]
    | handler eventType handler =>
        have mem := (handlersThere eventType).mem_iff handler
        rw [sameHandlers] at mem
        exact mem.symm.trans ((handlersHere eventType).mem_iff handler)
  · intro same
    refine ⟨fun name tool => ?_, fun eventType => ?_⟩
    · rw [sameTools, same]
      exact here name tool
    · simp only [sameHandlers, same]
      exact handlersHere eventType

theorem OnlyLive.removed_iff (h : r.OnlyLive mayRaise) (tools : r'.tools = r.tools)
    (triggers : r'.triggers = r.triggers) {name : String} {slot : Option (RegisteredPlugin Callable)}
    (dead : ∀ plugin, slot = some plugin → plugin.enabled = false)
    (plugins : ∀ key, r'.plugins.get key = if key = name then slot else r.plugins.get key) :
    r'.OnlyLive mayRaise ↔ r.Spares name := by
  have left (what : Provision Callable) : r'.Live what ↔ r.LiveBesides name what := by
    rw [live_of_slot plugins]
    refine or_iff_left ?_
    rintro ⟨plugin, found, enabled, -⟩
    rw [dead plugin found] at enabled
    contradiction
  rw [h.iff_of_same tools triggers]
  simp only [left]
  exact ⟨fun same what => (same what).mpr, fun spares what => ⟨live_of_liveBesides, spares what⟩⟩

theorem Joins.of_onlyLive (h : r.OnlyLive mayRaise) {manifest : PluginManifest} {module : PluginModule Callable}
    (joined : (r.register manifest module).OnlyLive mayRaise) : r.Joins mayRaise manifest.name module := by
  obtain ⟨here, handlersHere⟩ := onlyLive_iff.mp h
  obtain ⟨there, handlersThere⟩ := onlyLive_iff.mp joined
  have appended (eventType : String) := handlersThere eventType
  simp only [getTriggerHandlers_register] at appended
  have last {eventType : String} (brings : module.handlers eventType ≠ []) :
      (r.getTriggerHandlers eventType ++ module.handlers eventType).dropLast =
        r.getTriggerHandlers eventType ++ (module.handlers eventType).dropLast :=
    List.dropLast_append_of_ne_nil brings
  constructor
  · intro name tool other assigned besides
    have current := (there name other).mpr ((live_register manifest module _).mpr (Or.inl besides))
    rw [getTool_register, assigned] at current
    exact (Option.some.inj current).symm
  · intro name tool missing live
    have current : (r.register manifest module).getTool name = some tool := by
      rw [getTool_register, missing]
      exact (here name tool).mpr live
    refine ((live_register manifest module _).mp ((there name tool).mp current)).resolve_right fun provided => ?_
    exact absurd (missing.symm.trans provided) (by simp)
  · exact fun eventType => (List.nodup_append.mp (appended eventType).nodup).2.1
  · intro eventType handler live
    have listed := ((handlersHere eventType).mem_iff handler).mpr live
    have absent : handler ∉ module.handlers eventType := fun again =>
      (List.nodup_append.mp (appended eventType).nodup).2.2 _ listed _ again rfl
    have still := ((appended eventType).mem_iff handler).mp (List.mem_append_left _ listed)
    exact ⟨((live_register manifest module _).mp still).resolve_right absent, absent⟩
  · intro eventType brings handler live
    refine (appended eventType).returns handler ?_
    rw [last brings]
    exact List.mem_append_left _ (((handlersHere eventType).mem_iff handler).mpr live)
  · intro eventType handler member
    have brings : module.handlers eventType ≠ [] := by
      intro none
      rw [none] at member
      cases member
    refine (appended eventType).returns handler ?_
    rw [last brings]
    exact List.mem_append_right _ member

theorem Joins.onlyLive (h : r.OnlyLive mayRaise) {manifest : PluginManifest} {module : PluginModule Callable}
    (joins : r.Joins mayRaise manifest.name module) : (r.register manifest module).OnlyLive mayRaise := by
  obtain ⟨here, handlersHere⟩ := onlyLive_iff.mp h
  refine onlyLive_iff.mpr ⟨fun name tool => ?_, fun eventType => ?_⟩
  · rw [getTool_register, live_register, PluginModule.Provides]
    cases assigned : module.tool name with
    | none =>
        rw [Option.none_or, here]
        refine ⟨fun live => Or.inl (joins.replaced name tool assigned live), ?_⟩
        rintro (besides | provided)
        · exact live_of_liveBesides besides
        · cases provided
    | some own =>
        refine ⟨Or.inr, ?_⟩
        rintro (besides | provided)
        · exact congrArg some (joins.tools name own tool assigned besides).symm
        · exact provided
  · have once := handlersHere eventType
    rw [getTriggerHandlers_register]
    refine ⟨?_, fun handler => ?_, fun handler member => ?_⟩
    · refine List.nodup_append.mpr ⟨once.nodup, joins.once eventType, ?_⟩
      rintro handler listed _ again rfl
      exact (joins.handlers eventType handler ((once.mem_iff handler).mp listed)).2 again
    · rw [List.mem_append, live_register, once.mem_iff]
      refine or_congr_left ⟨fun live => (joins.handlers eventType handler live).1, live_of_liveBesides⟩
    · by_cases brings : module.handlers eventType = []
      · rw [brings, List.append_nil] at member
        exact once.returns handler member
      · rw [List.dropLast_append_of_ne_nil brings] at member
        obtain listed | own := List.mem_append.mp member
        · exact joins.returns eventType brings handler ((once.mem_iff handler).mp listed)
        · exact joins.last eventType handler own

theorem OnlyLive.step_iff (h : r.OnlyLive mayRaise) (keyed : r.Keyed) {op : Op Callable} (next : step r op = some r') :
    r'.OnlyLive mayRaise ↔ Harmless mayRaise r op := by
  cases op with
  | register manifest module =>
      obtain rfl := Option.some.inj next
      exact ⟨fun joined => .of_onlyLive h joined, fun joins => joins.onlyLive h⟩
  | enable name =>
      obtain rfl := Option.some.inj next
      obtain ⟨tools, triggers, plugins⟩ := setEnabled_spec (r := r) name true
      change (r.setEnabled name true).1.OnlyLive mayRaise ↔ _
      rw [h.iff_of_same tools triggers]
      simp only [live_of_slot plugins]
      constructor
      · intro same plugin found what provides
        exact (same what).mp (Or.inr ⟨{ plugin with enabled := true }, by rw [found]; rfl, rfl, provides⟩)
      · refine fun harmless what => ⟨?_, fun live => ?_⟩
        · rintro (besides | ⟨plugin, found, -, provides⟩)
          · exact live_of_liveBesides besides
          · obtain ⟨old, there, rfl⟩ := Option.map_eq_some_iff.mp found
            exact harmless old there what provides
        · obtain ⟨key, plugin, found, enabled, provides⟩ := live
          by_cases same : key = name
          · rw [same] at found
            exact Or.inr ⟨{ plugin with enabled := true }, by rw [found]; rfl, rfl, provides⟩
          · exact Or.inl ⟨key, plugin, same, found, enabled, provides⟩
  | disable name =>
      obtain rfl := Option.some.inj next
      obtain ⟨tools, triggers, plugins⟩ := setEnabled_spec (r := r) name false
      refine h.removed_iff tools triggers (fun plugin found => ?_) plugins
      obtain ⟨old, -, rfl⟩ := Option.map_eq_some_iff.mp found
      rfl
  | uninstall name =>
      obtain rfl := Option.some.inj next
      obtain ⟨tools, triggers, plugins⟩ := uninstallPlugin_spec keyed name
      refine h.removed_iff tools triggers (fun plugin found => ?_) plugins
      cases found

theorem onlyLive_initial : ({} : PluginRegistry Callable).OnlyLive mayRaise := by
  have dead (what : Provision Callable) : ¬ ({} : PluginRegistry Callable).Live what := by
    rintro ⟨key, plugin, found, -⟩
    cases found
  refine onlyLive_iff.mpr ⟨fun name tool => iff_of_false (by simp [getTool]) (dead _), fun eventType => ?_⟩
  exact ⟨List.nodup_nil, fun handler => iff_of_false List.not_mem_nil (dead _), List.forall_mem_nil _⟩

end PluginRegistry

/-- Only the tools and handlers of live plugins run, and each handler once, in exactly the runs in which no operation
takes away what a live plugin provides and the handlers that may raise come last: the maps of tools and handlers are
never told, and an exception ends the loop over the handlers. -/
theorem onlyLive_iff_harmless (mayRaise : String → Callable → Prop) (ops : List (Op Callable)) :
    Throughout step (PluginRegistry.OnlyLive · mayRaise) {} ops ↔
      Along step (PluginRegistry.Harmless mayRaise) {} ops := by
  have keyed : ({} : PluginRegistry Callable).Keyed := fun key plugin found => nomatch found
  refine throughout_iff_along_any (fun r : PluginRegistry Callable => r.Keyed ∧ r.OnlyLive mayRaise)
    (fun r h => h.2) ?_ ?_ ⟨keyed, PluginRegistry.onlyLive_initial⟩
  · intro r op r' h harmless next
    exact ⟨h.1.step next, (h.2.step_iff h.1 next).mpr harmless⟩
  · intro r op r' h next live
    exact (h.2.step_iff h.1 next).mp live

end

end

def forecast : PluginModule String := { registerTools := some [("forecast", "forecast")] }

/-- A plugin with a tool is disabled. -/
theorem disabled_runs : ¬ ∀ ops : List (Op String),
    Throughout step (PluginRegistry.OnlyLive · fun _ _ => False) {} ops := by
  intro claim
  have last := (claim [.register { name := "weather" } forecast, .disable "weather"]).last rfl
  obtain ⟨key, plugin, found, enabled, -⟩ := (last.tools "forecast" "forecast").mp rfl
  have only : (key, plugin) ∈ [("weather", ⟨{ name := "weather" }, forecast, false⟩)] := Dict.get_eq_some.mp found
  obtain ⟨-, rfl⟩ := Prod.mk.inj (List.mem_singleton.mp only)
  contradiction

end CuckooEcho.Shared.PluginSystem
