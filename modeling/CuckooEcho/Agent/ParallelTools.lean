import CuckooEcho.Agent.ToolExecutor
import CuckooEcho.Lib.Interleaving
import Mathlib.Data.List.Forall2

namespace CuckooEcho.Agent
open Lib Interleaving
variable {η α ρ ω : Type*}

/-! ## Tools that run at the same time

`execute_parallel` hands its coroutines to `gather`; each runs until it awaits its handler, and goes on when that has
come to something. Others may call `execute_tool` meanwhile. -/

inductive Progress (η α ρ : Type*)
  | waiting
  | running (handler : η) (startedAt : Int)
  | done (record : ToolExecution α ρ)

structure ToolCoroutine (η α ρ : Type*) where
  name : String
  parameters : Dict String α
  progress : Progress η α ρ

namespace ToolCoroutine
variable (c : ToolCoroutine η α ρ)

def enter (tool : String × Dict String α) : ToolCoroutine η α ρ := ⟨tool.1, tool.2, .waiting⟩

def tool : String × Dict String α := (c.name, c.parameters)

def record : Option (ToolExecution α ρ) :=
  match c.progress with
  | .done record => some record
  | .waiting | .running _ _ => none

end ToolCoroutine

/-- The clock, read twice, when a coroutine is resumed, and what its handler has come to. -/
structure Resumption (ρ : Type*) where
  now : Int
  later : Int
  outcome : Outcome ρ

section
variable (durationMs : Int → Int → Int)

def recordOf (tool : String × Dict String α) (startedAt completedAt : Int) (result : Except String ρ) :
    ToolExecution α ρ where
  toolName := tool.1
  parameters := tool.2
  result := result.toOption
  error := match result with
    | .ok _ => none
    | .error text => some text
  startedAt
  completedAt := some completedAt
  durationMs := some (durationMs startedAt completedAt)

def finish (x : ToolExecutor η α ρ) (c : ToolCoroutine η α ρ) (startedAt completedAt : Int) (result : Except String ρ) :
    ToolExecutor η α ρ × ToolCoroutine η α ρ :=
  ({ x with executionHistory := x.executionHistory ++ [recordOf durationMs c.tool startedAt completedAt result] },
    { c with progress := .done (recordOf durationMs c.tool startedAt completedAt result) })

def resume (x : ToolExecutor η α ρ) (c : ToolCoroutine η α ρ) (r : Resumption ρ) :
    Option (ToolExecutor η α ρ × ToolCoroutine η α ρ) :=
  match c.progress with
  | .waiting =>
      match x.dispatch c.name with
      -- without a handler there is nothing to wait for
      | .error message => some (finish durationMs x c r.now r.later (.error message))
      | .ok handler => some (x, { c with progress := .running handler r.now })
  | .running _ startedAt => some (finish durationMs x c startedAt r.now r.outcome.toExcept)
  | .done _ => none

abbrev Parallel (η α ρ : Type*) := State (ToolExecutor η α ρ) (ToolCoroutine η α ρ)

abbrev ParallelAct (α ρ : Type*) := Interleaving.Act (String × Dict String α) (Resumption ρ)

abbrev parallelStep : Parallel η α ρ → ParallelAct α ρ → Option (Parallel η α ρ) :=
  Interleaving.step ToolCoroutine.enter (resume durationMs)

/-- The coroutines that `execute_parallel` has made. -/
def gather (x : ToolExecutor η α ρ) (tools : List (String × Dict String α)) : Parallel η α ρ :=
  ⟨x, tools.map ToolCoroutine.enter⟩

/-- What `execute_parallel` returns once its coroutines are done: `execute_tool` lets no exception pass. -/
def executions (tools : List (String × Dict String α)) (m : Parallel η α ρ) : Option (List (ToolExecution α ρ)) :=
  (m.calls.take tools.length).mapM ToolCoroutine.record

/-- What handlers may come to, whatever runs beside them. -/
def Answers (allowed : η → Dict String α → Outcome ρ → Prop) (m : Parallel η α ρ) : ParallelAct α ρ → Prop
  | .run i r => ∀ c handler startedAt, m.calls[i]? = some c → c.progress = .running handler startedAt →
      allowed handler c.parameters r.outcome
  | .call _ => True

end

/-! ## What a record says but for its times -/

/-- What the executor finds out about a tool. -/
inductive Finds (x : ToolExecutor η α ρ) (allowed : η → Dict String α → Outcome ρ → Prop)
    (tool : String × Dict String α) : Except String ρ → Prop
  | noHandler {message : String} (missing : x.dispatch tool.1 = .error message) : Finds x allowed tool (.error message)
  | answered {handler : η} {outcome : Outcome ρ} (found : x.dispatch tool.1 = .ok handler)
      (answer : allowed handler tool.2 outcome) : Finds x allowed tool outcome.toExcept

structure Timeless (α ρ : Type*) where
  toolName : String
  parameters : Dict String α
  result : Option ρ
  error : Option String

def ToolExecution.timeless (e : ToolExecution α ρ) : Timeless α ρ := ⟨e.toolName, e.parameters, e.result, e.error⟩

section
variable {durationMs : Int → Int → Int} {x y : ToolExecutor η α ρ} {allowed : η → Dict String α → Outcome ρ → Prop}
  {tools : List (String × Dict String α)} {m m' : Parallel η α ρ} {c d : ToolCoroutine η α ρ}

/-- How far a call has come. -/
def ToolCoroutine.Sound (durationMs : Int → Int → Int) (x : ToolExecutor η α ρ)
    (allowed : η → Dict String α → Outcome ρ → Prop) (c : ToolCoroutine η α ρ) : Prop :=
  match c.progress with
  | .waiting => True
  | .running handler _ => x.dispatch c.name = .ok handler
  | .done record => ∃ startedAt completedAt result,
      record = recordOf durationMs c.tool startedAt completedAt result ∧ Finds x allowed c.tool result

structure Gathering (durationMs : Int → Int → Int) (x : ToolExecutor η α ρ)
    (allowed : η → Dict String α → Outcome ρ → Prop) (tools : List (String × Dict String α)) (m : Parallel η α ρ) :
    Prop where
  registry : m.shared.registry = x.registry
  tools : tools <+: m.calls.map ToolCoroutine.tool
  sound : ∀ c ∈ m.calls, c.Sound durationMs x allowed
  history : ∃ finished, m.shared.executionHistory = x.executionHistory ++ finished ∧
    finished.Perm (m.calls.filterMap ToolCoroutine.record)

/-- A statement leaves the registry and the call's tool, and records what the call has come to. -/
structure Resumed (durationMs : Int → Int → Int) (x : ToolExecutor η α ρ)
    (allowed : η → Dict String α → Outcome ρ → Prop) (y y' : ToolExecutor η α ρ) (c d : ToolCoroutine η α ρ) :
    Prop where
  registry : y'.registry = y.registry
  tool : d.tool = c.tool
  sound : d.Sound durationMs x allowed
  pending : c.record = none
  history : y'.executionHistory = y.executionHistory ++ d.record.toList

theorem resumed_of_resume (same : y.registry = x.registry) (sound : c.Sound durationMs x allowed) {r : Resumption ρ}
    (answers : ∀ handler startedAt, c.progress = .running handler startedAt → allowed handler c.parameters r.outcome)
    {y' : ToolExecutor η α ρ} (does : resume durationMs y c r = some (y', d)) :
    Resumed durationMs x allowed y y' c d := by
  have dispatch := ToolExecutor.dispatch_congr same c.name
  unfold resume at does
  split at does
  · rename_i waiting
    split at does
    · rename_i message missing
      obtain ⟨rfl, rfl⟩ := Prod.mk.inj (Option.some.inj does)
      exact ⟨rfl, rfl, ⟨_, _, _, rfl, .noHandler (dispatch.symm.trans missing)⟩,
        by simp [ToolCoroutine.record, waiting], rfl⟩
    · rename_i handler found
      obtain ⟨rfl, rfl⟩ := Prod.mk.inj (Option.some.inj does)
      exact ⟨rfl, rfl, dispatch.symm.trans found, by simp [ToolCoroutine.record, waiting], (List.append_nil _).symm⟩
  · rename_i handler startedAt running
    obtain ⟨rfl, rfl⟩ := Prod.mk.inj (Option.some.inj does)
    have found : x.dispatch c.name = .ok handler := by simpa [ToolCoroutine.Sound, running] using sound
    exact ⟨rfl, rfl, ⟨_, _, _, rfl, .answered found (answers handler startedAt running)⟩,
      by simp [ToolCoroutine.record, running], rfl⟩
  · cases does

/-- A call that has come to something adds its record to those of the others. -/
theorem records_set {calls : List (ToolCoroutine η α ρ)} {i : Nat} (here : calls[i]? = some c)
    (pending : c.record = none) :
    (d.record.toList ++ calls.filterMap ToolCoroutine.record).Perm
      ((calls.set i d).filterMap ToolCoroutine.record) := by
  induction calls generalizing i with
  | nil => simp at here
  | cons first rest ih =>
      cases i with
      | zero =>
          obtain rfl : first = c := by simpa using here
          rw [List.set_cons_zero, List.filterMap_cons_none pending]
          cases finished : d.record with
          | none => rw [List.filterMap_cons_none finished]; rfl
          | some record => rw [List.filterMap_cons_some finished]; rfl
      | succ i =>
          have others := ih (i := i) (by simpa using here)
          rw [List.set_cons_succ]
          cases record : first.record with
          | none =>
              rw [List.filterMap_cons_none record, List.filterMap_cons_none record]
              exact others
          | some e =>
              rw [List.filterMap_cons_some record, List.filterMap_cons_some record]
              exact List.perm_middle.trans (others.cons e)

theorem tools_set {calls : List (ToolCoroutine η α ρ)} {i : Nat} (here : calls[i]? = some c) (same : d.tool = c.tool) :
    (calls.set i d).map ToolCoroutine.tool = calls.map ToolCoroutine.tool := by
  apply List.ext_getElem?
  intro j
  rw [List.getElem?_map, List.getElem?_map, List.getElem?_set]
  split
  · rename_i own
    subst own
    split
    · rw [here, Option.map_some, Option.map_some, same]
    · rename_i outside
      exact absurd (List.getElem?_eq_some_iff.mp here).1 outside
  · rfl

theorem gathering_step {act : ParallelAct α ρ} (h : Gathering durationMs x allowed tools m)
    (answers : Answers allowed m act) (next : parallelStep durationMs m act = some m') :
    Gathering durationMs x allowed tools m' := by
  cases act with
  | call tool =>
      obtain rfl := Option.some.inj next
      obtain ⟨finished, history, perm⟩ := h.history
      refine ⟨h.registry, ?_, ?_, finished, history, ?_⟩
      · rw [List.map_append]
        exact h.tools.trans (List.prefix_append _ _)
      · exact List.forall_mem_append.mpr ⟨h.sound, List.forall_mem_singleton.mpr trivial⟩
      · have waiting : [ToolCoroutine.enter tool].filterMap (ToolCoroutine.record (η := η) (ρ := ρ)) = [] := rfl
        rw [List.filterMap_append, waiting, List.append_nil]
        exact perm
  | run i r =>
      obtain ⟨c, y', d, here, does, rfl⟩ := step_run next
      have resumed := resumed_of_resume h.registry (h.sound c (List.mem_of_getElem? here))
        (fun handler startedAt running => answers c handler startedAt here running) does
      obtain ⟨finished, history, perm⟩ := h.history
      refine ⟨resumed.registry.trans h.registry, ?_, ?_, finished ++ d.record.toList, ?_, ?_⟩
      · rw [tools_set here resumed.tool]
        exact h.tools
      · exact forall_set h.sound (fun _ sound => sound) resumed.sound i
      · rw [resumed.history, history, List.append_assoc]
      · exact (List.perm_append_comm.trans (perm.append_left _)).trans (records_set here resumed.pending)

theorem gathering_gather (x : ToolExecutor η α ρ) (tools : List (String × Dict String α)) :
    Gathering durationMs x allowed tools (gather x tools) := by
  refine ⟨rfl, ?_, ?_, [], (List.append_nil _).symm, ?_⟩
  · rw [gather, List.map_map]
    exact (List.map_id tools).symm ▸ List.prefix_rfl
  · intro c member
    obtain ⟨tool, -, rfl⟩ := List.mem_map.mp member
    trivial
  · have none : (tools.map ToolCoroutine.enter).filterMap (ToolCoroutine.record (η := η) (ρ := ρ)) = [] := by
      rw [List.filterMap_map]
      exact List.filterMap_eq_nil_iff.mpr fun _ _ => rfl
    rw [gather, none]

theorem gathering_of_run {acts : List (ParallelAct α ρ)}
    (along : Along (parallelStep durationMs) (Answers allowed) (gather x tools) acts)
    (run : exec (parallelStep durationMs) (gather x tools) acts = some m) : Gathering durationMs x allowed tools m :=
  (throughout_of_along (fun _ _ _ h good next => gathering_step h good next) (gathering_gather x tools) along).last run

/-! ## The records of a run -/

theorem forall₂_of_mapM {β γ : Type*} {f : β → Option γ} {bs : List β} {cs : List γ} (all : bs.mapM f = some cs) :
    List.Forall₂ (fun b c => f b = some c) bs cs := by
  induction bs generalizing cs with
  | nil =>
      obtain rfl := Option.some.inj all
      exact .nil
  | cons b bs ih =>
      rw [List.mapM_cons] at all
      obtain ⟨c, first, all⟩ := Option.bind_eq_some_iff.mp all
      obtain ⟨rest, others, eq⟩ := Option.bind_eq_some_iff.mp all
      obtain rfl := Option.some.inj eq
      exact .cons first (ih others)

theorem filterMap_of_mapM {β γ : Type*} {f : β → Option γ} {bs : List β} {cs : List γ} (all : bs.mapM f = some cs) :
    bs.filterMap f = cs := by
  have each := forall₂_of_mapM all
  clear all
  induction each with
  | nil => rfl
  | cons first _ ih => rw [List.filterMap_cons_some first, ih]

/-- `execute_parallel` returns one record for each tool, in their order. -/
theorem forall₂_executions (h : Gathering durationMs x allowed tools m) {records : List (ToolExecution α ρ)}
    (returned : executions tools m = some records) :
    List.Forall₂ (fun tool record => ∃ startedAt completedAt result,
      record = recordOf durationMs tool startedAt completedAt result ∧ Finds x allowed tool result) tools records := by
  have own : (m.calls.take tools.length).map ToolCoroutine.tool = tools := by
    rw [List.map_take]
    exact (List.prefix_iff_eq_take.mp h.tools).symm
  have each : List.Forall₂ (fun c record => ∃ startedAt completedAt result,
      record = recordOf durationMs c.tool startedAt completedAt result ∧ Finds x allowed c.tool result)
      (m.calls.take tools.length) records := by
    have sound : ∀ c ∈ m.calls.take tools.length, c.Sound durationMs x allowed :=
      fun c member => h.sound c (List.mem_of_mem_take member)
    refine ((List.forall₂_and_left _ _).mpr ⟨sound, forall₂_of_mapM returned⟩).imp ?_
    rintro c record ⟨sound, recorded⟩
    unfold ToolCoroutine.record at recorded
    split at recorded
    · rename_i done
      obtain rfl := Option.some.inj recorded
      simpa only [ToolCoroutine.Sound, done] using sound
    · cases recorded
    · cases recorded
  rw [← own, List.forall₂_map_left_iff]
  exact each

/-! ## One after the other -/

section
variable {env : Environment η α ρ ω} {answer : η → Dict String α → Outcome ρ}

/-- Handlers that always come to the same for the same parameters leave a record that says the same but for its
times, in whatever world and beside whatever else they run. -/
theorem timeless_executeTool (durationMs : Int → Int → Int) (same : y.registry = x.registry)
    (alone : ∀ handler parameters world, (env.invoke handler parameters 30000 world).1 = answer handler parameters)
    (tool : String × Dict String α) (world : ω) (startedAt completedAt : Int) {result : Except String ρ}
    (finds : Finds x (fun handler parameters outcome => outcome = answer handler parameters) tool result) :
    (y.executeTool env tool.1 tool.2 world).record.timeless =
      (recordOf durationMs tool startedAt completedAt result).timeless := by
  have dispatch := ToolExecutor.dispatch_congr same tool.1
  unfold ToolExecutor.executeTool ToolExecutor.attempt
  cases finds with
  | noHandler missing =>
      rw [dispatch, missing]
      rfl
  | @answered handler outcome found answered =>
      subst answered
      rw [dispatch, found]
      cases outcome : (answer handler tool.2).toExcept with
      | ok result => simp only [ToolExecution.timeless, recordOf, alone, outcome]
      | error text => simp only [ToolExecution.timeless, recordOf, alone, outcome]

theorem timeless_executeSequence
    (alone : ∀ handler parameters world, (env.invoke handler parameters 30000 world).1 = answer handler parameters)
    {records : List (ToolExecution α ρ)} (parallel : List.Forall₂ (fun tool record => ∃ startedAt completedAt result,
      record = recordOf durationMs tool startedAt completedAt result ∧
        Finds x (fun handler parameters outcome => outcome = answer handler parameters) tool result) tools records)
    (same : y.registry = x.registry) (world : ω) :
    (y.executeSequence env false tools world).map (·.record.timeless) = records.map ToolExecution.timeless := by
  induction parallel generalizing y world with
  | nil => rfl
  | @cons tool record tools records first _ ih =>
      obtain ⟨startedAt, completedAt, result, rfl, finds⟩ := first
      obtain ⟨name, parameters⟩ := tool
      have here := timeless_executeTool durationMs same alone (name, parameters) world startedAt completedAt finds
      rw [ToolExecutor.executeSequence, Bool.false_and, if_neg Bool.false_ne_true, List.map_cons, List.map_cons, ← here,
        ih (y := (y.executeTool env name parameters world).executor) same]

end

/-- In whatever order its coroutines go on and whoever else uses the executor, `execute_parallel` returns a record for
each tool in the order of the tools, leaves each of them in the history once, besides the records of the others' calls,
and says what the tools would have come to one after the other. -/
theorem executeParallel_agrees (durationMs : Int → Int → Int) (x : ToolExecutor η α ρ)
    (tools : List (String × Dict String α)) (answer : η → Dict String α → Outcome ρ) (acts : List (ParallelAct α ρ))
    (m : Parallel η α ρ) (run : exec (parallelStep durationMs) (gather x tools) acts = some m)
    (along : Along (parallelStep durationMs)
      (Answers fun handler parameters outcome => outcome = answer handler parameters) (gather x tools) acts)
    (records : List (ToolExecution α ρ)) (returned : executions tools m = some records) :
    records.map (fun e => (e.toolName, e.parameters)) = tools ∧
    (∃ finished, m.shared.executionHistory = x.executionHistory ++ finished ∧
      finished.Perm (records ++ (m.calls.drop tools.length).filterMap ToolCoroutine.record)) ∧
    ∀ (env : Environment η α ρ ω) (world : ω),
      (∀ handler parameters world, (env.invoke handler parameters 30000 world).1 = answer handler parameters) →
      (x.executeSequence env false tools world).map (·.record.timeless) = records.map ToolExecution.timeless := by
  have gathered := gathering_of_run along run
  have each := forall₂_executions gathered returned
  refine ⟨?_, ?_, fun env world alone => timeless_executeSequence alone each rfl world⟩
  · have named := each.imp (S := fun tool record => tool = (record.toolName, record.parameters)) (by
      rintro tool record ⟨startedAt, completedAt, result, rfl, -⟩
      rfl)
    exact (List.forall₂_eq_eq_eq ▸ List.forall₂_map_right_iff.mpr named : tools = _).symm
  · obtain ⟨finished, history, perm⟩ := gathered.history
    refine ⟨finished, history, perm.trans ?_⟩
    have own : (m.calls.take tools.length).filterMap ToolCoroutine.record = records := filterMap_of_mapM returned
    rw [← own, ← List.filterMap_append, List.take_append_drop]

def lookups : ToolExecutor String Unit Nat where
  registry := some
    ((ToolRegistry.empty.registerTool ⟨"orders", "", .function, none, some "orders", none⟩).registerTool
      ⟨"refunds", "", .function, none, some "refunds", none⟩)

def lookupTools : List (String × Dict String Unit) := [("orders", .empty), ("stock", .empty), ("refunds", .empty)]

/-- The last tool answers first, and there is no tool in the middle. -/
def lastFirst : List (ParallelAct Unit Nat) :=
  [.run 0 ⟨1, 1, .returned 4⟩, .run 1 ⟨1, 2, .returned 4⟩, .run 2 ⟨2, 2, .returned 4⟩, .run 2 ⟨5, 5, .returned 4⟩,
    .run 0 ⟨8, 8, .returned 4⟩]

def lookupRecords : List (ToolExecution Unit Nat) :=
  [recordOf (fun a b => b - a) ("orders", .empty) 1 8 (.ok 4),
    recordOf (fun a b => b - a) ("stock", .empty) 1 2 (.error "Tool not found: stock"),
    recordOf (fun a b => b - a) ("refunds", .empty) 2 5 (.ok 4)]

theorem executeParallel_agrees_lastFirst : ∃ m : Parallel String Unit Nat,
    exec (parallelStep fun a b => b - a) (gather lookups lookupTools) lastFirst = some m ∧
      executions lookupTools m = some lookupRecords ∧
      (lookups.executeSequence ⟨fun _ _ _ world => (.returned 4, world), fun _ => 0, fun a b => b - a⟩ false lookupTools
        ()).map (·.record.timeless) = lookupRecords.map ToolExecution.timeless := by
  refine ⟨_, rfl, rfl, ?_⟩
  have along : Along (parallelStep fun a b => b - a)
      (Answers fun _ _ outcome => outcome = .returned 4) (gather lookups lookupTools) lastFirst := by
    apply along_of_mem
    simp only [lastFirst, List.forall_mem_cons]
    exact ⟨fun _ _ _ _ _ _ => rfl, fun _ _ _ _ _ _ => rfl, fun _ _ _ _ _ _ => rfl, fun _ _ _ _ _ _ => rfl,
      fun _ _ _ _ _ _ => rfl, List.forall_mem_nil _⟩
  exact (executeParallel_agrees (ω := Unit) (fun a b => b - a) lookups lookupTools (fun _ _ => .returned 4) lastFirst _
    rfl along lookupRecords rfl).2.2 _ () fun _ _ _ => rfl

end

end CuckooEcho.Agent
