import CuckooEcho.Agent.AgentLeases
import Mathlib.Algebra.Order.Field.Rat
import Mathlib.Data.Nat.Cast.Order.Ring
import Mathlib.Tactic.FieldSimp

namespace CuckooEcho.Agent.Orchestrator
open Lib

/-! ## What tasks, responses and metrics say -/

variable {V : Type} {objects : Objects V} {lower : String → String} {agents : Agents}

def Outcome.result : Outcome V → Option V
  | .returned result => some result
  | .timedOut => none
  | .raised _ => none

/-- What an attempt of the task's agent returned. -/
def AgentTask.returned (task : AgentTask V) : Option V := task.attempts.findSome? Outcome.result

structure AgentTask.Truthful (task : AgentTask V) : Prop where
  completed_iff : task.status = .completed ↔ task.returned.isSome

/-- No attempt has returned yet. -/
structure AgentTask.Open (task : AgentTask V) : Prop where
  status : task.status ≠ .completed
  returned : task.returned = none

theorem AgentTask.Open.truthful {task : AgentTask V} (isOpen : task.Open) : task.Truthful :=
  ⟨iff_of_false isOpen.status (by simp [isOpen.returned])⟩

theorem returned_complete {task : AgentTask V} (isOpen : task.Open) (outcome : Outcome V) (result : V) :
    (complete task outcome result).returned = outcome.result := by
  have none : task.attempts.findSome? Outcome.result = none := isOpen.returned
  rw [AgentTask.returned, complete, List.findSome?_append, none, Option.none_or]
  cases here : outcome.result with
  | none => simp [here]
  | some result => simp [here]

def Phase.tasks : Phase V → List (AgentTask V)
  | .executing held => held.task :: held.rest
  | .sleeping held => held.task :: held.rest
  | .finished _ => []
  | .aborted held => held.task :: held.rest

def Workflow.tasks (workflow : Workflow V) : List (AgentTask V) := workflow.ended ++ workflow.phase.tasks

structure Workflow.Truthful (objects : Objects V) (workflow : Workflow V) : Prop where
  tasks : ∀ task ∈ workflow.tasks, task.Truthful
  response : ∀ response, workflow.phase = .finished response →
    response = aggregateResults objects (workflow.tasks.filterMap AgentTask.returned) workflow.aggregationStrategy

/-- The status of every task, every response and the success rate say what happened. -/
structure System.Truthful (objects : Objects V) (s : System V) : Prop where
  workflows : ∀ w workflow, s.workflows w = some workflow → workflow.Truthful objects
  rate : successRate s.metrics = s.metrics.successfulTasks / (s.metrics.successfulTasks + s.metrics.failedTasks)

/-! ### Without an exhausted task -/

structure Workflow.Sound (objects : Objects V) (workflow : Workflow V) : Prop where
  ended : ∀ task ∈ workflow.ended, task.Truthful
  results : workflow.results = workflow.ended.filterMap AgentTask.returned
  left : ∀ task ∈ workflow.phase.tasks, task.Open
  response : ∀ response, workflow.phase = .finished response →
    response = aggregateResults objects workflow.results workflow.aggregationStrategy

structure TaskMetrics.Sound (metrics : TaskMetrics) : Prop where
  total : metrics.totalDelegations = metrics.successfulTasks
  failed : metrics.failedTasks = 0

structure System.Sound (objects : Objects V) (s : System V) : Prop where
  workflows : ∀ w workflow, s.workflows w = some workflow → workflow.Sound objects
  metrics : s.metrics.Sound

theorem Workflow.Sound.truthful {workflow : Workflow V} (sound : workflow.Sound objects) : workflow.Truthful objects where
  tasks task member := by
    rcases List.mem_append.mp member with ended | left
    · exact sound.ended task ended
    · exact (sound.left task left).truthful
  response response finished := by
    rw [Workflow.tasks, finished, Phase.tasks, List.append_nil, ← sound.results]
    exact sound.response response finished

theorem TaskMetrics.Sound.rate {metrics : TaskMetrics} (sound : metrics.Sound) :
    successRate metrics = metrics.successfulTasks / (metrics.successfulTasks + metrics.failedTasks) := by
  rw [successRate, sound.total, sound.failed, Nat.cast_zero, add_zero]
  cases metrics.successfulTasks with
  | zero => simp
  | succ n => rw [max_eq_left (by simp)]

theorem System.Sound.truthful {s : System V} (sound : s.Sound objects) : s.Truthful objects where
  workflows w workflow found := (sound.workflows w workflow found).truthful
  rate := sound.metrics.rate

theorem TaskMetrics.Sound.succeeded {metrics : TaskMetrics} (sound : metrics.Sound) :
    (Orchestrator.succeeded metrics).Sound where
  total := congrArg (· + 1) sound.total
  failed := sound.failed

/-! ### The loop over the tasks -/

structure Progress.Sound (objects : Objects V) (progress : Progress V) : Prop where
  metrics : progress.metrics.Sound
  workflow : progress.workflow.Sound objects

theorem truthful_complete {task : AgentTask V} (isOpen : task.Open) (result : V) :
    (complete task (.returned result) result).Truthful := by
  refine ⟨iff_of_true rfl ?_⟩
  rw [returned_complete isOpen]
  rfl

theorem returned_concat (ended : List (AgentTask V)) (task : AgentTask V) :
    (ended ++ [task]).filterMap AgentTask.returned = ended.filterMap AgentTask.returned ++ task.returned.toList := by
  rw [List.filterMap_append]
  cases returned : task.returned with
  | none => rw [List.filterMap_cons_none returned, List.filterMap_nil, Option.toList_none]
  | some result => rw [List.filterMap_cons_some returned, List.filterMap_nil, Option.toList_some]

theorem sound_proceed {availableAgents : List String} {aggregationStrategy : String} {metrics : TaskMetrics}
    {ended : List (AgentTask V)} (tasks : List (AgentTask V)) (sound : metrics.Sound)
    (truthful : ∀ task ∈ ended, task.Truthful) (left : ∀ task ∈ tasks, task.Open) :
    (proceed objects availableAgents aggregationStrategy agents metrics ended (ended.filterMap AgentTask.returned)
      tasks).Sound objects := by
  induction tasks generalizing agents metrics ended with
  | nil =>
      refine ⟨sound, truthful, rfl, fun task none => absurd none List.not_mem_nil, ?_⟩
      intro response finished
      exact (Phase.finished.inj finished).symm
  | cons task rest ih =>
      obtain ⟨first, later⟩ := List.forall_mem_cons.mp left
      rw [proceed]
      cases delegated : delegateTask agents task availableAgents with
      | none =>
          have unserved : AgentTask.Open { task with status := .noAgent } := ⟨TaskStatus.noConfusion, first.returned⟩
          have same := returned_concat ended { task with status := .noAgent }
          rw [unserved.returned, Option.toList_none, List.append_nil] at same
          dsimp only
          rw [← same]
          apply ih sound _ later
          exact List.forall_mem_append.mpr ⟨truthful, List.forall_mem_singleton.mpr unserved.truthful⟩
      | some choice =>
          obtain ⟨agentId, assigned, agents'⟩ := choice
          obtain ⟨-, rfl, -⟩ := delegateTask_eq_some delegated
          have assigned : AgentTask.Open { task with assignedAgent := some agentId, status := .assigned } :=
            ⟨TaskStatus.noConfusion, first.returned⟩
          dsimp only
          split
          · refine ⟨sound, truthful, rfl, List.forall_mem_cons.mpr ⟨assigned, later⟩, ?_⟩
            intro response finished
            cases finished
          · generalize objects.text ("Agent processed: " ++ task.description) = result
            have same := returned_concat ended
              (complete { task with assignedAgent := some agentId, status := .assigned } (.returned result) result)
            rw [returned_complete assigned (.returned result) result, Outcome.result, Option.toList_some] at same
            rw [← same]
            apply ih sound.succeeded _ later
            exact List.forall_mem_append.mpr
              ⟨truthful, List.forall_mem_singleton.mpr (truthful_complete assigned result)⟩

theorem ended_proceed {availableAgents : List String} {aggregationStrategy : String} {metrics : TaskMetrics}
    {ended : List (AgentTask V)} {results : List V} (tasks : List (AgentTask V)) :
    ended <+: (proceed objects availableAgents aggregationStrategy agents metrics ended results tasks).workflow.ended := by
  induction tasks generalizing agents metrics ended results with
  | nil => exact List.prefix_rfl
  | cons task rest ih =>
      rw [proceed]
      cases delegateTask agents task availableAgents with
      | none => exact (List.prefix_append _ _).trans ih
      | some choice =>
          dsimp only
          split
          · exact List.prefix_rfl
          · exact (List.prefix_append _ _).trans ih

theorem completed_mem_settle {metrics : TaskMetrics} {workflow : Workflow V} {held : Held V} {outcome : Outcome V}
    {result : V} :
    complete held.task outcome result ∈ (settle objects agents metrics workflow held outcome result).workflow.ended := by
  apply (ended_proceed held.rest).subset
  exact List.mem_append_right _ (List.mem_singleton_self _)

/-! ### Steps -/

/-- The attempt fails, and no other follows. -/
def System.Exhausts (s : System V) : Act V → Prop
  | .attempted w outcome => ∃ workflow held, s.workflows w = some workflow ∧ workflow.phase = .executing held ∧
      outcome.result = none ∧ held.task.maxRetries ≤ held.task.retryCount
  | _ => False

theorem returned_or_failed (outcome : Outcome V) :
    (∃ result, outcome = .returned result) ∨ outcome.result = none ∧ ∀ result, outcome ≠ .returned result := by
  cases outcome with
  | returned result => exact Or.inl ⟨result, rfl⟩
  | timedOut => exact Or.inr ⟨rfl, fun result same => by cases same⟩
  | raised error => exact Or.inr ⟨rfl, fun result same => by cases same⟩

theorem sound_afterAttempt {metrics : TaskMetrics} {workflow : Workflow V} {held : Held V} (outcome : Outcome V)
    (counted : metrics.Sound) (sound : workflow.Sound objects) (phase : workflow.phase = .executing held)
    (again : outcome.result = none → held.task.retryCount < held.task.maxRetries) :
    (afterAttempt objects agents metrics workflow held outcome).Sound objects := by
  have left := sound.left
  rw [phase] at left
  obtain ⟨here, later⟩ := List.forall_mem_cons.mp left
  rcases returned_or_failed outcome with ⟨result, rfl⟩ | ⟨none, failed⟩
  · have same : workflow.results ++ [result] =
        (workflow.ended ++ [complete held.task (.returned result) result]).filterMap AgentTask.returned := by
      rw [List.filterMap_append, List.filterMap_cons_some (returned_complete here _ _), List.filterMap_nil, sound.results]
    rw [afterAttempt, settle, same]
    apply sound_proceed held.rest counted.succeeded _ later
    exact List.forall_mem_append.mpr ⟨sound.ended, List.forall_mem_singleton.mpr (truthful_complete here result)⟩
  · rw [afterAttempt_of_failed objects failed, if_pos (again none)]
    refine ⟨counted, sound.ended, sound.results, List.forall_mem_cons.mpr ⟨⟨here.status, ?_⟩, later⟩, ?_⟩
    · have unreturned : held.task.attempts.findSome? Outcome.result = Option.none := here.returned
      rw [AgentTask.returned, List.findSome?_append, unreturned, Option.none_or]
      simp [none]
    · intro response finished
      cases finished

theorem open_of_mem_decomposed {userQuery : String} {task : AgentTask V}
    (member : task ∈ decomposeTask lower userQuery) : task.Open := by
  have created (taskType description : String) : (createTask taskType description : AgentTask V).Open :=
    ⟨TaskStatus.noConfusion, rfl⟩
  rw [decomposeTask] at member
  split at member
  · exact List.mem_singleton.mp member ▸ created _ _
  · simp only [matchedTasks, List.mem_append, List.mem_ite_nil_right, List.mem_singleton] at member
    rcases member with (⟨-, rfl⟩ | ⟨-, rfl⟩) | ⟨-, rfl⟩
    · exact created _ _
    · exact created _ _
    · exact created _ _

theorem sound_advance {s : System V} {w : Nat} {progress : Progress V} (sound : s.Sound objects)
    (moved : progress.Sound objects) : (s.advance w progress).Sound objects := by
  refine ⟨fun v workflow found => ?_, moved.metrics⟩
  rw [workflows_advance] at found
  split at found
  · exact Option.some.inj found ▸ moved.workflow
  · exact sound.workflows v workflow found

theorem sound_setPhase {s : System V} {w : Nat} {workflow : Workflow V} {phase : Phase V} (sound : s.Sound objects)
    (moved : Workflow.Sound objects { workflow with phase }) : (s.setPhase w workflow phase).Sound objects := by
  refine ⟨fun v other found => ?_, sound.metrics⟩
  rw [workflows_setPhase] at found
  split at found
  · exact Option.some.inj found ▸ moved
  · exact sound.workflows v other found

theorem sound_step {s s' : System V} {act : Act V} (sound : s.Sound objects) (spared : ¬ s.Exhausts act)
    (next : step objects lower s act = some s') : s'.Sound objects := by
  cases moves_of_step next with
  | started unused =>
      apply sound_advance sound
      apply sound_proceed _ sound.metrics
      · exact fun task none => absurd none List.not_mem_nil
      · exact fun task => open_of_mem_decomposed
  | attempted found phase =>
      apply sound_advance sound
      apply sound_afterAttempt _ sound.metrics (sound.workflows _ _ found) phase
      intro none
      by_contra last
      exact spared ⟨_, _, found, phase, none, Nat.le_of_not_lt last⟩
  | woken found phase =>
      apply sound_setPhase sound
      have before := sound.workflows _ _ found
      have left := before.left
      rw [phase] at left
      obtain ⟨here, later⟩ := List.forall_mem_cons.mp left
      refine ⟨before.ended, before.results, List.forall_mem_cons.mpr ⟨⟨here.status, here.returned⟩, later⟩, ?_⟩
      intro response finished
      cases finished
  | aborted found phase =>
      apply sound_setPhase sound
      have before := sound.workflows _ _ found
      refine ⟨before.ended, before.results, ?_, fun response finished => by cases finished⟩
      have left := before.left
      rcases phase with phase | phase
      · rwa [phase] at left
      · rwa [phase] at left

/-- The text of a failure is taken for a result, and its task is completed. -/
theorem untruthful_of_exhausts {s s' : System V} {act : Act V} (sound : s.Sound objects) (exhausts : s.Exhausts act)
    (next : step objects lower s act = some s') : ¬ s'.Truthful objects := by
  intro truthful
  cases moves_of_step next with
  | attempted found phase =>
      obtain ⟨workflow, held, found', phase', none, last⟩ := exhausts
      obtain rfl := Option.some.inj (found.symm.trans found')
      obtain rfl := Phase.executing.inj (phase.symm.trans phase')
      rename_i w workflow held outcome
      have left := (sound.workflows _ _ found).left
      rw [phase] at left
      obtain ⟨here, -⟩ := List.forall_mem_cons.mp left
      have failed : ∀ result, outcome ≠ .returned result := by
        rintro result rfl
        cases none
      have moved := truthful.workflows w _ ((workflows_advance ..).trans (if_pos rfl))
      rw [afterAttempt_of_failed objects failed, if_neg (Nat.not_lt.mpr last)] at moved
      have completed := (moved.tasks _ (List.mem_append_left _ completed_mem_settle)).completed_iff.mp rfl
      rw [returned_complete here, none] at completed
      cases completed
  | _ => exact exhausts

theorem sound_initial (registrations : List Registration) : (initial (V := V) registrations).Sound objects :=
  ⟨fun w workflow found => (by cases found), rfl, rfl⟩

/-- Everything said is true as long as no task uses up its attempts. -/
theorem throughout_truthful_iff (objects : Objects V) (lower : String → String) (registrations : List Registration)
    (acts : List (Act V)) :
    Throughout (step objects lower) (System.Truthful objects) (initial registrations) acts ↔
      Along (step objects lower) (fun s act => ¬ s.Exhausts act) (initial registrations) acts :=
  throughout_iff_along_any (System.Sound objects) (fun _ sound => sound.truthful)
    (fun _ _ _ sound spared next => sound_step sound spared next)
    (fun _ _ _ sound next truthful exhausts => untruthful_of_exhausts sound exhausts next truthful)
    (sound_initial registrations)

/-- An agent that raises at every attempt. -/
def exhausted : List (Act String) :=
  [.start 0 "hello" ["helper"] "concat", .attempted 0 (.raised "boom"), .wake 0, .attempted 0 (.raised "boom"), .wake 0,
    .attempted 0 (.raised "boom"), .wake 0, .attempted 0 (.raised "boom")]

theorem failure_completed : ¬ ∀ (objects : Objects String) (lower : String → String) (registrations : List Registration)
    (acts : List (Act String)),
    Throughout (step objects lower) (System.Truthful objects) (initial registrations) acts := by
  intro claim
  have run := (claim ⟨fun s => s ≠ "", id, id⟩ id [⟨"helper", "generalist", true⟩] exhausted).last rfl
  have task := (run.workflows 0 _ rfl).tasks _ (List.mem_singleton_self _)
  have returned := task.completed_iff.mp rfl
  cases returned

end CuckooEcho.Agent.Orchestrator
