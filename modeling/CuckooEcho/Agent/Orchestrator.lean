import CuckooEcho.Shared.ContextCompressor

namespace CuckooEcho.Agent.Orchestrator
open Lib Shared.ContextCompressor

/-! ## `RoleRegistry` -/

structure RoleInfo where
  capabilities : List String
  priority : Nat
  deriving DecidableEq, Repr

abbrev RoleRegistry := Dict String RoleInfo

def registerRole (registry : RoleRegistry) (role : String) (capabilities : List String) (priority : Nat) : RoleRegistry :=
  registry.set role ⟨capabilities, priority⟩

def getRoleForTask (registry : RoleRegistry) (taskType : String) : Option String :=
  (registry.items.find? fun (_, info) => info.capabilities.contains taskType).map Prod.fst

def setupDefaultRoles : RoleRegistry :=
  let registry := registerRole Dict.empty "router" ["route", "classify", "escalate"] 10
  let registry := registerRole registry "rag_specialist" ["search", "retrieve", "cite"] 5
  let registry := registerRole registry "tool_executor" ["execute", "call_api", "database"] 5
  registerRole registry "generalist" ["respond", "explain", "summarize"] 1

/-! ## Agents and tasks -/

inductive AgentStatus
  | available | busy
  deriving DecidableEq, Repr

/-- Of the agent itself it only matters whether it has an `execute_task`. -/
structure AgentInfo where
  role : String
  executes : Bool
  status : AgentStatus := .available
  deriving DecidableEq, Repr

abbrev Agents := Dict String AgentInfo

def setStatus (agents : Agents) (agentId : String) (status : AgentStatus) : Agents :=
  match agents.get agentId with
  | some info => agents.set agentId { info with status }
  | none => agents

def markAgentAvailable (agents : Agents) (agentId : String) : Agents := setStatus agents agentId .available

inductive TaskStatus
  | pending | assigned | completed | noAgent
  deriving DecidableEq, Repr

/-- How an attempt ends; an exception is known by its text. -/
inductive Outcome (V : Type)
  | returned (result : V)
  | timedOut
  | raised (error : String)
  deriving DecidableEq, Repr

/-- `attempts` only records. -/
structure AgentTask (V : Type) where
  taskType : String
  description : String
  status : TaskStatus := .pending
  assignedAgent : Option String := none
  result : Option V := none
  retryCount : Nat := 0
  maxRetries : Nat := 3
  attempts : List (Outcome V) := []
  deriving DecidableEq, Repr

structure TaskMetrics where
  totalDelegations : Nat := 0
  failedTasks : Nat := 0
  successfulTasks : Nat := 0
  deriving DecidableEq, Repr

/-- What is read of the values that agents return. -/
structure Objects (V : Type) where
  truthy : V → Bool
  str : V → String
  text : String → V

section
variable {V : Type} (lower : String → String)

def mentions (keywords : List String) (words : String) : Bool := keywords.any fun k => contains k words

def createTask (taskType description : String) : AgentTask V := { taskType, description }

/-- The sub-tasks for the words of the query. -/
def matchedTasks (userQuery : String) : List (AgentTask V) :=
  let words := lower userQuery
  (if mentions ["search", "find", "look", "查询", "搜索"] words then
    [createTask "rag_specialist" ("Search for: " ++ userQuery)] else []) ++
  (if mentions ["order", "status", "refund", "订单", "退款"] words then
    [createTask "tool_executor" ("Execute tool for: " ++ userQuery)] else []) ++
  (if mentions ["explain", "what", "how", "why", "解释"] words then
    [createTask "generalist" ("Explain: " ++ userQuery)] else [])

def decomposeTask (userQuery : String) : List (AgentTask V) :=
  let tasks := matchedTasks lower userQuery
  if tasks.isEmpty then [createTask "generalist" ("Respond to: " ++ userQuery)] else tasks

def isAvailable (agents : Agents) (agentId : String) : Bool := (agents.get agentId).any (·.status = .available)

def hasRole (agents : Agents) (role agentId : String) : Bool := (agents.get agentId).any (·.role = role)

/-- The agent that `delegate_task` returns. -/
def agentFor (registry : RoleRegistry) (agents : Agents) (taskType : String) (availableAgents : List String) :
    Option String :=
  let targetRole := getRoleForTask registry taskType
  let suited := availableAgents.find? fun agentId =>
    isAvailable agents agentId && targetRole.all fun role => hasRole agents role agentId
  suited.or (availableAgents.filter (isAvailable agents)).head?

def delegateTask (agents : Agents) (task : AgentTask V) (availableAgents : List String) :
    Option (String × AgentTask V × Agents) :=
  (agentFor setupDefaultRoles agents task.taskType availableAgents).map fun agentId =>
    (agentId, { task with assignedAgent := some agentId, status := .assigned }, setStatus agents agentId .busy)

end

section
variable {V : Type} (objects : Objects V)

/-- `max` returns the first of the longest. -/
def longest (first : V) (rest : List V) : V :=
  rest.foldl (fun best x => if (objects.str best).length < (objects.str x).length then x else best) first

def aggregateResults (results : List V) (aggregationStrategy : String) : String :=
  if aggregationStrategy = "concat" then "\n\n".intercalate ((results.filter objects.truthy).map objects.str)
  else match results with
    | [] => ""
    | first :: rest =>
        if aggregationStrategy = "best" then objects.str (longest objects first rest) else objects.str first

/-- `success_rate` of `get_metrics`. -/
def successRate (metrics : TaskMetrics) : Rat := metrics.successfulTasks / max metrics.totalDelegations 1

/-! ## `execute_workflow`

Every workflow runs up to its next `await` in one step: an attempt of an agent, or the sleep before the next one. -/

/-- The task that a workflow is at; the number of the attempt is its `retry_count`. -/
structure Held (V : Type) where
  task : AgentTask V
  agentId : String
  rest : List (AgentTask V)

/-- A workflow is aborted when it is cancelled, or when what is raised is no `Exception`. -/
inductive Phase (V : Type)
  | executing (held : Held V)
  | sleeping (held : Held V)
  | finished (response : String)
  | aborted (held : Held V)

structure Workflow (V : Type) where
  availableAgents : List String
  aggregationStrategy : String
  ended : List (AgentTask V) := []
  results : List V := []
  phase : Phase V

structure System (V : Type) where
  agents : Agents
  metrics : TaskMetrics := {}
  workflows : Nat → Option (Workflow V) := fun _ => none

def succeeded (metrics : TaskMetrics) : TaskMetrics :=
  { metrics with
    totalDelegations := metrics.totalDelegations + 1
    successfulTasks := metrics.successfulTasks + 1 }

def failed (metrics : TaskMetrics) : TaskMetrics := { metrics with failedTasks := metrics.failedTasks + 1 }

def complete (task : AgentTask V) (outcome : Outcome V) (result : V) : AgentTask V :=
  { task with result := some result, status := .completed, attempts := task.attempts ++ [outcome] }

/-- What has changed when a workflow reaches an `await` or its end. -/
structure Progress (V : Type) where
  agents : Agents
  metrics : TaskMetrics
  workflow : Workflow V

/-- The loop over the tasks that are left. An agent without `execute_task` has its result at once. -/
def proceed (availableAgents : List String) (aggregationStrategy : String) (agents : Agents) (metrics : TaskMetrics)
    (ended : List (AgentTask V)) (results : List V) : List (AgentTask V) → Progress V
  | [] =>
      let response := aggregateResults objects results aggregationStrategy
      ⟨agents, metrics, ⟨availableAgents, aggregationStrategy, ended, results, .finished response⟩⟩
  | task :: rest =>
      match delegateTask agents task availableAgents with
      | none =>
          proceed availableAgents aggregationStrategy agents metrics (ended ++ [{ task with status := .noAgent }])
            results rest
      | some (agentId, assigned, agents) =>
          if (agents.get agentId).any (·.executes) then
            let phase := .executing ⟨assigned, agentId, rest⟩
            ⟨agents, metrics, ⟨availableAgents, aggregationStrategy, ended, results, phase⟩⟩
          else
            let result := objects.text ("Agent processed: " ++ assigned.description)
            proceed availableAgents aggregationStrategy (markAgentAvailable agents agentId) (succeeded metrics)
              (ended ++ [complete assigned (.returned result) result]) (results ++ [result]) rest

/-- The text of `last_error`. -/
def Outcome.error : Outcome V → String
  | .returned _ => "None"
  | .timedOut => "Timeout after 30.0s"
  | .raised error => error

def failureText (task : AgentTask V) (outcome : Outcome V) : String :=
  "Task failed after " ++ toString (task.maxRetries + 1) ++ " attempts: " ++ outcome.error

/-- After the last attempt the loop goes on with the next task. -/
def settle (agents : Agents) (metrics : TaskMetrics) (workflow : Workflow V) (held : Held V) (outcome : Outcome V)
    (result : V) : Progress V :=
  proceed objects workflow.availableAgents workflow.aggregationStrategy (markAgentAvailable agents held.agentId) metrics
    (workflow.ended ++ [complete held.task outcome result]) (workflow.results ++ [result]) held.rest

/-- What is left of `execute_with_retry` when an attempt has ended. -/
def afterAttempt (agents : Agents) (metrics : TaskMetrics) (workflow : Workflow V) (held : Held V)
    (outcome : Outcome V) : Progress V :=
  match outcome with
  | .returned result => settle objects agents (succeeded metrics) workflow held outcome result
  | _ =>
      if held.task.retryCount < held.task.maxRetries then
        ⟨agents, metrics, { workflow with phase := .sleeping { held with
          task := { held.task with attempts := held.task.attempts ++ [outcome] } } }⟩
      else settle objects agents (failed metrics) workflow held outcome (objects.text (failureText held.task outcome))

theorem afterAttempt_of_failed {agents : Agents} {metrics : TaskMetrics} {workflow : Workflow V} {held : Held V}
    {outcome : Outcome V} (unreturned : ∀ result, outcome ≠ .returned result) :
    afterAttempt objects agents metrics workflow held outcome =
      if held.task.retryCount < held.task.maxRetries then
        ⟨agents, metrics, { workflow with phase := .sleeping { held with
          task := { held.task with attempts := held.task.attempts ++ [outcome] } } }⟩
      else settle objects agents (failed metrics) workflow held outcome (objects.text (failureText held.task outcome)) := by
  cases outcome with
  | returned result => exact absurd rfl (unreturned result)
  | timedOut => rfl
  | raised error => rfl

inductive Act (V : Type)
  | start (workflow : Nat) (userQuery : String) (availableAgents : List String) (aggregationStrategy : String)
  | attempted (workflow : Nat) (outcome : Outcome V)
  | wake (workflow : Nat)
  | abort (workflow : Nat)

def System.advance (s : System V) (w : Nat) (progress : Progress V) : System V where
  agents := progress.agents
  metrics := progress.metrics
  workflows := Function.update s.workflows w (some progress.workflow)

def System.setPhase (s : System V) (w : Nat) (workflow : Workflow V) (phase : Phase V) : System V :=
  { s with workflows := Function.update s.workflows w (some { workflow with phase }) }

def Held.nextAttempt (held : Held V) : Held V :=
  { held with task := { held.task with retryCount := held.task.retryCount + 1 } }

def step (lower : String → String) (s : System V) : Act V → Option (System V)
  | .start w userQuery availableAgents aggregationStrategy =>
      match s.workflows w with
      | some _ => none
      | none =>
          some (s.advance w (proceed objects availableAgents aggregationStrategy s.agents s.metrics [] []
            (decomposeTask lower userQuery)))
  | .attempted w outcome => do
      let workflow ← s.workflows w
      match workflow.phase with
      | .executing held => some (s.advance w (afterAttempt objects s.agents s.metrics workflow held outcome))
      | _ => none
  | .wake w => do
      let workflow ← s.workflows w
      match workflow.phase with
      | .sleeping held => some (s.setPhase w workflow (.executing held.nextAttempt))
      | _ => none
  | .abort w => do
      let workflow ← s.workflows w
      match workflow.phase with
      | .executing held => some (s.setPhase w workflow (.aborted held))
      | .sleeping held => some (s.setPhase w workflow (.aborted held))
      | _ => none

end

end CuckooEcho.Agent.Orchestrator
