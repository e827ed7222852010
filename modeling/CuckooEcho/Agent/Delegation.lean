import CuckooEcho.Agent.Orchestrator

namespace CuckooEcho.Agent.Orchestrator
open Lib

/-! ## Who gets a task -/

variable {V : Type} {lower : String → String} {userQuery : String} {agents : Agents} {availableAgents : List String}

theorem taskType_of_mem_matched {task : AgentTask V} (member : task ∈ matchedTasks lower userQuery) :
    task.taskType = "rag_specialist" ∨ task.taskType = "tool_executor" ∨ task.taskType = "generalist" := by
  simp only [matchedTasks, List.mem_append, List.mem_ite_nil_right, List.mem_singleton] at member
  rcases member with (⟨-, rfl⟩ | ⟨-, rfl⟩) | ⟨-, rfl⟩
  · exact Or.inl rfl
  · exact Or.inr (Or.inl rfl)
  · exact Or.inr (Or.inr rfl)

/-- Tasks are created with the names of roles for their types. -/
theorem taskType_of_mem {task : AgentTask V} (member : task ∈ decomposeTask lower userQuery) :
    task.taskType = "rag_specialist" ∨ task.taskType = "tool_executor" ∨ task.taskType = "generalist" := by
  rw [decomposeTask] at member
  split at member
  · obtain rfl := List.mem_singleton.mp member
    exact Or.inr (Or.inr rfl)
  · exact taskType_of_mem_matched member

/-- No default role has the name of a role among its capabilities. -/
theorem getRoleForTask_eq_none {task : AgentTask V} (member : task ∈ decomposeTask lower userQuery) :
    getRoleForTask setupDefaultRoles task.taskType = none := by
  rcases taskType_of_mem member with type | type | type
  all_goals
    rw [type]
    decide

theorem agentFor_of_none {registry : RoleRegistry} {taskType : String}
    (unknown : getRoleForTask registry taskType = none) :
    agentFor registry agents taskType availableAgents = availableAgents.find? (isAvailable agents) := by
  simp only [agentFor, unknown, Option.all_none, Bool.and_true, List.head?_filter, Option.or_self]

theorem delegated_eq_first {task : AgentTask V} (member : task ∈ decomposeTask lower userQuery) :
    (delegateTask agents task availableAgents).map Prod.fst = availableAgents.find? (isAvailable agents) := by
  rw [delegateTask, agentFor_of_none (getRoleForTask_eq_none member), Option.map_map]
  exact congrFun Option.map_id _

/-- A free agent gets the task, and one of the role that the task was created for if there is any. -/
structure ToSpecialist (agents : Agents) (role : String) (availableAgents : List String) (agent : Option String) : Prop where
  free : ∀ id, agent = some id → id ∈ availableAgents ∧ isAvailable agents id
  specialist : (∃ id ∈ availableAgents, isAvailable agents id ∧ hasRole agents role id) →
    ∃ id, agent = some id ∧ hasRole agents role id
  otherwise : (∃ id ∈ availableAgents, isAvailable agents id) → agent ≠ none

/-- The first free agent has the role, or no free agent has it. -/
def FirstSuits (agents : Agents) (role : String) (availableAgents : List String) : Prop :=
  ∀ id, availableAgents.find? (isAvailable agents) = some id →
    hasRole agents role id ∨ ∀ other ∈ availableAgents, isAvailable agents other → ¬ hasRole agents role other

theorem toSpecialist_first_iff (role : String) :
    ToSpecialist agents role availableAgents (availableAgents.find? (isAvailable agents)) ↔
      FirstSuits agents role availableAgents := by
  constructor
  · intro right id first
    by_cases suited : ∃ other ∈ availableAgents, isAvailable agents other ∧ hasRole agents role other
    · obtain ⟨id', chosen, has⟩ := right.specialist suited
      rw [first, Option.some.injEq] at chosen
      exact Or.inl (chosen ▸ has)
    · exact Or.inr fun other member available has => suited ⟨other, member, available, has⟩
  · intro suits
    have found : (∃ id ∈ availableAgents, isAvailable agents id) →
        ∃ id, availableAgents.find? (isAvailable agents) = some id := by
      rintro ⟨id, member, available⟩
      exact Option.isSome_iff_exists.mp (List.find?_isSome.mpr ⟨id, member, available⟩)
    refine ⟨fun id first => ⟨List.mem_of_find?_eq_some first, List.find?_some first⟩, ?_, ?_⟩
    · rintro ⟨other, member, available, has⟩
      obtain ⟨id, first⟩ := found ⟨other, member, available⟩
      rcases suits id first with suited | none
      · exact ⟨id, first, suited⟩
      · exact absurd has (none other member available)
    · intro some
      obtain ⟨id, first⟩ := found some
      simp [first]

/-- The types that `decompose_task` gives to its tasks are in no list of capabilities, so only the order of the agents
decides. -/
theorem toSpecialist_iff (task : AgentTask V) (member : task ∈ decomposeTask lower userQuery) (agents : Agents)
    (availableAgents : List String) :
    ToSpecialist agents task.taskType availableAgents ((delegateTask agents task availableAgents).map Prod.fst) ↔
      FirstSuits agents task.taskType availableAgents := by
  rw [delegated_eq_first member]
  exact toSpecialist_first_iff task.taskType

def searchTask : AgentTask String := createTask "rag_specialist" "Search for: search shoes"

theorem searchTask_mem : searchTask ∈ decomposeTask id "search shoes" := by
  decide

def twoAgents : Agents := (Dict.empty.set "helper" ⟨"generalist", true, .available⟩).set "finder"
  ⟨"rag_specialist", true, .available⟩

theorem toSpecialist_iff_search : ToSpecialist twoAgents searchTask.taskType ["finder", "helper"]
    ((delegateTask twoAgents searchTask ["finder", "helper"]).map Prod.fst) ↔
      FirstSuits twoAgents searchTask.taskType ["finder", "helper"] :=
  toSpecialist_iff searchTask searchTask_mem twoAgents ["finder", "helper"]

/-- The generalist comes first, and gets the search. -/
theorem search_to_generalist :
    ¬ ∀ (lower : String → String) (userQuery : String) (agents : Agents) (availableAgents : List String),
      ∀ task ∈ decomposeTask (V := String) lower userQuery,
        ToSpecialist agents task.taskType availableAgents ((delegateTask agents task availableAgents).map Prod.fst) := by
  intro claim
  have right := claim id "search shoes" twoAgents ["helper", "finder"] searchTask searchTask_mem
  obtain ⟨id, chosen, has⟩ := right.specialist ⟨"finder", by decide, by decide, by decide⟩
  rw [delegated_eq_first searchTask_mem] at chosen
  obtain rfl : "helper" = id := Option.some.inj chosen
  exact absurd has (by decide)

end CuckooEcho.Agent.Orchestrator
