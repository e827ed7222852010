import CuckooEcho.Agent.Orchestrator
import CuckooEcho.Lib.Leases
import CuckooEcho.Lib.Run

namespace CuckooEcho.Agent.Orchestrator
open Lib

/-! ## Which workflow has which agent -/

variable {V : Type} {objects : Objects V} {lower : String → String} {agents : Agents}

def isBusy (agents : Agents) (agentId : String) : Prop := ∃ info, agents.get agentId = some info ∧ info.status = .busy

/-- The agent that a workflow works with. -/
def Phase.runs : Phase V → Option String
  | .executing held => some held.agentId
  | .sleeping held => some held.agentId
  | .finished _ => none
  | .aborted _ => none

/-- The agent that a workflow has not given back. -/
def Phase.bound : Phase V → Option String
  | .executing held => some held.agentId
  | .sleeping held => some held.agentId
  | .finished _ => none
  | .aborted held => some held.agentId

def System.runs (s : System V) (w : Nat) : Option String := (s.workflows w).bind (·.phase.runs)

def System.bound (s : System V) (w : Nat) : Option String := (s.workflows w).bind (·.phase.bound)

/-- Every agent is what was registered last under its id. -/
def registerAgent (agents : Agents) (agentId role : String) (executes : Bool) : Agents :=
  agents.set agentId { role, executes }

structure Registration where
  agentId : String
  role : String
  executes : Bool

def initial (registrations : List Registration) : System V where
  agents := registrations.foldl (fun agents r => registerAgent agents r.agentId r.role r.executes) Dict.empty

/-! ### Statuses -/

theorem isBusy_setStatus {agentId other : String} (known : ∃ info, agents.get agentId = some info)
    (status : AgentStatus) :
    isBusy (setStatus agents agentId status) other ↔
      if other = agentId then status = .busy else isBusy agents other := by
  obtain ⟨info, known⟩ := known
  simp only [isBusy, setStatus, known, Dict.get_set]
  split
  · simp
  · rfl

theorem isBusy_markAgentAvailable (agents : Agents) (agentId other : String) :
    isBusy (markAgentAvailable agents agentId) other ↔ other ≠ agentId ∧ isBusy agents other := by
  cases known : agents.get agentId with
  | none =>
      simp only [markAgentAvailable, setStatus, known, isBusy]
      refine ⟨?_, And.right⟩
      rintro ⟨info, found, busy⟩
      refine ⟨?_, info, found, busy⟩
      rintro rfl
      rw [known] at found
      cases found
  | some info =>
      rw [markAgentAvailable, isBusy_setStatus ⟨info, known⟩]
      split
      · rename_i same
        simp [same]
      · rename_i different
        simp [different]

theorem delegateTask_eq_some {task assigned : AgentTask V} {availableAgents : List String} {agentId : String}
    {agents' : Agents} (delegated : delegateTask agents task availableAgents = some (agentId, assigned, agents')) :
    isAvailable agents agentId ∧ assigned = { task with assignedAgent := some agentId, status := .assigned } ∧
      agents' = setStatus agents agentId .busy := by
  obtain ⟨id, chosen, same⟩ := Option.map_eq_some_iff.mp delegated
  obtain ⟨rfl, rfl, rfl⟩ : id = agentId ∧ _ = assigned ∧ _ = agents' := by simpa using same
  refine ⟨?_, rfl, rfl⟩
  rcases Option.or_eq_some_iff.mp chosen with suited | ⟨-, first⟩
  · have met := List.find?_some suited
    exact (Bool.and_eq_true_iff.mp met).1
  · rw [List.head?_filter] at first
    exact List.find?_some first

theorem of_isAvailable {agentId : String} (available : isAvailable agents agentId) :
    (∃ info, agents.get agentId = some info) ∧ ¬ isBusy agents agentId := by
  obtain ⟨info, found, free⟩ := (Option.any_eq_true _ _).mp available
  refine ⟨⟨info, found⟩, ?_⟩
  rintro ⟨info', found', busy⟩
  obtain rfl := Option.some.inj (found.symm.trans found')
  simp [busy] at free

/-! ### Delegating and giving back -/

section
variable {holds : Nat → Option String} {w : Nat}

theorem leased_delegated {agentId : String} (leased : Leased (isBusy agents) holds) (idle : holds w = none)
    (available : isAvailable agents agentId) :
    Leased (isBusy (setStatus agents agentId .busy)) (Function.update holds w (some agentId)) := by
  obtain ⟨known, free⟩ := of_isAvailable available
  apply (leased.acquire free idle).congr
  intro other
  rw [isBusy_setStatus known]
  by_cases same : other = agentId
  · simp [same]
  · simp [same]

theorem leased_returned {agentId : String} (leased : Leased (isBusy agents) holds) (held : holds w = some agentId) :
    Leased (isBusy (markAgentAvailable agents agentId)) (Function.update holds w none) :=
  (leased.release held).congr (isBusy_markAgentAvailable agents agentId)

/-- The agents are leased once a workflow has come so far. -/
def LeasedAfter (holds : Nat → Option String) (w : Nat) (progress : Progress V) : Prop :=
  Leased (isBusy progress.agents) (Function.update holds w progress.workflow.phase.bound)

/-- The loop over the tasks has at most the agent that it stops with. -/
theorem leased_proceed {availableAgents : List String} {aggregationStrategy : String} {metrics : TaskMetrics}
    {ended : List (AgentTask V)} {results : List V} (tasks : List (AgentTask V))
    (leased : Leased (isBusy agents) holds) (idle : holds w = none) :
    LeasedAfter holds w (proceed objects availableAgents aggregationStrategy agents metrics ended results tasks) := by
  induction tasks generalizing agents metrics ended results with
  | nil =>
      have same : Function.update holds w none = holds := Function.update_eq_self_iff.mpr idle.symm
      rw [LeasedAfter, proceed]
      exact same.symm ▸ leased
  | cons task rest ih =>
      rw [proceed]
      cases delegated : delegateTask agents task availableAgents with
      | none => exact ih leased
      | some choice =>
          obtain ⟨agentId, assigned, agents'⟩ := choice
          obtain ⟨available, -, rfl⟩ := delegateTask_eq_some delegated
          have taken := leased_delegated leased idle available
          dsimp only
          split
          · exact taken
          · apply ih
            have returned := leased_returned taken (Function.update_self w _ holds)
            rwa [Function.update_idem, ← idle, Function.update_eq_self] at returned

theorem leased_settle {metrics : TaskMetrics} {workflow : Workflow V} {held : Held V} {outcome : Outcome V} {result : V}
    (leased : Leased (isBusy agents) holds) (holding : holds w = some held.agentId) :
    LeasedAfter holds w (settle objects agents metrics workflow held outcome result) := by
  have after : LeasedAfter (Function.update holds w none) w
      (settle objects agents metrics workflow held outcome result) :=
    leased_proceed held.rest (leased_returned leased holding) (Function.update_self w none holds)
  rwa [LeasedAfter, Function.update_idem] at after

theorem leased_afterAttempt {metrics : TaskMetrics} {workflow : Workflow V} {held : Held V} (outcome : Outcome V)
    (leased : Leased (isBusy agents) holds) (holding : holds w = some held.agentId) :
    LeasedAfter holds w (afterAttempt objects agents metrics workflow held outcome) := by
  have kept : Leased (isBusy agents) (Function.update holds w (some held.agentId)) := by
    rwa [← holding, Function.update_eq_self]
  by_cases returned : ∃ result, outcome = .returned result
  · obtain ⟨result, rfl⟩ := returned
    exact leased_settle leased holding
  · rw [afterAttempt_of_failed objects fun result same => returned ⟨result, same⟩]
    split
    · exact kept
    · exact leased_settle leased holding

end

/-! ### Steps -/

/-- What a step does, and from where. -/
inductive Moves (objects : Objects V) (lower : String → String) (s : System V) : Act V → System V → Prop
  | started {w : Nat} {userQuery : String} {availableAgents : List String} {aggregationStrategy : String}
      (unused : s.workflows w = none) :
      Moves objects lower s (.start w userQuery availableAgents aggregationStrategy)
        (s.advance w (proceed objects availableAgents aggregationStrategy s.agents s.metrics [] []
          (decomposeTask lower userQuery)))
  | attempted {w : Nat} {workflow : Workflow V} {held : Held V} {outcome : Outcome V}
      (found : s.workflows w = some workflow) (phase : workflow.phase = .executing held) :
      Moves objects lower s (.attempted w outcome)
        (s.advance w (afterAttempt objects s.agents s.metrics workflow held outcome))
  | woken {w : Nat} {workflow : Workflow V} {held : Held V} (found : s.workflows w = some workflow)
      (phase : workflow.phase = .sleeping held) :
      Moves objects lower s (.wake w) (s.setPhase w workflow (.executing held.nextAttempt))
  | aborted {w : Nat} {workflow : Workflow V} {held : Held V} (found : s.workflows w = some workflow)
      (phase : workflow.phase = .executing held ∨ workflow.phase = .sleeping held) :
      Moves objects lower s (.abort w) (s.setPhase w workflow (.aborted held))

theorem moves_of_step {s s' : System V} {act : Act V} (next : step objects lower s act = some s') :
    Moves objects lower s act s' := by
  cases act with
  | start w userQuery availableAgents aggregationStrategy =>
      cases unused : s.workflows w with
      | some workflow => simp [step, unused] at next
      | none =>
          obtain rfl : s.advance w _ = s' := by simpa only [step, unused, Option.some.injEq] using next
          exact .started unused
  | attempted w outcome =>
      obtain ⟨workflow, found, next⟩ := Option.bind_eq_some_iff.mp next
      cases phase : workflow.phase with
      | executing held =>
          obtain rfl : s.advance w _ = s' := by simpa only [phase, Option.some.injEq] using next
          exact .attempted found phase
      | _ => simp [phase] at next
  | wake w =>
      obtain ⟨workflow, found, next⟩ := Option.bind_eq_some_iff.mp next
      cases phase : workflow.phase with
      | sleeping held =>
          obtain rfl : s.setPhase w workflow _ = s' := by simpa only [phase, Option.some.injEq] using next
          exact .woken found phase
      | _ => simp [phase] at next
  | abort w =>
      obtain ⟨workflow, found, next⟩ := Option.bind_eq_some_iff.mp next
      cases phase : workflow.phase with
      | executing held =>
          obtain rfl : s.setPhase w workflow _ = s' := by simpa only [phase, Option.some.injEq] using next
          exact .aborted found (Or.inl phase)
      | sleeping held =>
          obtain rfl : s.setPhase w workflow _ = s' := by simpa only [phase, Option.some.injEq] using next
          exact .aborted found (Or.inr phase)
      | _ => simp [phase] at next

theorem workflows_advance (s : System V) (w other : Nat) (progress : Progress V) :
    (s.advance w progress).workflows other = if other = w then some progress.workflow else s.workflows other := by
  rw [← Function.update_apply]
  rfl

theorem workflows_setPhase (s : System V) (w other : Nat) (workflow : Workflow V) (phase : Phase V) :
    (s.setPhase w workflow phase).workflows other =
      if other = w then some { workflow with phase } else s.workflows other := by
  rw [← Function.update_apply]
  rfl

theorem bound_advance (s : System V) (w : Nat) (progress : Progress V) :
    (s.advance w progress).bound = Function.update s.bound w progress.workflow.phase.bound := by
  funext other
  rw [System.bound, workflows_advance, Function.update_apply]
  split
  · rfl
  · rfl

theorem bound_setPhase {s : System V} {w : Nat} {workflow : Workflow V} {phase : Phase V}
    (found : s.workflows w = some workflow) (same : phase.bound = workflow.phase.bound) :
    (s.setPhase w workflow phase).bound = s.bound := by
  funext other
  rw [System.bound, workflows_setPhase]
  split
  · rename_i here
    rw [here, System.bound, found]
    exact same
  · rfl

/-- At every step the busy agents are those that some workflow has not given back, each of one workflow only. -/
theorem leased_step {s s' : System V} {act : Act V} (leased : Leased (isBusy s.agents) s.bound)
    (next : step objects lower s act = some s') : Leased (isBusy s'.agents) s'.bound := by
  cases moves_of_step next with
  | started unused =>
      rw [bound_advance]
      apply leased_proceed _ leased
      rw [System.bound, unused, Option.bind_none]
  | attempted found phase =>
      rw [bound_advance]
      apply leased_afterAttempt _ leased
      rw [System.bound, found, Option.bind_some, phase]
      rfl
  | woken found phase => rwa [bound_setPhase found (by rw [phase]; rfl)]
  | aborted found phase =>
      rcases phase with phase | phase
      · rwa [bound_setPhase found (by rw [phase]; rfl)]
      · rwa [bound_setPhase found (by rw [phase]; rfl)]

/-! ### Runs -/

theorem available_of_registered (registrations : List Registration) (agentId : String) :
    ¬ isBusy (initial (V := V) registrations).agents agentId := by
  rw [initial]
  induction registrations using List.reverseRecOn with
  | nil =>
      rintro ⟨info, found, -⟩
      cases found
  | append_singleton registrations r ih =>
      rintro ⟨info, found, busy⟩
      rw [List.foldl_concat, registerAgent, Dict.get_set] at found
      split at found
      · rw [← Option.some.inj found] at busy
        cases busy
      · exact ih ⟨info, found, busy⟩

theorem leased_initial (registrations : List Registration) :
    Leased (isBusy (initial (V := V) registrations).agents) (initial (V := V) registrations).bound :=
  Leased.of_free (available_of_registered registrations)

def Act.isAbort : Act V → Bool
  | .abort _ => true
  | _ => false

def Phase.isAborted : Phase V → Bool
  | .aborted _ => true
  | _ => false

def System.NoneAborted (s : System V) : Prop :=
  ∀ w workflow, s.workflows w = some workflow → workflow.phase.isAborted = false

def System.SingleBooked (s : System V) : Prop := ∀ w w' agentId, s.runs w = some agentId → s.runs w' = some agentId → w = w'

def System.Quiet (s : System V) : Prop := ∀ w, s.runs w = none

def System.AllAvailable (s : System V) : Prop :=
  ∀ agentId info, s.agents.get agentId = some info → info.status = .available

structure System.KeepsAgents (s : System V) : Prop where
  single : s.SingleBooked
  returned : s.Quiet → s.AllAvailable

theorem bound_of_runs {s : System V} {w : Nat} {agentId : String} (runs : s.runs w = some agentId) :
    s.bound w = some agentId := by
  obtain ⟨workflow, found, runs⟩ := Option.bind_eq_some_iff.mp runs
  rw [System.bound, found, Option.bind_some]
  cases phase : workflow.phase with
  | executing held => rwa [phase] at runs
  | sleeping held => rwa [phase] at runs
  | finished response => simp [phase, Phase.runs] at runs
  | aborted held => simp [phase, Phase.runs] at runs

theorem singleBooked_of_leased {s : System V} (leased : Leased (isBusy s.agents) s.bound) : s.SingleBooked :=
  fun w w' agentId runs runs' => leased.single w w' agentId (bound_of_runs runs) (bound_of_runs runs')

theorem allAvailable_iff {s : System V} : s.AllAvailable ↔ ∀ agentId, ¬ isBusy s.agents agentId := by
  constructor
  · rintro available agentId ⟨info, found, busy⟩
    simp [available agentId info found] at busy
  · intro free agentId info found
    cases status : info.status with
    | available => rfl
    | busy => exact absurd ⟨info, found, status⟩ (free agentId)

/-- With no workflow running, the agents that are missing are those of the aborted workflows. -/
theorem allAvailable_iff_noneAborted {s : System V} (leased : Leased (isBusy s.agents) s.bound) (quiet : s.Quiet) :
    s.AllAvailable ↔ s.NoneAborted := by
  rw [allAvailable_iff]
  constructor
  · intro free w workflow found
    cases phase : workflow.phase with
    | aborted held =>
        have bound : s.bound w = some held.agentId := by rw [System.bound, found, Option.bind_some, phase, Phase.bound]
        exact absurd ((leased.busy_iff held.agentId).mpr ⟨w, bound⟩) (free held.agentId)
    | _ => rfl
  · intro none agentId busy
    obtain ⟨w, bound⟩ := (leased.busy_iff agentId).mp busy
    obtain ⟨workflow, found, bound⟩ := Option.bind_eq_some_iff.mp bound
    have idle : workflow.phase.runs = Option.none := by
      have here := quiet w
      rwa [System.runs, found] at here
    cases phase : workflow.phase with
    | executing held => simp [phase, Phase.runs] at idle
    | sleeping held => simp [phase, Phase.runs] at idle
    | finished response => simp [phase, Phase.bound] at bound
    | aborted held => simpa [phase, Phase.isAborted] using none w workflow found

theorem proceed_not_aborted {availableAgents : List String} {aggregationStrategy : String} {metrics : TaskMetrics}
    {ended : List (AgentTask V)} {results : List V} (tasks : List (AgentTask V)) :
    (proceed objects availableAgents aggregationStrategy agents metrics ended results tasks).workflow.phase.isAborted =
      false := by
  induction tasks generalizing agents metrics ended results with
  | nil => rfl
  | cons task rest ih =>
      rw [proceed]
      cases delegateTask agents task availableAgents with
      | none => exact ih
      | some choice =>
          dsimp only
          split
          · rfl
          · exact ih

theorem afterAttempt_not_aborted {metrics : TaskMetrics} {workflow : Workflow V} {held : Held V} (outcome : Outcome V) :
    (afterAttempt objects agents metrics workflow held outcome).workflow.phase.isAborted = false := by
  by_cases returned : ∃ result, outcome = .returned result
  · obtain ⟨result, rfl⟩ := returned
    exact proceed_not_aborted held.rest
  · rw [afterAttempt_of_failed objects fun result same => returned ⟨result, same⟩]
    split
    · rfl
    · exact proceed_not_aborted held.rest

theorem noneAborted_step {s s' : System V} {act : Act V} (none : s.NoneAborted) (other : act.isAbort = false)
    (next : step objects lower s act = some s') : s'.NoneAborted := by
  intro v workflow' found'
  cases moves_of_step next with
  | started unused =>
      rw [workflows_advance] at found'
      split at found'
      · exact Option.some.inj found' ▸ proceed_not_aborted _
      · exact none v workflow' found'
  | attempted found phase =>
      rw [workflows_advance] at found'
      split at found'
      · exact Option.some.inj found' ▸ afterAttempt_not_aborted _
      · exact none v workflow' found'
  | woken found phase =>
      rw [workflows_setPhase] at found'
      split at found'
      · exact Option.some.inj found' ▸ rfl
      · exact none v workflow' found'
  | aborted found phase => cases other

/-- An aborted workflow never moves again. -/
theorem aborted_step {s s' : System V} {act : Act V} (lost : ¬ s.NoneAborted)
    (next : step objects lower s act = some s') : ¬ s'.NoneAborted := by
  simp only [System.NoneAborted, not_forall] at lost ⊢
  obtain ⟨v, workflow, found, aborted⟩ := lost
  have elsewhere {w : Nat} {held : Held V} {other : Workflow V} (found' : s.workflows w = some other)
      (phase : other.phase = .executing held ∨ other.phase = .sleeping held) : v ≠ w := by
    rintro rfl
    rw [Option.some.inj (found'.symm.trans found)] at phase
    rcases phase with phase | phase
    · exact aborted (phase ▸ rfl)
    · exact aborted (phase ▸ rfl)
  refine ⟨v, workflow, ?_, aborted⟩
  cases moves_of_step next with
  | started unused =>
      rw [workflows_advance, if_neg, found]
      rintro rfl
      cases unused.symm.trans found
  | attempted found' phase => rw [workflows_advance, if_neg (elsewhere found' (Or.inl phase)), found]
  | woken found' phase => rw [workflows_setPhase, if_neg (elsewhere found' (Or.inr phase)), found]
  | aborted found' phase => rw [workflows_setPhase, if_neg (elsewhere found' phase), found]

theorem lost_of_abort {s s' : System V} {act : Act V} (abort : act.isAbort = true)
    (next : step objects lower s act = some s') : ¬ s'.NoneAborted := by
  intro none
  cases moves_of_step next with
  | aborted found phase => cases none _ _ ((workflows_setPhase ..).trans (if_pos rfl))
  | _ => cases abort

/-- No agent is ever double-booked. As long as no workflow is aborted they all come back, and a run that ends with
no workflow running has every agent back only if none was aborted. -/
theorem agents_kept (objects : Objects V) (lower : String → String) (registrations : List Registration)
    (acts : List (Act V)) :
    Throughout (step objects lower) System.SingleBooked (initial registrations) acts ∧
    (Along (step objects lower) (fun _ act => act.isAbort = false) (initial registrations) acts →
      Throughout (step objects lower) System.KeepsAgents (initial registrations) acts) ∧
    ∀ last, exec (step objects lower) (initial registrations) acts = some last → last.Quiet →
      (last.AllAvailable ↔
        Along (step objects lower) (fun _ act => act.isAbort = false) (initial registrations) acts) := by
  have leased :
      Throughout (step objects lower) (fun s => Leased (isBusy s.agents) s.bound) (initial registrations) acts :=
    throughout_of_step (fun _ _ _ => leased_step) (leased_initial registrations)
  have start : (initial (V := V) registrations).NoneAborted := fun w workflow found => by cases found
  have unaborted (along : Along (step objects lower) (fun _ act => act.isAbort = false) (initial registrations) acts) :
      Throughout (step objects lower) System.NoneAborted (initial registrations) acts :=
    throughout_of_along (fun _ _ _ => noneAborted_step) start along
  refine ⟨leased.mono fun _ => singleBooked_of_leased, ?_, ?_⟩
  · intro along
    apply (leased.and (unaborted along)).mono
    rintro s ⟨leased, none⟩
    exact ⟨singleBooked_of_leased leased, fun quiet => (allAvailable_iff_noneAborted leased quiet).mpr none⟩
  · intro last run quiet
    rw [allAvailable_iff_noneAborted (leased.last run) quiet]
    constructor
    · intro none
      apply along_of_last System.NoneAborted (fun s => ¬ s.NoneAborted) (fun _ _ _ => noneAborted_step) _
        (fun _ _ _ => aborted_step) start run (not_not.mpr none)
      intro s act t _ abort next
      exact lost_of_abort (by simpa using abort) next
    · exact fun along => (unaborted along).last run

/-- One agent, and a workflow that is cancelled while the agent works. -/
def cancelled : List (Act String) := [.start 0 "hello" ["helper"] "concat", .abort 0]

theorem agent_lost : ¬ ∀ (objects : Objects String) (lower : String → String) (registrations : List Registration)
    (acts : List (Act String)),
    Throughout (step objects lower) System.KeepsAgents (initial registrations) acts := by
  intro claim
  have run := (claim ⟨fun s => s ≠ "", id, id⟩ id [⟨"helper", "generalist", true⟩] cancelled).last rfl
  refine absurd (run.returned (fun w => ?_) "helper" ⟨"generalist", true, .busy⟩ rfl) (by decide)
  cases w with
  | zero => rfl
  | succ w => rfl

end CuckooEcho.Agent.Orchestrator
