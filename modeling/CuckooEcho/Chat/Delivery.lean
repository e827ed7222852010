import CuckooEcho.Chat.TokenQueue

namespace CuckooEcho.Chat
open Lib Agent

/-! ## The pace of a consumer -/

namespace Consumer
variable (c : Consumer)

@[simp] theorem put_nil : c.put [] = c := by simp [put]

@[simp] theorem get_zero : c.get 0 = c := by simp [get]

theorem put_put (items more : List Item) : (c.put items).put more = c.put (items ++ more) := by
  simp [put]

theorem get_get (first second : Nat) : (c.get first).get second = c.get (first + second) := by
  simp [get, List.take_add, List.drop_drop]

theorem put_get {count : Nat} (within : count ≤ c.queue.length) (items : List Item) :
    (c.get count).put items = (c.put items).get count := by
  simp [get, put, List.take_append_of_le_length within, List.drop_append_of_le_length within]

theorem within_of_queue {count : Nat} {item : Item} {rest : List Item} (queue : (c.get count).queue = item :: rest) :
    count + 1 ≤ c.queue.length := by
  by_contra short
  have empty : c.queue.drop count = [] := List.drop_eq_nil_of_le (by omega)
  exact absurd (empty.symm.trans queue) (by simp)

end Consumer

theorem handleUpdates_append {counts : List Nat} {us : List AgentUpdate} (paces : counts.length = us.length)
    (later : List Nat) (more : List AgentUpdate) (c : Consumer) :
    handleUpdates (counts ++ later) (us ++ more) c = handleUpdates later more (handleUpdates counts us c) := by
  induction us generalizing counts c with
  | nil =>
      obtain rfl := List.length_eq_zero_iff.mp paces
      rfl
  | cons u us ih =>
      cases counts with
      | nil => simp at paces
      | cons count counts => exact ih (by simpa using paces) _

theorem handleFailure_get (outcome : StateGraph.Outcome) {c : Consumer} {count : Nat}
    (within : count ≤ c.queue.length) : handleFailure outcome (c.get count) = (handleFailure outcome c).get count := by
  have kept : (c.get count).responseSent = c.responseSent := rfl
  unfold handleFailure
  rw [kept]
  split
  · rfl
  · exact c.put_get within _

/-! ## A run brings its queue through the turn that it computes -/

def Request.turn (id : RequestId) (request : Request) (saved : AgentState) : AgentRun :=
  Agent.turn request.services ((request.payload id).merge saved)

/-- The tokens of the pending node that have been pushed, with those that it has read to push. -/
def Pushed (pushed : List String) : List AgentUpdate → Option (List (Option RequestId × String)) → Prop
  | _, none => pushed = []
  | [], some _ => False
  | u :: _, some left => u.node = .llmGenerate ∧ pushed ++ left.map (·.2) = tokenEffects u.effects

theorem Pushed.nil {pushed : List String} {reading : Option (List (Option RequestId × String))}
    (tokens : Pushed pushed [] reading) : pushed = [] := by
  cases reading with
  | none => exact tokens
  | some left => exact tokens.elim

inductive Progress (id : RequestId) (c : Connection) : Prop
  | unloaded (run : c.run = .idle ∨ c.run = .spawned ∨ c.run = .attached) (consumer : c.consumer = .start)
  | executing {saved : AgentState} {passed pending : List AgentUpdate}
      {reading : Option (List (Option RequestId × String))} (counts : List Nat) (pushed : List String) (count : Nat)
      (run : c.run = .executing pending (c.request.turn id saved).outcome reading)
      (updates : (c.request.turn id saved).updates = passed ++ pending)
      (paces : counts.length = passed.length) (tokens : Pushed pushed pending reading)
      (within : count ≤ ((handleUpdates counts passed .start).put (pushed.map .token)).queue.length)
      (consumer : c.consumer = ((handleUpdates counts passed .start).put (pushed.map .token)).get count)
  | ended (saved : AgentState) (counts : List Nat) (count : Nat) (run : c.run = .ended)
      (consumer : c.consumer = (consumeStream counts (c.request.turn id saved)).get count)

/-- A run has not started before its request has acquired the lock. -/
structure Pacing (id : RequestId) (c : Connection) : Prop where
  progress : Progress id c
  asleep : c.handler = .waiting ∨ c.handler = .acquired → c.run = .idle

def Write.spoken : Write → Option String
  | .token _ text => some text
  | _ => none

def spoken (writes : List Write) : List Item := (writes.filterMap Write.spoken).map .token

section
variable {id : RequestId} {env : Env} {c after : Connection} {m : Move} {writes : List Write}

theorem receive_eq (stream : c.request.endpoint = .completions) {u : AgentUpdate} {base : Consumer} {count : Nat}
    (consumer : c.consumer = (base.put (tokenItems u)).get count) : c.receive u = handleUpdate count u base := by
  simp only [Connection.receive, stream, consumer]
  rfl

/-- A move that pushes no token and keeps the run and the queue's contents. -/
theorem Progress.kept (progress : Progress id c) (request : after.request = c.request) (run : after.run = c.run)
    (consumer : after.consumer = c.consumer) : Progress id after := by
  cases progress with
  | unloaded before start => exact .unloaded (run ▸ before) (consumer.trans start)
  | executing counts pushed count executing updates paces tokens within eq =>
      rw [← request] at executing updates
      exact .executing counts pushed count (run.trans executing) updates paces tokens within (consumer.trans eq)
  | ended saved counts count stopped eq =>
      rw [← request] at eq
      exact .ended saved counts count (run.trans stopped) (consumer.trans eq)

theorem Progress.consumer_start (progress : Progress id c)
    (run : c.run = .idle ∨ c.run = .spawned ∨ c.run = .attached) : c.consumer = .start := by
  cases progress with
  | unloaded before start => exact start
  | executing counts pushed count executing updates paces tokens within eq => simp [executing] at run
  | ended saved counts count stopped eq => simp [stopped] at run

theorem Progress.yield (progress : Progress id c) {item : Item} {rest : List Item}
    (queue : c.consumer.queue = item :: rest) : Progress id { c with consumer := c.consumer.get 1 } := by
  cases progress with
  | unloaded before start =>
      rw [start] at queue
      simp [Consumer.start] at queue
  | executing counts pushed count executing updates paces tokens within eq =>
      rw [eq] at queue
      refine .executing counts pushed (count + 1) executing updates paces tokens (Consumer.within_of_queue _ queue) ?_
      rw [eq, Consumer.get_get]
  | ended saved counts count stopped eq => exact .ended saved counts (count + 1) stopped (by rw [eq, Consumer.get_get])

theorem Progress.read (progress : Progress id c) {u : AgentUpdate} {us : List AgentUpdate}
    {outcome : StateGraph.Outcome} (run : c.run = .executing (u :: us) outcome none)
    (generates : u.node = .llmGenerate) :
    Progress id { c with run := .executing (u :: us) outcome (some (env.read u)) } := by
  cases progress with
  | unloaded before start => simp [run] at before
  | ended saved counts count stopped eq => simp [run] at stopped
  | executing counts pushed count executing updates paces tokens within eq =>
      obtain ⟨rfl, rfl, rfl⟩ := RunState.executing.inj (run.symm.trans executing)
      obtain rfl : pushed = [] := tokens
      exact .executing counts [] count rfl updates paces ⟨generates, by simp [Env.read]⟩ within eq

theorem Progress.push (progress : Progress id c) {pending : List AgentUpdate} {outcome : StateGraph.Outcome}
    {queue : Option RequestId} {text : String} {left : List (Option RequestId × String)}
    (run : c.run = .executing pending outcome (some ((queue, text) :: left))) :
    Progress id { c with run := .executing pending outcome (some left), consumer := c.consumer.put [.token text] } := by
  cases progress with
  | unloaded before start => simp [run] at before
  | ended saved counts count stopped eq => simp [run] at stopped
  | @executing saved passed pending' reading counts pushed count executing updates paces tokens within eq =>
      obtain ⟨rfl, rfl, rfl⟩ := RunState.executing.inj (run.symm.trans executing)
      have more : ((handleUpdates counts passed .start).put (pushed.map .token)).put [.token text] =
          (handleUpdates counts passed .start).put ((pushed ++ [text]).map .token) := by
        rw [Consumer.put_put, List.map_append]
        rfl
      refine .executing counts (pushed ++ [text]) count rfl updates paces ?_ ?_ ?_
      · cases pending with
        | nil => exact tokens
        | cons u us =>
            obtain ⟨generates, spoken⟩ := tokens
            exact ⟨generates, by simpa using spoken⟩
      · rw [← more]
        exact within.trans (by simp [Consumer.put])
      · rw [eq, Consumer.put_get _ within, more]

theorem Progress.update (progress : Progress id c) (stream : c.request.endpoint = .completions) {u : AgentUpdate}
    {us : List AgentUpdate} {outcome : StateGraph.Outcome} {reading : Option (List (Option RequestId × String))}
    (run : c.run = .executing (u :: us) outcome reading) (ready : u.node = .llmGenerate → reading = some []) :
    Progress id { c with run := .executing us outcome none, consumer := c.receive u } := by
  cases progress with
  | unloaded before start => simp [run] at before
  | ended saved counts count stopped eq => simp [run] at stopped
  | @executing saved passed pending' reading' counts pushed count executing updates paces tokens within eq =>
      obtain ⟨rfl, rfl, rfl⟩ := RunState.executing.inj (run.symm.trans executing)
      have all : pushed = tokenEffects u.effects := by
        by_cases generates : u.node = .llmGenerate
        · rw [ready generates] at tokens
          simpa using tokens.2
        · have here : u ∈ (c.request.turn id saved).updates := by simp [updates]
          rw [tokenEffects_of_ne here generates]
          cases reading with
          | none => exact tokens
          | some left => exact absurd tokens.1 generates
      subst all
      have longer : (counts ++ [count]).length = (passed ++ [u]).length := by simp [paces]
      have next : handleUpdates (counts ++ [count]) (passed ++ [u]) .start =
          handleUpdate count u (handleUpdates counts passed .start) :=
        handleUpdates_append paces [count] [u] .start
      refine .executing (counts ++ [count]) [] 0 rfl (by simp [updates]) longer rfl (Nat.zero_le _) ?_
      rw [List.map_nil, Consumer.put_nil, Consumer.get_zero, next]
      exact receive_eq stream eq

theorem Progress.finish (progress : Progress id c) {outcome : StateGraph.Outcome}
    {reading : Option (List (Option RequestId × String))} (run : c.run = .executing [] outcome reading) :
    Progress id { c with run := .ended, consumer := handleFailure outcome c.consumer } := by
  cases progress with
  | unloaded before start => simp [run] at before
  | ended saved counts count stopped eq => simp [run] at stopped
  | @executing saved passed pending' reading' counts pushed count executing updates paces tokens within eq =>
      obtain ⟨rfl, rfl, rfl⟩ := RunState.executing.inj (run.symm.trans executing)
      obtain rfl := tokens.nil
      rw [List.map_nil, Consumer.put_nil] at within eq
      refine .ended saved counts count rfl ?_
      rw [eq, handleFailure_get _ within, consumeStream, updates, List.append_nil]

theorem Moved.pacing (moved : Moved id env c m after writes) (pacing : Pacing id c)
    (stream : c.request.endpoint = .completions) :
    Pacing id { after with consumer := after.consumer.put (spoken writes) } := by
  have progress := pacing.progress
  have asleep := pacing.asleep
  cases moved with
  | granted waiting free => exact ⟨progress.kept rfl rfl (Consumer.put_nil _), fun _ => asleep (Or.inl waiting)⟩
  | refused _ | released _ _ | expired _ _ | left _ | disconnected _ _ =>
      exact ⟨progress.kept rfl rfl (Consumer.put_nil _), by simp⟩
  | ended _ serving _ _ => exact ⟨progress.kept rfl rfl (Consumer.put_nil _), by simp⟩
  | started acquired =>
      have start := progress.consumer_start (Or.inl (asleep (Or.inr acquired)))
      exact ⟨.unloaded (Or.inr (Or.inl rfl)) ((Consumer.put_nil _).trans start), by simp⟩
  | attached spawned stream =>
      have start := progress.consumer_start (Or.inr (Or.inl spawned))
      exact ⟨.unloaded (Or.inr (Or.inr rfl)) ((Consumer.put_nil _).trans start), fun early => by
        simp [asleep early] at spawned⟩
  | @loaded merged attached merge =>
      have start := progress.consumer_start (Or.inr (Or.inr attached))
      subst merge
      let saved := env.checkpoint.getD emptyThread
      let all := (c.request.turn id saved).updates
      refine ⟨@Progress.executing _ _ saved [] all none [] [] 0 rfl rfl rfl rfl (Nat.zero_le _) ?_, fun early => by
        simp [asleep early] at attached⟩
      exact (Consumer.put_nil _).trans start
  | readQueue executing generates =>
      refine ⟨?_, fun early => by simp [asleep early] at executing⟩
      exact (progress.read executing generates).kept rfl rfl (Consumer.put_nil _)
  | pushed executing => exact ⟨progress.push executing, fun early => by simp [asleep early] at executing⟩
  | updated executing ready =>
      refine ⟨?_, fun early => by simp [asleep early] at executing⟩
      exact (progress.update stream executing ready).kept rfl rfl (Consumer.put_nil _)
  | finished executing _ =>
      refine ⟨?_, fun early => by simp [asleep early] at executing⟩
      exact (progress.finish executing).kept rfl rfl (Consumer.put_nil _)
  | yielded _ serving queue => exact ⟨(progress.yield queue).kept rfl rfl (Consumer.put_nil _), by simp [serving]⟩
  | opened _ socket | answered _ socket | stopped _ socket => simp [stream] at socket

end

/-! ## What the client of a stream is sent -/

def Sent.data : Sent → Option String
  | .event data => some data
  | _ => none

def Service.events (s : Service) (id : RequestId) : List String :=
  s.sent.filterMap fun delivery => if delivery.1 = id then delivery.2.data else none

def Write.data : Write → Option String
  | .send sent => sent.data
  | _ => none

def yields (items : List Item) : List String := items.map fun item => yieldItem item.text

inductive Ledger (c : Connection) (events : List String) : Prop
  | limited {reason : String} (limit : c.request.limit = some reason) (gone : c.handler = .gone) (unrun : c.run = .idle)
      (sent : events = [limitExceeded reason, done])
  | refused (limit : c.request.limit = none) (gone : c.handler = .gone) (unrun : c.run = .idle)
      (sent : events = [concurrentRequest])
  | streaming (limit : c.request.limit = none) (sent : events = yields c.consumer.yielded)
  | closed (limit : c.request.limit = none) (stopped : c.run = .ended) (empty : c.consumer.queue = [])
      (last : c.handler = .releasing ∨ c.handler = .gone) (sent : events = yields c.consumer.yielded ++ [done])

section
variable {id : RequestId} {env : Env} {c after : Connection} {m : Move} {writes : List Write} {events : List String}

theorem pushResponse_yielded (c : Consumer) (u : AgentUpdate) : (pushResponse c u).yielded = c.yielded := by
  unfold pushResponse
  split
  · rfl
  · split <;> rfl

theorem pushCorrection_yielded (c : Consumer) (u : AgentUpdate) : (pushCorrection c u).yielded = c.yielded := by
  unfold pushCorrection
  split <;> rfl

theorem countTokens_yielded (c : Consumer) (u : AgentUpdate) : (countTokens c u).yielded = c.yielded := by
  unfold countTokens
  split <;> rfl

theorem receive_yielded (c : Connection) (u : AgentUpdate) : (c.receive u).yielded = c.consumer.yielded := by
  unfold Connection.receive
  split
  · rw [countTokens_yielded, pushCorrection_yielded, pushResponse_yielded]
  · rfl

theorem handleFailure_yielded (outcome : StateGraph.Outcome) (c : Consumer) :
    (handleFailure outcome c).yielded = c.yielded := by
  unfold handleFailure
  split <;> rfl

theorem Moved.not_away (moved : Moved id env c m after writes) (gone : c.handler = .gone) (unrun : c.run = .idle) :
    False := by
  cases moved with
  | granted waiting _ | refused waiting => simp [gone] at waiting
  | started acquired => simp [gone] at acquired
  | attached spawned _ | opened spawned _ => simp [unrun] at spawned
  | loaded attached _ => simp [unrun] at attached
  | readQueue executing _ | updated executing _ => simp [unrun] at executing
  | pushed executing => simp [unrun] at executing
  | finished executing _ | answered executing _ => simp [unrun] at executing
  | yielded _ serving _ | ended _ serving _ _ => simp [gone] at serving
  | released releasing _ | expired releasing _ => simp [gone] at releasing
  | left early => simp [gone] at early
  | disconnected serving _ | stopped serving _ => simp [gone] at serving

theorem Moved.of_closed (moved : Moved id env c m after writes) (stopped : c.run = .ended)
    (last : c.handler = .releasing ∨ c.handler = .gone) :
    after = { c with handler := .gone } ∧ spoken writes = [] ∧ writes.filterMap Write.data = [] := by
  cases moved with
  | granted waiting _ | refused waiting => simp [waiting] at last
  | started acquired => simp [acquired] at last
  | attached spawned _ | opened spawned _ => simp [stopped] at spawned
  | loaded attached _ => simp [stopped] at attached
  | readQueue executing _ | updated executing _ => simp [stopped] at executing
  | pushed executing => simp [stopped] at executing
  | finished executing _ | answered executing _ => simp [stopped] at executing
  | yielded _ serving _ | ended _ serving _ _ => simp [serving] at last
  | released _ _ | expired _ _ | left _ => exact ⟨rfl, rfl, rfl⟩
  | disconnected serving _ | stopped serving _ => simp [serving] at last

theorem yields_append (items more : List Item) : yields (items ++ more) = yields items ++ yields more :=
  List.map_append

theorem Moved.ledger (moved : Moved id env c m after writes) (pacing : Pacing id c)
    (stream : c.request.endpoint = .completions) (ledger : Ledger c events) :
    Ledger { after with consumer := after.consumer.put (spoken writes) } (events ++ writes.filterMap Write.data) := by
  cases ledger with
  | limited limit gone unrun sent => exact (moved.not_away gone unrun).elim
  | refused limit gone unrun sent => exact (moved.not_away gone unrun).elim
  | closed limit stopped empty last sent =>
      obtain ⟨rfl, silent, unsent⟩ := moved.of_closed stopped last
      rw [silent, unsent, Consumer.put_nil, List.append_nil]
      exact .closed limit stopped empty (Or.inr rfl) sent
  | streaming limit sent =>
      subst sent
      cases moved with
      | refused waiting =>
          have unrun := pacing.asleep (Or.inl waiting)
          have start := pacing.progress.consumer_start (Or.inl unrun)
          refine .refused limit rfl unrun ?_
          rw [start, stream]
          rfl
      | yielded _ serving queue =>
          refine .streaming limit ?_
          show _ = yields (c.consumer.yielded ++ c.consumer.queue.take 1)
          rw [yields_append, queue]
          rfl
      | ended _ serving queue stopped =>
          refine .closed limit stopped ?_ (Or.inl rfl) rfl
          simp [queue, spoken, Write.spoken, Consumer.put]
      | updated executing ready =>
          refine .streaming limit ?_
          show _ = yields (c.receive _).yielded
          rw [receive_yielded]
          exact List.append_nil _
      | finished executing _ =>
          refine .streaming limit ?_
          show _ = yields (handleFailure _ c.consumer).yielded
          rw [handleFailure_yielded]
          exact List.append_nil _
      | answered _ socket => simp [stream] at socket
      | granted _ _ | started _ | attached _ _ | opened _ _ | loaded _ _ | readQueue _ _ | pushed _ | released _ _
        | expired _ _ | left _ | disconnected _ _ | stopped _ _ => exact .streaming limit (List.append_nil _)

end

/-! ## A stream of the service is a stream of its turn -/

structure Told (s : Service) : Prop where
  sorted : Sorted s
  pacing : ∀ id c, s.connections id = some c → c.request.endpoint = .completions → Pacing id c
  ledger : ∀ id c, s.connections id = some c → c.request.endpoint = .completions → Ledger c (s.events id)
  silent : ∀ id, s.connections id = none → s.events id = []

section
variable {s t : Service} {id : RequestId} {threadId : String} {writes : List Write}

theorem events_sent (s : Service) (other : RequestId) (deliveries : List (RequestId × Sent)) :
    Service.events { s with sent := s.sent ++ deliveries } other = s.events other ++
      deliveries.filterMap fun delivery => if delivery.1 = other then delivery.2.data else none :=
  List.filterMap_append

theorem events_write (s : Service) (w : Write) (other : RequestId) :
    (s.write id threadId w).events other = s.events other ++ if id = other then w.data.toList else [] := by
  cases w with
  | send sent =>
      rw [Service.write, events_sent]
      by_cases same : id = other
      · cases data : sent.data <;> simp [same, Write.data, data]
      · simp [same]
  | lock | tokenQueue | checkpoint | token =>
      have none : (if id = other then ([] : List String) else []) = [] := ite_self _
      exact ((congrArg _ none).trans (List.append_nil _)).symm

theorem events_writes (s : Service) (other : RequestId) :
    (writes.foldl (Service.write id threadId) s).events other =
      s.events other ++ if id = other then writes.filterMap Write.data else [] := by
  induction writes generalizing s with
  | nil => simp
  | cons w writes ih =>
      rw [List.foldl_cons, ih, events_write, List.append_assoc]
      by_cases same : id = other
      · cases data : w.data <;> simp [same, data]
      · simp [same]

/-- A move in which the tokens reach their own queue changes one connection only. -/
theorem own_connections {c after : Connection} {m : Move} (sorted : Sorted s) (found : s.connections id = some c)
    (moved : Moved id (s.env c.request.threadId) c m after writes) :
    ∃ consumer, (writes.foldl (Service.write id c.request.threadId) (s.connect id after)).connections =
        (s.connect id { after with consumer }).connections ∧
      (c.request.endpoint = .completions → consumer = after.consumer.put (spoken writes)) := by
  cases moved.tokenEffect with
  | kept silent tokens reading =>
      have none : spoken writes = [] := by
        have nothing : writes.filterMap Write.spoken = [] := List.filterMap_eq_nil_iff.mpr fun w here => by
          cases w with
          | token queue text => exact absurd rfl (silent _ here queue text)
          | lock | tokenQueue | checkpoint | send => rfl
        rw [spoken, nothing, List.map_nil]
      exact ⟨after.consumer, (writes_silent id _ _ silent).1, fun _ => by rw [none, Consumer.put_nil]⟩
  | @pushed pending outcome queue text left executing eq wrote =>
      subst eq wrote
      have mine : queue = c.queueOf id := sorted.reading id c _ _ _ found executing _ List.mem_cons_self
      obtain ⟨consumer, shape, tokens⟩ := push_own s id c.request.threadId text
        (c := { c with run := .executing pending outcome (some left) }) (by simp) mine
      refine ⟨consumer, ?_, tokens⟩
      rw [List.foldl_cons, List.foldl_nil, shape]

theorem Told.connect {d : Connection} (told : Told s) (sorted : Sorted t)
    (connections : t.connections = (s.connect id d).connections)
    (mine : d.request.endpoint = .completions → Pacing id d ∧ Ledger d (t.events id))
    (others : ∀ other, other ≠ id → t.events other = s.events other) : Told t where
  sorted := sorted
  pacing := by
    rw [connections]
    intro other e here stream
    rcases connect_connections here with ⟨rfl, rfl⟩ | ⟨different, there⟩
    · exact (mine stream).1
    · exact told.pacing other e there stream
  ledger := by
    rw [connections]
    intro other e here stream
    rcases connect_connections here with ⟨rfl, rfl⟩ | ⟨different, there⟩
    · exact (mine stream).2
    · exact others other different ▸ told.ledger other e there stream
  silent := by
    rw [connections]
    intro other unknown
    by_cases same : other = id
    · simp [same, Service.connect] at unknown
    · exact others other same ▸ told.silent other (by simpa [Service.connect, Function.update_of_ne same] using unknown)

theorem told_move {m : Move} (told : Told s) (sorted : Sorted t) (h : s.step (.move id m) = some t) : Told t := by
  obtain ⟨c, after, writes, found, moved, rfl⟩ := step_move h
  obtain ⟨consumer, connections, own⟩ := own_connections told.sorted found moved
  refine told.connect sorted connections (fun stream => ?_) fun other different => ?_
  · have before : c.request.endpoint = .completions := moved.request ▸ stream
    have pacing := told.pacing id c found before
    rw [own before, events_writes, if_pos rfl]
    exact ⟨moved.pacing pacing before, moved.ledger pacing before (told.ledger id c found before)⟩
  · rw [events_writes, if_neg (Ne.symm different), List.append_nil]
    rfl

theorem told_arrive {request : Request} (told : Told s) (sorted : Sorted (s.arrive id request))
    (fresh : s.connections id = none) : Told (s.arrive id request) := by
  unfold Service.arrive at sorted ⊢
  have silent := told.silent id fresh
  cases limit : Service.exceeded request with
  | none =>
      simp only [limit] at sorted ⊢
      refine told.connect sorted rfl (fun stream => ⟨⟨.unloaded (Or.inl rfl) rfl, fun _ => rfl⟩, ?_⟩) fun _ _ => rfl
      have unlimited : request.limit = none := by rwa [Service.exceeded, stream] at limit
      exact .streaming unlimited silent
  | some reason =>
      simp only [limit] at sorted ⊢
      refine told.connect sorted rfl (fun stream => ⟨⟨.unloaded (Or.inl rfl) rfl, fun _ => rfl⟩, ?_⟩)
        fun other different => ?_
      · have limited : request.limit = some reason := by rwa [Service.exceeded, stream] at limit
        refine .limited limited rfl rfl ((events_sent (s.connect id _) id _).trans ?_)
        exact (congrArg (· ++ _) silent).trans (by simp [Sent.data])
      · refine (events_sent (s.connect id _) other _).trans ?_
        simp [Ne.symm different, Service.events, Service.connect]

theorem told_step {a : Action} (told : Told s) (reads : ReadsOwnQueue s a) (h : s.step a = some t) : Told t := by
  have sorted := sorted_step told.sorted reads h
  cases a with
  | move id m => exact told_move told sorted h
  | get id threadId =>
      obtain rfl := Option.some.inj h
      have same (other : RequestId) : Service.events { s with
          sent := s.sent ++ [(id, .history (getThreadHistory (s.checkpoints threadId)))] } other = s.events other := by
        rw [events_sent]
        simp [Sent.data]
      exact ⟨sorted, told.pacing, fun other d here stream => (same other).symm ▸ told.ledger other d here stream,
        fun other fresh => (same other).trans (told.silent other fresh)⟩
  | tick seconds =>
      obtain rfl := Option.some.inj h
      exact ⟨sorted, told.pacing, told.ledger, told.silent⟩
  | arrive id request =>
      obtain ⟨fresh, rfl⟩ := step_arrive h
      exact told_arrive told sorted fresh

end

/-- A stream that `event_generator` can give the request: the pace, whether the lock is free and the
checkpoint are those of the run. -/
def StreamOf (id : RequestId) (request : Request) (stream : List String) : Prop :=
  ∃ acquired counts saved, stream = eventGenerator request.limit acquired counts (request.turn id saved)

/-- What a client has received of its stream is what `event_generator` yields for one turn, up to where it is. -/
def Streams (s : Service) : Prop :=
  ∀ id c, s.connections id = some c → c.request.endpoint = .completions →
    ∃ stream, StreamOf id c.request stream ∧ s.events id <+: stream ∧ (done ∈ s.events id → s.events id = stream)

section
variable {id : RequestId} {c : Connection}

theorem yieldItem_ne_done (text : String) : yieldItem text ≠ done := by
  intro same
  have first : (yieldItem text).toList.head? = some '{' := by
    unfold yieldItem
    split
    · rename_i brace
      exact of_decide_eq_true brace
    · obtain ⟨inner, eq⟩ := dumps_braced [("content", text)]
      rw [contentJson, eq]
      rfl
  rw [same] at first
  exact absurd first (by decide)

theorem done_not_mem_yields (items : List Item) : done ∉ yields items := by
  intro here
  obtain ⟨item, -, same⟩ := List.mem_map.mp here
  exact yieldItem_ne_done _ same

theorem Pushed.prefix_handleUpdates {pushed : List String} {pending : List AgentUpdate}
    {reading : Option (List (Option RequestId × String))} (tokens : Pushed pushed pending reading) (base : Consumer) :
    base.items ++ pushed.map .token <+: (handleUpdates [] pending base).items := by
  cases pending with
  | nil =>
      rw [tokens.nil, List.map_nil, List.append_nil]
      exact List.prefix_refl _
  | cons u us =>
      have some : pushed.map .token <+: tokenItems u := by
        cases reading with
        | none => exact (show pushed = [] from tokens) ▸ List.nil_prefix
        | some left =>
            rw [tokenItems, ← tokens.2]
            exact (List.prefix_append pushed _).map Item.token
      refine List.IsPrefix.trans ?_ (items_prefix_handleUpdates [] us (handleUpdate 0 u base))
      rw [items_handleUpdate, List.append_assoc, List.append_assoc]
      exact (List.prefix_append_right_inj _).mpr (some.trans (List.prefix_append _ _))

theorem Progress.prefix_consumeStream (progress : Progress id c) : ∃ counts saved,
    c.consumer.items <+: (consumeStream counts (c.request.turn id saved)).items ∧
      (c.run = .ended → c.consumer.items = (consumeStream counts (c.request.turn id saved)).items) := by
  cases progress with
  | unloaded before start =>
      refine ⟨[], emptyThread, ?_, fun stopped => by simp [stopped] at before⟩
      rw [start]
      exact List.nil_prefix
  | ended saved counts count stopped eq =>
      have same : c.consumer.items = (consumeStream counts (c.request.turn id saved)).items := by
        rw [eq, items_get]
      exact ⟨counts, saved, same ▸ List.prefix_refl _, fun _ => same⟩
  | @executing saved passed pending reading counts pushed count executing updates paces tokens within eq =>
      refine ⟨counts, saved, ?_, fun stopped => by simp [stopped] at executing⟩
      have rest : handleUpdates counts (c.request.turn id saved).updates .start =
          handleUpdates [] pending (handleUpdates counts passed .start) := by
        rw [updates, ← handleUpdates_append paces, List.append_nil]
      rw [eq, items_get, items_put, consumeStream, rest]
      exact (tokens.prefix_handleUpdates _).trans (items_prefix_handleFailure _ _)

theorem eventGenerator_streamed (counts : List Nat) (run : AgentRun) :
    eventGenerator none true counts run = yields (consumeStream counts run).items ++ [done] := rfl

theorem Told.streams {s : Service} (told : Told s) : Streams s := by
  intro id c found stream
  obtain ⟨counts, saved, before, whole⟩ := (told.pacing id c found stream).progress.prefix_consumeStream
  cases told.ledger id c found stream with
  | limited limit gone unrun sent =>
      refine ⟨_, ⟨true, counts, saved, rfl⟩, ?_⟩
      rw [limit, sent]
      exact ⟨List.prefix_refl _, fun _ => rfl⟩
  | refused limit gone unrun sent =>
      refine ⟨_, ⟨false, counts, saved, rfl⟩, ?_⟩
      rw [limit, sent]
      exact ⟨List.prefix_refl _, fun _ => rfl⟩
  | streaming limit sent =>
      refine ⟨_, ⟨true, counts, saved, rfl⟩, ?_⟩
      rw [limit, sent, eventGenerator_streamed]
      have yielded : c.consumer.yielded <+: (consumeStream counts (c.request.turn id saved)).items :=
        (List.prefix_append _ _).trans before
      refine ⟨?_, fun here => absurd here (done_not_mem_yields _)⟩
      exact (yielded.map _).trans (List.prefix_append _ _)
  | closed limit stopped empty last sent =>
      refine ⟨_, ⟨true, counts, saved, rfl⟩, ?_⟩
      have all := whole stopped
      rw [Consumer.items, empty, List.append_nil] at all
      rw [limit, sent, eventGenerator_streamed, all]
      exact ⟨List.prefix_refl _, fun _ => rfl⟩

end

theorem streams_of_readsOwnQueue (checkpoints : String → Option AgentState) (actions : List Action)
    (reads : Along Service.step ReadsOwnQueue (.start checkpoints) actions) :
    Throughout Service.step Streams (.start checkpoints) actions := by
  have start : Told (.start checkpoints) := by
    refine ⟨start_sorted checkpoints, ?_, ?_, fun _ _ => rfl⟩
    · simp [Service.start]
    · simp [Service.start]
  have kept := throughout_of_along (fun _ _ _ told reads h => told_step told reads h) start reads
  exact kept.mono fun _ told => told.streams

end CuckooEcho.Chat
