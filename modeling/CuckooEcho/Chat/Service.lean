import CuckooEcho.Chat.History

namespace CuckooEcho.Chat
open Lib Agent

/-! ## Requests -/

structure RequestId where
  tenant : String
  number : Nat
  deriving DecidableEq, Repr

inductive Endpoint
  | completions | webSocket
  deriving DecidableEq, Repr

/-- A chat request with what the outside answers to it: `limit` is the reason of an exceeded plan limit,
which is asked for by the streaming endpoint only. -/
structure Request where
  endpoint : Endpoint
  threadId : String
  messages : List Message
  limit : Option String
  services : Services

def Request.payload (id : RequestId) (request : Request) : Payload :=
  match request.endpoint with
  | .completions => ⟨request.messages, some id.tenant, some request.threadId⟩
  | .webSocket => ⟨request.messages, none, none⟩

inductive Sent
  | event (data : String)
  | doneMessage
  | concurrentRequest
  | history (messages : List Message)
  deriving DecidableEq, Repr

def refusal : Endpoint → Sent
  | .completions => .event concurrentRequest
  | .webSocket => .concurrentRequest

/-! ## A request in progress -/

/-- Where the generator or the WebSocket handler is: about to ask for the lock, holding it without having
resumed, serving, about to release the lock, or done. -/
inductive Handler
  | waiting | acquired | serving | releasing | gone
  deriving DecidableEq, Repr

/-- Where the graph run is. While `llm_generate` streams, `reading` holds the tokens to come with the
queue that it has read for them. -/
inductive RunState
  | idle | spawned | attached
  | executing (pending : List AgentUpdate) (outcome : StateGraph.Outcome)
      (reading : Option (List (Option RequestId × String)))
  | ended

structure Connection where
  request : Request
  handler : Handler
  run : RunState
  consumer : Consumer
  acquiredAt : Nat

structure Lock where
  owner : RequestId
  expires : Nat
  deriving DecidableEq, Repr

/-- What a request reads of what it shares with others: the clock, the lock and the checkpoint of its
thread, and `stream_chat_completion._token_queue`. -/
structure Env where
  now : Nat
  lock : Option Lock
  tokenQueue : Option RequestId
  checkpoint : Option AgentState

def Env.read (env : Env) (u : AgentUpdate) : List (Option RequestId × String) :=
  (tokenEffects u.effects).map fun text => (env.tokenQueue, text)

inductive Write
  | lock (lock : Option Lock)
  | tokenQueue (queue : Option RequestId)
  | checkpoint (state : AgentState)
  | token (queue : Option RequestId) (text : String)
  | send (sent : Sent)

inductive Move
  | acquire | start | attach | load | readQueue | pushToken | update | finish | pop | release | cancel
  deriving DecidableEq, Repr

def lockTtl : Nat := 90

namespace Connection
variable (id : RequestId) (env : Env) (c : Connection)

def acquire : Option (Connection × List Write) :=
  match c.handler, env.lock with
  | .waiting, none =>
      some ({ c with handler := .acquired, acquiredAt := env.now }, [.lock (some ⟨id, env.now + lockTtl⟩)])
  | .waiting, some _ => some ({ c with handler := .gone }, [.send (refusal c.request.endpoint)])
  | _, _ => none

def start : Option (Connection × List Write) :=
  match c.handler with
  | .acquired => some ({ c with handler := .serving, run := .spawned }, [])
  | _ => none

def attach : Option (Connection × List Write) :=
  -- `_consume_stream` attaches its queue; a WebSocket message has none
  match c.run with
  | .spawned =>
      some ({ c with run := .attached },
        match c.request.endpoint with
        | .completions => [.tokenQueue (some id)]
        | .webSocket => [])
  | _ => none

def load : Option (Connection × List Write) :=
  match c.run with
  | .attached =>
      let merged := (c.request.payload id).merge (env.checkpoint.getD emptyThread)
      let run := turn c.request.services merged
      some ({ c with run := .executing run.updates run.outcome none }, [.checkpoint merged])
  | _ => none

def readQueue : Option (Connection × List Write) :=
  match c.run with
  | .executing (u :: us) outcome none =>
      if u.node = .llmGenerate then
        some ({ c with run := .executing (u :: us) outcome (some (env.read u)) }, [])
      else none
  | _ => none

def pushToken : Option (Connection × List Write) :=
  match c.run with
  | .executing pending outcome (some ((queue, text) :: left)) =>
      some ({ c with run := .executing pending outcome (some left) }, [.token queue text])
  | _ => none

def receive (u : AgentUpdate) : Consumer :=
  match c.request.endpoint with
  | .completions => countTokens (pushCorrection (pushResponse c.consumer u) u) u
  | .webSocket => c.consumer

def update : Option (Connection × List Write) :=
  -- `llm_generate` returns when it has pushed its last token
  match c.run with
  | .executing (u :: us) outcome reading =>
      if u.node = .llmGenerate ∧ reading ≠ some [] then none
      else some ({ c with run := .executing us outcome none, consumer := c.receive u }, [.checkpoint u.state])
  | _ => none

def finish : Option (Connection × List Write) :=
  match c.run, c.request.endpoint with
  | .executing [] outcome _, .completions =>
      some ({ c with run := .ended, consumer := handleFailure outcome c.consumer }, [.tokenQueue none])
  | .executing [] outcome _, .webSocket =>
      some ({ c with run := .ended, handler := .releasing }, if outcome = .finished then [.send .doneMessage] else [])
  | _, _ => none

def pop : Option (Connection × List Write) :=
  -- The generator waits while the queue is empty and the run goes on
  match c.request.endpoint, c.handler, c.consumer.queue, c.run with
  | .completions, .serving, item :: _, _ =>
      some ({ c with consumer := c.consumer.get 1 }, [.send (.event (yieldItem item.text))])
  | .completions, .serving, [], .ended => some ({ c with handler := .releasing }, [.send (.event done)])
  | _, _, _, _ => none

def release : Option (Connection × List Write) :=
  -- A lock that has expired is no longer the request's to release
  match c.handler with
  | .releasing => some ({ c with handler := .gone }, if env.lock.map (·.owner) = some id then [.lock none] else [])
  | _ => none

def cancel : Option (Connection × List Write) :=
  -- The run of a stream is shielded and goes on; that of a WebSocket message is cancelled with its handler
  match c.handler, c.request.endpoint with
  | .serving, .completions => some ({ c with handler := .releasing }, [])
  | .serving, .webSocket => some ({ c with handler := .releasing, run := .ended }, [])
  | .gone, _ => none
  | _, _ => some ({ c with handler := .gone }, [])

def step : Move → Option (Connection × List Write)
  | .acquire => c.acquire id env
  | .start => c.start
  | .attach => c.attach id
  | .load => c.load id env
  | .readQueue => c.readQueue env
  | .pushToken => c.pushToken
  | .update => c.update
  | .finish => c.finish
  | .pop => c.pop
  | .release => c.release id env
  | .cancel => c.cancel

def offer (text : String) (c : Connection) : Connection :=
  -- What follows the end of the run on the queue is never yielded
  match c.run with
  | .ended => c
  | _ => { c with consumer := c.consumer.put [.token text] }

end Connection

/-! ## The service -/

def lockKey (threadId : String) : String := "cuckoo:lock:" ++ threadId

structure Push where
  producer : RequestId
  queue : Option RequestId
  text : String
  deriving DecidableEq, Repr

/-- One process with its Redis and its checkpointer. `writer` and `pushes` recall which request wrote the
token queue last and which tokens were pushed. -/
structure Service where
  now : Nat
  locks : String → Option Lock
  tokenQueue : Option RequestId
  checkpoints : String → Option AgentState
  connections : RequestId → Option Connection
  sent : List (RequestId × Sent)
  writer : Option RequestId
  pushes : List Push

namespace Service

def start (checkpoints : String → Option AgentState) : Service where
  now := 0
  locks _ := none
  tokenQueue := none
  checkpoints := checkpoints
  connections _ := none
  sent := []
  writer := none
  pushes := []

def lock (s : Service) (threadId : String) : Option Lock :=
  (s.locks (lockKey threadId)).filter fun lock => s.now < lock.expires

def env (s : Service) (threadId : String) : Env :=
  { now := s.now, lock := s.lock threadId, tokenQueue := s.tokenQueue, checkpoint := s.checkpoints threadId }

def connect (s : Service) (id : RequestId) (c : Connection) : Service :=
  { s with connections := Function.update s.connections id (some c) }

def offerTo (queue : Option RequestId) (text : String) (connections : RequestId → Option Connection) :
    RequestId → Option Connection :=
  match queue with
  | none => connections
  | some q => Function.update connections q ((connections q).map (·.offer text))

def put (s : Service) (queue : Option RequestId) (text : String) : Service :=
  { s with connections := offerTo queue text s.connections }

def write (id : RequestId) (threadId : String) (s : Service) : Write → Service
  | .lock lock => { s with locks := Function.update s.locks (lockKey threadId) lock }
  | .tokenQueue queue => { s with tokenQueue := queue, writer := some id }
  | .checkpoint state => { s with checkpoints := Function.update s.checkpoints threadId (some state) }
  | .token queue text => { s.put queue text with pushes := s.pushes ++ [⟨id, queue, text⟩] }
  | .send sent => { s with sent := s.sent ++ [(id, sent)] }

def exceeded (request : Request) : Option String :=
  match request.endpoint with
  | .completions => request.limit
  | .webSocket => none

def arrive (s : Service) (id : RequestId) (request : Request) : Service :=
  -- The plan limit is checked before anything else
  let c : Connection := { request, handler := .waiting, run := .idle, consumer := .start, acquiredAt := 0 }
  match exceeded request with
  | none => s.connect id c
  | some reason =>
      { s.connect id { c with handler := .gone } with
        sent := s.sent ++ [(id, .event (limitExceeded reason)), (id, .event done)] }

end Service

inductive Action
  | arrive (id : RequestId) (request : Request)
  | move (id : RequestId) (m : Move)
  | get (id : RequestId) (threadId : String)
  | tick (seconds : Nat)

def Service.step (s : Service) : Action → Option Service
  | .arrive id request => if (s.connections id).isSome then none else some (s.arrive id request)
  | .move id m => do
      let c ← s.connections id
      let (after, writes) ← c.step id (s.env c.request.threadId) m
      some (writes.foldl (Service.write id c.request.threadId) (s.connect id after))
  | .get id threadId =>
      some { s with sent := s.sent ++ [(id, .history (getThreadHistory (s.checkpoints threadId)))] }
  | .tick seconds => some { s with now := s.now + seconds }

/-! ## What a move does -/

inductive Moved (id : RequestId) (env : Env) (c : Connection) : Move → Connection → List Write → Prop
  | granted (waiting : c.handler = .waiting) (free : env.lock = none) :
      Moved id env c .acquire { c with handler := .acquired, acquiredAt := env.now }
        [.lock (some ⟨id, env.now + lockTtl⟩)]
  | refused (waiting : c.handler = .waiting) : Moved id env c .acquire { c with handler := .gone }
      [.send (refusal c.request.endpoint)]
  | started (acquired : c.handler = .acquired) :
      Moved id env c .start { c with handler := .serving, run := .spawned } []
  | attached (spawned : c.run = .spawned) (stream : c.request.endpoint = .completions) :
      Moved id env c .attach { c with run := .attached } [.tokenQueue (some id)]
  | opened (spawned : c.run = .spawned) (socket : c.request.endpoint = .webSocket) :
      Moved id env c .attach { c with run := .attached } []
  | loaded {merged : AgentState} (attached : c.run = .attached)
      (merge : merged = (c.request.payload id).merge (env.checkpoint.getD emptyThread)) :
      Moved id env c .load
        { c with run :=
            .executing (turn c.request.services merged).updates (turn c.request.services merged).outcome none }
        [.checkpoint merged]
  | readQueue {u : AgentUpdate} {us : List AgentUpdate} {outcome : StateGraph.Outcome}
      (executing : c.run = .executing (u :: us) outcome none) (generates : u.node = .llmGenerate) :
      Moved id env c .readQueue
        { c with run := .executing (u :: us) outcome (some (env.read u)) } []
  | pushed {us : List AgentUpdate} {outcome : StateGraph.Outcome} {queue : Option RequestId} {text : String}
      {left : List (Option RequestId × String)}
      (executing : c.run = .executing us outcome (some ((queue, text) :: left))) :
      Moved id env c .pushToken { c with run := .executing us outcome (some left) } [.token queue text]
  | updated {u : AgentUpdate} {us : List AgentUpdate} {outcome : StateGraph.Outcome}
      {reading : Option (List (Option RequestId × String))}
      (executing : c.run = .executing (u :: us) outcome reading)
      (ready : u.node = .llmGenerate → reading = some []) :
      Moved id env c .update { c with run := .executing us outcome none, consumer := c.receive u }
        [.checkpoint u.state]
  | finished {outcome : StateGraph.Outcome} {reading : Option (List (Option RequestId × String))}
      (executing : c.run = .executing [] outcome reading) (stream : c.request.endpoint = .completions) :
      Moved id env c .finish { c with run := .ended, consumer := handleFailure outcome c.consumer } [.tokenQueue none]
  | answered {outcome : StateGraph.Outcome} {reading : Option (List (Option RequestId × String))}
      (executing : c.run = .executing [] outcome reading) (socket : c.request.endpoint = .webSocket) :
      Moved id env c .finish { c with run := .ended, handler := .releasing }
        (if outcome = .finished then [.send .doneMessage] else [])
  | yielded {item : Item} {rest : List Item} (stream : c.request.endpoint = .completions)
      (serving : c.handler = .serving) (queue : c.consumer.queue = item :: rest) :
      Moved id env c .pop { c with consumer := c.consumer.get 1 } [.send (.event (yieldItem item.text))]
  | ended (stream : c.request.endpoint = .completions) (serving : c.handler = .serving)
      (queue : c.consumer.queue = []) (ended : c.run = .ended) :
      Moved id env c .pop { c with handler := .releasing } [.send (.event done)]
  | released (releasing : c.handler = .releasing) (held : env.lock.map (·.owner) = some id) :
      Moved id env c .release { c with handler := .gone } [.lock none]
  | expired (releasing : c.handler = .releasing) (lost : env.lock.map (·.owner) ≠ some id) :
      Moved id env c .release { c with handler := .gone } []
  | left (idle : c.handler = .waiting ∨ c.handler = .acquired ∨ c.handler = .releasing) :
      Moved id env c .cancel { c with handler := .gone } []
  | disconnected (serving : c.handler = .serving) (stream : c.request.endpoint = .completions) :
      Moved id env c .cancel { c with handler := .releasing } []
  | stopped (serving : c.handler = .serving) (socket : c.request.endpoint = .webSocket) :
      Moved id env c .cancel { c with handler := .releasing, run := .ended } []

theorem moved_of_step {id : RequestId} {env : Env} {c after : Connection} {m : Move} {writes : List Write}
    (h : c.step id env m = some (after, writes)) : Moved id env c m after writes := by
  cases m with
  | acquire =>
      simp only [Connection.step, Connection.acquire] at h
      split at h
      · rename_i waiting free
        obtain ⟨rfl, rfl⟩ := Prod.mk.inj (Option.some.inj h)
        exact .granted waiting free
      · rename_i waiting taken
        obtain ⟨rfl, rfl⟩ := Prod.mk.inj (Option.some.inj h)
        exact .refused waiting
      · simp at h
  | start =>
      simp only [Connection.step, Connection.start] at h
      split at h
      · rename_i acquired
        obtain ⟨rfl, rfl⟩ := Prod.mk.inj (Option.some.inj h)
        exact .started acquired
      · simp at h
  | attach =>
      simp only [Connection.step, Connection.attach] at h
      split at h
      · rename_i spawned
        obtain ⟨rfl, rfl⟩ := Prod.mk.inj (Option.some.inj h)
        cases endpoint : c.request.endpoint with
        | completions => exact .attached spawned endpoint
        | webSocket => exact .opened spawned endpoint
      · simp at h
  | load =>
      simp only [Connection.step, Connection.load] at h
      split at h
      · rename_i attached
        obtain ⟨rfl, rfl⟩ := Prod.mk.inj (Option.some.inj h)
        exact .loaded attached rfl
      · simp at h
  | readQueue =>
      simp only [Connection.step, Connection.readQueue] at h
      split at h
      · rename_i u us outcome executing
        split at h
        · rename_i generates
          obtain ⟨rfl, rfl⟩ := Prod.mk.inj (Option.some.inj h)
          exact .readQueue executing generates
        · simp at h
      · simp at h
  | pushToken =>
      simp only [Connection.step, Connection.pushToken] at h
      split at h
      · rename_i us outcome queue text left executing
        obtain ⟨rfl, rfl⟩ := Prod.mk.inj (Option.some.inj h)
        exact .pushed executing
      · simp at h
  | update =>
      simp only [Connection.step, Connection.update] at h
      split at h
      · rename_i u us outcome reading executing
        split at h
        · simp at h
        · rename_i ready
          obtain ⟨rfl, rfl⟩ := Prod.mk.inj (Option.some.inj h)
          refine .updated executing fun generates => ?_
          by_contra unfinished
          exact ready ⟨generates, unfinished⟩
      · simp at h
  | finish =>
      simp only [Connection.step, Connection.finish] at h
      split at h
      · rename_i outcome reading executing stream
        obtain ⟨rfl, rfl⟩ := Prod.mk.inj (Option.some.inj h)
        exact .finished executing stream
      · rename_i outcome reading executing socket
        obtain ⟨rfl, rfl⟩ := Prod.mk.inj (Option.some.inj h)
        exact .answered executing socket
      · simp at h
  | pop =>
      simp only [Connection.step, Connection.pop] at h
      split at h
      · rename_i item rest stream serving queue
        obtain ⟨rfl, rfl⟩ := Prod.mk.inj (Option.some.inj h)
        exact .yielded stream serving queue
      · rename_i stream serving queue ended
        obtain ⟨rfl, rfl⟩ := Prod.mk.inj (Option.some.inj h)
        exact .ended stream serving queue ended
      · simp at h
  | release =>
      simp only [Connection.step, Connection.release] at h
      split at h
      · rename_i releasing
        obtain ⟨rfl, rfl⟩ := Prod.mk.inj (Option.some.inj h)
        split
        · rename_i held
          exact .released releasing held
        · rename_i lost
          exact .expired releasing lost
      · simp at h
  | cancel =>
      simp only [Connection.step, Connection.cancel] at h
      split at h
      · rename_i serving stream
        obtain ⟨rfl, rfl⟩ := Prod.mk.inj (Option.some.inj h)
        exact .disconnected serving stream
      · rename_i serving socket
        obtain ⟨rfl, rfl⟩ := Prod.mk.inj (Option.some.inj h)
        exact .stopped serving socket
      · simp at h
      · rename_i notGone notStream notSocket
        obtain ⟨rfl, rfl⟩ := Prod.mk.inj (Option.some.inj h)
        refine .left ?_
        cases handler : c.handler with
        | waiting => exact Or.inl rfl
        | acquired => exact Or.inr (Or.inl rfl)
        | releasing => exact Or.inr (Or.inr rfl)
        | gone => exact absurd handler notGone
        | serving =>
            cases endpoint : c.request.endpoint with
            | completions => exact absurd endpoint (notStream handler)
            | webSocket => exact absurd endpoint (notSocket handler)

/-! ## What a step of the service does -/

theorem step_move {s t : Service} {id : RequestId} {m : Move} (h : s.step (.move id m) = some t) :
    ∃ c after writes, s.connections id = some c ∧ Moved id (s.env c.request.threadId) c m after writes ∧
      t = writes.foldl (Service.write id c.request.threadId) (s.connect id after) := by
  obtain ⟨c, found, h⟩ := Option.bind_eq_some_iff.mp h
  obtain ⟨⟨after, writes⟩, stepped, h⟩ := Option.bind_eq_some_iff.mp h
  exact ⟨c, after, writes, found, moved_of_step stepped, (Option.some.inj h).symm⟩

theorem lockKey_injective : Function.Injective lockKey := by
  intro a b h
  have letters := congrArg String.toList h
  rw [lockKey, lockKey, String.toList_append, String.toList_append] at letters
  exact String.toList_injective (List.append_cancel_left letters)

theorem Moved.request {id : RequestId} {env : Env} {c after : Connection} {m : Move} {writes : List Write}
    (moved : Moved id env c m after writes) : after.request = c.request := by
  cases moved <;> rfl

section
variable {s : Service} {id : RequestId} {threadId : String} {writes : List Write}

theorem offer_eq (text : String) (c : Connection) :
    ∃ queue, c.offer text = { c with consumer := { c.consumer with queue } } := by
  unfold Connection.offer
  split
  · exact ⟨c.consumer.queue, rfl⟩
  · exact ⟨_, rfl⟩

theorem put_connections {queue : Option RequestId} {text : String} {other : RequestId} {d : Connection}
    (found : (s.put queue text).connections other = some d) :
    ∃ c, s.connections other = some c ∧ ∃ queue, d = { c with consumer := { c.consumer with queue } } := by
  cases queue with
  | none => exact ⟨d, found, d.consumer.queue, rfl⟩
  | some q =>
      by_cases same : other = q
      · subst same
        simp only [Service.put, Service.offerTo, Function.update_self] at found
        obtain ⟨c, here, rfl⟩ := Option.map_eq_some_iff.mp found
        exact ⟨c, here, offer_eq text c⟩
      · simp only [Service.put, Service.offerTo, Function.update_of_ne same] at found
        exact ⟨d, found, d.consumer.queue, rfl⟩

theorem write_now (s : Service) (w : Write) : (s.write id threadId w).now = s.now := by
  cases w <;> rfl

/-- A write changes nothing of a connection but what is on its queue. -/
theorem write_connections {w : Write} {other : RequestId} {d : Connection}
    (found : (s.write id threadId w).connections other = some d) :
    ∃ c, s.connections other = some c ∧ ∃ queue, d = { c with consumer := { c.consumer with queue } } := by
  cases w with
  | token queue text => exact put_connections found
  | lock | tokenQueue | checkpoint | send => exact ⟨d, found, d.consumer.queue, rfl⟩

theorem writes_now (s : Service) : (writes.foldl (Service.write id threadId) s).now = s.now := by
  induction writes generalizing s with
  | nil => rfl
  | cons w writes ih => rw [List.foldl_cons, ih, write_now]

theorem writes_connections {other : RequestId} {d : Connection}
    (found : (writes.foldl (Service.write id threadId) s).connections other = some d) :
    ∃ c, s.connections other = some c ∧ ∃ queue, d = { c with consumer := { c.consumer with queue } } := by
  induction writes generalizing s with
  | nil => exact ⟨d, found, d.consumer.queue, rfl⟩
  | cons w writes ih =>
      obtain ⟨c, here, queue, rfl⟩ := ih found
      obtain ⟨c', there, queue', rfl⟩ := write_connections here
      exact ⟨c', there, queue, rfl⟩

theorem writes_connections_none {other : RequestId}
    (missing : (writes.foldl (Service.write id threadId) s).connections other = none) : s.connections other = none := by
  induction writes generalizing s with
  | nil => exact missing
  | cons w writes ih =>
      have before := ih missing
      cases w with
      | token queue text =>
          cases queue with
          | none => exact before
          | some q =>
              simp only [Service.write, Service.put, Service.offerTo, Function.update_apply] at before
              split at before
              · rename_i same
                exact same ▸ Option.map_eq_none_iff.mp before
              · exact before
      | lock | tokenQueue | checkpoint | send => exact before

theorem writes_silent (id : RequestId) (threadId : String) (s : Service)
    (silent : ∀ w ∈ writes, ∀ queue text, w ≠ .token queue text) :
    (writes.foldl (Service.write id threadId) s).connections = s.connections ∧
      (writes.foldl (Service.write id threadId) s).pushes = s.pushes := by
  induction writes generalizing s with
  | nil => exact ⟨rfl, rfl⟩
  | cons w writes ih =>
      obtain ⟨here, later⟩ := List.forall_mem_cons.mp silent
      rw [List.foldl_cons]
      obtain ⟨connections, pushes⟩ := ih (s.write id threadId w) later
      cases w with
      | token queue text => exact absurd rfl (here queue text)
      | lock | tokenQueue | checkpoint | send => exact ⟨connections, pushes⟩

theorem connect_connections {after d : Connection} {other : RequestId}
    (found : (s.connect id after).connections other = some d) :
    (other = id ∧ d = after) ∨ (other ≠ id ∧ s.connections other = some d) := by
  by_cases same : other = id
  · subst same
    simp only [Service.connect, Function.update_self, Option.some.injEq] at found
    exact Or.inl ⟨rfl, found.symm⟩
  · simp only [Service.connect, Function.update_of_ne same] at found
    exact Or.inr ⟨same, found⟩

theorem silent_move {c after : Connection} {m : Move} (found : s.connections id = some c)
    (stepped : c.step id (s.env c.request.threadId) m = some (after, writes))
    (silent : ∀ w ∈ writes, ∀ queue text, w ≠ .token queue text) :
    ∃ t, s.step (.move id m) = some t ∧ t.connections = Function.update s.connections id (some after) := by
  refine ⟨writes.foldl (Service.write id c.request.threadId) (s.connect id after), ?_, (writes_silent _ _ _ silent).1⟩
  simp [Service.step, found, stepped]

/-- Up to their queues, the connections after a move are the one that has moved and the others as they were. -/
theorem moved_connections {after d : Connection} {other : RequestId}
    (found : (writes.foldl (Service.write id threadId) (s.connect id after)).connections other = some d) :
    (other = id ∧ ∃ queue, d = { after with consumer := { after.consumer with queue } }) ∨
      (other ≠ id ∧ ∃ c, s.connections other = some c ∧ ∃ queue, d = { c with consumer := { c.consumer with queue } }) := by
  obtain ⟨c, here, queue, rfl⟩ := writes_connections found
  rcases connect_connections here with ⟨same, rfl⟩ | ⟨different, there⟩
  · exact Or.inl ⟨same, queue, rfl⟩
  · exact Or.inr ⟨different, c, there, queue, rfl⟩

end

section
variable {s : Service} {id : RequestId} {request : Request}

@[simp] theorem arrive_now (s : Service) (id : RequestId) (request : Request) : (s.arrive id request).now = s.now := by
  unfold Service.arrive
  cases Service.exceeded request <;> rfl

@[simp] theorem arrive_locks (s : Service) (id : RequestId) (request : Request) :
    (s.arrive id request).locks = s.locks := by
  unfold Service.arrive
  cases Service.exceeded request <;> rfl

@[simp] theorem arrive_pushes (s : Service) (id : RequestId) (request : Request) :
    (s.arrive id request).pushes = s.pushes := by
  unfold Service.arrive
  cases Service.exceeded request <;> rfl

theorem arrive_connections {other : RequestId} {d : Connection}
    (found : (s.arrive id request).connections other = some d) :
    (other = id ∧ d.request = request ∧ d.run = .idle ∧ d.consumer = .start ∧
      (d.handler = .waiting ∨ d.handler = .gone)) ∨
    (other ≠ id ∧ s.connections other = some d) := by
  unfold Service.arrive at found
  cases limit : Service.exceeded request with
  | none =>
      simp only [limit] at found
      rcases connect_connections found with ⟨same, rfl⟩ | different
      · exact Or.inl ⟨same, rfl, rfl, rfl, Or.inl rfl⟩
      · exact Or.inr different
  | some reason =>
      simp only [limit] at found
      rcases connect_connections found with ⟨same, rfl⟩ | different
      · exact Or.inl ⟨same, rfl, rfl, rfl, Or.inr rfl⟩
      · exact Or.inr different

theorem arrive_connections_none {other : RequestId} (missing : (s.arrive id request).connections other = none) :
    s.connections other = none := by
  unfold Service.arrive at missing
  cases limit : Service.exceeded request with
  | none =>
      simp only [limit, Service.connect, Function.update_apply] at missing
      split at missing
      · cases missing
      · exact missing
  | some reason =>
      simp only [limit, Service.connect, Function.update_apply] at missing
      split at missing
      · cases missing
      · exact missing

theorem step_arrive {t : Service} (h : s.step (.arrive id request) = some t) :
    s.connections id = none ∧ t = s.arrive id request := by
  simp only [Service.step] at h
  cases found : s.connections id with
  | none => exact ⟨rfl, by simpa [found, eq_comm] using h⟩
  | some c => simp [found] at h

end

/-! ## Sample requests -/

def question (endpoint : Endpoint) (threadId text : String) : Request :=
  { endpoint, threadId, messages := [userMessage text], limit := none, services := offline }

def begins (id : RequestId) (request : Request) : List Action :=
  [.arrive id request, .move id .acquire, .move id .start, .move id .attach, .move id .load]

end CuckooEcho.Chat
