import CuckooEcho.Chat.Service

namespace CuckooEcho.Chat
open Lib Agent

/-! ## Each client receives the tokens of its own run -/

def rawTokens (items : List Item) : List String :=
  items.filterMap fun
    | .token text => some text
    | _ => none

def Service.produced (s : Service) (id : RequestId) : List String :=
  (s.pushes.filter fun push => push.producer = id).map (·.text)

structure OwnTokens (s : Service) : Prop where
  own : ∀ push ∈ s.pushes, ∀ q, push.queue = some q → q = push.producer
  whole : ∀ id c, s.connections id = some c → c.request.endpoint = .completions →
    rawTokens c.consumer.items = s.produced id
  received : ∀ id c, s.connections id = some c → c.request.endpoint = .completions → c.run = .ended →
    c.consumer.queue = [] → rawTokens c.consumer.yielded = s.produced id

def Connection.queueOf (id : RequestId) (c : Connection) : Option RequestId :=
  match c.request.endpoint with
  | .completions => some id
  | .webSocket => none

def Connection.upcoming (c : Connection) : List String :=
  match c.run with
  | .executing (u :: _) _ none => tokenEffects u.effects
  | _ => []

/-- A node that has tokens to push reads the queue of its own run, and none for a WebSocket message. -/
def ReadsOwnQueue (s : Service) : Action → Prop
  | .move id m => m = .readQueue → ∀ c ∈ s.connections id, c.upcoming = [] ∨ s.tokenQueue = c.queueOf id
  | _ => True

instance (s : Service) : (a : Action) → Decidable (ReadsOwnQueue s a)
  | .move id m => inferInstanceAs
      (Decidable (m = .readQueue → ∀ c ∈ s.connections id, c.upcoming = [] ∨ s.tokenQueue = c.queueOf id))
  | .arrive _ _ | .get _ _ | .tick _ => isTrue trivial

/-! ## The queues while reads meet their own -/

structure Sorted (s : Service) : Prop where
  own : ∀ push ∈ s.pushes, ∀ q, push.queue = some q → q = push.producer
  whole : ∀ id c, s.connections id = some c → c.request.endpoint = .completions →
    rawTokens c.consumer.items = s.produced id
  reading : ∀ id c pending outcome left, s.connections id = some c → c.run = .executing pending outcome (some left) →
    ∀ t ∈ left, t.1 = c.queueOf id
  known : ∀ push ∈ s.pushes, s.connections push.producer ≠ none

theorem sorted_ownTokens {s : Service} (sorted : Sorted s) : OwnTokens s := by
  refine ⟨sorted.own, sorted.whole, fun id c found stream ended empty => ?_⟩
  have all := sorted.whole id c found stream
  rwa [Consumer.items, empty, List.append_nil] at all

theorem rawTokens_append (items more : List Item) : rawTokens (items ++ more) = rawTokens items ++ rawTokens more :=
  List.filterMap_append

theorem rawTokens_receive (c : Connection) (u : AgentUpdate) :
    rawTokens (c.receive u).items = rawTokens c.consumer.items := by
  have responses : rawTokens (responseItems c.consumer u) = [] := by
    unfold responseItems
    split
    · rfl
    · split <;> rfl
  have corrections : rawTokens (correctionItems u) = [] := by
    unfold correctionItems
    cases correctionOf u <;> rfl
  unfold Connection.receive
  cases c.request.endpoint with
  | webSocket => rfl
  | completions =>
      simp [items_countTokens, items_pushCorrection, items_pushResponse, rawTokens_append, responses, corrections]

theorem rawTokens_handleFailure (outcome : StateGraph.Outcome) (c : Consumer) :
    rawTokens (handleFailure outcome c).items = rawTokens c.items := by
  unfold handleFailure
  split
  · rfl
  · rw [items_put, rawTokens_append]
    exact List.append_nil _

inductive TokenEffect (id : RequestId) (env : Env) (c after : Connection) (m : Move) (writes : List Write) : Prop
  | pushed {pending : List AgentUpdate} {outcome : StateGraph.Outcome} {queue : Option RequestId} {text : String}
      {left : List (Option RequestId × String)}
      (executing : c.run = .executing pending outcome (some ((queue, text) :: left)))
      (moved : after = { c with run := .executing pending outcome (some left) }) (wrote : writes = [.token queue text])
  | kept (silent : ∀ w ∈ writes, ∀ queue text, w ≠ .token queue text)
      (tokens : rawTokens after.consumer.items = rawTokens c.consumer.items)
      (reading : ∀ pending outcome left, after.run = .executing pending outcome (some left) →
        c.run = .executing pending outcome (some left) ∨
        ∃ u us, m = .readQueue ∧ c.run = .executing (u :: us) outcome none ∧ left = env.read u)

theorem Moved.tokenEffect {id : RequestId} {env : Env} {c after : Connection} {m : Move} {writes : List Write}
    (moved : Moved id env c m after writes) : TokenEffect id env c after m writes := by
  cases moved with
  | pushed executing => exact .pushed executing rfl rfl
  | @readQueue u us outcome executing generates =>
      refine .kept (by simp) rfl fun pending outcome' left run => Or.inr ?_
      obtain ⟨rfl, rfl, same⟩ := RunState.executing.inj run
      exact ⟨u, us, rfl, executing, (Option.some.inj same).symm⟩
  | updated executing ready => exact .kept (by simp) (rawTokens_receive c _) (by simp)
  | finished executing stream => exact .kept (by simp) (rawTokens_handleFailure _ c.consumer) (by simp)
  | answered executing socket =>
      refine .kept ?_ rfl (by simp)
      split <;> simp
  | yielded stream serving queue =>
      exact .kept (by simp) (by rw [items_get]) fun pending outcome left run => Or.inl run
  | loaded attached merge | attached spawned stream | opened spawned socket | started acquired =>
      exact .kept (by simp) rfl (by simp)
  | granted _ _ | refused _ | ended _ _ _ _ | released _ _ | expired _ _ | left _ | disconnected _ _ =>
      exact .kept (by simp) rfl fun pending outcome left run => Or.inl run
  | stopped serving socket => exact .kept (by simp) rfl (by simp)

section
variable {s t : Service} {id : RequestId} {queue : Option RequestId} {text : String}

theorem produced_of_fresh (sorted : Sorted s) (fresh : s.connections id = none) : s.produced id = [] := by
  unfold Service.produced
  rw [List.map_eq_nil_iff, List.filter_eq_nil_iff]
  intro push here same
  exact sorted.known push here (of_decide_eq_true same ▸ fresh)

theorem queueOf_congr {c d : Connection} (same : d.request = c.request) : d.queueOf id = c.queueOf id := by
  unfold Connection.queueOf
  rw [same]

theorem produced_congr (pushes : t.pushes = s.pushes) : t.produced id = s.produced id := by
  unfold Service.produced
  rw [pushes]

theorem Sorted.kept (sorted : Sorted s) (pushes : t.pushes = s.pushes)
    (known : ∀ other, s.connections other ≠ none → t.connections other ≠ none)
    (whole : ∀ other d, t.connections other = some d → d.request.endpoint = .completions →
      rawTokens d.consumer.items = s.produced other)
    (reading : ∀ other d pending outcome left, t.connections other = some d →
      d.run = .executing pending outcome (some left) → ∀ token ∈ left, token.1 = d.queueOf other) : Sorted t where
  own := by
    rw [pushes]
    exact sorted.own
  whole other d found stream := by rw [whole other d found stream, produced_congr pushes]
  reading := reading
  known := by
    rw [pushes]
    exact fun push here => known push.producer (sorted.known push here)

theorem connect_known {after : Connection} {other : RequestId} (here : s.connections other ≠ none) :
    (s.connect id after).connections other ≠ none := by
  by_cases same : other = id
  · subst same
    simp [Service.connect]
  · simpa [Service.connect, Function.update_of_ne same] using here

theorem sorted_silent {c after : Connection} {writes : List Write} {threadId : String} {m : Move}
    (sorted : Sorted s) (found : s.connections id = some c) (request : after.request = c.request)
    (reads : ReadsOwnQueue s (.move id m)) (silent : ∀ w ∈ writes, ∀ queue text, w ≠ .token queue text)
    (tokens : rawTokens after.consumer.items = rawTokens c.consumer.items)
    (reading : ∀ pending outcome left, after.run = .executing pending outcome (some left) →
      c.run = .executing pending outcome (some left) ∨
      ∃ u us, m = .readQueue ∧ c.run = .executing (u :: us) outcome none ∧ left = (s.env c.request.threadId).read u) :
    Sorted (writes.foldl (Service.write id threadId) (s.connect id after)) := by
  obtain ⟨connections, pushes⟩ := writes_silent id threadId (s.connect id after) silent
  refine sorted.kept pushes ?_ ?_ ?_
  · rw [connections]
    exact fun other here => connect_known here
  · rw [connections]
    intro other d here stream
    rcases connect_connections here with ⟨rfl, rfl⟩ | ⟨different, there⟩
    · rw [tokens]
      exact sorted.whole other c found (request ▸ stream)
    · exact sorted.whole other d there stream
  · rw [connections]
    intro other d pending outcome left here run token member
    rcases connect_connections here with ⟨rfl, rfl⟩ | ⟨different, there⟩
    · rw [queueOf_congr request]
      rcases reading pending outcome left run with before | ⟨u, us, rfl, executing, rfl⟩
      · exact sorted.reading other c pending outcome left found before token member
      · obtain ⟨text, spoken, rfl⟩ := List.mem_map.mp member
        have upcoming : c.upcoming = tokenEffects u.effects := by simp [Connection.upcoming, executing]
        exact (reads rfl c found).resolve_left (upcoming ▸ List.ne_nil_of_mem spoken)
    · exact sorted.reading other d pending outcome left there run token member

theorem produced_push {pushes : List Push} (eq : t.pushes = pushes ++ [⟨id, queue, text⟩]) (before : pushes = s.pushes)
    (other : RequestId) : t.produced other = s.produced other ++ if id = other then [text] else [] := by
  unfold Service.produced
  rw [eq, before, List.filter_append, List.map_append]
  by_cases same : id = other <;> simp [same]

/-- A token is put on the queue of its own run, or on none. -/
theorem push_own (s : Service) (id : RequestId) (threadId text : String) {c : Connection} (executing : c.run ≠ .ended)
    (mine : queue = c.queueOf id) :
    ∃ consumer, (s.connect id c).write id threadId (.token queue text) =
        { s.connect id { c with consumer } with pushes := s.pushes ++ [⟨id, queue, text⟩] } ∧
      (c.request.endpoint = .completions → consumer = c.consumer.put [.token text]) := by
  subst mine
  unfold Connection.queueOf
  cases endpoint : c.request.endpoint with
  | webSocket => exact ⟨c.consumer, rfl, by simp⟩
  | completions =>
      have offered : c.offer text = { c with consumer := c.consumer.put [.token text] } := by
        unfold Connection.offer
        split
        · rename_i ended
          exact absurd ended executing
        · rfl
      refine ⟨c.consumer.put [.token text], ?_, fun _ => rfl⟩
      rw [← offered]
      simp [Service.write, Service.put, Service.offerTo, Service.connect]

theorem rawTokens_token (c : Consumer) (text : String) :
    rawTokens (c.put [.token text]).items = rawTokens c.items ++ [text] := by
  rw [items_put, rawTokens_append]
  rfl

theorem sorted_move {m : Move} (sorted : Sorted s) (reads : ReadsOwnQueue s (.move id m))
    (h : s.step (.move id m) = some t) : Sorted t := by
  obtain ⟨c, after, writes, found, moved, rfl⟩ := step_move h
  cases moved.tokenEffect with
  | kept silent tokens reading => exact sorted_silent sorted found moved.request reads silent tokens reading
  | @pushed pending outcome queue text left executing eq wrote =>
      subst eq wrote
      have mine : queue = c.queueOf id := sorted.reading id c _ _ _ found executing _ List.mem_cons_self
      obtain ⟨consumer, shape, tokens⟩ := push_own s id c.request.threadId text
        (c := { c with run := .executing pending outcome (some left) }) (by simp) mine
      rw [List.foldl_cons, List.foldl_nil, shape]
      constructor
      · intro push here q sent
        rcases List.mem_append.mp here with before | new
        · exact sorted.own push before q sent
        · obtain rfl := List.mem_singleton.mp new
          rw [show queue = some q from sent, Connection.queueOf] at mine
          cases endpoint : c.request.endpoint with
          | completions => simpa [endpoint] using mine
          | webSocket => simp [endpoint] at mine
      · intro other e here stream
        rw [produced_push rfl rfl]
        rcases connect_connections here with ⟨rfl, rfl⟩ | ⟨different, there⟩
        · rw [tokens stream, rawTokens_token, if_pos rfl, ← sorted.whole other c found stream]
        · rw [if_neg (Ne.symm different), List.append_nil]
          exact sorted.whole other e there stream
      · intro other e pending' outcome' left' here run' token member
        rcases connect_connections here with ⟨rfl, rfl⟩ | ⟨different, there⟩
        · obtain ⟨-, -, same⟩ := RunState.executing.inj run'
          obtain rfl := Option.some.inj same
          exact sorted.reading other c _ _ _ found executing token (List.mem_cons_of_mem _ member)
        · exact sorted.reading other e _ _ _ there run' token member
      · intro push here
        rcases List.mem_append.mp here with before | new
        · exact connect_known (sorted.known push before)
        · obtain rfl := List.mem_singleton.mp new
          simp [Service.connect]

theorem sorted_step {a : Action} (sorted : Sorted s) (reads : ReadsOwnQueue s a) (h : s.step a = some t) :
    Sorted t := by
  cases a with
  | move id m => exact sorted_move sorted reads h
  | get id threadId =>
      obtain rfl := Option.some.inj h
      exact sorted.kept rfl (fun _ here => here) sorted.whole sorted.reading
  | tick seconds =>
      obtain rfl := Option.some.inj h
      exact sorted.kept rfl (fun _ here => here) sorted.whole sorted.reading
  | arrive id request =>
      obtain ⟨fresh, rfl⟩ := step_arrive h
      refine sorted.kept (arrive_pushes s id request) ?_ ?_ ?_
      · intro other here
        unfold Service.arrive
        cases Service.exceeded request with
        | none => exact connect_known here
        | some reason => exact connect_known here
      · intro other d here stream
        rcases arrive_connections here with ⟨rfl, -, -, consumer, -⟩ | ⟨different, there⟩
        · rw [consumer, produced_of_fresh sorted fresh]
          rfl
        · exact sorted.whole other d there stream
      · intro other d pending outcome left here run
        rcases arrive_connections here with ⟨rfl, -, idle, -, -⟩ | ⟨different, there⟩
        · simp [idle] at run
        · exact sorted.reading other d pending outcome left there run

theorem start_sorted (checkpoints : String → Option AgentState) : Sorted (.start checkpoints) :=
  ⟨by simp [Service.start], by simp [Service.start], by simp [Service.start], by simp [Service.start]⟩

end

/-- As long as every run reads its own queue, every client receives the tokens of its own run, in order and
without loss, and no others. -/
theorem ownTokens_of_readsOwnQueue (checkpoints : String → Option AgentState) (actions : List Action)
    (reads : Along Service.step ReadsOwnQueue (.start checkpoints) actions) :
    Throughout Service.step OwnTokens (.start checkpoints) actions := by
  have kept := throughout_of_along (fun _ _ _ sorted reads h => sorted_step sorted reads h)
    (start_sorted checkpoints) reads
  exact kept.mono fun _ sorted => sorted_ownTokens sorted

/-- A stream that reads another queue, or none, loses the first token that it pushes. -/
theorem misread_strays {s t : Service} {id : RequestId} (sorted : Sorted s)
    (h : s.step (.move id .readQueue) = some t) (misread : ¬ ReadsOwnQueue s (.move id .readQueue))
    (stream : ∀ c ∈ s.connections id, c.request.endpoint = .completions) :
    ∃ u, t.step (.move id .pushToken) = some u ∧ ¬ OwnTokens u := by
  obtain ⟨c, after, writes, found, moved, rfl⟩ := step_move h
  have completions := stream c found
  have missed : c.upcoming ≠ [] ∧ s.tokenQueue ≠ some id := by
    by_contra fine
    refine misread fun _ d there => ?_
    obtain rfl := Option.some.inj (found.symm.trans there)
    rw [not_and_or, not_not, not_not] at fine
    exact fine.imp_right fun mine => by rw [mine, Connection.queueOf, completions]
  cases moved with
  | @readQueue u us outcome executing generates =>
      have upcoming : c.upcoming = tokenEffects u.effects := by simp [Connection.upcoming, executing]
      obtain ⟨text, rest, spoken⟩ := List.exists_cons_of_ne_nil (upcoming ▸ missed.1)
      let left := rest.map fun text => (s.tokenQueue, text)
      have read : (s.env c.request.threadId).read u = (s.tokenQueue, text) :: left := by
        rw [Env.read, spoken, List.map_cons]
        rfl
      rw [List.foldl_nil, read]
      let pushed : Connection := { c with run := .executing (u :: us) outcome (some left) }
      refine ⟨(s.connect id pushed).write id c.request.threadId (.token s.tokenQueue text), ?_, fun tokens => ?_⟩
      · simp [Service.step, Service.connect, Connection.step, Connection.pushToken, pushed]
      · cases queue : s.tokenQueue with
        | some q =>
            have mine := tokens.own ⟨id, some q, text⟩ (by simp [Service.write, queue]) q rfl
            exact missed.2 (queue.trans (congrArg some mine))
        | none =>
            rw [queue] at tokens
            have here : ((s.connect id pushed).write id c.request.threadId (.token none text)).connections id =
                some pushed := by simp [Service.write, Service.put, Service.offerTo, Service.connect]
            have all := tokens.whole id pushed here completions
            rw [produced_push rfl rfl, if_pos rfl] at all
            have before := sorted.whole id c found completions
            exact absurd (all.symm.trans before) (by simp [Service.connect, Service.produced])

def answering (threadId text : String) : Request :=
  { question .completions threadId text with
    services := { offline with llm := fun _ _ => ⟨[.ofText "您好"], false⟩ } }

def Move.of (id : RequestId) (moves : List Move) : List Action := moves.map (.move id)

/-- The run of the first stream comes to `llm_generate` after a second stream has attached its queue. -/
def twoStreams : List Action :=
  begins ⟨"shop", 1⟩ (answering "first" "你好") ++ begins ⟨"shop", 2⟩ (answering "second" "在吗") ++
    Move.of ⟨"shop", 1⟩ [.update, .update, .update, .readQueue, .pushToken]

theorem token_strays : ¬ ∀ actions : List Action,
    Throughout Service.step OwnTokens (.start fun _ => none) actions := by
  intro claim
  have seen : (exec Service.step (.start fun _ => none) twoStreams).map (·.pushes) =
      some [⟨⟨"shop", 1⟩, some ⟨"shop", 2⟩, "您好"⟩] := by decide +kernel
  obtain ⟨s, run, pushes⟩ := Option.map_eq_some_iff.mp seen
  have own := ((claim twoStreams).last run).own ⟨⟨"shop", 1⟩, some ⟨"shop", 2⟩, "您好"⟩ (by simp [pushes]) _ rfl
  exact absurd own (by decide)

/-- The second stream starts when the first has read its queue, and reads its own before the first has ended. -/
def overlapping : List Action :=
  begins ⟨"shop", 1⟩ (answering "first" "你好") ++ Move.of ⟨"shop", 1⟩ [.update, .update, .update, .readQueue] ++
    begins ⟨"shop", 2⟩ (answering "second" "在吗") ++ Move.of ⟨"shop", 1⟩ [.pushToken, .pop] ++
    Move.of ⟨"shop", 2⟩ [.update, .update, .update, .readQueue, .pushToken] ++
    Move.of ⟨"shop", 1⟩ [.update, .update, .update, .finish, .pop, .release] ++
    Move.of ⟨"shop", 2⟩ [.pop, .update, .update, .update, .finish, .pop, .release]

theorem ownTokens_of_readsOwnQueue_overlapping :
    Throughout Service.step OwnTokens (.start fun _ => none) overlapping :=
  ownTokens_of_readsOwnQueue _ _ (by decide +kernel)

end CuckooEcho.Chat
