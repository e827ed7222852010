import CuckooEcho.Chat.Delivery
import CuckooEcho.Chat.ThreadLock
import CuckooEcho.Lib.Inevitable

namespace CuckooEcho.Chat
open Lib Agent

/-! ## What a request has ahead of it -/

/-- A move by which the handler or the run of the request goes on. -/
def Action.Advances (id : RequestId) : Action → Prop
  | .move mover m => mover = id ∧ m ≠ .cancel
  | _ => False

def Handler.ahead : Handler → Nat
  | .waiting => 4
  | .acquired => 3
  | .serving => 2
  | .releasing => 1
  | .gone => 0

def RunState.ahead : RunState → Nat
  | .spawned => 3
  | .attached => 2
  | .executing .. => 1
  | .idle | .ended => 0

def updatesAhead (pending : List AgentUpdate) : Nat :=
  (pending.map fun u => (tokenEffects u.effects).length + 2).sum

def RunState.work : RunState → Nat
  | .executing pending _ none => updatesAhead pending
  | .executing pending _ (some left) => left.length + 1 + updatesAhead pending.tail
  | _ => 0

/-- A token that is pushed lengthens the queue, so what the run has to do counts before what the queue holds. -/
def Connection.ahead (c : Connection) : Nat × Nat × Nat :=
  (5 * c.handler.ahead + c.run.ahead, c.run.work, c.consumer.queue.length)

def Fewer : Nat × Nat × Nat → Nat × Nat × Nat → Prop := Prod.Lex (· < ·) (Prod.Lex (· < ·) (· < ·))

theorem fewer_wf : WellFounded Fewer :=
  (Prod.lex ⟨_, wellFounded_lt⟩ (Prod.lex ⟨_, wellFounded_lt⟩ ⟨_, wellFounded_lt⟩)).wf

section
variable {c d : Connection}

theorem fewer_of_phase (lower : 5 * d.handler.ahead + d.run.ahead < 5 * c.handler.ahead + c.run.ahead) :
    Fewer d.ahead c.ahead := .left _ _ lower

theorem fewer_of_work (phase : 5 * d.handler.ahead + d.run.ahead = 5 * c.handler.ahead + c.run.ahead)
    (lower : d.run.work < c.run.work) : Fewer d.ahead c.ahead := by
  unfold Connection.ahead
  rw [phase]
  exact .right _ (.left _ _ lower)

theorem fewer_of_queue (handler : d.handler = c.handler) (run : d.run = c.run)
    (lower : d.consumer.queue.length < c.consumer.queue.length) : Fewer d.ahead c.ahead := by
  unfold Connection.ahead
  rw [handler, run]
  exact .right _ (.right _ lower)

end

/-! ## A request is never left without a move -/

/-- A handler that serves has started its run. That of a WebSocket message serves exactly while the run goes on. -/
structure Connection.Awake (c : Connection) : Prop where
  started : c.handler = .serving → c.run ≠ .idle
  socket : c.request.endpoint = .webSocket → (c.handler = .serving ↔ c.Going)

section
variable {id : RequestId} {env : Env} {c after : Connection} {m : Move} {writes : List Write}

/-- A WebSocket message whose handler does not serve has no run under way. -/
theorem Connection.Awake.aside (awake : c.Awake) (aside : c.handler ≠ .serving) {h : Handler} (still : h ≠ .serving)
    {acquiredAt : Nat} : Connection.Awake { c with handler := h, acquiredAt } :=
  ⟨fun serving => absurd serving still, fun socket =>
    ⟨fun serving => absurd serving still, fun going => absurd ((awake.socket socket).mpr going) aside⟩⟩

theorem Connection.Awake.runs (awake : c.Awake) (going : c.Going) {run : RunState} {consumer : Consumer}
    (started : run ≠ .idle) (goes : run ≠ .ended) : Connection.Awake { c with run, consumer } :=
  ⟨fun _ => started, fun socket => iff_of_true ((awake.socket socket).mpr going) ⟨started, goes⟩⟩

theorem awake_of_stream (stream : c.request.endpoint = .completions) (started : c.handler = .serving → c.run ≠ .idle) :
    c.Awake := ⟨started, fun socket => absurd (stream.symm.trans socket) (by simp)⟩

theorem Moved.awake (moved : Moved id env c m after writes) (awake : c.Awake) : after.Awake := by
  cases moved with
  | granted waiting _ | refused waiting => exact awake.aside (by simp [waiting]) (by simp)
  | started _ => exact ⟨by simp, by simp [Connection.Going]⟩
  | attached spawned _ | opened spawned _ =>
      exact awake.runs (going_of_run spawned (by simp) (by simp)) (by simp) (by simp)
  | loaded attached _ => exact awake.runs (going_of_run attached (by simp) (by simp)) (by simp) (by simp)
  | readQueue executing _ | pushed executing | updated executing _ =>
      exact awake.runs (going_of_run executing (by simp) (by simp)) (by simp) (by simp)
  | finished _ stream => exact awake_of_stream stream (by simp)
  | yielded stream _ _ => exact awake_of_stream stream awake.started
  | ended stream _ _ _ | disconnected _ stream => exact awake_of_stream stream (by simp)
  | answered _ _ | stopped _ _ => exact ⟨by simp, by simp [Connection.Going]⟩
  | released releasing _ | expired releasing _ => exact awake.aside (by simp [releasing]) (by simp)
  | left idle => exact awake.aside (fun serving => by simp [serving] at idle) (by simp)

theorem Moved.fewer (moved : Moved id env c m after writes) (awake : c.Awake) (goes : m ≠ .cancel) :
    Fewer after.ahead c.ahead := by
  cases moved with
  | granted waiting _ | refused waiting => exact fewer_of_phase (by simp [waiting, Handler.ahead])
  | started acquired =>
      apply fewer_of_phase
      simp only [acquired, Handler.ahead, RunState.ahead]
      omega
  | attached spawned _ | opened spawned _ => exact fewer_of_phase (by simp [spawned, RunState.ahead])
  | loaded attached _ => exact fewer_of_phase (by simp [attached, RunState.ahead])
  | readQueue executing _ =>
      apply fewer_of_work
      · simp [executing, RunState.ahead]
      · simp [executing, RunState.work, updatesAhead, Env.read]
  | pushed executing =>
      apply fewer_of_work
      · simp [executing, RunState.ahead]
      · simp [executing, RunState.work]
  | @updated u us outcome reading executing _ =>
      apply fewer_of_work
      · simp [executing, RunState.ahead]
      · cases reading <;> simp [executing, RunState.work, updatesAhead]
  | finished executing _ => exact fewer_of_phase (by simp [executing, RunState.ahead])
  | answered executing socket =>
      have serving := (awake.socket socket).mpr (going_of_run executing (by simp) (by simp))
      exact fewer_of_phase (by simp [serving, executing, Handler.ahead, RunState.ahead])
  | yielded _ _ queue => exact fewer_of_queue rfl rfl (by simp [Consumer.get, queue])
  | ended _ serving _ _ => exact fewer_of_phase (by simp [serving, Handler.ahead])
  | released releasing _ | expired releasing _ => exact fewer_of_phase (by simp [releasing, Handler.ahead])
  | left _ | disconnected _ _ | stopped _ _ => exact absurd rfl goes

theorem Connection.Awake.goes (awake : c.Awake) (unfinished : c.handler ≠ .gone ∨ c.Going) :
    ∃ m ≠ .cancel, c.step id env m ≠ none := by
  have ran : c.Going → ∃ m ≠ .cancel, c.step id env m ≠ none := by
    rintro ⟨started, goes⟩
    cases run : c.run with
    | idle => exact absurd run started
    | ended => exact absurd run goes
    | spawned => exact ⟨.attach, by simp, by simp [Connection.step, Connection.attach, run]⟩
    | attached => exact ⟨.load, by simp, by simp [Connection.step, Connection.load, run]⟩
    | executing pending outcome reading =>
        cases pending with
        | nil =>
            refine ⟨.finish, by simp, ?_⟩
            cases endpoint : c.request.endpoint <;> simp [Connection.step, Connection.finish, run, endpoint]
        | cons u us =>
            by_cases ready : u.node = .llmGenerate ∧ reading ≠ some []
            · obtain ⟨generates, unread⟩ := ready
              cases reading with
              | none => exact ⟨.readQueue, by simp, by simp [Connection.step, Connection.readQueue, run, generates]⟩
              | some left =>
                  cases left with
                  | nil => exact absurd rfl unread
                  | cons token left => exact ⟨.pushToken, by simp, by simp [Connection.step, Connection.pushToken, run]⟩
            · exact ⟨.update, by simp, by simp [Connection.step, Connection.update, run, ready]⟩
  rcases unfinished with here | going
  · cases handler : c.handler with
    | gone => exact absurd handler here
    | waiting =>
        refine ⟨.acquire, by simp, ?_⟩
        cases lock : env.lock <;> simp [Connection.step, Connection.acquire, handler, lock]
    | acquired => exact ⟨.start, by simp, by simp [Connection.step, Connection.start, handler]⟩
    | releasing => exact ⟨.release, by simp, by simp [Connection.step, Connection.release, handler]⟩
    | serving =>
        by_cases ended : c.run = .ended
        · have stream : c.request.endpoint = .completions := by
            cases endpoint : c.request.endpoint with
            | completions => rfl
            | webSocket => exact absurd ended ((awake.socket endpoint).mp handler).2
          refine ⟨.pop, by simp, ?_⟩
          cases queue : c.consumer.queue <;> simp [Connection.step, Connection.pop, stream, handler, queue, ended]
        · exact ran ⟨awake.started handler, ended⟩
  · exact ran going

theorem Moved.leaves (moved : Moved id env c m after writes) (left : c.handler ≠ .waiting) :
    after.handler ≠ .waiting := by
  cases moved <;> simp [left]

end

/-! ## Every reachable state -/

structure Steady (s : Service) : Prop where
  awake : ∀ id c, s.connections id = some c → c.Awake
  expires : ∀ key lock, s.locks key = some lock → lock.expires ≤ s.now + lockTtl
  owned : ∀ key lock, s.locks key = some lock → ∃ c, s.connections lock.owner = some c ∧ c.handler ≠ .waiting

section
variable {s t : Service} {id : RequestId} {c after : Connection} {m : Move} {writes : List Write}

theorem known_connection (writes : List Write) {threadId : String} {other : RequestId}
    (known : s.connections other ≠ none) :
    ∃ d, (writes.foldl (Service.write id threadId) (s.connect id after)).connections other = some d := by
  apply Option.ne_none_iff_exists'.mp
  intro missing
  have before := writes_connections_none missing
  by_cases same : other = id
  · simp [same, Service.connect] at before
  · exact known (by simpa [Service.connect, Function.update_of_ne same] using before)

theorem locks_of_lockEffect {threadId key : String} {lock : Lock}
    (effect : LockEffect id (s.env threadId) c after writes)
    (locked : (writes.foldl (Service.write id threadId) (s.connect id after)).locks key = some lock) :
    s.locks key = some lock ∨
      (after.handler = .acquired ∧ lock = ⟨id, s.now + lockTtl⟩ ∧ key = lockKey threadId) := by
  cases effect with
  | granted free moved wrote =>
      subst wrote moved
      simp only [List.foldl_cons, List.foldl_nil, Service.write, Service.connect, Function.update_apply] at locked
      split at locked
      · rename_i same
        exact Or.inr ⟨rfl, (Option.some.inj locked).symm, same⟩
      · exact Or.inl locked
  | released held moved wrote =>
      subst wrote
      simp only [List.foldl_cons, List.foldl_nil, Service.write, Service.connect, Function.update_apply] at locked
      split at locked
      · cases locked
      · exact Or.inl locked
  | kept since unlocked unfinished =>
      rw [writes_locks unlocked] at locked
      exact Or.inl locked

theorem steady_move (steady : Steady s) (h : s.step (.move id m) = some t) : Steady t := by
  obtain ⟨c, after, writes, found, moved, rfl⟩ := step_move h
  have now : (writes.foldl (Service.write id c.request.threadId) (s.connect id after)).now = s.now := writes_now _
  constructor
  · intro other d here
    rcases moved_connections here with ⟨rfl, queue, rfl⟩ | ⟨different, d', there, queue, rfl⟩
    · have awake := moved.awake (steady.awake other c found)
      exact ⟨awake.started, awake.socket⟩
    · have awake := steady.awake other d' there
      exact ⟨awake.started, awake.socket⟩
  · intro key lock locked
    rw [now]
    rcases locks_of_lockEffect moved.lockEffect locked with before | ⟨-, rfl, -⟩
    · exact steady.expires key lock before
    · exact Nat.le_refl _
  · intro key lock locked
    have known : s.connections lock.owner ≠ none ∧
        ∀ d, s.connections lock.owner = some d →
          d.handler ≠ .waiting ∨ (lock.owner = id ∧ after.handler = .acquired) := by
      rcases locks_of_lockEffect moved.lockEffect locked with before | ⟨acquired, rfl, -⟩
      · obtain ⟨d, there, left⟩ := steady.owned key lock before
        exact ⟨by simp [there], fun d' same => Or.inl (Option.some.inj (there.symm.trans same) ▸ left)⟩
      · exact ⟨by simp [found], fun _ _ => Or.inr ⟨rfl, acquired⟩⟩
    obtain ⟨d, here⟩ := known_connection writes known.1
    refine ⟨d, here, ?_⟩
    rcases moved_connections here with ⟨same, queue, rfl⟩ | ⟨different, d', there, queue, rfl⟩
    · rcases known.2 c (same ▸ found) with left | ⟨-, acquired⟩
      · exact moved.leaves left
      · simp [acquired]
    · rcases known.2 d' there with left | ⟨same, -⟩
      · exact left
      · exact absurd same different

theorem steady_step {a : Action} (steady : Steady s) (h : s.step a = some t) : Steady t := by
  cases a with
  | move id m => exact steady_move steady h
  | get id threadId =>
      obtain rfl := Option.some.inj h
      exact ⟨steady.awake, steady.expires, steady.owned⟩
  | tick seconds =>
      obtain rfl := Option.some.inj h
      exact ⟨steady.awake, fun key lock locked => (steady.expires key lock locked).trans (by simp), steady.owned⟩
  | arrive id request =>
      obtain ⟨fresh, rfl⟩ := step_arrive h
      refine ⟨fun other d here => ?_, by simpa using steady.expires, fun key lock locked => ?_⟩
      · rcases arrive_connections here with ⟨-, -, idle, -, handler⟩ | ⟨-, there⟩
        · have aside : d.handler ≠ .serving := fun serving => by simp [serving] at handler
          exact ⟨fun serving => absurd serving aside, fun _ => iff_of_false aside fun going => going.1 idle⟩
        · exact steady.awake other d there
      · obtain ⟨c, there, left⟩ := steady.owned key lock (by simpa using locked)
        cases here : (s.arrive id request).connections lock.owner with
        | none => exact absurd (arrive_connections_none here) (by simp [there])
        | some d =>
            rcases arrive_connections here with ⟨same, -⟩ | ⟨-, before⟩
            · simp [← same, there] at fresh
            · exact ⟨d, rfl, Option.some.inj (there.symm.trans before) ▸ left⟩

theorem steady_of_run {checkpoints : String → Option AgentState} {actions : List Action}
    (run : exec Service.step (.start checkpoints) actions = some s) : Steady s := by
  have start : Steady (.start checkpoints) := by
    constructor <;> simp [Service.start]
  exact (throughout_of_step (fun _ _ _ steady h => steady_step steady h) start).last run

end

/-! ## A request on its own -/

/-- The request is over, nothing is left of its lock, and a stream that was served has been told so. -/
structure Concluded (id : RequestId) (before : Connection) (t : Service) : Prop where
  finished : ∃ c, t.connections id = some c ∧ c.request = before.request ∧ c.handler = .gone ∧ ¬ c.Going
  unlocked : before.handler ≠ .gone → (t.lock before.request.threadId).map (·.owner) ≠ some id
  told : before.request.endpoint = .completions → before.handler = .acquired ∨ before.handler = .serving →
    done ∈ t.events id

structure Course (id : RequestId) (before : Connection) (s : Service) (c : Connection) : Prop where
  found : s.connections id = some c
  request : c.request = before.request
  awake : c.Awake
  unlocked : before.handler ≠ .gone → c.handler = .waiting ∨ c.handler = .gone →
    (s.lock before.request.threadId).map (·.owner) ≠ some id
  told : before.request.endpoint = .completions → before.handler = .acquired ∨ before.handler = .serving →
    c.handler = .acquired ∨ c.handler = .serving ∨ done ∈ s.events id

section
variable {s t : Service} {id : RequestId} {env : Env} {before c after : Connection} {m : Move} {writes : List Write}

theorem Moved.told (moved : Moved id env c m after writes) (goes : m ≠ .cancel)
    (stream : c.request.endpoint = .completions) (served : c.handler = .acquired ∨ c.handler = .serving) :
    after.handler = .acquired ∨ after.handler = .serving ∨ done ∈ writes.filterMap Write.data := by
  cases moved with
  | granted _ _ => exact Or.inl rfl
  | started _ => exact Or.inr (Or.inl rfl)
  | ended _ _ _ _ => exact Or.inr (Or.inr (by simp [Write.data, Sent.data]))
  | refused waiting => simp [waiting] at served
  | released releasing _ | expired releasing _ => simp [releasing] at served
  | answered _ socket => simp [stream] at socket
  | left _ | disconnected _ _ | stopped _ _ => exact absurd rfl goes
  | attached _ _ | opened _ _ | loaded _ _ | readQueue _ _ | pushed _ | updated _ _ | finished _ _ | yielded _ _ _ =>
      exact served.imp_right Or.inl

theorem lock_writes {threadId : String} (unlocked : ∀ w ∈ writes, ∀ lock, w ≠ .lock lock) :
    (writes.foldl (Service.write id threadId) (s.connect id after)).lock threadId = s.lock threadId := by
  unfold Service.lock
  rw [writes_locks unlocked, writes_now]
  rfl

/-- A request that leaves without having waited for the lock in vain has given it back. -/
theorem Moved.unlocked (moved : Moved id (s.env c.request.threadId) c m after writes) (goes : m ≠ .cancel)
    (free : c.handler = .waiting ∨ c.handler = .gone → (s.lock c.request.threadId).map (·.owner) ≠ some id)
    (aside : after.handler = .waiting ∨ after.handler = .gone) :
    ((writes.foldl (Service.write id c.request.threadId) (s.connect id after)).lock c.request.threadId).map
      (·.owner) ≠ some id := by
  cases moved with
  | granted _ _ | started _ | ended _ _ _ _ | answered _ _ => simp at aside
  | released _ _ => simp [Service.lock, Service.write, Service.connect, Option.filter]
  | expired _ lost =>
      rw [lock_writes (by simp)]
      exact lost
  | refused waiting =>
      rw [lock_writes (by simp)]
      exact free (Or.inl waiting)
  | left _ | disconnected _ _ | stopped _ _ => exact absurd rfl goes
  | attached _ _ | opened _ _ | loaded _ _ | readQueue _ _ | pushed _ | updated _ _ | finished _ _ | yielded _ _ _ =>
      rw [lock_writes (by simp)]
      exact free aside

theorem Moved.fewer_after (moved : Moved id env c m after writes) (awake : c.Awake) (goes : m ≠ .cancel)
    {d : Connection} {threadId : String}
    (here : (writes.foldl (Service.write id threadId) (s.connect id after)).connections id = some d) :
    Fewer d.ahead c.ahead := by
  cases moved.tokenEffect with
  | kept silent tokens reading =>
      rw [(writes_silent id threadId _ silent).1] at here
      simp only [Service.connect, Function.update_self, Option.some.injEq] at here
      subst here
      exact moved.fewer awake goes
  | pushed executing eq wrote =>
      rcases moved_connections here with ⟨-, queue, rfl⟩ | ⟨different, -⟩
      · apply fewer_of_work <;> simp [eq, executing, RunState.ahead, RunState.work]
      · exact absurd rfl different

theorem Course.next (course : Course id before s c) (goes : m ≠ .cancel) (h : s.step (.move id m) = some t) :
    ∃ d, Course id before t d ∧ Fewer d.ahead c.ahead := by
  obtain ⟨c', after, writes, found, moved, rfl⟩ := step_move h
  obtain rfl := Option.some.inj (course.found.symm.trans found)
  have known : s.connections id ≠ none := by simp [found]
  obtain ⟨d, here⟩ := known_connection writes known
  have fewer := moved.fewer_after course.awake goes here
  rcases moved_connections here with ⟨-, queue, rfl⟩ | ⟨different, -⟩
  · refine ⟨_, ?_, fewer⟩
    have awake := moved.awake course.awake
    constructor
    · exact here
    · exact moved.request.trans course.request
    · exact ⟨awake.started, awake.socket⟩
    · intro present aside
      have free := course.unlocked present
      rw [← course.request] at free ⊢
      exact moved.unlocked goes free aside
    · intro stream served
      rw [events_writes, if_pos rfl]
      rcases course.told stream served with acquired | serving | told
      · exact (moved.told goes (course.request ▸ stream) (Or.inl acquired)).imp_right
          (Or.imp_right (List.mem_append_right _))
      · exact (moved.told goes (course.request ▸ stream) (Or.inr serving)).imp_right
          (Or.imp_right (List.mem_append_right _))
      · exact Or.inr (Or.inr (List.mem_append_left _ told))
  · exact absurd rfl different

theorem Course.inevitable (course : Course id before s c) {I : Service → Connection → Prop} {P : Service → Prop}
    (start : I s c) (keep : ∀ s c m t d, Course id before s c → I s c → m ≠ .cancel → s.step (.move id m) = some t →
      t.connections id = some d → I t d)
    (last : ∀ t d, Course id before t d → I t d → d.handler = .gone → ¬ d.Going → P t) :
    Inevitable Service.step (fun _ => Action.Advances id) P s := by
  let ahead (t : Service) := (t.connections id).elim (0, 0, 0) Connection.ahead
  apply inevitable_of_measure fewer_wf ahead fun t => ∃ d, Course id before t d ∧ I t d
  · rintro t a u ⟨d, course, holds⟩ mine h
    cases a with
    | move mover m =>
        obtain ⟨rfl, goes⟩ := mine
        obtain ⟨e, later, fewer⟩ := course.next goes h
        refine ⟨⟨e, later, keep t d m u e course holds goes h later.found⟩, ?_⟩
        simpa [ahead, course.found, later.found] using fewer
    | arrive | get | tick => exact mine.elim
  · rintro t ⟨d, course, holds⟩ stuck
    by_cases unfinished : d.handler ≠ .gone ∨ d.Going
    · obtain ⟨m, goes, able⟩ : ∃ m ≠ .cancel, d.step id (t.env d.request.threadId) m ≠ none :=
        course.awake.goes unfinished
      obtain ⟨⟨after, writes⟩, stepped⟩ := Option.ne_none_iff_exists'.mp able
      have none := stuck (.move id m) ⟨rfl, goes⟩
      simp [Service.step, course.found, stepped] at none
    · push Not at unfinished
      exact last t d course holds unfinished.1 unfinished.2
  · exact ⟨c, course, start⟩

end

/-- Whatever else has happened to the service, a request that its client does not leave comes to its end in whatever
order its handler and its run go on, and then gives back the lock of its thread. -/
theorem requests_conclude (checkpoints : String → Option AgentState) (actions : List Action) {s : Service}
    (run : exec Service.step (.start checkpoints) actions = some s) {id : RequestId} {c : Connection}
    (found : s.connections id = some c) : Inevitable Service.step (fun _ => Action.Advances id) (Concluded id c) s := by
  have steady := steady_of_run run
  have course : Course id c s c := by
    refine ⟨found, rfl, steady.awake id c found, fun present aside owns => ?_, fun _ served => ?_⟩
    · obtain ⟨lock, locked, mine⟩ := Option.map_eq_some_iff.mp owns
      obtain ⟨d, owner, left⟩ := steady.owned _ lock (Option.filter_eq_some_iff.mp locked).1
      rw [mine, found] at owner
      obtain rfl := Option.some.inj owner
      exact aside.elim left present
    · exact served.imp_right Or.inl
  apply course.inevitable (I := fun _ _ => True) trivial (fun _ _ _ _ _ _ _ _ _ _ => trivial)
  refine fun t d course _ gone stopped => ⟨⟨d, course.found, course.request, gone, stopped⟩, ?_, ?_⟩
  · exact fun present => course.unlocked present (Or.inr gone)
  · exact fun stream served => by simpa [gone] using course.told stream served

/-! ## A free thread serves -/

/-- What the run has left to do, and how much of its turn the checkpoint shows. -/
inductive Turned (id : RequestId) (saved : AgentState) (s : Service) (c : Connection) : Prop
  | unloaded (run : c.run = .idle ∨ c.run = .spawned ∨ c.run = .attached)
      (checkpoint : (s.checkpoints c.request.threadId).getD emptyThread = saved)
  | executing {passed pending : List AgentUpdate} {reading : Option (List (Option RequestId × String))}
      (run : c.run = .executing pending (c.request.turn id saved).outcome reading)
      (updates : (c.request.turn id saved).updates = passed ++ pending)
      (checkpoint : s.checkpoints c.request.threadId =
        some ((passed.getLast?.map (·.state)).getD ((c.request.payload id).merge saved)))
  | ended (run : c.run = .ended) (checkpoint : s.checkpoints c.request.threadId = some (c.request.turn id saved).state)

structure Alone (id : RequestId) (saved : AgentState) (s : Service) (c : Connection) : Prop where
  free : c.handler = .waiting ∨ c.handler = .gone → s.lock c.request.threadId = none
  owns : c.handler = .acquired ∨ c.handler = .serving ∨ c.handler = .releasing →
    (s.lock c.request.threadId).map (·.owner) = some id
  asleep : c.run = .idle ↔ c.handler = .waiting ∨ c.handler = .acquired
  told : c.request.endpoint = .completions → c.handler = .releasing ∨ c.handler = .gone → done ∈ s.events id
  turned : Turned id saved s c

/-- The request has been served by one turn over what its thread had saved, and the thread is free again. -/
structure Answered (id : RequestId) (request : Request) (saved : AgentState) (t : Service) : Prop where
  finished : ∃ c, t.connections id = some c ∧ c.request = request ∧ c.handler = .gone ∧ c.run = .ended
  checkpoint : t.checkpoints request.threadId = some (request.turn id saved).state
  free : t.lock request.threadId = none
  told : request.endpoint = .completions → done ∈ t.events id

section
variable {s t : Service} {id : RequestId} {saved : AgentState} {c after : Connection} {m : Move} {writes : List Write}

def Write.saves : Write → Option AgentState
  | .checkpoint state => some state
  | _ => none

theorem writes_checkpoints {threadId : String} : (writes.foldl (Service.write id threadId) s).checkpoints threadId =
    (writes.filterMap Write.saves).getLast?.or (s.checkpoints threadId) := by
  induction writes generalizing s with
  | nil => rfl
  | cons w writes ih =>
      rw [List.foldl_cons, ih]
      cases w with
      | checkpoint state =>
          simp only [Service.write, Function.update_self, List.filterMap_cons, Write.saves, List.getLast?_cons]
          cases (writes.filterMap Write.saves).getLast? <;> rfl
      | lock | tokenQueue | token | send => rfl

theorem Turned.kept (turned : Turned id saved s c) {d : Connection} (run : d.run = c.run)
    (request : d.request = c.request)
    (checkpoint : t.checkpoints c.request.threadId = s.checkpoints c.request.threadId) : Turned id saved t d := by
  cases turned with
  | unloaded before start =>
      refine .unloaded (run ▸ before) ?_
      rw [request, checkpoint]
      exact start
  | executing before updates saves =>
      rw [← request] at updates saves checkpoint
      exact .executing (by rw [run, before, request]) updates (checkpoint.trans saves)
  | ended before saves =>
      rw [← request] at saves checkpoint
      exact .ended (run.trans before) (checkpoint.trans saves)

theorem turn_state (request : Request) (id : RequestId) (saved : AgentState) : (request.turn id saved).state =
    ((request.turn id saved).updates.getLast?.map (·.state)).getD ((request.payload id).merge saved) :=
  StateGraph.runFrom_state

theorem Turned.finish (turned : Turned id saved s c) {outcome : StateGraph.Outcome}
    {reading : Option (List (Option RequestId × String))} (last : c.run = .executing [] outcome reading)
    {d : Connection} (run : d.run = .ended) (request : d.request = c.request)
    (checkpoint : t.checkpoints c.request.threadId = s.checkpoints c.request.threadId) : Turned id saved t d := by
  cases turned with
  | unloaded before => simp [last] at before
  | ended before => simp [last] at before
  | executing before updates saves =>
      obtain ⟨rfl, -, -⟩ := RunState.executing.inj (last.symm.trans before)
      rw [List.append_nil] at updates
      refine .ended run ?_
      rw [request, checkpoint, saves, turn_state, updates]

theorem Moved.turned (moved : Moved id (s.env c.request.threadId) c m after writes) (goes : m ≠ .cancel)
    (turned : Turned id saved s c) (asleep : c.handler = .acquired → c.run = .idle) :
    Turned id saved (writes.foldl (Service.write id c.request.threadId) (s.connect id after)) after := by
  have saves : (writes.foldl (Service.write id c.request.threadId) (s.connect id after)).checkpoints
      c.request.threadId = (writes.filterMap Write.saves).getLast?.or (s.checkpoints c.request.threadId) :=
    writes_checkpoints
  cases moved with
  | granted _ _ | refused _ | yielded _ _ _ | ended _ _ _ _ | released _ _ | expired _ _ =>
      exact turned.kept rfl rfl saves
  | left _ | disconnected _ _ | stopped _ _ => exact absurd rfl goes
  | started acquired =>
      have idle := asleep acquired
      cases turned with
      | unloaded _ start => exact .unloaded (by simp) ((congrArg (·.getD emptyThread) saves).trans start)
      | executing before | ended before => simp [before] at idle
  | attached spawned _ | opened spawned _ =>
      cases turned with
      | unloaded _ start => exact .unloaded (by simp) ((congrArg (·.getD emptyThread) saves).trans start)
      | executing before | ended before => simp [before] at spawned
  | loaded attached merge =>
      cases turned with
      | unloaded _ start =>
          have same : (s.env c.request.threadId).checkpoint.getD emptyThread = saved := start
          rw [same] at merge
          subst merge
          have none : (c.request.turn id saved).updates = [] ++ (c.request.turn id saved).updates := rfl
          exact .executing rfl none saves
      | executing before | ended before => simp [before] at attached
  | readQueue executing _ | pushed executing =>
      cases turned with
      | unloaded before => simp [executing] at before
      | ended before => simp [executing] at before
      | executing before updates start =>
          obtain ⟨rfl, rfl, -⟩ := RunState.executing.inj (executing.symm.trans before)
          exact .executing rfl updates (saves.trans start)
  | updated executing _ =>
      cases turned with
      | unloaded before => simp [executing] at before
      | ended before => simp [executing] at before
      | executing before updates start =>
          obtain ⟨rfl, rfl, -⟩ := RunState.executing.inj (executing.symm.trans before)
          refine .executing rfl (updates.trans (List.append_cons ..)) (saves.trans ?_)
          simp [Write.saves]
  | finished executing _ => exact turned.finish executing rfl rfl saves
  | @answered outcome reading executing _ =>
      refine turned.finish executing rfl rfl (saves.trans ?_)
      by_cases finished : outcome = .finished <;> simp [finished, Write.saves]

theorem Alone.move (alone : Alone id saved s c) (awake : c.Awake) (goes : m ≠ .cancel)
    (stepped : c.step id (s.env c.request.threadId) m = some (after, writes)) :
    Alone id saved (writes.foldl (Service.write id c.request.threadId) (s.connect id after)) after := by
  have moved := moved_of_step stepped
  have turned := moved.turned goes alone.turned fun acquired => alone.asleep.mpr (Or.inr acquired)
  have asleep := alone.asleep
  have kept (unlocked : ∀ w ∈ writes, ∀ lock, w ≠ .lock lock) (request : after.request = c.request) :
      (writes.foldl (Service.write id c.request.threadId) (s.connect id after)).lock after.request.threadId =
        s.lock c.request.threadId := request ▸ lock_writes unlocked
  have tells (told : done ∈ s.events id ++ writes.filterMap Write.data) :
      done ∈ (writes.foldl (Service.write id c.request.threadId) (s.connect id after)).events id := by
    rw [events_writes, if_pos rfl]
    exact told
  have stays (unlocked : ∀ w ∈ writes, ∀ lock, w ≠ .lock lock) (request : after.request = c.request)
      (handler : after.handler = c.handler) (idle : after.run = .idle ↔ c.run = .idle) :
      Alone id saved (writes.foldl (Service.write id c.request.threadId) (s.connect id after)) after := by
    refine ⟨?_, ?_, ?_, ?_, turned⟩
    · rw [kept unlocked request, handler]
      exact alone.free
    · rw [kept unlocked request, handler]
      exact alone.owns
    · rw [handler]
      exact idle.trans asleep
    · rw [handler, request]
      exact fun stream closed => tells (List.mem_append_left _ (alone.told stream closed))
  have closes (handler : after.handler = .releasing) (request : after.request = c.request)
      (unlocked : ∀ w ∈ writes, ∀ lock, w ≠ .lock lock) (served : c.handler = .serving) (run : after.run ≠ .idle)
      (told : c.request.endpoint = .completions → done ∈ writes.filterMap Write.data) :
      Alone id saved (writes.foldl (Service.write id c.request.threadId) (s.connect id after)) after := by
    refine ⟨by simp [handler], fun _ => ?_, by simp [handler, run],
      fun stream _ => tells (List.mem_append_right _ (told (request ▸ stream))), turned⟩
    rw [kept unlocked request]
    exact alone.owns (Or.inr (Or.inl served))
  cases moved with
  | granted waiting _ =>
      refine ⟨by simp, fun _ => ?_, iff_of_true (asleep.mpr (Or.inl waiting)) (Or.inr rfl), by simp, turned⟩
      simp [Service.lock, Service.write, Service.connect, Service.env, Option.filter, lockTtl]
  | refused waiting =>
      have free : (s.env c.request.threadId).lock = none := alone.free (Or.inl waiting)
      simp [Connection.step, Connection.acquire, waiting, free] at stepped
  | started acquired =>
      refine ⟨by simp, fun _ => ?_, by simp, by simp, turned⟩
      rw [kept (by simp) rfl]
      exact alone.owns (Or.inl acquired)
  | attached spawned _ | opened spawned _ => exact stays (by simp) rfl rfl (by simp [spawned])
  | loaded attached _ => exact stays (by simp) rfl rfl (by simp [attached])
  | readQueue executing _ | pushed executing | updated executing _ | finished executing _ =>
      exact stays (by simp) rfl rfl (by simp [executing])
  | @answered outcome reading executing socket =>
      have serving := (awake.socket socket).mpr (going_of_run executing (by simp) (by simp))
      have unlocked : ∀ w ∈ if outcome = .finished then [Write.send .doneMessage] else [], ∀ lock, w ≠ .lock lock := by
        split <;> simp
      exact closes rfl rfl unlocked serving (by simp) (by simp [socket])
  | yielded _ _ _ => exact stays (by simp) rfl rfl Iff.rfl
  | ended _ serving _ ended =>
      exact closes rfl rfl (by simp) serving (by simp [ended]) (by simp [Write.data, Sent.data])
  | released releasing _ =>
      refine ⟨fun _ => ?_, by simp, ?_, fun stream _ => ?_, turned⟩
      · simp [Service.lock, Service.write, Service.connect, Option.filter]
      · simp only [releasing, reduceCtorEq, or_self, iff_false] at asleep ⊢
        exact asleep
      · exact tells (List.mem_append_left _ (alone.told stream (Or.inl releasing)))
  | expired releasing lost => exact absurd (alone.owns (Or.inr (Or.inr releasing))) lost
  | left _ | disconnected _ _ | stopped _ _ => exact absurd rfl goes

theorem Alone.next {before d : Connection} (alone : Alone id saved s c) (course : Course id before s c)
    (goes : m ≠ .cancel) (h : s.step (.move id m) = some t) (here : t.connections id = some d) :
    Alone id saved t d := by
  obtain ⟨c', found, h⟩ := Option.bind_eq_some_iff.mp h
  obtain rfl := Option.some.inj (course.found.symm.trans found)
  obtain ⟨⟨after, writes⟩, stepped, h⟩ := Option.bind_eq_some_iff.mp h
  obtain rfl := Option.some.inj h
  have later := alone.move course.awake goes stepped
  rcases moved_connections here with ⟨-, queue, rfl⟩ | ⟨different, -⟩
  · exact ⟨later.free, later.owns, later.asleep, later.told, later.turned.kept rfl rfl rfl⟩
  · exact absurd rfl different

end

theorem requests_conclude_begun : ∃ s c,
    exec Service.step (.start fun _ => none) (begins ⟨"acme", 0⟩ (question .completions "thread" "Hello")) = some s ∧
      s.connections ⟨"acme", 0⟩ = some c ∧
      Inevitable Service.step (fun _ => Action.Advances ⟨"acme", 0⟩) (Concluded ⟨"acme", 0⟩ c) s :=
  ⟨_, _, rfl, rfl,
    requests_conclude (fun _ => none) (begins ⟨"acme", 0⟩ (question .completions "thread" "Hello")) rfl rfl⟩

/-- A thread whose lock is free, or was taken ninety seconds ago, serves the next request: in whatever order its
handler and its run go on, they end with the turn over what the thread had saved, and the thread is free again. -/
theorem thread_serves (checkpoints : String → Option AgentState) (actions : List Action) {s : Service}
    (run : exec Service.step (.start checkpoints) actions = some s) {id : RequestId} {request : Request} (seconds : Nat)
    (fresh : s.connections id = none) (allowed : Service.exceeded request = none)
    (free : s.lock request.threadId = none ∨ lockTtl ≤ seconds) :
    ∃ t, exec Service.step s [.tick seconds, .arrive id request] = some t ∧
      Inevitable Service.step (fun _ => Action.Advances id)
        (Answered id request ((s.checkpoints request.threadId).getD emptyThread)) t := by
  have steady := steady_of_run run
  let later : Service := { s with now := s.now + seconds }
  let c : Connection := { request, handler := .waiting, run := .idle, consumer := .start, acquiredAt := 0 }
  have arrived : exec Service.step s [.tick seconds, .arrive id request] = some (later.connect id c) := by
    simp [Service.step, Service.arrive, fresh, allowed, later, c]
  have unlocked : (later.connect id c).lock request.threadId = none := by
    apply Option.filter_eq_none_iff.mpr
    intro lock locked live
    rcases free with none | expired
    · have dead := Option.filter_eq_none_iff.mp none lock locked
      have live : s.now + seconds < lock.expires := of_decide_eq_true live
      simp at dead
      omega
    · have soon := steady.expires _ lock locked
      have live : s.now + seconds < lock.expires := of_decide_eq_true live
      omega
  have course : Course id c (later.connect id c) c := by
    refine ⟨by simp [Service.connect], rfl, ?_, fun _ _ => by simp [unlocked, c], fun _ served => by simp [c] at served⟩
    exact ⟨by simp [c], by simp [c, Connection.Going]⟩
  have alone : Alone id ((s.checkpoints request.threadId).getD emptyThread) (later.connect id c) c :=
    ⟨fun _ => unlocked, by simp [c], by simp [c], by simp [c], .unloaded (Or.inl rfl) rfl⟩
  refine ⟨_, arrived, ?_⟩
  apply course.inevitable alone fun _ _ _ _ _ course alone goes h here => alone.next course goes h here
  intro t d course alone gone stopped
  have request : d.request = request := course.request
  subst request
  have started : d.run ≠ .idle := fun idle => by simpa [gone] using alone.asleep.mp idle
  have ended : d.run = .ended := by
    by_contra goes
    exact stopped ⟨started, goes⟩
  refine ⟨⟨d, course.found, rfl, gone, ended⟩, ?_, alone.free (Or.inr gone),
    fun stream => alone.told stream (Or.inr gone)⟩
  cases alone.turned with
  | unloaded before => simp [ended] at before
  | executing before => simp [ended] at before
  | ended _ saves => exact saves

/-- A request that is cancelled between its lock and its turn. -/
def abandoned (id : RequestId) (request : Request) : List Action :=
  [.arrive id request, .move id .acquire, .move id .cancel]

theorem thread_serves_after_abandoned : ∃ s,
    exec Service.step (.start fun _ => none)
      (abandoned ⟨"acme", 0⟩ (question .completions "thread" "Hello")) = some s ∧
    ∃ t, exec Service.step s [.tick 90, .arrive ⟨"acme", 1⟩ (question .completions "thread" "Hello")] = some t ∧
      Inevitable Service.step (fun _ => Action.Advances ⟨"acme", 1⟩)
        (Answered ⟨"acme", 1⟩ (question .completions "thread" "Hello") emptyThread) t :=
  ⟨_, rfl, thread_serves (fun _ => none) (abandoned ⟨"acme", 0⟩ (question .completions "thread" "Hello")) rfl 90 rfl rfl
    (Or.inr (Nat.le_refl 90))⟩

end CuckooEcho.Chat
