import CuckooEcho.Chat.Service

namespace CuckooEcho.Chat
open Lib Agent

/-! ## One run for each thread -/

def RunState.executes : RunState → Bool
  | .executing .. => true
  | _ => false

def Exclusive (s : Service) : Prop :=
  ∀ i j c d, s.connections i = some c → s.connections j = some d → c.request.threadId = d.request.threadId →
    c.run.executes = true → d.run.executes = true → i = j

def Connection.Going (c : Connection) : Prop := c.run ≠ .idle ∧ c.run ≠ .ended

def Connection.Unfinished (c : Connection) : Prop := c.handler = .acquired ∨ c.Going

/-- No client leaves a stream before its run is over, and no run outlasts its lock. -/
def EndsInTime (s : Service) : Action → Prop
  | .move id .cancel => ∀ c, s.connections id = some c → c.handler = .serving →
      c.request.endpoint = .completions → c.run = .ended
  | .tick seconds => ∀ id c, s.connections id = some c → c.Unfinished → s.now + seconds < c.acquiredAt + lockTtl
  | _ => True

/-! ## Every unfinished run holds its lock -/

structure Held (s : Service) : Prop where
  lock : ∀ id c, s.connections id = some c → c.Unfinished →
    s.locks (lockKey c.request.threadId) = some ⟨id, c.acquiredAt + lockTtl⟩ ∧ s.now < c.acquiredAt + lockTtl
  serving : ∀ id c, s.connections id = some c → c.Going → c.handler = .serving

theorem held_exclusive {s : Service} (held : Held s) : Exclusive s := by
  intro i j c d here there same executing executing'
  have going {e : Connection} (executing : e.run.executes = true) : e.Unfinished := by
    refine Or.inr ⟨fun idle => ?_, fun ended => ?_⟩
    · simp [idle, RunState.executes] at executing
    · simp [ended, RunState.executes] at executing
  have mine := (held.lock i c here (going executing)).1
  have other := (held.lock j d there (going executing')).1
  rw [same, other] at mine
  exact (congrArg Lock.owner (Option.some.inj mine)).symm

inductive LockEffect (id : RequestId) (env : Env) (c after : Connection) (writes : List Write) : Prop
  | granted (free : env.lock = none) (moved : after = { c with handler := .acquired, acquiredAt := env.now })
      (wrote : writes = [.lock (some ⟨id, env.now + lockTtl⟩)])
  | released (held : env.lock.map (·.owner) = some id) (moved : after = { c with handler := .gone })
      (wrote : writes = [.lock none])
  | kept (since : after.acquiredAt = c.acquiredAt) (unlocked : ∀ w ∈ writes, ∀ lock, w ≠ .lock lock)
      (unfinished : after.Unfinished → c.Unfinished)

section
variable {id : RequestId} {env : Env} {c after : Connection} {m : Move} {writes : List Write}

theorem Connection.Going.unfinished (going : c.Going) : c.Unfinished := Or.inr going

theorem going_of_run {run : RunState} (here : c.run = run) (start : run ≠ .idle) (rest : run ≠ .ended) : c.Going := by
  rw [Connection.Going, here]
  exact ⟨start, rest⟩

theorem Moved.lockEffect (moved : Moved id env c m after writes) : LockEffect id env c after writes := by
  cases moved with
  | granted waiting free => exact .granted free rfl rfl
  | released releasing held => exact .released held rfl rfl
  | started acquired => exact .kept rfl (by simp) fun _ => Or.inl acquired
  | attached spawned _ | opened spawned _ =>
      exact .kept rfl (by simp) fun _ => (going_of_run spawned (by simp) (by simp)).unfinished
  | loaded attached _ => exact .kept rfl (by simp) fun _ => (going_of_run attached (by simp) (by simp)).unfinished
  | readQueue executing _ | pushed executing | updated executing _ | finished executing _ =>
      exact .kept rfl (by simp) fun _ => (going_of_run executing (by simp) (by simp)).unfinished
  | answered executing _ =>
      refine .kept rfl ?_ fun _ => (going_of_run executing (by simp) (by simp)).unfinished
      split <;> simp
  | yielded _ _ _ => exact .kept rfl (by simp) fun unfinished => unfinished
  | refused _ | ended _ _ _ _ | expired _ _ | left _ | disconnected _ _ =>
      refine .kept rfl (by simp) ?_
      rintro (acquired | going)
      · simp at acquired
      · exact Or.inr going
  | stopped _ _ => exact .kept rfl (by simp) (by simp [Connection.Unfinished, Connection.Going])

theorem Moved.serving (moved : Moved id env c m after writes) (serving : c.Going → c.handler = .serving)
    (stays : m = .cancel → c.handler = .serving → c.request.endpoint = .completions → c.run = .ended) :
    after.Going → after.handler = .serving := by
  intro going
  cases moved with
  | granted waiting _ | refused waiting =>
      have := serving going
      simp [waiting] at this
  | released releasing _ | expired releasing _ =>
      have := serving going
      simp [releasing] at this
  | left idle =>
      have := serving going
      simp [this] at idle
  | started _ => rfl
  | attached spawned _ | opened spawned _ => exact serving (going_of_run spawned (by simp) (by simp))
  | loaded attached _ => exact serving (going_of_run attached (by simp) (by simp))
  | readQueue executing _ | pushed executing | updated executing _ =>
      exact serving (going_of_run executing (by simp) (by simp))
  | finished executing _ | answered executing _ => simp [Connection.Going] at going
  | yielded _ here _ => exact here
  | ended _ _ _ ended => exact absurd ended going.2
  | disconnected here stream => exact absurd (stays rfl here stream) going.2
  | stopped here _ => simp [Connection.Going] at going

end

section
variable {s t : Service} {id : RequestId} {m : Move}

theorem writes_locks {threadId : String} {writes : List Write} (unlocked : ∀ w ∈ writes, ∀ lock, w ≠ .lock lock) :
    (writes.foldl (Service.write id threadId) s).locks = s.locks := by
  induction writes generalizing s with
  | nil => rfl
  | cons w writes ih =>
      obtain ⟨here, later⟩ := List.forall_mem_cons.mp unlocked
      rw [List.foldl_cons, ih later]
      cases w with
      | lock lock => exact absurd rfl (here lock)
      | token | tokenQueue | checkpoint | send => rfl

theorem Held.lockOf (held : Held s) {c : Connection} (found : s.connections id = some c) (unfinished : c.Unfinished) :
    s.lock c.request.threadId = some ⟨id, c.acquiredAt + lockTtl⟩ := by
  obtain ⟨locked, inTime⟩ := held.lock id c found unfinished
  simp [Service.lock, locked, Option.filter, inTime]

theorem Held.elsewhere (held : Held s) {d : Connection} {other : RequestId} (there : s.connections other = some d)
    (unfinished : d.Unfinished) {threadId : String} (free : s.lock threadId ≠ some ⟨other, d.acquiredAt + lockTtl⟩) :
    lockKey d.request.threadId ≠ lockKey threadId := by
  intro same
  have taken := held.lockOf there unfinished
  rw [lockKey_injective same] at taken
  exact free taken

theorem held_move (held : Held s) (stays : EndsInTime s (.move id m)) (h : s.step (.move id m) = some t) :
    Held t := by
  obtain ⟨c, after, writes, found, moved, rfl⟩ := step_move h
  have serves := moved.serving (held.serving id c found) (by
    rintro rfl
    exact stays c found)
  have request := moved.request
  have now (threadId : String) :
      (writes.foldl (Service.write id threadId) (s.connect id after)).now = s.now := writes_now _
  constructor
  · intro other d here unfinished
    rw [now]
    cases moved.lockEffect with
    | granted free eq wrote =>
        subst eq wrote
        rcases moved_connections here with ⟨rfl, consumer, rfl⟩ | ⟨different, d', there, consumer, rfl⟩
        · refine ⟨?_, Nat.lt_add_of_pos_right (by decide)⟩
          simp [Service.write, Service.connect, Service.env]
        · obtain ⟨locked, inTime⟩ := held.lock other d' there unfinished
          refine ⟨?_, inTime⟩
          have elsewhere : lockKey d'.request.threadId ≠ lockKey c.request.threadId :=
            held.elsewhere there unfinished fun taken => absurd (free.symm.trans taken) (by simp)
          simpa [Service.write, Service.connect, Function.update_of_ne elsewhere] using locked
    | released mine eq wrote =>
        subst eq wrote
        rcases moved_connections here with ⟨rfl, consumer, rfl⟩ | ⟨different, d', there, consumer, rfl⟩
        · rcases unfinished with acquired | going
          · simp at acquired
          · exact absurd (serves going) (by simp)
        · obtain ⟨locked, inTime⟩ := held.lock other d' there unfinished
          refine ⟨?_, inTime⟩
          have elsewhere : lockKey d'.request.threadId ≠ lockKey c.request.threadId := by
            refine held.elsewhere there unfinished fun taken => different ?_
            rw [show (s.env c.request.threadId).lock = s.lock c.request.threadId from rfl, taken] at mine
            exact Option.some.inj mine
          simpa [Service.write, Service.connect, Function.update_of_ne elsewhere] using locked
    | kept since unlocked still =>
        rw [writes_locks unlocked]
        rcases moved_connections here with ⟨rfl, consumer, rfl⟩ | ⟨different, d', there, consumer, rfl⟩
        · have before := held.lock other c found (still unfinished)
          rw [← since, ← request] at before
          exact before
        · exact held.lock other d' there unfinished
  · intro other d here going
    rcases moved_connections here with ⟨rfl, consumer, rfl⟩ | ⟨different, d', there, consumer, rfl⟩
    · exact serves going
    · exact held.serving other d' there going

theorem held_step {a : Action} (held : Held s) (stays : EndsInTime s a) (h : s.step a = some t) : Held t := by
  cases a with
  | move id m => exact held_move held stays h
  | get id threadId =>
      obtain rfl := Option.some.inj h
      exact ⟨held.lock, held.serving⟩
  | tick seconds =>
      obtain rfl := Option.some.inj h
      exact ⟨fun id c here unfinished => ⟨(held.lock id c here unfinished).1, stays id c here unfinished⟩, held.serving⟩
  | arrive id request =>
      obtain ⟨-, rfl⟩ := step_arrive h
      constructor
      · intro other d here unfinished
        rcases arrive_connections here with ⟨rfl, -, idle, -, handler⟩ | ⟨different, there⟩
        · rcases unfinished with acquired | going
          · simp [acquired] at handler
          · exact absurd idle going.1
        · simpa using held.lock other d there unfinished
      · intro other d here going
        rcases arrive_connections here with ⟨rfl, -, idle, -, handler⟩ | ⟨different, there⟩
        · exact absurd idle going.1
        · exact held.serving other d there going

theorem start_held (checkpoints : String → Option AgentState) : Held (.start checkpoints) :=
  ⟨fun id c here => by simp [Service.start] at here, fun id c here => by simp [Service.start] at here⟩

end

/-- As long as clients stay until their run is over and runs end before their lock expires, no two runs of
one thread ever execute at once. -/
theorem exclusive_of_endsInTime (checkpoints : String → Option AgentState) (actions : List Action)
    (inTime : Along Service.step EndsInTime (.start checkpoints) actions) :
    Throughout Service.step Exclusive (.start checkpoints) actions :=
  (throughout_of_along (fun _ _ _ held stays h => held_step held stays h) (start_held checkpoints) inTime).mono
    fun _ held => held_exclusive held

/-! ## A run that loses its lock -/

/-- The lock of a stream is released when its client leaves, though the run goes on. -/
theorem disconnect_unlocks {s : Service} {i : RequestId} {c : Connection} (held : Held s)
    (found : s.connections i = some c) (stream : c.request.endpoint = .completions) (going : c.Going) :
    ∃ t, exec Service.step s [.move i .cancel, .move i .release] = some t ∧
      t.connections i = some { c with handler := .gone } ∧ t.lock c.request.threadId = none := by
  have serving := held.serving i c found going
  have locked := held.lockOf found going.unfinished
  let left : Connection := { c with handler := .releasing }
  have cancelled : s.step (.move i .cancel) = some (s.connect i left) := by
    simp [Service.step, found, Connection.step, Connection.cancel, serving, stream, left]
  have mine : ((s.connect i left).env c.request.threadId).lock.map (·.owner) = some i := congrArg (·.map (·.owner)) locked
  have released : left.step i ((s.connect i left).env c.request.threadId) .release =
      some ({ c with handler := .gone }, [.lock none]) := by
    simp only [Connection.step, Connection.release, left, mine]
    rfl
  have here : (s.connect i left).connections i = some left := Function.update_self ..
  have unlocked : (s.connect i left).step (.move i .release) =
      some (((s.connect i left).connect i { c with handler := .gone }).write i c.request.threadId (.lock none)) := by
    simp [Service.step, here, released, show left.request = c.request from rfl]
  refine ⟨_, by rw [exec_cons, cancelled, Option.bind_some, exec_cons, unlocked]; rfl, ?_, ?_⟩
  · simp [Service.write, Service.connect]
  · simp [Service.lock, Service.write, Option.filter]

/-- The lock of a run expires though the run goes on. -/
theorem tick_unlocks {s : Service} {i : RequestId} {c : Connection} {seconds : Nat} (held : Held s)
    (found : s.connections i = some c) (going : c.Going) (late : c.acquiredAt + lockTtl ≤ s.now + seconds) :
    ∃ t, s.step (.tick seconds) = some t ∧ t.connections i = some c ∧ t.lock c.request.threadId = none := by
  refine ⟨_, rfl, found, ?_⟩
  have locked := (held.lock i c found going.unfinished).1
  simp [Service.lock, locked, Option.filter, late]

/-- A run that goes on without its lock is joined by the run of any request for its thread. -/
theorem unlocked_overlaps {s : Service} {i j : RequestId} {c : Connection} {request : Request}
    (found : s.connections i = some c) (executes : c.run.executes = true)
    (unlocked : s.lock c.request.threadId = none) (fresh : s.connections j = none)
    (same : request.threadId = c.request.threadId) (allowed : Service.exceeded request = none) :
    ∃ t, exec Service.step s (begins j request) = some t ∧ ¬ Exclusive t := by
  have different : i ≠ j := by
    rintro rfl
    simp [fresh] at found
  let waiting : Connection := { request, handler := .waiting, run := .idle, consumer := .start, acquiredAt := 0 }
  let acquired : Connection := { waiting with handler := .acquired, acquiredAt := s.now }
  let spawned : Connection := { acquired with handler := .serving, run := .spawned }
  have arrived : s.step (.arrive j request) = some (s.connect j waiting) := by
    simp [Service.step, Service.arrive, fresh, allowed, waiting]
  have free : ((s.connect j waiting).env request.threadId).lock = none := by
    rw [same]
    exact unlocked
  have granted : waiting.step j ((s.connect j waiting).env request.threadId) .acquire =
      some (acquired, [.lock (some ⟨j, s.now + lockTtl⟩)]) := by
    simp only [Connection.step, Connection.acquire, waiting, free]
    rfl
  have started (env : Env) : acquired.step j env .start = some (spawned, []) := rfl
  have attached (env : Env) : ∃ writes, spawned.step j env .attach = some ({ spawned with run := .attached }, writes) ∧
      ∀ w ∈ writes, ∀ queue text, w ≠ Write.token queue text := by
    refine ⟨_, rfl, ?_⟩
    split <;> simp
  have loaded (env : Env) : ∃ run writes, ({ spawned with run := .attached } : Connection).step j env .load =
      some ({ spawned with run }, writes) ∧ run.executes = true ∧ ∀ w ∈ writes, ∀ queue text, w ≠ Write.token queue text :=
    ⟨_, _, rfl, rfl, by simp⟩
  have here : (s.connect j waiting).connections j = some waiting := Function.update_self ..
  obtain ⟨s₁, step₁, connections₁⟩ := silent_move here granted (by simp)
  have here₁ : s₁.connections j = some acquired := by rw [connections₁, Function.update_self]
  obtain ⟨s₂, step₂, connections₂⟩ := silent_move here₁ (started _) (by simp)
  have here₂ : s₂.connections j = some spawned := by rw [connections₂, Function.update_self]
  obtain ⟨writes₃, move₃, silent₃⟩ := attached (s₂.env spawned.request.threadId)
  obtain ⟨s₃, step₃, connections₃⟩ := silent_move here₂ move₃ silent₃
  have here₃ : s₃.connections j = some { spawned with run := .attached } := by rw [connections₃, Function.update_self]
  obtain ⟨run, writes₄, move₄, running, silent₄⟩ := loaded (s₃.env spawned.request.threadId)
  obtain ⟨t, step₄, connections₄⟩ := silent_move here₃ move₄ silent₄
  refine ⟨t, by simp [begins, arrived, step₁, step₂, step₃, step₄], fun exclusive => different ?_⟩
  refine exclusive i j c _ ?_ (by rw [connections₄, Function.update_self]) same.symm executes running
  simpa [connections₄, connections₃, connections₂, connections₁, Service.connect, different] using found

/-- The client of the first stream leaves, and asks again while the first run goes on. -/
def askedAgain : List Action :=
  begins ⟨"shop", 1⟩ (question .completions "thread" "你好") ++ [.move ⟨"shop", 1⟩ .cancel, .move ⟨"shop", 1⟩ .release] ++
    begins ⟨"shop", 2⟩ (question .completions "thread" "在吗")

def executing (s : Service) (id : RequestId) : Option String :=
  (s.connections id).bind fun c => if c.run.executes then some c.request.threadId else none

theorem askedAgain_overlaps : ¬ ∀ actions : List Action,
    Throughout Service.step Exclusive (.start fun _ => none) actions := by
  intro claim
  have seen : (exec Service.step (.start fun _ => none) askedAgain).map
      (fun s => (executing s ⟨"shop", 1⟩, executing s ⟨"shop", 2⟩)) = some (some "thread", some "thread") := by
    decide +kernel
  obtain ⟨s, run, seen⟩ := Option.map_eq_some_iff.mp seen
  obtain ⟨first, second⟩ := Prod.mk.inj seen
  obtain ⟨c, here, first⟩ := Option.bind_eq_some_iff.mp first
  obtain ⟨d, there, second⟩ := Option.bind_eq_some_iff.mp second
  obtain ⟨executes, thread⟩ := Option.ite_none_right_eq_some.mp first
  obtain ⟨executes', thread'⟩ := Option.ite_none_right_eq_some.mp second
  have same : c.request.threadId = d.request.threadId := by
    rw [Option.some.inj thread, Option.some.inj thread']
  exact absurd ((claim askedAgain).last run _ _ c d here there same executes executes') (by decide)

/-- A second request while the first run executes is refused. -/
theorem exclusive_of_endsInTime_refused : Throughout Service.step Exclusive (.start fun _ => none)
    (begins ⟨"shop", 1⟩ (question .completions "thread" "你好") ++
      [.arrive ⟨"shop", 2⟩ (question .webSocket "thread" "在吗"), .move ⟨"shop", 2⟩ .acquire]) :=
  exclusive_of_endsInTime _ _ (along_of_mem (by simp [begins, EndsInTime]) _)

end CuckooEcho.Chat
