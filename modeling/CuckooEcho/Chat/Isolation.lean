import CuckooEcho.Chat.TokenQueue
import CuckooEcho.Lib.Noninterference

namespace CuckooEcho.Chat
open Lib Agent

/-! ## What a tenant receives without another -/

def Action.tenant : Action → Option String
  | .arrive id _ | .move id _ | .get id _ => some id.tenant
  | .tick _ => none

def Action.named : Action → Option String
  | .arrive _ request => some request.threadId
  | .get _ threadId => some threadId
  | .move _ _ | .tick _ => none

def Action.chatted : Action → Option String
  | .arrive _ request => some request.threadId
  | .get _ _ | .move _ _ | .tick _ => none

def without (tenant : String) (a : Action) : Bool := a.tenant ≠ some tenant

def Service.received (s : Service) (tenant : String) : List (RequestId × Sent) :=
  s.sent.filter fun delivery => delivery.1.tenant = tenant

/-- All that a tenant receives, and the states that its threads are left in, are as if the other tenant had
sent nothing. -/
def Undisturbed (tenant other : String) (checkpoints : String → Option AgentState) (actions : List Action) : Prop :=
  ∀ s, exec Service.step (.start checkpoints) actions = some s →
    ∃ t, exec Service.step (.start checkpoints) (actions.filter (without other)) = some t ∧
      s.received tenant = t.received tenant ∧
      ∀ a ∈ actions, a.tenant = some tenant → ∀ threadId ∈ a.named,
        s.checkpoints threadId = t.checkpoints threadId

/-- No thread that somebody else names is one that the tenant chats on. -/
def ThreadsApart (other : String) (actions : List Action) : Prop :=
  ∀ a ∈ actions, ∀ b ∈ actions, a.tenant ≠ some other → b.tenant = some other →
    ∀ threadId ∈ a.named, threadId ∉ b.chatted

instance (other : String) (actions : List Action) : Decidable (ThreadsApart other actions) :=
  inferInstanceAs (Decidable (∀ a ∈ actions, ∀ b ∈ actions, a.tenant ≠ some other → b.tenant = some other →
    ∀ threadId ∈ a.named, threadId ∉ b.chatted))

/-- A run of the tenant reads no queue of somebody else, and nobody else's run reads what a stream of the
tenant has left. -/
def QueueApart (other : String) (s : Service) : Action → Prop
  | .move id m => m = .readQueue → ∀ c ∈ s.connections id, c.upcoming = [] ∨
      if id.tenant = other then ∀ q ∈ s.tokenQueue, q.tenant = other else ∀ w ∈ s.writer, w.tenant ≠ other
  | _ => True

instance (other : String) (s : Service) : (a : Action) → Decidable (QueueApart other s a)
  | .move id m => inferInstanceAs (Decidable (m = .readQueue → ∀ c ∈ s.connections id, c.upcoming = [] ∨
      if id.tenant = other then ∀ q ∈ s.tokenQueue, q.tenant = other else ∀ w ∈ s.writer, w.tenant ≠ other))
  | .arrive _ _ | .get _ _ | .tick _ => isTrue trivial

/-! ## States alike but for one tenant -/

structure Alike (other : String) (named : String → Prop) (s t : Service) : Prop where
  now : s.now = t.now
  locks : ∀ threadId, named threadId → s.locks (lockKey threadId) = t.locks (lockKey threadId)
  checkpoints : ∀ threadId, named threadId → s.checkpoints threadId = t.checkpoints threadId
  connections : ∀ id, id.tenant ≠ other → s.connections id = t.connections id
  sent : s.sent.filter (fun delivery => delivery.1.tenant ≠ other) =
    t.sent.filter fun delivery => delivery.1.tenant ≠ other
  queue : (∀ w ∈ s.writer, w.tenant ≠ other) → s.tokenQueue = t.tokenQueue ∧ s.writer = t.writer
  attached : ∀ q ∈ s.tokenQueue, s.writer = some q
  threads : ∀ id c, s.connections id = some c → (named c.request.threadId ↔ id.tenant ≠ other)
  reading : ∀ id c pending outcome left, s.connections id = some c → c.run = .executing pending outcome (some left) →
    ∀ token ∈ left, ∀ q ∈ token.1, (q.tenant = other ↔ id.tenant = other)

def OwnWrite (other : String) (id : RequestId) : Write → Prop
  | .token queue _ => ∀ q ∈ queue, (q.tenant = other ↔ id.tenant = other)
  | .tokenQueue queue => ∀ q ∈ queue, q = id
  | _ => True

section
variable {other : String} {named : String → Prop} {s t : Service} {id : RequestId} {threadId : String}

theorem Moved.ownWrites {env : Env} {c after : Connection} {m : Move} {writes : List Write}
    (moved : Moved id env c m after writes)
    (reading : ∀ pending outcome left, c.run = .executing pending outcome (some left) →
      ∀ token ∈ left, ∀ q ∈ token.1, (q.tenant = other ↔ id.tenant = other)) :
    ∀ w ∈ writes, OwnWrite other id w := by
  cases moved with
  | pushed executing =>
      intro w here
      obtain rfl := List.mem_singleton.mp here
      exact reading _ _ _ executing _ List.mem_cons_self
  | answered executing socket =>
      split <;> simp [OwnWrite]
  | _ => simp [OwnWrite]

theorem Alike.reconnect (alike : Alike other named s t) {cs ct : RequestId → Option Connection}
    (connections : ∀ id, id.tenant ≠ other → cs id = ct id)
    (threads : ∀ id c, cs id = some c → (named c.request.threadId ↔ id.tenant ≠ other))
    (reading : ∀ id c pending outcome left, cs id = some c → c.run = .executing pending outcome (some left) →
      ∀ token ∈ left, ∀ q ∈ token.1, (q.tenant = other ↔ id.tenant = other)) :
    Alike other named { s with connections := cs } { t with connections := ct } :=
  ⟨alike.now, alike.locks, alike.checkpoints, connections, alike.sent, alike.queue, alike.attached, threads, reading⟩

theorem Alike.put_threads (alike : Alike other named s t) {queue : Option RequestId} {text : String}
    {c : Connection} (found : (s.put queue text).connections id = some c) :
    named c.request.threadId ↔ id.tenant ≠ other := by
  obtain ⟨before, here, consumer, rfl⟩ := put_connections found
  exact alike.threads id before here

theorem Alike.put_reading (alike : Alike other named s t) {queue : Option RequestId} {text : String}
    {c : Connection} {pending : List AgentUpdate} {outcome : StateGraph.Outcome}
    {left : List (Option RequestId × String)} (found : (s.put queue text).connections id = some c)
    (run : c.run = .executing pending outcome (some left)) :
    ∀ token ∈ left, ∀ q ∈ token.1, (q.tenant = other ↔ id.tenant = other) := by
  obtain ⟨before, here, consumer, rfl⟩ := put_connections found
  exact alike.reading id before pending outcome left here run

theorem Alike.put_both (alike : Alike other named s t) (queue : Option RequestId) (text : String) :
    Alike other named (s.put queue text) (t.put queue text) := by
  refine alike.reconnect (fun id visible => ?_) (fun id c found => alike.put_threads found)
    (fun id c pending outcome left found run => alike.put_reading found run)
  cases queue with
  | none => exact alike.connections id visible
  | some q =>
      by_cases same : id = q
      · subst same
        simp only [Service.offerTo, Function.update_self, alike.connections id visible]
      · simp only [Service.offerTo, Function.update_of_ne same, alike.connections id visible]

theorem Alike.put_hidden (alike : Alike other named s t) {queue : Option RequestId} (text : String)
    (hidden : ∀ q ∈ queue, q.tenant = other) : Alike other named (s.put queue text) t := by
  have same (id : RequestId) (visible : id.tenant ≠ other) :
      Service.offerTo queue text s.connections id = t.connections id := by
    cases queue with
    | none => exact alike.connections id visible
    | some q =>
        have different : id ≠ q := by
          rintro rfl
          exact visible (hidden id rfl)
        simp only [Service.offerTo, Function.update_of_ne different, alike.connections id visible]
  exact alike.reconnect same (fun id c found => alike.put_threads found)
    (fun id c pending outcome left found run => alike.put_reading found run)

theorem Alike.write_both (alike : Alike other named s t) {w : Write} (own : OwnWrite other id w) :
    Alike other named (s.write id threadId w) (t.write id threadId w) := by
  cases w with
  | lock lock =>
      refine ⟨alike.now, fun other' there => ?_, alike.checkpoints, alike.connections, alike.sent, alike.queue,
        alike.attached, alike.threads, alike.reading⟩
      simp only [Service.write, Function.update_apply, alike.locks other' there]
  | checkpoint state =>
      refine ⟨alike.now, alike.locks, fun other' there => ?_, alike.connections, alike.sent, alike.queue,
        alike.attached, alike.threads, alike.reading⟩
      simp only [Service.write, Function.update_apply, alike.checkpoints other' there]
  | tokenQueue queue =>
      refine ⟨alike.now, alike.locks, alike.checkpoints, alike.connections, alike.sent, fun _ => ⟨rfl, rfl⟩, ?_,
        alike.threads, alike.reading⟩
      exact fun q attached => congrArg some (own q attached).symm
  | token queue text =>
      have put := alike.put_both queue text
      exact ⟨put.now, put.locks, put.checkpoints, put.connections, put.sent, put.queue, put.attached, put.threads,
        put.reading⟩
  | send sent =>
      refine ⟨alike.now, alike.locks, alike.checkpoints, alike.connections, ?_, alike.queue, alike.attached,
        alike.threads, alike.reading⟩
      simp only [Service.write, List.filter_append, alike.sent]

theorem Alike.write_hidden (alike : Alike other named s t) (hidden : id.tenant = other) (elsewhere : ¬ named threadId)
    {w : Write} (own : OwnWrite other id w) : Alike other named (s.write id threadId w) t := by
  cases w with
  | lock lock =>
      refine ⟨alike.now, fun other' there => ?_, alike.checkpoints, alike.connections, alike.sent, alike.queue,
        alike.attached, alike.threads, alike.reading⟩
      have different : lockKey other' ≠ lockKey threadId := fun same => elsewhere (lockKey_injective same ▸ there)
      simp only [Service.write, Function.update_of_ne different, alike.locks other' there]
  | checkpoint state =>
      refine ⟨alike.now, alike.locks, fun other' there => ?_, alike.connections, alike.sent, alike.queue,
        alike.attached, alike.threads, alike.reading⟩
      have different : other' ≠ threadId := fun same => elsewhere (same ▸ there)
      simp only [Service.write, Function.update_of_ne different, alike.checkpoints other' there]
  | tokenQueue queue =>
      refine ⟨alike.now, alike.locks, alike.checkpoints, alike.connections, alike.sent, ?_, ?_, alike.threads,
        alike.reading⟩
      · exact fun nobody => absurd hidden (nobody id rfl)
      · exact fun q attached => congrArg some (own q attached).symm
  | token queue text =>
      have put := alike.put_hidden text fun q here => (own q here).mpr hidden
      exact ⟨put.now, put.locks, put.checkpoints, put.connections, put.sent, put.queue, put.attached, put.threads,
        put.reading⟩
  | send sent =>
      refine ⟨alike.now, alike.locks, alike.checkpoints, alike.connections, ?_, alike.queue, alike.attached,
        alike.threads, alike.reading⟩
      rw [Service.write, List.filter_append, alike.sent]
      simp [hidden]

theorem Alike.writes_both {writes : List Write} (alike : Alike other named s t)
    (own : ∀ w ∈ writes, OwnWrite other id w) :
    Alike other named (writes.foldl (Service.write id threadId) s) (writes.foldl (Service.write id threadId) t) := by
  induction writes generalizing s t with
  | nil => exact alike
  | cons w writes ih =>
      obtain ⟨here, later⟩ := List.forall_mem_cons.mp own
      exact ih (alike.write_both here) later

theorem Alike.writes_hidden {writes : List Write} (alike : Alike other named s t) (hidden : id.tenant = other)
    (elsewhere : ¬ named threadId) (own : ∀ w ∈ writes, OwnWrite other id w) :
    Alike other named (writes.foldl (Service.write id threadId) s) t := by
  induction writes generalizing s with
  | nil => exact alike
  | cons w writes ih =>
      obtain ⟨here, later⟩ := List.forall_mem_cons.mp own
      exact ih (alike.write_hidden hidden elsewhere here) later

/-! ## Moves on one side and on both -/

theorem step_congr {c : Connection} {m : Move} {env env' : Env} (now : env.now = env'.now)
    (lock : env.lock = env'.lock) (checkpoint : env.checkpoint = env'.checkpoint)
    (queue : m = .readQueue → c.upcoming = [] ∨ env.tokenQueue = env'.tokenQueue) :
    c.step id env m = c.step id env' m := by
  cases m with
  | acquire => simp only [Connection.step, Connection.acquire, now, lock]
  | load => simp only [Connection.step, Connection.load, checkpoint]
  | release => simp only [Connection.step, Connection.release, lock]
  | readQueue =>
      simp only [Connection.step, Connection.readQueue]
      split
      · rename_i u us outcome executing
        have read : env.read u = env'.read u := by
          have upcoming : c.upcoming = tokenEffects u.effects := by simp [Connection.upcoming, executing]
          rcases queue rfl with none | same
          · simp [Env.read, ← upcoming, none]
          · rw [Env.read, Env.read, same]
        rw [read]
      · rfl
  | start | attach | pushToken | update | finish | pop | cancel => rfl

/-- The tokens that a connection still has to push stay on its own side. -/
theorem Alike.reading_after (alike : Alike other named s t) {c after : Connection} {m : Move} {writes : List Write}
    (found : s.connections id = some c) (apart : QueueApart other s (.move id m))
    (moved : Moved id (s.env threadId) c m after writes) {pending : List AgentUpdate}
    {outcome : StateGraph.Outcome} {left : List (Option RequestId × String)}
    (run : after.run = .executing pending outcome (some left)) :
    ∀ token ∈ left, ∀ q ∈ token.1, (q.tenant = other ↔ id.tenant = other) := by
  intro token member q mine
  cases moved.tokenEffect with
  | pushed executing eq wrote =>
      subst eq
      obtain ⟨-, -, same⟩ := RunState.executing.inj run
      obtain rfl := Option.some.inj same
      exact alike.reading id c _ _ _ found executing token (List.mem_cons_of_mem _ member) q mine
  | kept silent tokens reading =>
      rcases reading pending outcome left run with before | ⟨u, us, rfl, executing, rfl⟩
      · exact alike.reading id c _ _ _ found before token member q mine
      · obtain ⟨text, spoken, rfl⟩ := List.mem_map.mp member
        have upcoming : c.upcoming = tokenEffects u.effects := by simp [Connection.upcoming, executing]
        have side := (apart rfl c found).resolve_left (upcoming ▸ List.ne_nil_of_mem spoken)
        split at side
        · rename_i hidden
          exact iff_of_true (side q mine) hidden
        · rename_i visible
          exact iff_of_false (side q (alike.attached q mine)) visible

theorem Alike.connect_both (alike : Alike other named s t) {after : Connection}
    (mine : named after.request.threadId ↔ id.tenant ≠ other)
    (reading : ∀ pending outcome left, after.run = .executing pending outcome (some left) →
      ∀ token ∈ left, ∀ q ∈ token.1, (q.tenant = other ↔ id.tenant = other)) :
    Alike other named (s.connect id after) (t.connect id after) := by
  refine alike.reconnect (fun id' visible => ?_) (fun id' c found => ?_) fun id' c pending outcome left found run => ?_
  · simp only [Function.update_apply, alike.connections id' visible]
  · rcases connect_connections found with ⟨rfl, rfl⟩ | ⟨different, there⟩
    · exact mine
    · exact alike.threads id' c there
  · rcases connect_connections found with ⟨rfl, rfl⟩ | ⟨different, there⟩
    · exact reading pending outcome left run
    · exact alike.reading id' c pending outcome left there run

theorem Alike.connect_hidden (alike : Alike other named s t) {after : Connection} (hidden : id.tenant = other)
    (elsewhere : ¬ named after.request.threadId)
    (reading : ∀ pending outcome left, after.run = .executing pending outcome (some left) →
      ∀ token ∈ left, ∀ q ∈ token.1, (q.tenant = other ↔ id.tenant = other)) :
    Alike other named (s.connect id after) t := by
  have both := alike.connect_both (iff_of_false elsewhere (not_not.mpr hidden)) reading
  have same (id' : RequestId) (visible : id'.tenant ≠ other) :
      (s.connect id after).connections id' = t.connections id' := by
    have different : id' ≠ id := by
      rintro rfl
      exact visible hidden
    rw [both.connections id' visible]
    exact Function.update_of_ne different _ _
  exact ⟨alike.now, alike.locks, alike.checkpoints, same, alike.sent, alike.queue, alike.attached, both.threads,
    both.reading⟩

/-! ## Runs with and without the tenant -/

/-- The threads that the others name are apart from those that the tenant chats on. -/
def Placed (other : String) (named : String → Prop) : Action → Prop
  | .arrive id request => named request.threadId ↔ id.tenant ≠ other
  | .get id threadId => id.tenant ≠ other → named threadId
  | .move _ _ | .tick _ => True

theorem Alike.deliver_both (alike : Alike other named s t) (deliveries : List (RequestId × Sent)) :
    Alike other named { s with sent := s.sent ++ deliveries } { t with sent := t.sent ++ deliveries } :=
  ⟨alike.now, alike.locks, alike.checkpoints, alike.connections, by simp only [List.filter_append, alike.sent],
    alike.queue, alike.attached, alike.threads, alike.reading⟩

theorem Alike.deliver_hidden (alike : Alike other named s t) {deliveries : List (RequestId × Sent)}
    (hidden : ∀ delivery ∈ deliveries, delivery.1.tenant = other) :
    Alike other named { s with sent := s.sent ++ deliveries } t := by
  refine ⟨alike.now, alike.locks, alike.checkpoints, alike.connections, ?_, alike.queue, alike.attached,
    alike.threads, alike.reading⟩
  have none : deliveries.filter (fun delivery => delivery.1.tenant ≠ other) = [] := by
    rw [List.filter_eq_nil_iff]
    exact fun delivery here => by simp [hidden delivery here]
  rw [List.filter_append, none, List.append_nil, alike.sent]

theorem mirror_move {m : Move} {s' : Service} (alike : Alike other named s t) (visible : id.tenant ≠ other)
    (apart : QueueApart other s (.move id m)) (h : s.step (.move id m) = some s') :
    ∃ t', t.step (.move id m) = some t' ∧ Alike other named s' t' := by
  obtain ⟨c, found, h⟩ := Option.bind_eq_some_iff.mp h
  obtain ⟨⟨after, writes⟩, stepped, h⟩ := Option.bind_eq_some_iff.mp h
  obtain rfl := Option.some.inj h
  have moved := moved_of_step stepped
  have there : t.connections id = some c := (alike.connections id visible).symm.trans found
  have mine : named c.request.threadId := (alike.threads id c found).mpr visible
  have mirrored : c.step id (t.env c.request.threadId) m = some (after, writes) := by
    rw [← stepped]
    refine (step_congr alike.now ?_ (alike.checkpoints _ mine) fun reads => ?_).symm
    · simp only [Service.env, Service.lock, alike.now, alike.locks _ mine]
    · refine (apart reads c found).imp_right fun nobody => ?_
      rw [if_neg visible] at nobody
      exact (alike.queue nobody).1
  refine ⟨writes.foldl (Service.write id c.request.threadId) (t.connect id after), ?_, ?_⟩
  · simp [Service.step, there, mirrored]
  · refine (alike.connect_both ?_ fun _ _ _ => alike.reading_after found apart moved).writes_both ?_
    · rw [moved.request]
      exact alike.threads id c found
    · exact moved.ownWrites (alike.reading id c · · · found)

theorem hide_move {m : Move} {s' : Service} (alike : Alike other named s t) (hidden : id.tenant = other)
    (apart : QueueApart other s (.move id m)) (h : s.step (.move id m) = some s') : Alike other named s' t := by
  obtain ⟨c, after, writes, found, moved, rfl⟩ := step_move h
  have elsewhere : ¬ named c.request.threadId := fun here => (alike.threads id c found).mp here hidden
  refine (alike.connect_hidden hidden ?_ fun _ _ _ => alike.reading_after found apart moved).writes_hidden hidden
    elsewhere (moved.ownWrites (alike.reading id c · · · found))
  rwa [moved.request]

theorem visible_iff {a : Action} : without other a = true ↔ a.tenant ≠ some other := by
  simp [without]

theorem mirror_step {a : Action} {s' : Service} (alike : Alike other named s t) (visible : without other a = true)
    (placed : Placed other named a) (apart : QueueApart other s a) (h : s.step a = some s') :
    ∃ t', t.step a = some t' ∧ Alike other named s' t' := by
  rw [visible_iff] at visible
  cases a with
  | tick seconds =>
      obtain rfl := Option.some.inj h
      exact ⟨_, rfl, congrArg (· + seconds) alike.now, alike.locks, alike.checkpoints, alike.connections, alike.sent,
        alike.queue, alike.attached, alike.threads, alike.reading⟩
  | get id threadId =>
      obtain rfl := Option.some.inj h
      have here : named threadId := placed fun same => visible (congrArg some same)
      refine ⟨_, rfl, ?_⟩
      rw [alike.checkpoints threadId here]
      exact alike.deliver_both _
  | move id m => exact mirror_move alike (fun same => visible (congrArg some same)) apart h
  | arrive id request =>
      have mine : id.tenant ≠ other := fun same => visible (congrArg some same)
      obtain ⟨fresh, rfl⟩ := step_arrive h
      have there : t.connections id = none := (alike.connections id mine).symm.trans fresh
      refine ⟨t.arrive id request, by simp [Service.step, there], ?_⟩
      have placed : named request.threadId ↔ id.tenant ≠ other := placed
      unfold Service.arrive
      cases Service.exceeded request with
      | none => exact alike.connect_both placed (by simp)
      | some reason => exact (alike.connect_both placed (by simp)).deliver_both _

theorem hide_step {a : Action} {s' : Service} (alike : Alike other named s t) (hidden : without other a = false)
    (placed : Placed other named a) (apart : QueueApart other s a) (h : s.step a = some s') :
    Alike other named s' t := by
  have mine : a.tenant = some other := by simpa [without] using hidden
  cases a with
  | tick seconds => simp [Action.tenant] at mine
  | get id threadId =>
      obtain rfl := Option.some.inj h
      exact alike.deliver_hidden (by simpa [Action.tenant] using mine)
  | move id m => exact hide_move alike (Option.some.inj mine) apart h
  | arrive id request =>
      have sender : id.tenant = other := Option.some.inj mine
      obtain ⟨fresh, rfl⟩ := step_arrive h
      have elsewhere : ¬ named request.threadId := fun here => placed.mp here sender
      unfold Service.arrive
      cases Service.exceeded request with
      | none => exact alike.connect_hidden sender elsewhere (by simp)
      | some reason => exact (alike.connect_hidden sender elsewhere (by simp)).deliver_hidden (by simp [sender])

theorem isolation (other : String) (named : String → Prop) :
    Unwinding Service.step (without other) (fun s a => Placed other named a ∧ QueueApart other s a)
      (Alike other named) where
  mirror _ _ _ _ alike visible ok h := mirror_step alike visible ok.1 ok.2 h
  hide _ _ _ _ alike hidden ok h := hide_step alike hidden ok.1 ok.2 h

theorem start_alike (checkpoints : String → Option AgentState) :
    Alike other named (.start checkpoints) (.start checkpoints) :=
  ⟨rfl, fun _ _ => rfl, fun _ _ => rfl, fun _ _ => rfl, rfl, fun _ => ⟨rfl, rfl⟩, by simp [Service.start],
    by simp [Service.start], by simp [Service.start]⟩

theorem Alike.received (alike : Alike other named s t) {tenant : String} (different : tenant ≠ other) :
    s.received tenant = t.received tenant := by
  have sift (deliveries : List (RequestId × Sent)) :
      deliveries.filter (fun delivery => delivery.1.tenant = tenant) =
        (deliveries.filter fun delivery => delivery.1.tenant ≠ other).filter
          fun delivery => delivery.1.tenant = tenant := by
    rw [List.filter_filter]
    refine List.filter_congr fun delivery _ => ?_
    by_cases mine : delivery.1.tenant = tenant
    · simp [mine, different]
    · simp [mine]
  rw [Service.received, Service.received, sift s.sent, alike.sent, ← sift t.sent]

end

/-- A tenant is undisturbed by another that chats on threads of its own, if no run of the one reads what a
stream of the other has left in the token queue. -/
theorem undisturbed_of_apart {tenant other : String} (different : tenant ≠ other)
    (checkpoints : String → Option AgentState) (actions : List Action) (threads : ThreadsApart other actions)
    (queue : Along Service.step (QueueApart other) (.start checkpoints) actions) :
    Undisturbed tenant other checkpoints actions := by
  intro s run
  let named (threadId : String) : Prop := ∃ a ∈ actions, a.tenant ≠ some other ∧ threadId ∈ a.named
  have placed : ∀ a ∈ actions, ∀ _ : Service, Placed other named a := by
    intro a here _
    cases a with
    | arrive id request =>
        constructor
        · rintro ⟨b, there, notOther, names⟩ mine
          exact threads b there _ here notOther (congrArg some mine) _ names rfl
        · exact fun mine => ⟨_, here, fun same => mine (Option.some.inj same), rfl⟩
    | get id threadId => exact fun mine => ⟨_, here, fun same => mine (Option.some.inj same), rfl⟩
    | move id m => trivial
    | tick seconds => trivial
  obtain ⟨t, run', alike⟩ := (isolation other named).purge (start_alike checkpoints)
    ((along_of_mem placed _).and queue) run
  refine ⟨t, run', alike.received different, fun a here mine threadId names => ?_⟩
  exact alike.checkpoints threadId ⟨a, here, by simpa [mine] using different, names⟩

/-- A tenant that reads the history of a thread is given what another has said on it. -/
theorem history_leaks : ¬ ∀ actions : List Action, Undisturbed "shop" "rival" (fun _ => none) actions := by
  intro claim
  let actions : List Action :=
    begins ⟨"rival", 1⟩ (question .completions "thread" "内部价一百元") ++ [.get ⟨"shop", 1⟩ "thread"]
  have told : (exec Service.step (.start fun _ => none) actions).map (·.received "shop") =
      some [(⟨"shop", 1⟩, .history [userMessage "内部价一百元"])] := by decide +kernel
  have untold : (exec Service.step (.start fun _ => none) (actions.filter (without "rival"))).map
      (·.received "shop") = some [(⟨"shop", 1⟩, .history [])] := by decide +kernel
  obtain ⟨s, run, told⟩ := Option.map_eq_some_iff.mp told
  obtain ⟨t, run', same, -⟩ := claim actions s run
  rw [run', Option.map_some, Option.some.injEq, ← same, told] at untold
  exact absurd untold (by decide)

def oneStream : List Action :=
  begins ⟨"shop", 1⟩ (answering "first" "你好") ++
    Move.of ⟨"shop", 1⟩ [.update, .update, .update, .readQueue, .pushToken, .pop, .update, .update, .update,
      .finish, .pop, .release]

def twoTenants : List Action :=
  [.arrive ⟨"rival", 1⟩ (answering "second" "在吗"), .move ⟨"rival", 1⟩ .acquire, .move ⟨"rival", 1⟩ .start] ++
    oneStream ++
    Move.of ⟨"rival", 1⟩ [.attach, .load, .update, .update, .update, .readQueue, .pushToken, .update, .update,
      .update, .finish, .pop, .pop, .release] ++
    [.get ⟨"shop", 2⟩ "first"]

theorem undisturbed_of_apart_twoTenants : Undisturbed "shop" "rival" (fun _ => none) twoTenants :=
  undisturbed_of_apart (by decide) _ _ (by decide +kernel) (by decide +kernel)

end CuckooEcho.Chat
