import CuckooEcho.Frontend.WsConnection
import CuckooEcho.Frontend.SseConnection
import CuckooEcho.Lib.Backoff

namespace CuckooEcho.Frontend
open Lib

/-! ## The socket's reconnects -/

namespace WsClient
section
variable {ω : Type*}

/-- The timers that the step has set for a reconnect. -/
def scheduled (m m' : WsClient ω) : List (Timeout ω) := m'.timeouts.filter fun t => m.timers ≤ t.id

def Act.opens : Act ω → Bool
  | .onOpen _ => true
  | _ => false

/-- An open event, and the delays with which reconnects are scheduled. -/
def signals (m : WsClient ω) (act : Act ω) (m' : WsClient ω) : List Signal :=
  (if act.opens then [.reset] else []) ++ (scheduled m m').map fun t => .wait t.delay

/-- The pending timers have been numbered. -/
def Numbered (m : WsClient ω) : Prop := ∀ t ∈ m.timeouts, t.id < m.timers

/-- No timer is set. -/
structure Calm (m m' : WsClient ω) : Prop where
  reconnectDelay : m'.reconnectDelay = m.reconnectDelay
  timeouts : ∀ t ∈ m'.timeouts, t ∈ m.timeouts
  timers : m'.timers = m.timers

variable {valid : ω → Bool} {m m' m'' : WsClient ω}

theorem Calm.refl (m : WsClient ω) : Calm m m := ⟨rfl, fun _ member => member, rfl⟩

theorem Calm.trans (h : Calm m m') (h' : Calm m' m'') : Calm m m'' where
  reconnectDelay := h'.reconnectDelay.trans h.reconnectDelay
  timeouts := fun t member => h.timeouts t (h'.timeouts t member)
  timers := h'.timers.trans h.timers

theorem calm_send (m : WsClient ω) (data : String) : Calm m (m.send data) := by
  unfold send
  split
  · exact .refl m
  · split
    · exact ⟨rfl, fun _ member => member, rfl⟩
    · exact .refl m

theorem calm_stopHeartbeat (m : WsClient ω) : Calm m m.stopHeartbeat := by
  unfold stopHeartbeat
  split
  · exact .refl m
  · exact ⟨rfl, fun _ member => member, rfl⟩

theorem calm_clearReconnect (m : WsClient ω) : Calm m m.clearReconnect := by
  unfold clearReconnect
  split
  · exact .refl m
  · exact ⟨rfl, fun _ member => List.mem_of_mem_filter member, rfl⟩

theorem calm_connect (m : WsClient ω) (options : ω) : Calm m (m.connect valid options) := by
  unfold connect
  dsimp only
  split <;> exact ⟨rfl, fun _ member => member, rfl⟩

theorem calm_disconnect (m : WsClient ω) : Calm m m.disconnect := by
  have intends : Calm m { m with intentionalClose := true } := ⟨rfl, fun _ member => member, rfl⟩
  have stopped : Calm m ({ m with intentionalClose := true }.stopHeartbeat).clearReconnect :=
    (intends.trans (calm_stopHeartbeat _)).trans (calm_clearReconnect _)
  unfold disconnect
  dsimp only
  split
  · exact stopped
  · exact ⟨stopped.reconnectDelay, stopped.timeouts, stopped.timers⟩

theorem calm_setState (m : WsClient ω) (i : Nat) (state : ReadyState) :
    Calm m { m with sockets := m.sockets.modify i fun s => { s with readyState := state } } :=
  ⟨rfl, fun _ member => member, rfl⟩

theorem Calm.numbered (h : Calm m m') (numbered : Numbered m) : Numbered m' := fun t member =>
  h.timers ▸ numbered t (h.timeouts t member)

theorem Calm.scheduled (h : Calm m m') (numbered : Numbered m) : scheduled m m' = [] :=
  List.filter_eq_nil_iff.mpr fun t member => by
    simpa using numbered t (h.timeouts t member)

theorem scheduled_scheduleReconnect (h : Calm m m') (numbered : Numbered m) (options : ω) :
    scheduled m (m'.scheduleReconnect options) = [⟨m'.timers, options, m'.reconnectDelay⟩] := by
  have cleared := h.trans (calm_clearReconnect m')
  have none_else := cleared.scheduled numbered
  unfold WsClient.scheduled at none_else ⊢
  unfold scheduleReconnect
  rw [List.filter_cons_of_pos (by simp [cleared.timers]), none_else, (calm_clearReconnect m').timers,
    (calm_clearReconnect m').reconnectDelay]

theorem numbered_scheduleReconnect (numbered : Numbered m) (options : ω) : Numbered (m.scheduleReconnect options) := by
  have cleared := (calm_clearReconnect m).numbered numbered
  rintro t member
  obtain rfl | old := List.mem_cons.mp member
  · exact Nat.lt_succ_self _
  · exact Nat.lt_succ_of_lt (cleared t old)

theorem signals_of_scheduled {act : Act ω} (closed : act.opens = false) :
    signals m act m' = (scheduled m m').map fun t => .wait t.delay := by
  rw [signals, closed]
  rfl

/-- A step that sets no timer and is no open event leaves the delay as it is. -/
theorem Calm.paced (h : Calm m m') (numbered : Numbered m) {act : Act ω} (closed : act.opens = false) :
    Numbered m' ∧ Paced 1000 maxReconnectDelay m.reconnectDelay (signals m act m') m'.reconnectDelay := by
  refine ⟨h.numbered numbered, ?_⟩
  rw [signals_of_scheduled closed, h.scheduled numbered, h.reconnectDelay]
  exact .silent _

theorem paced_onOpen (numbered : Numbered m) (i : Nat) :
    Numbered (m.onOpen i) ∧
      Paced 1000 maxReconnectDelay m.reconnectDelay (signals m (.onOpen i) (m.onOpen i)) (m.onOpen i).reconnectDelay := by
  let opened : WsClient ω :=
    { m with sockets := m.sockets.modify i fun s => { s with readyState := .opened }, reconnectDelay := 1000 }
  have calm := calm_stopHeartbeat opened
  have old (t : Timeout ω) (member : t ∈ (m.onOpen i).timeouts) : t.id < m.timers :=
    numbered t (calm.timeouts t member)
  have delay : (m.onOpen i).reconnectDelay = 1000 := calm.reconnectDelay
  constructor
  · intro t member
    have timers : (m.onOpen i).timers = m.timers + 1 := congrArg (· + 1) calm.timers
    rw [timers]
    exact Nat.lt_succ_of_lt (old t member)
  · have none_set : scheduled m (m.onOpen i) = [] := List.filter_eq_nil_iff.mpr fun t member => by
      simpa using old t member
    rw [signals, none_set, delay]
    exact .reset m.reconnectDelay

theorem paced_onClose (numbered : Numbered m) (i : Nat) (options : ω) (code : Nat) :
    Numbered (m.onClose i options code) ∧
      Paced 1000 maxReconnectDelay m.reconnectDelay (signals m (.onClose i code) (m.onClose i options code))
        (m.onClose i options code).reconnectDelay := by
  have stopped := (calm_setState m i .closed).trans (calm_stopHeartbeat _)
  unfold onClose
  dsimp only
  split
  · refine ⟨numbered_scheduleReconnect (stopped.numbered numbered) options, ?_⟩
    have doubled : ∀ m' : WsClient ω,
        (m'.scheduleReconnect options).reconnectDelay = min (m'.reconnectDelay * 2) maxReconnectDelay := fun m' =>
      congrArg (fun delay => min (delay * 2) maxReconnectDelay) (calm_clearReconnect m').reconnectDelay
    rw [signals_of_scheduled rfl, scheduled_scheduleReconnect stopped numbered, doubled,
      stopped.reconnectDelay]
    exact .wait _
  · exact stopped.paced numbered rfl

theorem paced_step (numbered : Numbered m) {act : Act ω} (effect : Effect valid m act m') :
    Numbered m' ∧ Paced 1000 maxReconnectDelay m.reconnectDelay (signals m act m') m'.reconnectDelay := by
  cases effect with
  | connect options =>
      have calm : Calm m (m.connect valid options) := calm_connect m options
      exact Calm.paced ⟨calm.reconnectDelay, calm.timeouts, calm.timers⟩ numbered rfl
  | disconnect =>
      have calm := calm_disconnect m
      exact Calm.paced ⟨calm.reconnectDelay, calm.timeouts, calm.timers⟩ numbered rfl
  | send data => exact (calm_send m data).paced numbered rfl
  | onOpen found connecting => exact paced_onOpen numbered _
  | onClose code found unfinished => exact paced_onClose numbered _ _ code
  | onError i => exact (Calm.refl m).paced numbered rfl
  | heartbeat id data => exact (calm_send m data).paced numbered rfl
  | @reconnect id t found =>
      have fired : Calm m { m with timeouts := m.timeouts.filter (·.id ≠ t.id), reconnectTimer := none } :=
        ⟨rfl, fun _ member => List.mem_of_mem_filter member, rfl⟩
      exact (fired.trans (calm_connect _ t.options)).paced numbered rfl

end

theorem backsOff_ws {ω : Type*} (valid : ω → Bool) (acts : List (Act ω)) :
    BacksOff 1000 maxReconnectDelay 0 (signalled (step valid) signals initial acts) := by
  refine backsOff_signalled Numbered reconnectDelay (by decide) ?_ ?_ (along_true _ _) rfl
  · intro m act m' numbered _ next
    exact paced_step numbered (effect_of_step next)
  · exact fun t none => absurd none List.not_mem_nil

end WsClient

/-! ## The stream's reconnects -/

/-- A client and the calls of `reconnect` that sleep, each with the delay for which it does. -/
structure SseRetries where
  client : SseClient
  sleeping : List Nat

namespace SseRetries

def initial : SseRetries := ⟨SseClient.initial, []⟩

inductive Act
  | sleep
  | wake (i : Nat)
  | other (act : SseClient.Act)
  deriving DecidableEq, Repr

/-- `reconnect` reads the delay when it is called and doubles it when it has slept. -/
def step (r : SseRetries) : Act → Option SseRetries
  | .sleep => some { r with sleeping := r.sleeping ++ [r.client.reconnectDelay] }
  | .wake i =>
      if i < r.sleeping.length then some ⟨r.client.reconnect, r.sleeping.eraseIdx i⟩ else none
  | .other .reconnect => none
  | .other act => (r.client.step act).map fun client => { r with client }

/-- No call sleeps or waits for the network. -/
def Idle (r : SseRetries) : Prop := r.sleeping = [] ∧ ∀ c ∈ r.client.connections, c.phase = .returned

/-- `connect` and `reconnect` are called one after the other. -/
def Sequential (r : SseRetries) (act : Act) : Prop := act = .sleep ∨ act = .other .connect → r.Idle

instance (r : SseRetries) : Decidable r.Idle := inferInstanceAs (Decidable (_ ∧ _))

instance (r : SseRetries) (act : Act) : Decidable (r.Sequential act) := inferInstanceAs (Decidable (_ → _))

/-- The response of a call of `connect` is ok. -/
def accepted : SseClient.Act → Bool
  | .respond _ status _ => 200 ≤ status ∧ status ≤ 299
  | _ => false

/-- A response that is ok, and the delays for which `reconnect` sleeps. -/
def signals (r : SseRetries) (act : Act) (_ : SseRetries) : List Signal :=
  match act with
  | .sleep => [.wait r.client.reconnectDelay]
  | .wake _ => []
  | .other act => if accepted act then [.reset] else []

/-- A sleeping call is the only one, and the delay is still the one that it has read. -/
structure InTurn (r : SseRetries) : Prop where
  sole : r.sleeping = [] ∨ r.sleeping = [r.client.reconnectDelay]
  returned : r.sleeping ≠ [] → ∀ c ∈ r.client.connections, c.phase = .returned

/-- The delay of the next wait. -/
def next (r : SseRetries) : Nat :=
  if r.sleeping = [] then r.client.reconnectDelay else min (r.client.reconnectDelay * 2) 30000

end SseRetries

namespace SseClient
variable {m m' : SseClient} {act : Act}

@[simp] theorem reconnectDelay_returns (i : Nat) (c : Connection) (callbacks : List Callback) :
    (m.returns i c callbacks).reconnectDelay = m.reconnectDelay := rfl

theorem reconnectDelay_respond (i : Nat) (c : Connection) (status : Nat) (hasBody : Bool) :
    (m.respond i c status hasBody).reconnectDelay =
      if 200 ≤ status ∧ status ≤ 299 then 1000 else m.reconnectDelay := by
  unfold respond
  by_cases ok : 200 ≤ status ∧ status ≤ 299
  · rw [if_neg (not_not.mpr ok), if_pos ok]
    split <;> rfl
  · rw [if_pos ok, if_neg ok]
    rfl

theorem reconnectDelay_read (i : Nat) (c : Connection) (buffer : List Char) (lastMessageId : JsString)
    (chunk : List Char) : (m.read i c buffer lastMessageId chunk).reconnectDelay = m.reconnectDelay := by
  unfold SseClient.read
  dsimp only
  split
  · rfl
  · split <;> rfl

/-- Only a response that is ok changes the delay, if `reconnect` does not. -/
theorem reconnectDelay_of_step (next : m.step act = some m') (other : act ≠ .reconnect) :
    m'.reconnectDelay = if SseRetries.accepted act then 1000 else m.reconnectDelay := by
  cases effect_of_step next with
  | connect => rfl
  | reconnect => exact absurd rfl other
  | fetchFailed err =>
      unfold fetchFailed
      split <;> rfl
  | @respond i c status hasBody => simp [reconnectDelay_respond, SseRetries.accepted]
  | @read i c buffer lastMessageId chunk => exact reconnectDelay_read i c buffer lastMessageId chunk
  | readDone => rfl
  | readFailed err =>
      unfold readFailed
      split <;> rfl
  | timedOut => rfl
  | disconnect => rfl

theorem phase_modify {connections : List Connection} (returned : ∀ c ∈ connections, c.phase = .returned) (i : Nat)
    {f : Connection → Connection} (same : ∀ c, (f c).phase = c.phase) :
    ∀ c ∈ connections.modify i f, c.phase = .returned := by
  intro c member
  obtain ⟨j, found⟩ := List.mem_iff_getElem?.mp member
  rw [List.getElem?_modify] at found
  obtain ⟨old, there, rfl⟩ := Option.map_eq_some_iff.mp found
  have here := returned old (List.mem_of_getElem? there)
  split
  · exact (same old).trans here
  · exact here

/-- While no call is running, only a timer fires or the client is disconnected, unless a call is made. -/
theorem returned_of_step (returned : ∀ c ∈ m.connections, c.phase = .returned) (next : m.step act = some m')
    (noCall : act ≠ .connect ∧ act ≠ .reconnect) :
    SseRetries.accepted act = false ∧ ∀ c ∈ m'.connections, c.phase = .returned := by
  have aborts (explicit : Bool) : ∀ c ∈ (m.disconnect explicit).connections, c.phase = .returned := by
    cases here : m.controller with
    | none => simpa [disconnect, here] using returned
    | some i =>
        simp only [disconnect, here, Option.elim_some]
        exact phase_modify returned i fun _ => rfl
  cases effect_of_step next with
  | connect => exact absurd rfl noCall.1
  | reconnect => exact absurd rfl noCall.2
  | @timedOut i => exact ⟨rfl, phase_modify (aborts false) i fun _ => rfl⟩
  | disconnect => exact ⟨rfl, aborts true⟩
  | @fetchFailed i c err found running | @respond i c status hasBody found running
  | @read i c buffer lastMessageId chunk found running | @readDone i c buffer lastMessageId found running
  | @readFailed i c buffer lastMessageId err found running =>
      rw [returned c (List.mem_of_getElem? found)] at running
      cases running

end SseClient

namespace SseRetries
variable {r r' : SseRetries}

theorem paced_step (turn : r.InTurn) {act : Act} (sequential : r.Sequential act) (next : r.step act = some r') :
    r'.InTurn ∧ Paced 1000 30000 r.next (signals r act r') r'.next := by
  cases act with
  | sleep =>
      obtain rfl := Option.some.inj next
      obtain ⟨awake, returned⟩ := sequential (.inl rfl)
      refine ⟨⟨.inr (by simp [awake]), fun _ => returned⟩, ?_⟩
      have delay : r.next = r.client.reconnectDelay := if_pos awake
      rw [delay, SseRetries.next, if_neg (by simp)]
      exact .wait _
  | wake i =>
      obtain ⟨bound, next⟩ := Option.ite_none_right_eq_some.mp next
      obtain rfl := Option.some.inj next
      have asleep : r.sleeping ≠ [] := List.ne_nil_of_length_pos (Nat.zero_lt_of_lt bound)
      have sole := turn.sole.resolve_left asleep
      have first : i = 0 := by simpa [sole] using bound
      have awake : r.sleeping.eraseIdx i = [] := by rw [sole, first]; rfl
      refine ⟨⟨.inl awake, fun asleep => absurd awake asleep⟩, ?_⟩
      have delay : r.next = min (r.client.reconnectDelay * 2) 30000 := if_neg asleep
      rw [delay, SseRetries.next, if_pos awake]
      exact .silent _
  | other act =>
      by_cases other : act = .reconnect
      · cases other
        cases next
      obtain ⟨client, there, rfl⟩ : ∃ client, r.client.step act = some client ∧ { r with client } = r' := by
        cases act <;> first | exact absurd rfl other | exact Option.map_eq_some_iff.mp next
      have delay := SseClient.reconnectDelay_of_step there other
      by_cases awake : r.sleeping = []
      · refine ⟨⟨.inl awake, fun asleep => absurd awake asleep⟩, ?_⟩
        rw [SseRetries.next, SseRetries.next, if_pos awake, if_pos awake, delay, signals]
        split
        · exact .reset _
        · exact .silent _
      · have noCall : act ≠ .connect := by
          rintro rfl
          exact awake (sequential (.inr rfl)).1
        obtain ⟨refused, returned⟩ :=
          SseClient.returned_of_step (turn.returned awake) there ⟨noCall, other⟩
        rw [refused] at delay
        refine ⟨⟨.inr (delay ▸ turn.sole.resolve_left awake), fun _ => returned⟩, ?_⟩
        rw [SseRetries.next, SseRetries.next, if_neg awake, if_neg awake, delay, signals, refused]
        exact .silent _

theorem backsOff_sse (acts : List Act) (sequential : Along step Sequential initial acts) :
    BacksOff 1000 30000 0 (signalled step signals initial acts) := by
  refine backsOff_signalled InTurn SseRetries.next (by decide) ?_ ⟨.inl rfl, fun asleep => absurd rfl asleep⟩
    sequential rfl
  exact fun r act r' turn good next => paced_step turn good next

end SseRetries

/-- Both clients wait one second before the first reconnect since the last connection that was established, twice as
long before each further one, and never more than thirty seconds. -/
theorem reconnects_back_off :
    (∀ (ω : Type) (valid : ω → Bool) (acts : List (WsClient.Act ω)),
      BacksOff 1000 30000 0 (signalled (WsClient.step valid) WsClient.signals WsClient.initial acts)) ∧
    ∀ acts : List SseRetries.Act, Along SseRetries.step SseRetries.Sequential SseRetries.initial acts →
      BacksOff 1000 30000 0 (signalled SseRetries.step SseRetries.signals SseRetries.initial acts) :=
  ⟨fun _ valid acts => WsClient.backsOff_ws valid acts, SseRetries.backsOff_sse⟩

/-- Two requests that fail, and one that is answered, between the calls of `reconnect`. -/
def retried : List SseRetries.Act :=
  [.other .connect, .other (.fetchFailed 0 ⟨"TypeError", []⟩), .sleep, .wake 0,
    .other (.fetchFailed 1 ⟨"TypeError", []⟩), .sleep, .wake 0, .other (.respond 2 200 false), .sleep]

theorem reconnects_back_off_retried :
    signalled SseRetries.step SseRetries.signals SseRetries.initial retried =
        [.wait 1000, .wait 2000, .reset, .wait 1000] ∧
      BacksOff 1000 30000 0 (signalled SseRetries.step SseRetries.signals SseRetries.initial retried) :=
  ⟨rfl, reconnects_back_off.2 retried (by decide)⟩

end CuckooEcho.Frontend
