import CuckooEcho.Frontend.SseClient
import CuckooEcho.Lib.Run

namespace CuckooEcho.Frontend
open Lib Json

/-! ## The calls of `connect` on one client -/

/-- The callbacks that end a chat stream. -/
def Callback.isVerdict : Callback → Bool
  | .onDone _ | .onError _ => true
  | .onToken .. => false

def Callback.isToken : Callback → Bool
  | .onToken .. => true
  | .onDone _ | .onError _ => false

inductive Phase
  | fetching
  | reading (buffer : List Char) (lastMessageId : JsString)
  | returned
  deriving DecidableEq, Repr

/-- One call of `connect` with the callbacks that it has made. Its signal is `aborted`, and `disconnected` tells that
a call of `disconnect` has done that while it was running. -/
structure Connection where
  phase : Phase
  callbacks : List Callback
  aborted : Bool
  disconnected : Bool

def Connection.verdicts (c : Connection) : Nat := c.callbacks.countP Callback.isVerdict

def Connection.abort (explicit : Bool) (c : Connection) : Connection :=
  { c with
    aborted := true
    disconnected := c.disconnected || (explicit && !c.aborted && c.phase ≠ .returned) }

/-- What a promise of the browser rejects with. -/
structure Rejection where
  name : String
  text : JsString
  deriving DecidableEq, Repr

def Rejection.isAbort (err : Rejection) : Bool := err.name = "AbortError"

/-- The timer and the controller by the call that they belong to. -/
structure SseClient where
  controller : Option Nat
  reconnectDelay : Nat
  timeoutTimer : Option Nat
  connections : List Connection

def streamTimeoutMs : Nat := 60000

def sseError (code message : String) : SseError := ⟨units code.toList, units message.toList⟩

def streamTimeout : SseError :=
  sseError "STREAM_TIMEOUT" ("No data received for " ++ toString (streamTimeoutMs / 1000) ++ "s")

namespace SseClient

def initial : SseClient := ⟨none, 1000, none, []⟩

variable (m : SseClient)

def connect : SseClient :=
  { m with controller := some m.connections.length, connections := m.connections ++ [⟨.fetching, [], false, false⟩] }

/-- `reconnect` when it has slept. -/
def reconnect : SseClient := { m with reconnectDelay := min (m.reconnectDelay * 2) 30000 }.connect

def put (i : Nat) (c : Connection) : SseClient := { m with connections := m.connections.set i c }

def returns (i : Nat) (c : Connection) (callbacks : List Callback) : SseClient :=
  m.put i { c with phase := .returned, callbacks := c.callbacks ++ callbacks }

def clearTimeout : SseClient := { m with timeoutTimer := none }

def resetTimeout (i : Nat) : SseClient := { m with timeoutTimer := some i }

def fetchFailed (i : Nat) (c : Connection) (err : Rejection) : SseClient :=
  if err.isAbort then m.returns i c []
  else m.returns i c [.onError { code := units "NETWORK_ERROR".toList, message := err.text }]

def respond (i : Nat) (c : Connection) (status : Nat) (hasBody : Bool) : SseClient :=
  if ¬ (200 ≤ status ∧ status ≤ 299) then
    m.returns i c [.onError (sseError "HTTP_ERROR" ("HTTP " ++ toString status))]
  else
    let m := { m with reconnectDelay := 1000 }
    if ¬ hasBody then m.returns i c [.onError (sseError "NO_BODY" "Response body is null")]
    else (m.put i { c with phase := .reading [] [] }).resetTimeout i

/-- Every token that the chunk brings starts the timer again. -/
def read (i : Nat) (c : Connection) (buffer : List Char) (lastMessageId : JsString) (chunk : List Char) : SseClient :=
  let pieces := cut '\n' (buffer ++ chunk)
  match handleLines lastMessageId pieces.1 with
  | (calls, none) => (m.returns i c calls).clearTimeout
  | (calls, some id) =>
      let m := m.put i { c with phase := .reading pieces.2 id, callbacks := c.callbacks ++ calls }
      if calls.any Callback.isToken then m.resetTimeout i else m

def readDone (i : Nat) (c : Connection) : SseClient := (m.returns i c []).clearTimeout

def readFailed (i : Nat) (c : Connection) (err : Rejection) : SseClient :=
  if err.isAbort then (m.returns i c []).clearTimeout
  else (m.returns i c [.onError { code := units "STREAM_ERROR".toList, message := err.text }]).clearTimeout

def disconnect (explicit : Bool) : SseClient :=
  { m.clearTimeout with
    controller := none
    connections := m.controller.elim m.connections fun i => m.connections.modify i (Connection.abort explicit) }

/-- The timer of a call fires. -/
def timedOut (i : Nat) : SseClient :=
  let m := m.disconnect false
  { m with
    connections := m.connections.modify i fun c => { c with callbacks := c.callbacks ++ [.onError streamTimeout] } }

inductive Act
  | connect
  | reconnect
  | fetchFailed (i : Nat) (err : Rejection)
  | respond (i status : Nat) (hasBody : Bool)
  | read (i : Nat) (chunk : List Char)
  | readDone (i : Nat)
  | readFailed (i : Nat) (err : Rejection)
  | timedOut (i : Nat)
  | disconnect
  deriving DecidableEq, Repr

/-- The request of an aborted call and its reads reject with an `AbortError`, and only those do. -/
def step : Act → Option SseClient
  | .connect => some m.connect
  | .reconnect => some m.reconnect
  | .fetchFailed i err => m.connections[i]?.bind fun c =>
      match c.phase with
      | .fetching => if c.aborted = err.isAbort then some (m.fetchFailed i c err) else none
      | _ => none
  | .respond i status hasBody => m.connections[i]?.bind fun c =>
      match c.phase with
      | .fetching => if c.aborted then none else some (m.respond i c status hasBody)
      | _ => none
  | .read i chunk => m.connections[i]?.bind fun c =>
      match c.phase with
      | .reading buffer lastMessageId => if c.aborted then none else some (m.read i c buffer lastMessageId chunk)
      | _ => none
  | .readDone i => m.connections[i]?.bind fun c =>
      match c.phase with
      | .reading _ _ => if c.aborted then none else some (m.readDone i c)
      | _ => none
  | .readFailed i err => m.connections[i]?.bind fun c =>
      match c.phase with
      | .reading _ _ => if c.aborted = err.isAbort then some (m.readFailed i c err) else none
      | _ => none
  | .timedOut i => if m.timeoutTimer = some i then some (m.timedOut i) else none
  | .disconnect => some (m.disconnect true)

/-- What an action does, where it can happen. -/
inductive Effect : Act → SseClient → Prop
  | connect : Effect .connect m.connect
  | reconnect : Effect .reconnect m.reconnect
  | fetchFailed {i : Nat} {c : Connection} (err : Rejection) (found : m.connections[i]? = some c)
      (fetching : c.phase = .fetching) (aborted : c.aborted = err.isAbort) :
      Effect (.fetchFailed i err) (m.fetchFailed i c err)
  | respond {i : Nat} {c : Connection} (status : Nat) (hasBody : Bool) (found : m.connections[i]? = some c)
      (fetching : c.phase = .fetching) (fine : c.aborted = false) :
      Effect (.respond i status hasBody) (m.respond i c status hasBody)
  | read {i : Nat} {c : Connection} {buffer : List Char} {lastMessageId : JsString} (chunk : List Char)
      (found : m.connections[i]? = some c) (reading : c.phase = .reading buffer lastMessageId)
      (fine : c.aborted = false) : Effect (.read i chunk) (m.read i c buffer lastMessageId chunk)
  | readDone {i : Nat} {c : Connection} {buffer : List Char} {lastMessageId : JsString}
      (found : m.connections[i]? = some c) (reading : c.phase = .reading buffer lastMessageId)
      (fine : c.aborted = false) : Effect (.readDone i) (m.readDone i c)
  | readFailed {i : Nat} {c : Connection} {buffer : List Char} {lastMessageId : JsString} (err : Rejection)
      (found : m.connections[i]? = some c) (reading : c.phase = .reading buffer lastMessageId)
      (aborted : c.aborted = err.isAbort) : Effect (.readFailed i err) (m.readFailed i c err)
  | timedOut {i : Nat} (timer : m.timeoutTimer = some i) : Effect (.timedOut i) (m.timedOut i)
  | disconnect : Effect .disconnect (m.disconnect true)

/-- Every call that has returned has made one of the two final callbacks once, unless it was disconnected, and none
has made two; a call that waits for data has a timer. -/
structure Verdicts (m : SseClient) : Prop where
  atMostOne : ∀ c ∈ m.connections, c.verdicts ≤ 1
  exactlyOne : ∀ c ∈ m.connections, c.phase = .returned → c.disconnected = false → c.verdicts = 1
  watched : ∀ i c, m.connections[i]? = some c → ∀ buffer lastMessageId, c.phase = .reading buffer lastMessageId →
    c.aborted = false → m.timeoutTimer = some i

/-- `connect` is called when no other call is running. -/
def Sole (m : SseClient) : Act → Prop
  | .connect | .reconnect => ∀ c ∈ m.connections, c.phase = .returned
  | _ => True

/-- No body ends before a `[DONE]` or an error has been read. -/
def Terminated : Act → Prop
  | .readDone _ => False
  | _ => True

/-! ## What a step does -/

theorem effect_of_step {m m' : SseClient} {act : Act} (next : m.step act = some m') : Effect m act m' := by
  cases act with
  | connect => exact Option.some.inj next ▸ .connect
  | reconnect => exact Option.some.inj next ▸ .reconnect
  | fetchFailed i err =>
      obtain ⟨c, found, next⟩ := Option.bind_eq_some_iff.mp next
      split at next
      · next fetching =>
          obtain ⟨aborted, eq⟩ := Option.ite_none_right_eq_some.mp next
          exact Option.some.inj eq ▸ .fetchFailed err found fetching aborted
      · cases next
  | respond i status hasBody =>
      obtain ⟨c, found, next⟩ := Option.bind_eq_some_iff.mp next
      split at next
      · next fetching =>
          obtain ⟨fine, eq⟩ := Option.ite_none_left_eq_some.mp next
          exact Option.some.inj eq ▸ .respond status hasBody found fetching (Bool.eq_false_iff.mpr fine)
      · cases next
  | read i chunk =>
      obtain ⟨c, found, next⟩ := Option.bind_eq_some_iff.mp next
      split at next
      · next reading =>
          obtain ⟨fine, eq⟩ := Option.ite_none_left_eq_some.mp next
          exact Option.some.inj eq ▸ .read chunk found reading (Bool.eq_false_iff.mpr fine)
      · cases next
  | readDone i =>
      obtain ⟨c, found, next⟩ := Option.bind_eq_some_iff.mp next
      split at next
      · next reading =>
          obtain ⟨fine, eq⟩ := Option.ite_none_left_eq_some.mp next
          exact Option.some.inj eq ▸ .readDone found reading (Bool.eq_false_iff.mpr fine)
      · cases next
  | readFailed i err =>
      obtain ⟨c, found, next⟩ := Option.bind_eq_some_iff.mp next
      split at next
      · next reading =>
          obtain ⟨aborted, eq⟩ := Option.ite_none_right_eq_some.mp next
          exact Option.some.inj eq ▸ .readFailed err found reading aborted
      · cases next
  | timedOut i =>
      obtain ⟨timer, eq⟩ := Option.ite_none_right_eq_some.mp next
      exact Option.some.inj eq ▸ .timedOut timer
  | disconnect => exact Option.some.inj next ▸ .disconnect

end SseClient

/-! ## Verdicts of the lines that are read -/

theorem handlePayload_verdicts (id : JsString) (payload : List Char) :
    (handlePayload id payload).1.countP Callback.isVerdict =
      if (handlePayload id payload).2.isNone then 1 else 0 := by
  unfold handlePayload
  split
  · rfl
  · split
    · rfl
    · rfl
    · split
      · rfl
      · split <;> rfl

theorem handleLine_verdicts (id : JsString) (line : List Char) :
    (handleLine id line).1.countP Callback.isVerdict = if (handleLine id line).2.isNone then 1 else 0 := by
  unfold handleLine
  dsimp only
  split
  · rfl
  · split
    · rfl
    · exact handlePayload_verdicts id _

theorem handleLines_verdicts (id : JsString) (lines : List (List Char)) :
    (handleLines id lines).1.countP Callback.isVerdict = if (handleLines id lines).2.isNone then 1 else 0 := by
  induction lines generalizing id with
  | nil => rfl
  | cons line lines ih =>
      have here := handleLine_verdicts id line
      rw [handleLines]
      cases outcome : handleLine id line with
      | mk calls next =>
          rw [outcome] at here
          cases next with
          | none => exact here
          | some id' =>
              rw [List.countP_append, ih id']
              simpa using here

/-! ## Reading a whole body -/

namespace SseClient

/-- Reading the chunks makes the callbacks of `readChunks`, and stops where it stops. -/
theorem exec_read (chunks : List (List Char)) {m : SseClient} {i : Nat} {c : Connection} {buffer : List Char}
    {lastMessageId : JsString} (found : m.connections[i]? = some c)
    (reading : c.phase = .reading buffer lastMessageId) (fine : c.aborted = false) :
    ∃ front rest m' c', chunks = front ++ rest ∧ exec step m (front.map (Act.read i)) = some m' ∧
      m'.connections[i]? = some c' ∧ c'.callbacks = c.callbacks ++ readChunks buffer lastMessageId chunks ∧
      (rest = [] ∨ c'.phase = .returned) := by
  induction chunks generalizing m c buffer lastMessageId with
  | nil => exact ⟨[], [], m, c, rfl, rfl, found, (List.append_nil _).symm, .inl rfl⟩
  | cons chunk chunks ih =>
      have bound : i < m.connections.length := (List.getElem?_eq_some_iff.mp found).1
      have next : step m (.read i chunk) = some (m.read i c buffer lastMessageId chunk) := by
        simp [step, found, reading, fine]
      cases outcome : handleLines lastMessageId (cut '\n' (buffer ++ chunk)).1 with
      | mk calls id =>
          cases id with
          | none =>
              refine ⟨[chunk], chunks, m.read i c buffer lastMessageId chunk,
                { c with phase := .returned, callbacks := c.callbacks ++ calls }, rfl, ?_, ?_, ?_, .inr rfl⟩
              · rw [List.map_singleton, exec_cons, next]
                rfl
              · simp [SseClient.read, outcome, clearTimeout, returns, put, bound]
              · simp [readChunks, outcome]
          | some id =>
              let c₁ : Connection :=
                { c with phase := .reading (cut '\n' (buffer ++ chunk)).2 id, callbacks := c.callbacks ++ calls }
              have found₁ : (m.read i c buffer lastMessageId chunk).connections[i]? = some c₁ := by
                simp only [SseClient.read, outcome]
                split <;> simp [resetTimeout, put, bound, c₁]
              obtain ⟨front, rest, m', c', split, run, there, callbacks, ended⟩ := ih found₁ rfl fine
              refine ⟨chunk :: front, rest, m', c', by rw [split]; rfl, ?_, there, ?_, ended⟩
              · rw [List.map_cons, exec_cons, next]
                exact run
              · rw [callbacks]
                simp [readChunks, outcome, c₁]

end SseClient

/-! ## What the steps keep -/

namespace Connection
variable {c : Connection}

def Listening (c : Connection) : Prop :=
  (∃ buffer lastMessageId, c.phase = .reading buffer lastMessageId) ∧ c.aborted = false

/-- A call has its verdict when it has returned or was aborted by its timer, and not before. -/
structure Settled (c : Connection) : Prop where
  aborted : c.disconnected = true → c.aborted = true
  due : c.disconnected = false → c.phase = .returned ∨ c.aborted = true → c.verdicts = 1
  early : c.disconnected = true ∨ (c.phase ≠ .returned ∧ c.aborted = false) → c.verdicts = 0

theorem Settled.atMostOne (h : c.Settled) : c.verdicts ≤ 1 := by
  by_cases early : c.disconnected = true ∨ (c.phase ≠ .returned ∧ c.aborted = false)
  · exact h.early early ▸ Nat.zero_le 1
  · obtain ⟨here, late⟩ := not_or.mp early
    refine Nat.le_of_eq (h.due (Bool.eq_false_iff.mpr here) ?_)
    by_cases back : c.phase = .returned
    · exact .inl back
    · exact .inr (Bool.not_eq_false _ ▸ fun fine => late ⟨back, fine⟩)

theorem verdicts_append {callbacks : List Callback} {phase : Phase} {aborted disconnected : Bool} :
    verdicts ⟨phase, c.callbacks ++ callbacks, aborted, disconnected⟩ =
      c.verdicts + callbacks.countP Callback.isVerdict := List.countP_append

theorem Settled.returns (h : c.Settled) (running : c.phase ≠ .returned) (fine : c.aborted = false)
    {callbacks : List Callback} (verdict : callbacks.countP Callback.isVerdict = 1) :
    Settled { c with phase := .returned, callbacks := c.callbacks ++ callbacks } := by
  have here : c.disconnected = false := Bool.eq_false_iff.mpr fun gone => nomatch fine.symm.trans (h.aborted gone)
  have before : c.verdicts = 0 := h.early (.inr ⟨running, fine⟩)
  refine ⟨h.aborted, fun _ _ => ?_, fun early => ?_⟩
  · rw [verdicts_append, before, verdict]
  · obtain gone | ⟨back, -⟩ := early
    · exact nomatch here.symm.trans gone
    · exact absurd rfl back

theorem Settled.returns_aborted (h : c.Settled) (aborted : c.aborted = true) :
    Settled { c with phase := .returned, callbacks := c.callbacks ++ [] } := by
  refine ⟨h.aborted, fun here _ => ?_, fun early => ?_⟩
  · rw [verdicts_append]
    exact h.due here (.inr aborted)
  · obtain gone | ⟨back, -⟩ := early
    · rw [verdicts_append]
      exact h.early (.inl gone)
    · exact absurd rfl back

theorem Settled.reads (h : c.Settled) (running : c.phase ≠ .returned) (fine : c.aborted = false)
    (buffer : List Char) (lastMessageId : JsString) {callbacks : List Callback}
    (verdict : callbacks.countP Callback.isVerdict = 0) :
    Settled { c with phase := .reading buffer lastMessageId, callbacks := c.callbacks ++ callbacks } := by
  have before : c.verdicts = 0 := h.early (.inr ⟨running, fine⟩)
  refine ⟨h.aborted, fun _ due => ?_, fun _ => ?_⟩
  · obtain back | aborted := due
    · cases back
    · exact nomatch fine.symm.trans aborted
  · rw [verdicts_append, before, verdict]

theorem Settled.disconnect (h : c.Settled) : Settled (c.abort true) := by
  refine ⟨fun _ => rfl, fun here _ => ?_, fun early => ?_⟩
  · obtain ⟨here, late⟩ := Bool.or_eq_false_iff.mp here
    refine h.due here ?_
    by_cases back : c.phase = .returned
    · exact .inl back
    · exact .inr (by simpa [back] using late)
  · obtain gone | ⟨-, fine⟩ := early
    · obtain gone | late := Bool.or_eq_true_iff.mp gone
      · exact h.early (.inl gone)
      · exact h.early (.inr (by simpa [and_comm] using late))
    · cases fine

theorem Settled.timedOut (h : c.Settled) (running : c.phase ≠ .returned) (fine : c.aborted = false)
    (error : SseError) :
    Settled { c.abort false with callbacks := c.callbacks ++ [.onError error] } := by
  have before : c.verdicts = 0 := h.early (.inr ⟨running, fine⟩)
  have here : c.disconnected = false := Bool.eq_false_iff.mpr fun gone => nomatch fine.symm.trans (h.aborted gone)
  refine ⟨fun _ => rfl, fun _ _ => ?_, fun early => ?_⟩
  · rw [verdicts_append, before]
    rfl
  · obtain gone | ⟨-, fine⟩ := early
    · simp [Connection.abort, here] at gone
    · cases fine

end Connection

namespace SseClient
variable {m m' : SseClient}

/-- At most the last call is running, it has the controller until it is aborted, and the timer while it reads. -/
structure Sound (m : SseClient) : Prop where
  settled : ∀ c ∈ m.connections, c.Settled
  last : ∀ i c, m.connections[i]? = some c → c.phase ≠ .returned → i + 1 = m.connections.length
  controlled : ∀ i c, m.connections[i]? = some c → c.phase ≠ .returned → c.aborted = false → m.controller = some i
  timer : ∀ i, m.timeoutTimer = some i → ∃ c, m.connections[i]? = some c ∧ c.Listening
  watched : ∀ i c, m.connections[i]? = some c → c.Listening → m.timeoutTimer = some i

theorem Sound.verdicts (h : Sound m) : Verdicts m where
  atMostOne := fun c mem => (h.settled c mem).atMostOne
  exactlyOne := fun c mem back here => (h.settled c mem).due here (.inl back)
  watched := fun i c found buffer lastMessageId reading fine =>
    h.watched i c found ⟨⟨buffer, lastMessageId, reading⟩, fine⟩

theorem running_of_listening {c : Connection} (listening : c.Listening) : c.phase ≠ .returned := by
  obtain ⟨⟨buffer, lastMessageId, reading⟩, -⟩ := listening
  rw [reading]
  exact nofun

theorem Sound.put (h : Sound m) {i : Nat} {c c' : Connection} (found : m.connections[i]? = some c)
    (running : c.phase ≠ .returned) (settled : c'.Settled) {controller timer : Option Nat} {delay : Nat}
    (controlled : c'.phase ≠ .returned → c'.aborted = false → controller = some i)
    (timerIff : ∀ j, timer = some j ↔ j = i ∧ c'.Listening) :
    Sound ⟨controller, delay, timer, m.connections.set i c'⟩ := by
  have bound : i < m.connections.length := (List.getElem?_eq_some_iff.mp found).1
  -- No other call is running, so only the new one can be.
  have only (j : Nat) (d : Connection) (here : (m.connections.set i c')[j]? = some d) (active : d.phase ≠ .returned) :
      j = i ∧ d = c' := by
    by_cases same : i = j
    · subst same
      rw [List.getElem?_set_self bound] at here
      exact ⟨rfl, (Option.some.inj here).symm⟩
    · rw [List.getElem?_set_ne same] at here
      have first := h.last i c found running
      have second := h.last j d here active
      omega
  refine ⟨fun d mem => ?_, fun j d here active => ?_, fun j d here active fine => ?_, fun j here => ?_,
    fun j d here listening => ?_⟩
  · obtain mem | rfl := List.mem_or_eq_of_mem_set mem
    · exact h.settled d mem
    · exact settled
  · obtain ⟨rfl, rfl⟩ := only j d here active
    rw [List.length_set]
    exact h.last j c found running
  · obtain ⟨rfl, rfl⟩ := only j d here active
    exact controlled active fine
  · obtain ⟨rfl, listening⟩ := (timerIff j).mp here
    exact ⟨c', List.getElem?_set_self bound, listening⟩
  · obtain ⟨rfl, rfl⟩ := only j d here (running_of_listening listening)
    exact (timerIff j).mpr ⟨rfl, listening⟩

theorem Sound.idle (h : Sound m) {i : Nat} {c : Connection} (found : m.connections[i]? = some c)
    (fetching : c.phase = .fetching) : m.timeoutTimer = none := by
  refine Option.eq_none_iff_forall_ne_some.mpr fun j timer => ?_
  obtain ⟨d, here, listening⟩ := h.timer j timer
  have first := h.last i c found (by simp [fetching])
  have second := h.last j d here (running_of_listening listening)
  obtain rfl : i = j := by omega
  obtain rfl := Option.some.inj (found.symm.trans here)
  obtain ⟨⟨buffer, lastMessageId, reading⟩, -⟩ := listening
  cases fetching.symm.trans reading

theorem Sound.returns (h : Sound m) {i : Nat} {c : Connection} (found : m.connections[i]? = some c)
    (running : c.phase ≠ .returned) {callbacks : List Callback} {delay : Nat} {timer : Option Nat}
    (settled : Connection.Settled { c with phase := .returned, callbacks := c.callbacks ++ callbacks })
    (idle : timer = none) :
    Sound ⟨m.controller, delay, timer, (m.returns i c callbacks).connections⟩ := by
  refine h.put found running settled (fun back => absurd rfl back) fun j => ⟨fun here => ?_, ?_⟩
  · cases idle.symm.trans here
  · rintro ⟨-, ⟨buffer, lastMessageId, reading⟩, -⟩
    cases reading

theorem Sound.fetchFailed (h : Sound m) {i : Nat} {c : Connection} (found : m.connections[i]? = some c)
    (fetching : c.phase = .fetching) {err : Rejection} (aborted : c.aborted = err.isAbort) :
    Sound (m.fetchFailed i c err) := by
  have settled := h.settled c (List.mem_of_getElem? found)
  have running : c.phase ≠ .returned := by simp [fetching]
  have idle := h.idle found fetching
  unfold SseClient.fetchFailed
  split
  · rename_i abort
    exact h.returns found running (settled.returns_aborted (aborted.trans abort)) idle
  · rename_i other
    have fine := aborted.trans (Bool.eq_false_iff.mpr other)
    exact h.returns found running (settled.returns running fine rfl) idle

theorem Sound.respond (h : Sound m) {i : Nat} {c : Connection} (found : m.connections[i]? = some c)
    (fetching : c.phase = .fetching) (fine : c.aborted = false) (status : Nat) (hasBody : Bool) :
    Sound (m.respond i c status hasBody) := by
  have settled := h.settled c (List.mem_of_getElem? found)
  have running : c.phase ≠ .returned := by simp [fetching]
  have idle := h.idle found fetching
  unfold SseClient.respond
  split
  · exact h.returns found running (settled.returns running fine rfl) idle
  · dsimp only
    split
    · exact h.returns found running (settled.returns running fine rfl) idle
    · have going : Connection.Settled { c with phase := .reading [] [], callbacks := c.callbacks ++ [] } :=
        settled.reads running fine [] [] rfl
      rw [List.append_nil] at going
      refine h.put found running going (fun _ fine => h.controlled i c found running fine)
        fun j => ⟨fun same => ?_, ?_⟩
      · exact ⟨(Option.some.inj same).symm, ⟨_, _, rfl⟩, fine⟩
      · rintro ⟨rfl, -⟩
        rfl

theorem Sound.readFailed (h : Sound m) {i : Nat} {c : Connection} (found : m.connections[i]? = some c)
    (running : c.phase ≠ .returned) {err : Rejection} (aborted : c.aborted = err.isAbort) :
    Sound (m.readFailed i c err) := by
  have settled := h.settled c (List.mem_of_getElem? found)
  unfold SseClient.readFailed
  split
  · rename_i abort
    exact h.returns found running (settled.returns_aborted (aborted.trans abort)) rfl
  · rename_i other
    have fine := aborted.trans (Bool.eq_false_iff.mpr other)
    exact h.returns found running (settled.returns running fine rfl) rfl

theorem Sound.connect (h : Sound m) (sole : ∀ c ∈ m.connections, c.phase = .returned) : Sound m.connect := by
  have back {i : Nat} {c : Connection} (found : m.connections[i]? = some c) : c.phase = .returned :=
    sole c (List.mem_of_getElem? found)
  -- Only the new call can be running.
  have fresh {i : Nat} {c : Connection} (found : m.connect.connections[i]? = some c) (active : c.phase ≠ .returned) :
      i = m.connections.length ∧ c = ⟨.fetching, [], false, false⟩ := by
    change (m.connections ++ [_])[i]? = some c at found
    by_cases old : i < m.connections.length
    · rw [List.getElem?_append_left old] at found
      exact absurd (back found) active
    · rw [List.getElem?_append_right (Nat.le_of_not_lt old), List.getElem?_singleton] at found
      obtain ⟨first, here⟩ := Option.ite_none_right_eq_some.mp found
      exact ⟨by omega, (Option.some.inj here).symm⟩
  have idle (i : Nat) : m.timeoutTimer ≠ some i := fun timer => by
    obtain ⟨c, found, listening⟩ := h.timer i timer
    exact running_of_listening listening (back found)
  refine ⟨fun c mem => ?_, fun i c found active => ?_, fun i c found active _ => ?_,
    fun i timer => (idle i timer).elim, fun i c found listening => ?_⟩
  · obtain mem | mem := List.mem_append.mp mem
    · exact h.settled c mem
    · rw [List.mem_singleton.mp mem]
      refine ⟨nofun, fun _ due => ?_, fun _ => rfl⟩
      obtain back | aborted := due
      · cases back
      · cases aborted
  · rw [(fresh found active).1]
    simp [SseClient.connect]
  · rw [(fresh found active).1]
    rfl
  · obtain ⟨⟨buffer, lastMessageId, reading⟩, -⟩ := listening
    rw [(fresh found (by simp [reading])).2] at reading
    cases reading

theorem Sound.disconnect (h : Sound m) : Sound (m.disconnect true) := by
  cases owner : m.controller with
  | none =>
      have silent (i : Nat) (c : Connection) : m.connections[i]? = some c → c.phase ≠ .returned → c.aborted = false →
          False :=
        fun found active fine => nomatch owner.symm.trans (h.controlled i c found active fine)
      unfold SseClient.disconnect
      rw [owner]
      exact ⟨h.settled, h.last, fun i c found active fine => (silent i c found active fine).elim,
        fun _ timer => (nomatch timer),
        fun i c found listening => (silent i c found (running_of_listening listening) listening.2).elim⟩
  | some k =>
      -- The abort changes no phase, and whoever is still running has it.
      have old {i : Nat} {c : Connection} (found : (m.connections.modify k (Connection.abort true))[i]? = some c) :
          ∃ c', m.connections[i]? = some c' ∧ c = if k = i then c'.abort true else c' := by
        rw [List.getElem?_modify] at found
        obtain ⟨c', here, rfl⟩ := Option.map_eq_some_iff.mp found
        exact ⟨c', here, rfl⟩
      have silent (i : Nat) (c : Connection) : (m.connections.modify k (Connection.abort true))[i]? = some c →
          c.phase ≠ .returned → c.aborted = false → False := by
        intro found active fine
        obtain ⟨c', here, rfl⟩ := old found
        split at fine
        · cases fine
        · rename_i other
          rw [if_neg other] at active
          exact other (Option.some.inj (owner.symm.trans (h.controlled i c' here active fine)))
      unfold SseClient.disconnect
      rw [owner]
      refine ⟨fun c mem => ?_, fun i c found active => ?_,
        fun i c found active fine => (silent i c found active fine).elim, fun _ timer => (nomatch timer),
        fun i c found listening => (silent i c found (running_of_listening listening) listening.2).elim⟩
      · obtain ⟨i, found⟩ := List.mem_iff_getElem?.mp mem
        obtain ⟨c', here, rfl⟩ := old found
        have settled := h.settled c' (List.mem_of_getElem? here)
        split
        · exact settled.disconnect
        · exact settled
      · obtain ⟨c', here, rfl⟩ := old found
        refine (h.last i c' here fun back => active ?_).trans (List.length_modify ..).symm
        split <;> exact back

theorem Sound.timedOut (h : Sound m) {i : Nat} (timer : m.timeoutTimer = some i) : Sound (m.timedOut i) := by
  obtain ⟨c, found, listening⟩ := h.timer i timer
  have running := running_of_listening listening
  have owner : m.controller = some i := h.controlled i c found running listening.2
  have settled := (h.settled c (List.mem_of_getElem? found)).timedOut running listening.2 streamTimeout
  unfold SseClient.timedOut SseClient.disconnect
  rw [owner]
  dsimp only [Option.elim]
  rw [List.modify_modify_eq, List.modify_eq_set_getElem?, found]
  refine h.put found running settled (fun _ fine => nomatch fine) fun j => ⟨nofun, ?_⟩
  rintro ⟨-, -, fine⟩
  cases fine

theorem Sound.read (h : Sound m) {i : Nat} {c : Connection} (found : m.connections[i]? = some c)
    (listening : c.Listening) {buffer : List Char} {lastMessageId : JsString} (chunk : List Char) :
    Sound (m.read i c buffer lastMessageId chunk) := by
  have settled := h.settled c (List.mem_of_getElem? found)
  have running := running_of_listening listening
  have verdicts := handleLines_verdicts lastMessageId (cut '\n' (buffer ++ chunk)).1
  unfold SseClient.read
  dsimp only
  split
  · rename_i calls outcome
    rw [outcome] at verdicts
    exact h.returns found running (settled.returns running listening.2 verdicts) rfl
  · rename_i calls id outcome
    rw [outcome] at verdicts
    have going := settled.reads running listening.2 (cut '\n' (buffer ++ chunk)).2 id verdicts
    have owned (timer : Option Nat) (own : timer = some i) (j : Nat) :
        timer = some j ↔ j = i ∧ Connection.Listening
          { c with phase := .reading (cut '\n' (buffer ++ chunk)).2 id, callbacks := c.callbacks ++ calls } := by
      rw [own]
      refine ⟨fun same => ?_, fun same => congrArg some same.1.symm⟩
      exact ⟨(Option.some.inj same).symm, ⟨_, _, rfl⟩, listening.2⟩
    have controlled (_ : Phase.reading (cut '\n' (buffer ++ chunk)).2 id ≠ .returned) (fine : c.aborted = false) :
        m.controller = some i := h.controlled i c found running fine
    split
    · exact h.put found running going controlled (owned _ rfl)
    · exact h.put found running going controlled (owned _ (h.watched i c found listening))

theorem Sound.step (h : Sound m) {act : Act} (sole : m.Sole act) (terminated : Terminated act)
    (next : m.step act = some m') : Sound m' := by
  cases effect_of_step next with
  | connect => exact h.connect sole
  | reconnect =>
      exact Sound.connect (m := { m with reconnectDelay := _ })
        ⟨h.settled, h.last, h.controlled, h.timer, h.watched⟩ sole
  | fetchFailed err found fetching aborted => exact h.fetchFailed found fetching aborted
  | respond status hasBody found fetching fine => exact h.respond found fetching fine status hasBody
  | @read i c buffer lastMessageId chunk found reading fine =>
      exact h.read found ⟨⟨buffer, lastMessageId, reading⟩, fine⟩ chunk
  | readDone => exact terminated.elim
  | readFailed err found reading aborted => exact h.readFailed found (by simp [reading]) aborted
  | timedOut timer => exact h.timedOut timer
  | disconnect => exact h.disconnect

theorem sound_initial : Sound initial where
  settled := fun _ mem => nomatch mem
  last := fun _ _ found => nomatch found
  controlled := fun _ _ found => nomatch found
  timer := fun _ here => nomatch here
  watched := fun _ _ found => nomatch found

theorem terminated_of_verdicts (h : Sound m) {act : Act} (next : m.step act = some m') (verdicts : m'.Verdicts) :
    Terminated act := by
  cases effect_of_step next with
  | @readDone i c buffer lastMessageId found reading fine =>
      have settled := h.settled c (List.mem_of_getElem? found)
      have here : c.disconnected = false :=
        Bool.eq_false_iff.mpr fun gone => nomatch fine.symm.trans (settled.aborted gone)
      have silent : c.verdicts = 0 := settled.early (.inr ⟨by simp [reading], fine⟩)
      have bound : i < m.connections.length := (List.getElem?_eq_some_iff.mp found).1
      have one := verdicts.exactlyOne _ (List.mem_set bound _) rfl here
      rw [Connection.verdicts_append, silent] at one
      cases one
  | _ => trivial

/-- As long as a client is used for one call at a time, each call gets its verdict in exactly the runs in which no
body ends before a `[DONE]` or an error. -/
theorem verdicts_iff_terminated {acts : List Act} (sole : Along step Sole initial acts) :
    Throughout step Verdicts initial acts ↔ Along step (fun _ => Terminated) initial acts :=
  throughout_iff_along Sound (fun _ h => h.verdicts) (fun _ _ _ h sole good next => h.step sole good next)
    (fun _ _ _ h _ next verdicts => terminated_of_verdicts h next verdicts) sound_initial sole

theorem verdicts_of_terminated (acts : List Act)
    (served : Along step (fun m act => Sole m act ∧ Terminated act) initial acts) :
    Throughout step Verdicts initial acts := by
  have sound : Throughout step Sound initial acts :=
    throughout_of_along (fun _ _ _ h good next => h.step good.1 good.2 next) sound_initial served
  exact sound.mono fun _ h => h.verdicts

def opened : List Act := [.connect, .respond 0 200 true]

theorem verdicts_of_terminated_done :
    Throughout step Verdicts initial (opened ++ [.read 0 "data: [DONE]\n\n".toList]) := by
  refine verdicts_of_terminated _ ?_
  refine along_cons rfl ⟨fun _ mem => (nomatch mem), trivial⟩ ?_
  refine along_cons rfl ⟨trivial, trivial⟩ ?_
  exact along_cons rfl ⟨trivial, trivial⟩ trivial

/-- The connection is closed in the middle of an event. -/
def cutOff : List Act := opened ++ [.read 0 "data: \x7b\"content\":".toList, .readDone 0]

theorem cutOff_not_verdicts : ¬ ∀ acts : List Act, Throughout step Verdicts initial acts := by
  intro claim
  have run : exec step initial cutOff = some
      { controller := some 0
        reconnectDelay := 1000
        timeoutTimer := none
        connections := [⟨.returned, [], false, false⟩] } := rfl
  exact absurd (((claim _).last run).exactlyOne _ List.mem_cons_self rfl rfl) nofun

end SseClient

end CuckooEcho.Frontend
