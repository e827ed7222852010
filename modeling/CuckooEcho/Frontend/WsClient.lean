import CuckooEcho.Lib.Run
import Mathlib.Data.List.Basic

namespace CuckooEcho.Frontend
open Lib

/-! ## The WebSocket client and the browser -/

inductive ReadyState
  | connecting
  | opened
  | closing
  | closed
  deriving DecidableEq, Repr

structure Socket (ω : Type*) where
  options : ω
  readyState : ReadyState
  deriving DecidableEq, Repr

def Socket.live {ω : Type*} (s : Socket ω) : Bool := s.readyState = .connecting || s.readyState = .opened

def Socket.unfinished {ω : Type*} (s : Socket ω) : Bool := s.readyState ≠ .closed

def Socket.close {ω : Type*} (s : Socket ω) : Socket ω := if s.live then { s with readyState := .closing } else s

structure Timeout (ω : Type*) where
  id : Nat
  options : ω
  delay : Nat
  deriving DecidableEq, Repr

/-- The client's fields, then the browser's: the sockets in the order of their creation, the pending timers of
`setInterval` and of `setTimeout`, and what has been sent over which socket. After a `disconnect`, `left` has the
number of sockets until `connect` is called. -/
structure WsClient (ω : Type*) where
  ws : Option Nat
  heartbeatTimer : Option Nat
  reconnectTimer : Option Nat
  reconnectDelay : Nat
  intentionalClose : Bool
  sockets : List (Socket ω)
  intervals : List Nat
  timeouts : List (Timeout ω)
  timers : Nat
  sent : List (Nat × String)
  left : Option Nat
  deriving DecidableEq, Repr

def maxReconnectDelay : Nat := 30000

def wsNoReconnectCodes : List Nat := [1000, 4001]

namespace WsClient
section
variable {ω : Type*}

def initial : WsClient ω := ⟨none, none, none, 1000, false, [], [], [], 0, [], none⟩

variable (valid : ω → Bool) (m : WsClient ω)

def send (data : String) : WsClient ω :=
  match m.ws with
  | none => m
  | some i =>
      if (m.sockets[i]?.map Socket.readyState) = some .opened then { m with sent := (i, data) :: m.sent } else m

def stopHeartbeat : WsClient ω :=
  match m.heartbeatTimer with
  | none => m
  | some id => { m with intervals := m.intervals.filter (· ≠ id), heartbeatTimer := none }

def startHeartbeat : WsClient ω :=
  let m := m.stopHeartbeat
  { m with heartbeatTimer := some m.timers, intervals := m.timers :: m.intervals, timers := m.timers + 1 }

def clearReconnect : WsClient ω :=
  match m.reconnectTimer with
  | none => m
  | some id => { m with timeouts := m.timeouts.filter (·.id ≠ id), reconnectTimer := none }

def scheduleReconnect (options : ω) : WsClient ω :=
  let m := m.clearReconnect
  { m with
    reconnectDelay := min (m.reconnectDelay * 2) maxReconnectDelay
    reconnectTimer := some m.timers
    timeouts := ⟨m.timers, options, m.reconnectDelay⟩ :: m.timeouts
    timers := m.timers + 1 }

/-- With an address that the browser refuses, it throws before there is a socket. -/
def connect (options : ω) : WsClient ω :=
  let m := { m with intentionalClose := false }
  if valid options then
    { m with sockets := m.sockets ++ [⟨options, .connecting⟩], ws := some m.sockets.length }
  else m

def disconnect : WsClient ω :=
  let m := ({ m with intentionalClose := true }.stopHeartbeat).clearReconnect
  match m.ws with
  | none => m
  | some i => { m with sockets := m.sockets.modify i Socket.close, ws := none }

def onOpen (i : Nat) : WsClient ω :=
  { m with
    sockets := m.sockets.modify i fun s => { s with readyState := .opened }
    reconnectDelay := 1000 }.startHeartbeat

def onClose (i : Nat) (options : ω) (code : Nat) : WsClient ω :=
  let m := { m with sockets := m.sockets.modify i fun s => { s with readyState := .closed } }.stopHeartbeat
  if ¬ m.intentionalClose ∧ code ∉ wsNoReconnectCodes then m.scheduleReconnect options else m

/-- The pending reconnect timer fires. -/
def reconnect (t : Timeout ω) : WsClient ω :=
  { m with timeouts := m.timeouts.filter (·.id ≠ t.id), reconnectTimer := none }.connect valid t.options

inductive Act (ω : Type*)
  | connect (options : ω)
  | disconnect
  | send (data : String)
  | onOpen (i : Nat)
  | onClose (i code : Nat)
  | onError (i : Nat)
  | heartbeat (id : Nat)
  | reconnect (id : Nat)
  deriving DecidableEq, Repr

/-- A socket opens at most once, before it is asked to close, and closes once, at any time. -/
def step : Act ω → Option (WsClient ω)
  | .connect options => some { m.connect valid options with left := none }
  | .disconnect => some { m.disconnect with left := some m.sockets.length }
  | .send data => some (m.send data)
  | .onOpen i => (m.sockets[i]?.filter (·.readyState = .connecting)).map fun _ => m.onOpen i
  | .onClose i code => (m.sockets[i]?.filter Socket.unfinished).map fun s => m.onClose i s.options code
  | .onError i => m.sockets[i]?.map fun _ => m
  | .heartbeat id => if id ∈ m.intervals then some (m.send "\x7b\"type\":\"ping\"\x7d") else none
  | .reconnect id => (m.timeouts.find? (·.id = id)).map (m.reconnect valid)

def liveSockets : Nat := m.sockets.countP Socket.live

structure OneConnection (m : WsClient ω) : Prop where
  live : m.liveSockets ≤ 1
  heartbeat : m.intervals.length ≤ 1
  reconnect : m.timeouts.length ≤ 1
  quiet : ∀ sockets, m.left = some sockets → m.sockets.length = sockets

/-- A socket is created only while no other is connecting or open. -/
def Alone : Act ω → Prop
  | .connect options => valid options → m.liveSockets = 0
  | .reconnect id => ∀ t ∈ m.timeouts.find? (·.id = id), valid t.options → m.liveSockets = 0
  | _ => True

end

end WsClient

end CuckooEcho.Frontend
