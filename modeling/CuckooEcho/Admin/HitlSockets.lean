import CuckooEcho.Admin.Auth
import Mathlib.Logic.Function.Basic

namespace CuckooEcho.Admin.Hitl

/-! ## The admins' WebSocket connections

Each handler and each broadcast runs up to its next `await` in one step. -/

abbrev Socket := Nat

/-- What a connection can be registered under; a broadcast names a text. -/
inductive Key
  | text (tenantId : String)
  | other (value : Nat)
  deriving DecidableEq, Repr

/-- What the client's first message has for `tenant_id`. -/
inductive InitMessage
  | text (tenantId : String)
  | other (value : Nat)
  | falsy
  | unhashable
  | unreadable
  deriving DecidableEq, Repr

inductive Handler
  | accepted
  | registered (tenantId : Key)
  | left
  | closed (code : Nat) (reason : String)
  | raised
  deriving DecidableEq, Repr

def InitMessage.handle : InitMessage → Handler
  | .text tenantId => if tenantId = "" then .closed 4001 "tenant_id required" else .registered (.text tenantId)
  | .other value => .registered (.other value)
  | .falsy => .closed 4001 "tenant_id required"
  | .unhashable => .raised
  | .unreadable => .raised

theorem InitMessage.handle_ne_accepted (message : InitMessage) : message.handle ≠ .accepted := by
  cases message with
  | text tenantId =>
      rw [handle]
      split
      · exact Handler.noConfusion
      · exact Handler.noConfusion
  | _ => exact Handler.noConfusion

structure Client where
  handshake : Request
  time : Nat
  deriving DecidableEq, Repr

def hitlPath : String := "/admin/v1/ws/hitl"

inductive Phase
  | sending (ws : Socket)
  | returned
  | raised
  deriving DecidableEq, Repr

/-- `next` is the position of the loop's iterator. The last three fields only record: the connections of the tenant
when the broadcast started, those removed while its loop ran, and how each send ended. -/
structure Broadcast (Payload : Type*) where
  tenantId : String
  payload : Payload
  phase : Phase := .returned
  next : Nat := 0
  dead : List Socket := []
  atStart : List Socket
  removed : List Socket := []
  sends : List (Socket × Bool) := []

structure Server (Payload : Type*) where
  clients : Socket → Option Client := fun _ => none
  handlers : Socket → Option Handler := fun _ => none
  connections : Key → List Socket := fun _ => []
  broadcasts : Nat → Option (Broadcast Payload) := fun _ => none

inductive Act (Payload : Type*)
  | connect (ws : Socket) (client : Client)
  | receiveJson (ws : Socket) (message : InitMessage)
  | receiveText (ws : Socket)
  | leave (ws : Socket)
  | broadcastToTenant (id : Nat) (tenantId : String) (payload : Payload)
  | sent (id : Nat) (ok : Bool)

variable {Payload : Type*}

namespace Broadcast

def Running (b : Broadcast Payload) : Prop := ∃ ws, b.phase = .sending ws

instance (b : Broadcast Payload) : Decidable b.Running :=
  match phase : b.phase with
  | .sending ws => isTrue ⟨ws, phase⟩
  | .returned => isFalse fun ⟨_, sending⟩ => nomatch phase.symm.trans sending
  | .raised => isFalse fun ⟨_, sending⟩ => nomatch phase.symm.trans sending

def key (b : Broadcast Payload) : Key := .text b.tenantId

def note (tenantId : Key) (ws : Socket) (b : Broadcast Payload) : Broadcast Payload :=
  if b.Running ∧ b.key = tenantId then { b with removed := ws :: b.removed } else b

/-- A send that raises marks the connection as dead. -/
def settle (b : Broadcast Payload) (ws : Socket) (ok : Bool) : Broadcast Payload :=
  { b with sends := (ws, ok) :: b.sends, dead := if ok then b.dead else b.dead ++ [ws] }

@[simp] theorem note_phase (b : Broadcast Payload) (tenantId : Key) (ws : Socket) :
    (b.note tenantId ws).phase = b.phase := by
  unfold note
  split
  · rfl
  · rfl

@[simp] theorem note_tenantId (b : Broadcast Payload) (tenantId : Key) (ws : Socket) :
    (b.note tenantId ws).tenantId = b.tenantId := by
  unfold note
  split
  · rfl
  · rfl

@[simp] theorem note_key (b : Broadcast Payload) (tenantId : Key) (ws : Socket) :
    (b.note tenantId ws).key = b.key := congrArg Key.text (b.note_tenantId tenantId ws)

@[simp] theorem note_sends (b : Broadcast Payload) (tenantId : Key) (ws : Socket) :
    (b.note tenantId ws).sends = b.sends := by
  unfold note
  split
  · rfl
  · rfl

end Broadcast

namespace Server

def setBroadcast (s : Server Payload) (id : Nat) (b : Broadcast Payload) : Server Payload :=
  { s with broadcasts := Function.update s.broadcasts id (some b) }

def remove (s : Server Payload) (tenantId : Key) (ws : Socket) : Server Payload :=
  { s with
    connections := Function.update s.connections tenantId ((s.connections tenantId).erase ws)
    broadcasts := fun id => (s.broadcasts id).map (Broadcast.note tenantId ws) }

/-- `remove` of a list raises when the item is not in it, which ends the loop. -/
def removeDead (tenantId : Key) : List Socket → Server Payload → Server Payload × Bool
  | [], s => (s, true)
  | ws :: dead, s =>
      if ws ∈ s.connections tenantId then removeDead tenantId dead (s.remove tenantId ws) else (s, false)

def loop (s : Server Payload) (id : Nat) (b : Broadcast Payload) : Server Payload :=
  match (s.connections b.key)[b.next]? with
  | some ws => s.setBroadcast id { b with next := b.next + 1, phase := .sending ws }
  | none =>
      let (s, removed) := removeDead b.key b.dead (s.setBroadcast id { b with phase := .returned })
      if removed then s else s.setBroadcast id { b with phase := .raised }

def register (s : Server Payload) (tenantId : Key) (ws : Socket) : Server Payload :=
  { s with connections := Function.update s.connections tenantId (s.connections tenantId ++ [ws]) }

def setHandler (s : Server Payload) (ws : Socket) (handler : Handler) : Server Payload :=
  { s with handlers := Function.update s.handlers ws (some handler) }

def step (s : Server Payload) : Act Payload → Option (Server Payload)
  | .connect ws client =>
      if s.handlers ws = none ∧ client.handshake.path = hitlPath then
        some { s.setHandler ws .accepted with clients := Function.update s.clients ws (some client) }
      else none
  | .receiveJson ws message =>
      if s.handlers ws = some .accepted then
        match message.handle with
        | .registered tenantId => some ((s.setHandler ws (.registered tenantId)).register tenantId ws)
        | handler => some (s.setHandler ws handler)
      else none
  | .receiveText ws =>
      match s.handlers ws with
      | some (.registered _) => some s
      | _ => none
  | .leave ws =>
      match s.handlers ws with
      | some .accepted => some (s.setHandler ws .left)
      | some (.registered tenantId) =>
          let left := s.setHandler ws .left
          if ws ∈ s.connections tenantId then some (left.remove tenantId ws) else some left
      | _ => none
  | .broadcastToTenant id tenantId payload =>
      match s.broadcasts id with
      | none => some (s.loop id { tenantId, payload, atStart := s.connections (.text tenantId) })
      | some _ => none
  | .sent id ok =>
      match s.broadcasts id with
      | some b =>
          match b.phase with
          | .sending ws => some (s.loop id (b.settle ws ok))
          | _ => none
      | none => none

/-- What a step can do. -/
inductive Moved (s : Server Payload) : Act Payload → Server Payload → Prop
  | connected {ws : Socket} {client : Client} (fresh : s.handlers ws = none) :
      Moved s (.connect ws client)
        { s.setHandler ws .accepted with clients := Function.update s.clients ws (some client) }
  | registers {ws : Socket} {message : InitMessage} {tenantId : Key} (accepted : s.handlers ws = some .accepted)
      (registered : message.handle = .registered tenantId) :
      Moved s (.receiveJson ws message) ((s.setHandler ws (.registered tenantId)).register tenantId ws)
  | refuses {ws : Socket} {message : InitMessage} (accepted : s.handlers ws = some .accepted)
      (refused : ∀ tenantId, message.handle ≠ .registered tenantId) :
      Moved s (.receiveJson ws message) (s.setHandler ws message.handle)
  | reads {ws : Socket} : Moved s (.receiveText ws) s
  | leavesEarly {ws : Socket} (accepted : s.handlers ws = some .accepted) :
      Moved s (.leave ws) (s.setHandler ws .left)
  | leaves {ws : Socket} {tenantId : Key} (registered : s.handlers ws = some (.registered tenantId))
      (inside : ws ∈ s.connections tenantId) : Moved s (.leave ws) ((s.remove tenantId ws).setHandler ws .left)
  | leavesRemoved {ws : Socket} {tenantId : Key} (registered : s.handlers ws = some (.registered tenantId))
      (outside : ws ∉ s.connections tenantId) : Moved s (.leave ws) (s.setHandler ws .left)
  | starts {id : Nat} {tenantId : String} {payload : Payload} (fresh : s.broadcasts id = none) :
      Moved s (.broadcastToTenant id tenantId payload)
        (s.loop id { tenantId, payload, atStart := s.connections (.text tenantId) })
  | goesOn {id : Nat} {ok : Bool} {b : Broadcast Payload} {ws : Socket} (found : s.broadcasts id = some b)
      (sending : b.phase = .sending ws) : Moved s (.sent id ok) (s.loop id (b.settle ws ok))

theorem moved_of_step {s t : Server Payload} {a : Act Payload} (next : s.step a = some t) : Moved s a t := by
  cases a with
  | connect ws client =>
      obtain ⟨⟨fresh, -⟩, next⟩ := Option.ite_none_right_eq_some.mp next
      exact Option.some.inj next ▸ .connected fresh
  | receiveJson ws message =>
      obtain ⟨accepted, next⟩ := Option.ite_none_right_eq_some.mp next
      split at next
      · rename_i tenantId registered
        exact Option.some.inj next ▸ .registers accepted registered
      · rename_i refused
        exact Option.some.inj next ▸ .refuses accepted refused
  | receiveText ws =>
      rw [step] at next
      split at next
      · exact Option.some.inj next ▸ .reads
      · cases next
  | leave ws =>
      rw [step] at next
      split at next
      · rename_i accepted
        exact Option.some.inj next ▸ .leavesEarly accepted
      · rename_i tenantId registered
        split at next
        · rename_i inside
          exact Option.some.inj next ▸ .leaves registered inside
        · rename_i outside
          exact Option.some.inj next ▸ .leavesRemoved registered outside
      · cases next
  | broadcastToTenant id tenantId payload =>
      rw [step] at next
      split at next
      · rename_i fresh
        exact Option.some.inj next ▸ .starts fresh
      · cases next
  | sent id ok =>
      rw [step] at next
      split at next
      · rename_i b found
        split at next
        · rename_i ws sending
          exact Option.some.inj next ▸ .goesOn found sending
        · cases next
      · cases next

theorem setBroadcast_broadcasts (s : Server Payload) (id : Nat) (b : Broadcast Payload) (id' : Nat) :
    (s.setBroadcast id b).broadcasts id' = if id' = id then some b else s.broadcasts id' :=
  Function.update_apply ..

theorem remove_connections (s : Server Payload) (tenantId : Key) (ws : Socket) (key : Key) :
    (s.remove tenantId ws).connections key =
      if key = tenantId then (s.connections key).erase ws else s.connections key := by
  unfold remove
  dsimp only
  rw [Function.update_apply]
  split
  · rename_i same
    rw [same]
  · rfl

theorem of_remove_broadcasts {s : Server Payload} {tenantId : Key} {ws : Socket} {id : Nat} {b : Broadcast Payload}
    (found : (s.remove tenantId ws).broadcasts id = some b) :
    ∃ before, s.broadcasts id = some before ∧ b = before.note tenantId ws := by
  obtain ⟨before, there, noted⟩ := Option.map_eq_some_iff.mp found
  exact ⟨before, there, noted.symm⟩

/-- What one removal keeps, the removals at the end of a broadcast keep. -/
theorem removeDead_keeps (kept : Server Payload → Prop) {tenantId : Key}
    (remove : ∀ s ws, kept s → kept (s.remove tenantId ws)) {s : Server Payload} (h : kept s) (dead : List Socket) :
    kept (s.removeDead tenantId dead).1 := by
  induction dead generalizing s with
  | nil => exact h
  | cons ws dead ih =>
      rw [removeDead]
      split
      · exact ih (remove s ws h)
      · exact h

@[simp] theorem removeDead_clients (s : Server Payload) (tenantId : Key) (dead : List Socket) :
    (s.removeDead tenantId dead).1.clients = s.clients :=
  removeDead_keeps (·.clients = s.clients) (fun _ _ same => same) rfl dead

theorem register_connections (s : Server Payload) (tenantId : Key) (ws : Socket) (key : Key) :
    (s.register tenantId ws).connections key =
      if key = tenantId then s.connections key ++ [ws] else s.connections key := by
  unfold register
  dsimp only
  rw [Function.update_apply]
  split
  · rename_i same
    rw [same]
  · rfl

theorem setHandler_handlers (s : Server Payload) (ws : Socket) (handler : Handler) (ws' : Socket) :
    (s.setHandler ws handler).handlers ws' = if ws' = ws then some handler else s.handlers ws' :=
  Function.update_apply ..

end Server

end CuckooEcho.Admin.Hitl
