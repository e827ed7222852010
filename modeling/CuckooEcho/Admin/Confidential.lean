import CuckooEcho.Admin.HitlSockets
import CuckooEcho.Lib.Run

namespace CuckooEcho.Admin.Hitl
open Lib

/-! ## Who is sent a tenant's events -/

variable {Payload : Type*}

/-- The middleware, had it run for the handshake, would have let it through for the tenant. -/
def Client.Presents (client : Client) (service : Service) (tenantId : String) : Prop :=
  ∃ state : RequestState, service.dispatch client.time client.handshake Except.ok = .ok (some state) ∧
    state.tenantId = tenantId

def Server.Trusted (s : Server Payload) (service : Service) (ws : Socket) (tenantId : String) : Prop :=
  ∃ client, s.clients ws = some client ∧ client.Presents service tenantId

/-- The connections that the payload has been given to, the one that it is being sent to included. -/
def Broadcast.recipients (b : Broadcast Payload) : List Socket :=
  match b.phase with
  | .sending ws => ws :: b.sends.map Prod.fst
  | _ => b.sends.map Prod.fst

def Server.Confidential (service : Service) (s : Server Payload) : Prop :=
  ∀ id b, s.broadcasts id = some b → ∀ ws ∈ b.recipients, s.Trusted service ws b.tenantId

/-- Who registers for a tenant has presented a token for it. -/
def Server.Authorised (service : Service) (s : Server Payload) : Act Payload → Prop
  | .receiveJson ws message =>
      ∀ tenantId, message.handle = .registered (.text tenantId) → s.Trusted service ws tenantId
  | _ => True

structure Guarded (service : Service) (s : Server Payload) : Prop where
  connections : ∀ tenantId ws, ws ∈ s.connections (.text tenantId) → s.Trusted service ws tenantId
  confidential : s.Confidential service
  clients : ∀ ws, s.handlers ws = none → s.clients ws = none

theorem recipients_note (b : Broadcast Payload) (tenantId : Key) (ws : Socket) :
    (b.note tenantId ws).recipients = b.recipients := by
  unfold Broadcast.recipients
  rw [Broadcast.note_phase, Broadcast.note_sends]

theorem recipients_settle {b : Broadcast Payload} {ws : Socket} (sending : b.phase = .sending ws) (ok : Bool) :
    (b.settle ws ok).sends.map Prod.fst = b.recipients := by
  unfold Broadcast.recipients
  rw [sending]
  rfl

namespace Guarded
variable {service : Service} {s : Server Payload} {id : Nat} {b : Broadcast Payload} {tenantId : Key} {ws : Socket}

theorem remove (h : Guarded service s) : Guarded service (s.remove tenantId ws) := by
  refine ⟨fun tenant ws' member => h.connections tenant ws' ?_, fun id b found ws' member => ?_, h.clients⟩
  · rw [Server.remove_connections] at member
    split at member
    · exact List.mem_of_mem_erase member
    · exact member
  · obtain ⟨before, there, rfl⟩ := Server.of_remove_broadcasts found
    rw [recipients_note] at member
    rw [Broadcast.note_tenantId]
    exact h.confidential id before there ws' member

theorem removeDead (h : Guarded service s) (dead : List Socket) :
    Guarded service (s.removeDead tenantId dead).1 :=
  Server.removeDead_keeps (Guarded service) (fun _ _ guarded => guarded.remove) h dead

theorem setBroadcast (h : Guarded service s) (trusted : ∀ ws ∈ b.recipients, s.Trusted service ws b.tenantId) :
    Guarded service (s.setBroadcast id b) := by
  refine ⟨h.connections, fun id' b' found => ?_, h.clients⟩
  rw [Server.setBroadcast_broadcasts] at found
  split at found
  · exact Option.some.inj found ▸ trusted
  · exact h.confidential id' b' found

theorem loop (h : Guarded service s) (trusted : ∀ ws ∈ b.sends.map Prod.fst, s.Trusted service ws b.tenantId) :
    Guarded service (s.loop id b) := by
  unfold Server.loop
  split
  · rename_i ws here
    have registered : ws ∈ s.connections b.key := List.mem_of_getElem? here
    refine h.setBroadcast (List.forall_mem_cons.mpr ⟨h.connections b.tenantId ws registered, trusted⟩)
  · have returned : Guarded service (s.setBroadcast id { b with phase := .returned }) := h.setBroadcast trusted
    have removed : Guarded service
        (Server.removeDead b.key b.dead (s.setBroadcast id { b with phase := .returned })).1 :=
      returned.removeDead b.dead
    change Guarded service (if (Server.removeDead b.key b.dead _).2 then _ else Server.setBroadcast _ id _)
    split
    · exact removed
    · refine removed.setBroadcast fun ws member => ?_
      rw [Server.Trusted, Server.removeDead_clients]
      exact trusted ws member

theorem setHandler (h : Guarded service s) (handler : Handler) : Guarded service (s.setHandler ws handler) := by
  refine ⟨h.connections, h.confidential, fun ws' unknown => h.clients ws' ?_⟩
  rw [Server.setHandler_handlers] at unknown
  split at unknown
  · cases unknown
  · exact unknown

theorem connect (h : Guarded service s) (client : Client) (fresh : s.handlers ws = none) :
    Guarded service { s.setHandler ws .accepted with clients := Function.update s.clients ws (some client) } := by
  -- Nobody who is trusted already changes its client
  have trusted {ws' : Socket} {tenantId : String} (old : s.Trusted service ws' tenantId) :
      Server.Trusted { s.setHandler ws .accepted with clients := Function.update s.clients ws (some client) }
        service ws' tenantId := by
    obtain ⟨known, there, presents⟩ := old
    have other : ws' ≠ ws := by
      rintro rfl
      cases (h.clients ws' fresh).symm.trans there
    exact ⟨known, (Function.update_of_ne other ..).trans there, presents⟩
  refine ⟨fun tenant ws' member => trusted (h.connections tenant ws' member),
    fun id b found ws' member => trusted (h.confidential id b found ws' member), fun ws' unknown => ?_⟩
  have unknown := (s.setHandler_handlers ws .accepted ws').symm.trans unknown
  split at unknown
  · cases unknown
  · rename_i other
    exact (Function.update_of_ne other ..).trans (h.clients ws' unknown)

theorem register (h : Guarded service s)
    (trusted : ∀ tenant, tenantId = .text tenant → s.Trusted service ws tenant) :
    Guarded service ((s.setHandler ws (.registered tenantId)).register tenantId ws) := by
  have handled : Guarded service (s.setHandler ws (.registered tenantId)) := h.setHandler _
  refine ⟨fun tenant ws' member => ?_, handled.confidential, handled.clients⟩
  rw [Server.register_connections] at member
  split at member
  · rename_i same
    rcases List.mem_append.mp member with member | last
    · exact h.connections tenant ws' member
    · exact List.mem_singleton.mp last ▸ trusted tenant same.symm
  · exact h.connections tenant ws' member

theorem step (h : Guarded service s) {a : Act Payload} (authorised : s.Authorised service a) {t : Server Payload}
    (next : s.step a = some t) : Guarded service t := by
  cases Server.moved_of_step next with
  | connected fresh => exact h.connect _ fresh
  | registers _ registered => exact h.register fun tenant same => authorised tenant (same ▸ registered)
  | refuses => exact h.setHandler _
  | reads => exact h
  | leavesEarly => exact h.setHandler .left
  | leaves => exact h.remove.setHandler .left
  | leavesRemoved => exact h.setHandler .left
  | starts => exact h.loop (List.forall_mem_nil _)
  | goesOn found sending =>
      refine h.loop fun ws' member => ?_
      rw [recipients_settle sending] at member
      exact h.confidential _ _ found ws' member

end Guarded

theorem guarded_start (service : Service) : Guarded service ({} : Server Payload) where
  connections _ _ member := nomatch member
  confidential _ _ found := nomatch found
  clients _ _ := rfl

/-- In a run in which each registration for a tenant comes from a client that presented a token for it, its events
are sent to such clients only. -/
theorem confidential_of_authorised (service : Service) (acts : List (Act Payload))
    (authorised : Along Server.step (Server.Authorised service) ({} : Server Payload) acts) :
    Throughout Server.step (Server.Confidential service) ({} : Server Payload) acts := by
  have guarded : Throughout Server.step (Guarded service) ({} : Server Payload) acts :=
    throughout_of_along (fun _ _ _ h authorised next => h.step authorised next) (guarded_start service) authorised
  exact guarded.mono fun _ h => h.confidential

/-- The condition is needed: a broadcast starts with whoever is registered first. -/
theorem leaks_to_first {service : Service} {s t : Server Payload} {id : Nat} {tenantId : String} {payload : Payload}
    {ws : Socket} (first : (s.connections (.text tenantId))[0]? = some ws)
    (untrusted : ¬ s.Trusted service ws tenantId)
    (next : s.step (.broadcastToTenant id tenantId payload) = some t) : ¬ t.Confidential service := by
  intro confidential
  cases Server.moved_of_step next with
  | starts fresh =>
      let b : Broadcast Payload := { tenantId, payload, atStart := s.connections (.text tenantId) }
      have sends : s.loop id b = s.setBroadcast id { b with next := 1, phase := .sending ws } := by
        unfold Server.loop
        split
        · rename_i ws' here
          obtain rfl := Option.some.inj (here.symm.trans first)
          rfl
        · rename_i none
          cases none.symm.trans first
      rw [sends] at confidential
      have found := (s.setBroadcast_broadcasts id { b with next := 1, phase := .sending ws } id).trans (if_pos rfl)
      exact untrusted (confidential id _ found ws List.mem_cons_self)

/-- Knows one token, which is valid for a day. -/
def oneToken : Service where
  jwt :=
    { encode := fun _ _ => "token-1"
      decode := fun token _ now =>
        if token = "token-1" ∧ now < 86400 then .ok (Service.payload 0 "admin-1" "t1" "admin")
        else .error .invalidToken }
  adminJwtSecret := "secret"

def holder : Client := ⟨({ path := hitlPath } : Request).setHeader "Authorization" (bearer ++ "token-1"), 3600⟩

def stranger : Client := ⟨{ path := hitlPath }, 3600⟩

theorem holder_presents : holder.Presents oneToken "t1" := by
  have guarded : hitlPath ∉ exemptPaths := by decide
  exact ⟨_, Service.dispatch_bearer guarded (Request.header_setHeader ..) rfl, rfl⟩

theorem stranger_presents_nothing (service : Service) (tenantId : String) : ¬ stranger.Presents service tenantId := by
  rintro ⟨state, passed, -⟩
  have guarded : hitlPath ∉ exemptPaths := by decide
  cases (Service.dispatch_missing guarded rfl).symm.trans passed

theorem confidential_holder : Throughout Server.step (Server.Confidential oneToken) ({} : Server Unit)
    [.connect 0 holder, .receiveJson 0 (.text "t1"), .broadcastToTenant 0 "t1" (), .sent 0 true] := by
  refine confidential_of_authorised oneToken _ (along_cons rfl trivial (along_cons rfl ?_
    (along_cons rfl trivial (along_cons rfl trivial trivial))))
  rintro tenantId ⟨⟩
  exact ⟨holder, rfl, holder_presents⟩

theorem stranger_receives : ¬ Throughout Server.step (Server.Confidential oneToken) ({} : Server Unit)
    [.connect 0 stranger, .receiveJson 0 (.text "t1"), .broadcastToTenant 0 "t1" ()] := by
  intro confidential
  have last := confidential.last (t := _) rfl
  obtain ⟨client, known, presents⟩ := last 0 _ rfl 0 List.mem_cons_self
  obtain rfl : stranger = client := Option.some.inj known
  exact stranger_presents_nothing oneToken _ presents

end CuckooEcho.Admin.Hitl
