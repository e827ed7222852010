import CuckooEcho.Admin.HitlSockets
import CuckooEcho.Lib.Run
import Mathlib.Data.List.Nodup

namespace CuckooEcho.Admin.Hitl
open Lib

/-! ## Whom a broadcast reaches -/

variable {Payload : Type*}

/-- What a broadcast that has ended owes to the connections that stayed registered from its start to its end and
to which no send failed. -/
def Broadcast.Reaches (b : Broadcast Payload) : Prop :=
  b.phase ≠ .raised ∧ (b.phase = .returned →
    ∀ ws ∈ b.atStart, ws ∉ b.removed → (ws, false) ∉ b.sends → b.sends.count (ws, true) = 1)

def Server.ReachesAll (s : Server Payload) : Prop := ∀ id b, s.broadcasts id = some b → b.Reaches

/-- Removing the connection does not disturb the broadcast: it has not failed on it, and where its loop has passed
the connection, none that was there at the start is still to come. -/
def Broadcast.Undisturbed (b : Broadcast Payload) (s : Server Payload) (tenantId : Key) (ws : Socket) : Prop :=
  b.Running → b.key = tenantId → ws ∉ b.dead ∧
    (ws ∈ (s.connections b.key).take b.next → ∀ other ∈ (s.connections b.key).drop b.next, other ∉ b.atStart)

/-- The connections that a broadcast removes when its loop is at the end. -/
def Server.removes (s : Server Payload) (b : Broadcast Payload) : List Socket :=
  if (s.connections b.key).length ≤ b.next then b.dead else []

/-- A connection that a send has failed on is still registered, and what the broadcast removes at its end does not
disturb the other broadcasts. -/
structure Broadcast.Settles (b : Broadcast Payload) (s : Server Payload) (id : Nat) (ws : Socket) (ok : Bool) :
    Prop where
  registered : ok = false → ws ∈ s.connections b.key
  undisturbed : ∀ dead ∈ s.removes (b.settle ws ok), ∀ id' b', id' ≠ id → s.broadcasts id' = some b' →
    b'.Undisturbed s b.key dead

def Server.Considerate (s : Server Payload) : Act Payload → Prop
  | .leave ws => ∀ tenantId, s.handlers ws = some (.registered tenantId) → ws ∈ s.connections tenantId →
      ∀ id b, s.broadcasts id = some b → b.Undisturbed s tenantId ws
  | .sent id ok => ∀ b ws, s.broadcasts id = some b → b.phase = .sending ws → b.Settles s id ws ok
  | _ => True

/-! ### Taking an element out of a list -/

section
variable {α : Type*} [DecidableEq α] {a : α} {n : Nat} {l : List α}

theorem take_erase (passed : a ∉ l.take n) : (l.erase a).take n = l.take n := by
  induction l generalizing n with
  | nil => rfl
  | cons b l ih =>
      cases n with
      | zero => rfl
      | succ n =>
          rw [List.take_succ_cons, List.mem_cons, not_or] at passed
          rw [List.erase_cons_tail (by simpa using Ne.symm passed.1), List.take_succ_cons, List.take_succ_cons,
            ih passed.2]

theorem drop_erase (passed : a ∉ l.take n) : (l.erase a).drop n = (l.drop n).erase a := by
  induction l generalizing n with
  | nil => cases n <;> rfl
  | cons b l ih =>
      cases n with
      | zero => rfl
      | succ n =>
          rw [List.take_succ_cons, List.mem_cons, not_or] at passed
          rw [List.erase_cons_tail (by simpa using Ne.symm passed.1), List.drop_succ_cons, List.drop_succ_cons,
            ih passed.2]

omit [DecidableEq α] in
theorem drop_of_getElem? (here : l[n]? = some a) : l.drop n = a :: l.drop (n + 1) := by
  rw [List.drop_eq_getElem?_toList_append, here]
  rfl

/-- Everything behind the element moves up by one. -/
theorem drop_erase_of_mem_take (passed : a ∈ l.take n) : (l.erase a).drop n = l.drop (n + 1) := by
  induction l generalizing n with
  | nil => simp at passed
  | cons b l ih =>
      cases n with
      | zero => cases passed
      | succ n =>
          by_cases here : b = a
          · rw [here, List.erase_cons_head, List.drop_succ_cons]
          · rw [List.take_succ_cons, List.mem_cons] at passed
            rw [List.erase_cons_tail (by simpa using here), List.drop_succ_cons, List.drop_succ_cons,
              ih (passed.resolve_left fun same => here same.symm)]

theorem drop_erase_subset : (l.erase a).drop n ⊆ l.drop n := by
  by_cases passed : a ∈ l.take n
  · rw [drop_erase_of_mem_take passed]
    exact List.drop_subset_drop_left l (Nat.le_succ n)
  · rw [drop_erase passed]
    exact List.erase_subset

end

/-! ### What the loop has behind it and before it -/

structure Broadcast.Iterates (b : Broadcast Payload) (s : Server Payload) (visited : List Socket) : Prop where
  nodup : visited.Nodup
  entered : ∀ ws ∈ visited, ∃ handler, s.handlers ws = some handler ∧ handler ≠ .accepted
  passed : ∀ ws ∈ visited, ws ∉ (s.connections b.key).drop b.next
  covered : ∀ ws ∈ b.atStart, ws ∉ b.removed → ws ∈ visited ∨ ws ∈ (s.connections b.key).drop b.next
  dead : ∀ ws ∈ b.dead, ws ∈ s.connections b.key ∧ (ws, false) ∈ b.sends
  deadNodup : b.dead.Nodup

structure Steady (s : Server Payload) : Prop where
  nodup : ∀ tenantId, (s.connections tenantId).Nodup
  registered : ∀ tenantId ws, ws ∈ s.connections tenantId → s.handlers ws = some (.registered tenantId)
  iterates : ∀ id b ws, s.broadcasts id = some b → b.phase = .sending ws →
    b.Iterates s (ws :: b.sends.map Prod.fst)
  reaches : s.ReachesAll

namespace Broadcast
variable {b : Broadcast Payload} {s : Server Payload} {tenantId : Key} {ws : Socket} {visited : List Socket}

theorem reaches_of_running (h : b.Running) : b.Reaches := by
  obtain ⟨ws, sending⟩ := h
  unfold Reaches
  rw [sending]
  exact ⟨Phase.noConfusion, Phase.noConfusion⟩

theorem note_running (h : b.Running ∧ b.key = tenantId) :
    b.note tenantId ws = { b with removed := ws :: b.removed } := if_pos h

theorem note_other (h : ¬ (b.Running ∧ b.key = tenantId)) : b.note tenantId ws = b := if_neg h

theorem Reaches.note (h : b.Reaches) : (b.note tenantId ws).Reaches := by
  by_cases noted : b.Running ∧ b.key = tenantId
  · exact reaches_of_running (noted.1.imp fun _ sending => (note_phase ..).trans sending)
  · rwa [note_other noted]

theorem Iterates.congr (h : b.Iterates s visited) {s' : Server Payload} (handlers : s'.handlers = s.handlers)
    (connections : s'.connections = s.connections) : b.Iterates s' visited :=
  ⟨h.nodup, handlers ▸ h.entered, connections ▸ h.passed, connections ▸ h.covered, connections ▸ h.dead,
    h.deadNodup⟩

theorem Iterates.remove (h : b.Iterates s visited) (running : b.Running) (here : b.Undisturbed s tenantId ws) :
    (b.note tenantId ws).Iterates (s.remove tenantId ws) visited := by
  by_cases same : b.key = tenantId
  · obtain ⟨alive, undisturbed⟩ := here running same
    have connections : (s.remove tenantId ws).connections b.key = (s.connections b.key).erase ws := by
      rw [Server.remove_connections, if_pos same]
    rw [note_running ⟨running, same⟩]
    refine ⟨h.nodup, h.entered, fun other member => ?_, fun other member kept => ?_, fun other member => ?_,
      h.deadNodup⟩
    · change other ∉ ((s.remove tenantId ws).connections b.key).drop b.next
      rw [connections]
      exact fun later => h.passed other member (drop_erase_subset later)
    · change _ ∨ other ∈ ((s.remove tenantId ws).connections b.key).drop b.next
      rw [connections]
      obtain ⟨ne, kept⟩ := not_or.mp (mt List.mem_cons.mpr kept)
      refine (h.covered other member kept).imp_right fun later => ?_
      by_cases behind : ws ∈ (s.connections b.key).take b.next
      · exact absurd member (undisturbed behind other later)
      · rw [drop_erase behind]
        exact (List.mem_erase_of_ne ne).mpr later
    · change other ∈ (s.remove tenantId ws).connections b.key ∧ _
      rw [connections]
      obtain ⟨there, failed⟩ := h.dead other member
      exact ⟨(List.mem_erase_of_ne (ne_of_mem_of_not_mem member alive)).mpr there, failed⟩
  · have connections : (s.remove tenantId ws).connections b.key = s.connections b.key :=
      Function.update_of_ne same ..
    rw [note_other fun noted => same noted.2]
    exact ⟨h.nodup, h.entered, connections.symm ▸ h.passed, connections.symm ▸ h.covered,
      connections.symm ▸ h.dead, h.deadNodup⟩

/-- The loop may come to a new connection or not. -/
theorem Iterates.register (h : b.Iterates s visited) (new : ws ∉ visited) :
    b.Iterates (s.register tenantId ws) visited := by
  by_cases same : b.key = tenantId
  · have longer : (s.register tenantId ws).connections b.key = s.connections b.key ++ [ws] := by
      rw [Server.register_connections, if_pos same]
    refine ⟨h.nodup, h.entered, fun other member later => ?_, fun other member kept => ?_, fun other member => ?_,
      h.deadNodup⟩
    · rw [longer, List.drop_append] at later
      rcases List.mem_append.mp later with later | last
      · exact h.passed other member later
      · rw [List.mem_singleton.mp (List.mem_of_mem_drop last)] at member
        exact new member
    · rw [longer, List.drop_append]
      exact (h.covered other member kept).imp_right (List.mem_append_left _)
    · rw [longer]
      exact (h.dead other member).imp_left (List.mem_append_left _)
  · have unchanged : (s.register tenantId ws).connections b.key = s.connections b.key := by
      rw [Server.register_connections, if_neg same]
    exact ⟨h.nodup, h.entered, unchanged.symm ▸ h.passed, unchanged.symm ▸ h.covered, unchanged.symm ▸ h.dead,
      h.deadNodup⟩

theorem Iterates.settle {ok : Bool} (h : b.Iterates s (ws :: b.sends.map Prod.fst))
    (registered : ok = false → ws ∈ s.connections b.key) :
    (b.settle ws ok).Iterates s ((b.settle ws ok).sends.map Prod.fst) := by
  refine ⟨h.nodup, h.entered, h.passed, h.covered, ?_, ?_⟩
  · cases ok with
    | true => exact fun other member => (h.dead other member).imp_right (List.mem_cons_of_mem _)
    | false =>
        intro other member
        rcases List.mem_append.mp member with member | last
        · exact (h.dead other member).imp_right (List.mem_cons_of_mem _)
        · rw [List.mem_singleton.mp last]
          exact ⟨registered rfl, List.mem_cons_self⟩
  · cases ok with
    | true => exact h.deadNodup
    | false =>
        refine h.deadNodup.append (List.nodup_singleton ws) (List.disjoint_singleton.mpr fun failed => ?_)
        have sent : ws ∈ b.sends.map Prod.fst := List.mem_map_of_mem (h.dead ws failed).2
        exact (List.nodup_cons.mp h.nodup).1 sent

theorem Undisturbed.remove {ws' : Socket} (h : b.Undisturbed s tenantId ws) (h' : b.Undisturbed s tenantId ws') :
    (b.note tenantId ws).Undisturbed (s.remove tenantId ws) tenantId ws' := by
  intro running same
  have running : b.Running := running.imp fun _ sending => (note_phase ..).symm.trans sending
  rw [note_key] at same
  obtain ⟨-, undisturbed⟩ := h running same
  obtain ⟨alive, undisturbed'⟩ := h' running same
  have connections : (s.remove tenantId ws).connections b.key = (s.connections b.key).erase ws := by
    rw [Server.remove_connections, if_pos same]
  rw [note_running ⟨running, same⟩]
  refine ⟨alive, fun behind other later => ?_⟩
  change ws' ∈ ((s.remove tenantId ws).connections b.key).take b.next at behind
  change other ∈ ((s.remove tenantId ws).connections b.key).drop b.next at later
  rw [connections] at behind later
  by_cases passed : ws ∈ (s.connections b.key).take b.next
  · exact undisturbed passed other (drop_erase_subset later)
  · rw [take_erase passed] at behind
    exact undisturbed' behind other (drop_erase_subset later)

end Broadcast

/-! ### What a step keeps -/

namespace Steady
variable {s : Server Payload} {id : Nat} {b : Broadcast Payload} {tenantId : Key} {ws : Socket}

theorem remove (h : Steady s) (undisturbed : ∀ id b, s.broadcasts id = some b → b.Undisturbed s tenantId ws) :
    Steady (s.remove tenantId ws) := by
  refine ⟨fun key => ?_, fun key ws' member => h.registered key ws' ?_, fun id b' ws' found sending => ?_,
    fun id b' found => ?_⟩
  · rw [Server.remove_connections]
    split
    · exact (h.nodup key).erase ws
    · exact h.nodup key
  · rw [Server.remove_connections] at member
    split at member
    · exact List.mem_of_mem_erase member
    · exact member
  · obtain ⟨b, before, rfl⟩ := Server.of_remove_broadcasts found
    rw [Broadcast.note_phase] at sending
    rw [Broadcast.note_sends]
    exact (h.iterates id b ws' before sending).remove ⟨ws', sending⟩ (undisturbed id b before)
  · obtain ⟨b, before, rfl⟩ := Server.of_remove_broadcasts found
    exact (h.reaches id b before).note

theorem setBroadcast (h : Steady s) (reaches : b.Reaches)
    (iterates : ∀ ws, b.phase = .sending ws → b.Iterates s (ws :: b.sends.map Prod.fst)) :
    Steady (s.setBroadcast id b) := by
  refine ⟨h.nodup, h.registered, fun id' b' ws found sending => ?_, fun id' b' found => ?_⟩
  · rw [Server.setBroadcast_broadcasts] at found
    split at found
    · obtain rfl := Option.some.inj found
      exact (iterates ws sending).congr rfl rfl
    · exact (h.iterates id' b' ws found sending).congr rfl rfl
  · rw [Server.setBroadcast_broadcasts] at found
    split at found
    · exact Option.some.inj found ▸ reaches
    · exact h.reaches id' b' found

theorem notMem_of_handler (h : Steady s) (unregistered : ∀ key, s.handlers ws ≠ some (.registered key))
    (key : Key) : ws ∉ s.connections key :=
  fun member => unregistered key (h.registered key ws member)

theorem entered_setHandler {visited : List Socket} {handler : Handler}
    (entered : ∀ ws ∈ visited, ∃ handler, s.handlers ws = some handler ∧ handler ≠ .accepted)
    (forward : handler ≠ .accepted ∨ s.handlers ws = none) :
    ∀ ws' ∈ visited, ∃ handler', (s.setHandler ws handler).handlers ws' = some handler' ∧ handler' ≠ .accepted := by
  intro ws' member
  obtain ⟨old, there, entered⟩ := entered ws' member
  rw [Server.setHandler_handlers]
  split
  · rename_i same
    refine ⟨handler, rfl, forward.resolve_right fun none => ?_⟩
    cases (same ▸ there).symm.trans none
  · exact ⟨old, there, entered⟩

theorem setHandler (h : Steady s) {handler : Handler} (outside : ∀ key, ws ∉ s.connections key)
    (forward : handler ≠ .accepted ∨ s.handlers ws = none) : Steady (s.setHandler ws handler) := by
  refine ⟨h.nodup, fun key ws' member => ?_, fun id b ws' found sending => ?_, h.reaches⟩
  · rw [Server.setHandler_handlers, if_neg (ne_of_mem_of_not_mem member (outside key))]
    exact h.registered key ws' member
  · have iterates := h.iterates id b ws' found sending
    exact ⟨iterates.nodup, entered_setHandler iterates.entered forward, iterates.passed, iterates.covered,
      iterates.dead, iterates.deadNodup⟩

theorem register (h : Steady s) (accepted : s.handlers ws = some .accepted) :
    Steady ((s.setHandler ws (.registered tenantId)).register tenantId ws) := by
  have unregistered (key : Key) : s.handlers ws ≠ some (.registered key) := fun there =>
    nomatch accepted.symm.trans there
  have outside := h.notMem_of_handler unregistered
  have set : Steady (s.setHandler ws (.registered tenantId)) :=
    h.setHandler outside (Or.inl Handler.noConfusion)
  refine ⟨fun key => ?_, fun key ws' member => ?_, fun id b ws' found sending => ?_, h.reaches⟩
  · rw [Server.register_connections]
    split
    · refine (h.nodup key).append (List.nodup_singleton ws) ?_
      simpa using outside key
    · exact h.nodup key
  · rw [Server.register_connections] at member
    split at member
    · rename_i same
      rcases List.mem_append.mp member with member | last
      · exact set.registered key ws' member
      · rw [List.mem_singleton.mp last, same]
        exact (Server.setHandler_handlers ..).trans (if_pos rfl)
    · exact set.registered key ws' member
  · refine (set.iterates id b ws' found sending).register fun visited => ?_
    obtain ⟨handler, there, entered⟩ := (h.iterates id b ws' found sending).entered ws visited
    exact entered (Option.some.inj (there.symm.trans accepted))

theorem removeDead (h : Steady s) {dead : List Socket} (distinct : dead.Nodup)
    (there : ∀ ws ∈ dead, ws ∈ s.connections tenantId)
    (undisturbed : ∀ ws ∈ dead, ∀ id b, s.broadcasts id = some b → b.Undisturbed s tenantId ws) :
    Steady (s.removeDead tenantId dead).1 ∧ (s.removeDead tenantId dead).2 = true := by
  induction dead generalizing s with
  | nil => exact ⟨h, rfl⟩
  | cons ws dead ih =>
      obtain ⟨first, distinct⟩ := List.nodup_cons.mp distinct
      obtain ⟨here, there⟩ := List.forall_mem_cons.mp there
      obtain ⟨now, later⟩ := List.forall_mem_cons.mp undisturbed
      rw [Server.removeDead, if_pos here]
      refine ih (h.remove now) distinct (fun ws' member => ?_) fun ws' member id b found => ?_
      · rw [Server.remove_connections, if_pos rfl]
        exact (List.mem_erase_of_ne (ne_of_mem_of_not_mem member first)).mpr (there ws' member)
      · obtain ⟨before, there, rfl⟩ := Server.of_remove_broadcasts found
        exact (now id before there).remove (later ws' member id before there)

/-- At its end the loop has been to every connection that it owes the payload. -/
theorem reaches_of_iterates (iterates : b.Iterates s (b.sends.map Prod.fst))
    (ended : (s.connections b.key).length ≤ b.next) :
    ({ b with phase := .returned } : Broadcast Payload).Reaches := by
  refine ⟨Phase.noConfusion, fun _ ws member kept succeeded => ?_⟩
  have visited : ws ∈ b.sends.map Prod.fst := by
    refine (iterates.covered ws member kept).resolve_right ?_
    rw [List.drop_of_length_le ended]
    exact List.not_mem_nil
  obtain ⟨⟨ws', ok⟩, sent, rfl⟩ := List.mem_map.mp visited
  cases ok with
  | false => exact absurd sent succeeded
  | true => exact List.count_eq_one_of_mem (iterates.nodup.of_map _) sent

theorem advance (h : Steady s) (iterates : b.Iterates s (b.sends.map Prod.fst))
    (here : (s.connections b.key)[b.next]? = some ws) :
    ({ b with next := b.next + 1, phase := .sending ws } : Broadcast Payload).Iterates s
      (ws :: b.sends.map Prod.fst) := by
  have front := drop_of_getElem? here
  have member : ws ∈ (s.connections b.key).drop b.next := front ▸ List.mem_cons_self
  refine ⟨?_, ?_, ?_, ?_, iterates.dead, iterates.deadNodup⟩
  · exact List.nodup_cons.mpr ⟨fun visited => iterates.passed ws visited member, iterates.nodup⟩
  · have registered := h.registered b.key ws (List.mem_of_mem_drop member)
    exact List.forall_mem_cons.mpr ⟨⟨_, registered, Handler.noConfusion⟩, iterates.entered⟩
  · have distinct : (ws :: (s.connections b.key).drop (b.next + 1)).Nodup :=
      front ▸ (h.nodup b.key).sublist (List.drop_sublist ..)
    refine List.forall_mem_cons.mpr ⟨(List.nodup_cons.mp distinct).1, fun other visited later => ?_⟩
    exact iterates.passed other visited (front ▸ List.mem_cons_of_mem ws later)
  · intro other atStart kept
    rcases iterates.covered other atStart kept with visited | later
    · exact Or.inl (List.mem_cons_of_mem ws visited)
    · rw [front] at later
      exact (List.mem_cons.mp later).imp_left fun same => List.mem_cons.mpr (Or.inl same)

/-- The broadcast no longer runs when it removes what is dead, so that disturbs only the others. -/
theorem finish (h : Steady s) (iterates : b.Iterates s (b.sends.map Prod.fst))
    (ended : (s.connections b.key).length ≤ b.next)
    (undisturbed : ∀ dead ∈ b.dead, ∀ id' b', id' ≠ id → s.broadcasts id' = some b' →
      b'.Undisturbed s b.key dead) :
    Steady (Server.removeDead b.key b.dead (s.setBroadcast id { b with phase := .returned })).1 ∧
      (Server.removeDead b.key b.dead (s.setBroadcast id { b with phase := .returned })).2 = true := by
  have returned : Steady (s.setBroadcast id { b with phase := .returned }) := by
    refine h.setBroadcast (reaches_of_iterates iterates ended) fun ws sending => ?_
    cases sending
  refine returned.removeDead iterates.deadNodup (fun ws member => (iterates.dead ws member).1) ?_
  intro ws member id' b' found
  rw [Server.setBroadcast_broadcasts] at found
  split at found
  · obtain rfl := Option.some.inj found
    rintro ⟨ws', sending⟩
    cases sending
  · rename_i other
    exact undisturbed ws member id' b' other found

theorem loop (h : Steady s) (iterates : b.Iterates s (b.sends.map Prod.fst))
    (undisturbed : ∀ dead ∈ s.removes b, ∀ id' b', id' ≠ id → s.broadcasts id' = some b' →
      b'.Undisturbed s b.key dead) : Steady (s.loop id b) := by
  unfold Server.loop
  split
  · rename_i ws here
    refine h.setBroadcast (Broadcast.reaches_of_running ⟨ws, rfl⟩) fun ws' sending => ?_
    obtain rfl := Phase.sending.inj sending
    exact h.advance iterates here
  · rename_i ended
    have ended := List.getElem?_eq_none_iff.mp ended
    rw [Server.removes, if_pos ended] at undisturbed
    have finished := h.finish iterates ended undisturbed
    change Steady (if (Server.removeDead b.key b.dead _).2 then _ else _)
    rw [if_pos finished.2]
    exact finished.1

theorem left (h : Steady s) (outside : ∀ key, s.handlers ws = some (.registered key) → ws ∉ s.connections key) :
    Steady (s.setHandler ws .left) := by
  refine h.setHandler (fun key member => ?_) (Or.inl Handler.noConfusion)
  exact outside key (h.registered key ws member) member

theorem remove_left (h : Steady s) (registered : s.handlers ws = some (.registered tenantId))
    (undisturbed : ∀ id b, s.broadcasts id = some b → b.Undisturbed s tenantId ws) :
    Steady ((s.remove tenantId ws).setHandler ws .left) := by
  refine (h.remove undisturbed).left fun key there => ?_
  obtain rfl : tenantId = key := Handler.registered.inj (Option.some.inj (registered.symm.trans there))
  rw [Server.remove_connections, if_pos rfl]
  exact (h.nodup tenantId).not_mem_erase

theorem start (h : Steady s) (tenantId : String) (payload : Payload) :
    Steady (s.loop id { tenantId, payload, atStart := s.connections (.text tenantId) }) := by
  refine h.loop ⟨List.nodup_nil, List.forall_mem_nil _, List.forall_mem_nil _, fun ws member _ => Or.inr member,
    List.forall_mem_nil _, List.nodup_nil⟩ fun dead member => ?_
  unfold Server.removes at member
  dsimp only at member
  rw [ite_self] at member
  cases member

theorem step (h : Steady s) {a : Act Payload} (considerate : s.Considerate a) {t : Server Payload}
    (next : s.step a = some t) : Steady t := by
  cases Server.moved_of_step next with
  | connected fresh =>
      have accepted : Steady (s.setHandler _ .accepted) :=
        h.setHandler (h.notMem_of_handler fun key registered => by cases fresh.symm.trans registered) (Or.inr fresh)
      refine ⟨accepted.nodup, accepted.registered, fun id b ws' found sending => ?_, accepted.reaches⟩
      exact (accepted.iterates id b ws' found sending).congr rfl rfl
  | registers accepted registered => exact h.register accepted
  | refuses accepted refused =>
      refine h.setHandler (h.notMem_of_handler fun key registered => ?_) (Or.inl (InitMessage.handle_ne_accepted _))
      cases accepted.symm.trans registered
  | reads => exact h
  | leavesEarly accepted =>
      refine h.left fun key registered => ?_
      cases accepted.symm.trans registered
  | leaves registered inside => exact h.remove_left registered (considerate _ registered inside)
  | leavesRemoved registered outside =>
      refine h.left fun key there => ?_
      exact Handler.registered.inj (Option.some.inj (registered.symm.trans there)) ▸ outside
  | starts fresh => exact h.start _ _
  | goesOn found sending =>
      obtain ⟨registered, undisturbed⟩ := considerate _ _ found sending
      exact h.loop ((h.iterates _ _ _ found sending).settle registered) undisturbed

end Steady

theorem steady_start : Steady ({} : Server Payload) where
  nodup _ := List.nodup_nil
  registered _ _ member := nomatch member
  iterates _ _ _ found := nomatch found
  reaches _ _ found := nomatch found

/-- In a run whose removals disturb no broadcast, every broadcast that has ended has returned, and has sent its payload
once to each connection that was registered all the while. -/
theorem reachesAll_of_considerate (acts : List (Act Payload))
    (considerate : Along Server.step Server.Considerate ({} : Server Payload) acts) :
    Throughout Server.step Server.ReachesAll ({} : Server Payload) acts := by
  have steady : Throughout Server.step Steady ({} : Server Payload) acts :=
    throughout_of_along (fun _ _ _ h considerate next => h.step considerate next) steady_start considerate
  exact steady.mono fun _ h => h.reaches

/-! ### A connection that is passed over -/

structure Broadcast.Misses (b : Broadcast Payload) (s : Server Payload) (other : Socket) : Prop where
  owed : other ∈ b.atStart
  unsent : other ∉ b.sends.map Prod.fst
  elsewhere : b.phase ≠ .sending other
  passed : b.Running → other ∉ (s.connections b.key).drop b.next

structure Missed (s : Server Payload) (id : Nat) (other : Socket) : Prop where
  entered : ∃ handler, s.handlers other = some handler ∧ handler ≠ .accepted
  misses : ∃ b, s.broadcasts id = some b ∧ b.Misses s other

namespace Missed
variable {s : Server Payload} {id : Nat} {b : Broadcast Payload} {tenantId : Key} {ws other : Socket}

theorem remove (h : Missed s id other) : Missed (s.remove tenantId ws) id other := by
  obtain ⟨b, found, misses⟩ := h.misses
  refine ⟨h.entered, b.note tenantId ws, congrArg (Option.map (Broadcast.note tenantId ws)) found, ?_⟩
  have noted : (b.note tenantId ws).atStart = b.atStart ∧ (b.note tenantId ws).next = b.next := by
    unfold Broadcast.note
    split
    · exact ⟨rfl, rfl⟩
    · exact ⟨rfl, rfl⟩
  refine ⟨noted.1 ▸ misses.owed, ?_, ?_, fun running => ?_⟩
  · rw [Broadcast.note_sends]
    exact misses.unsent
  · rw [Broadcast.note_phase]
    exact misses.elsewhere
  · have passed := misses.passed (running.imp fun _ sending => (b.note_phase ..).symm.trans sending)
    rw [Broadcast.note_key, noted.2, Server.remove_connections]
    split
    · exact fun later => passed (drop_erase_subset later)
    · exact passed

theorem removeDead (h : Missed s id other) (dead : List Socket) : Missed (s.removeDead tenantId dead).1 id other :=
  Server.removeDead_keeps (Missed · id other) (fun _ _ missed => missed.remove) h dead

theorem setHandler (h : Missed s id other) {handler : Handler}
    (forward : handler ≠ .accepted ∨ s.handlers ws = none) : Missed (s.setHandler ws handler) id other := by
  obtain ⟨b, found, misses⟩ := h.misses
  refine ⟨?_, b, found, misses.owed, misses.unsent, misses.elsewhere, misses.passed⟩
  have entered := Steady.entered_setHandler (List.forall_mem_singleton.mpr h.entered) forward
  exact entered other (List.mem_singleton_self other)

theorem register (h : Missed s id other) (new : other ≠ ws) : Missed (s.register tenantId ws) id other := by
  obtain ⟨b, found, misses⟩ := h.misses
  refine ⟨h.entered, b, found, misses.owed, misses.unsent, misses.elsewhere, fun running => ?_⟩
  rw [Server.register_connections]
  split
  · rw [List.drop_append, List.mem_append, not_or]
    refine ⟨misses.passed running, fun last => ?_⟩
    exact new (List.mem_singleton.mp (List.mem_of_mem_drop last))
  · exact misses.passed running

theorem setBroadcast (h : Missed s id other) {id' : Nat} (misses : id' = id → b.Misses s other) :
    Missed (s.setBroadcast id' b) id other := by
  refine ⟨h.entered, ?_⟩
  rw [Server.setBroadcast_broadcasts]
  split
  · rename_i same
    obtain ⟨owed, unsent, elsewhere, passed⟩ := misses same.symm
    exact ⟨b, rfl, owed, unsent, elsewhere, passed⟩
  · obtain ⟨b, found, misses⟩ := h.misses
    exact ⟨b, found, misses.owed, misses.unsent, misses.elsewhere, misses.passed⟩

/-- The loop goes on behind the connection, or ends. -/
theorem loop (h : Missed s id other) {id' : Nat} (owed : id' = id → other ∈ b.atStart)
    (unsent : id' = id → other ∉ b.sends.map Prod.fst)
    (passed : id' = id → other ∉ (s.connections b.key).drop b.next) : Missed (s.loop id' b) id other := by
  unfold Server.loop
  split
  · rename_i ws here
    refine h.setBroadcast fun same => ?_
    obtain ⟨ne, later⟩ := not_or.mp (mt List.mem_cons.mpr (drop_of_getElem? here ▸ passed same))
    exact ⟨owed same, unsent same, fun sending => ne (Phase.sending.inj sending).symm, fun _ => later⟩
  · have returned : Missed (s.setBroadcast id' { b with phase := .returned }) id other := by
      refine h.setBroadcast fun same => ⟨owed same, unsent same, Phase.noConfusion, ?_⟩
      rintro ⟨ws, sending⟩
      cases sending
    have removed : Missed (Server.removeDead b.key b.dead (s.setBroadcast id' { b with phase := .returned })).1 id
        other := returned.removeDead b.dead
    change Missed (if (Server.removeDead b.key b.dead _).2 then _ else Server.setBroadcast _ id' _) id other
    split
    · exact removed
    · refine removed.setBroadcast fun same => ⟨owed same, unsent same, Phase.noConfusion, ?_⟩
      rintro ⟨ws, sending⟩
      cases sending

theorem step {a : Act Payload} {t : Server Payload} (h : Missed s id other) (next : s.step a = some t) :
    Missed t id other := by
  obtain ⟨b, there, misses⟩ := h.misses
  cases Server.moved_of_step next with
  | connected fresh =>
      have accepted : Missed (s.setHandler _ .accepted) id other := h.setHandler (Or.inr fresh)
      obtain ⟨b, there, misses⟩ := accepted.misses
      exact ⟨accepted.entered, b, there, misses.owed, misses.unsent, misses.elsewhere, misses.passed⟩
  | registers accepted registered =>
      refine (h.setHandler (Or.inl Handler.noConfusion)).register ?_
      rintro rfl
      obtain ⟨handler, known, entered⟩ := h.entered
      exact entered (Option.some.inj (known.symm.trans accepted))
  | refuses => exact h.setHandler (Or.inl (InitMessage.handle_ne_accepted _))
  | reads => exact h
  | leavesEarly => exact h.setHandler (Or.inl Handler.noConfusion)
  | leaves => exact h.remove.setHandler (Or.inl Handler.noConfusion)
  | leavesRemoved => exact h.setHandler (Or.inl Handler.noConfusion)
  | starts fresh =>
      have apart {id' : Nat} (free : s.broadcasts id' = none) : id' ≠ id := by
        rintro rfl
        cases free.symm.trans there
      exact h.loop (fun same => absurd same (apart fresh)) (fun same => absurd same (apart fresh))
        fun same => absurd same (apart fresh)
  | goesOn found sending =>
      refine h.loop (fun same => ?_) (fun same => ?_) fun same => ?_
      · obtain rfl := Option.some.inj (found.symm.trans (same ▸ there))
        exact misses.owed
      · obtain rfl := Option.some.inj (found.symm.trans (same ▸ there))
        refine List.not_mem_cons_of_ne_of_not_mem ?_ misses.unsent
        rintro rfl
        exact misses.elsewhere sending
      · obtain rfl := Option.some.inj (found.symm.trans (same ▸ there))
        exact misses.passed ⟨_, sending⟩

theorem not_reaches (h : Missed s id other) (found : s.broadcasts id = some b) (returned : b.phase = .returned)
    (kept : other ∉ b.removed) : ¬ b.Reaches := by
  obtain ⟨b', there, misses⟩ := h.misses
  obtain rfl := Option.some.inj (found.symm.trans there)
  have unsent (ok : Bool) : (other, ok) ∉ b.sends := fun sent => misses.unsent (List.mem_map_of_mem sent)
  intro reaches
  have once := reaches.2 returned other misses.owed kept (unsent false)
  rw [List.count_eq_zero.mpr (unsent true)] at once
  cases once

end Missed

theorem missed_of_remove {s : Server Payload} (h : Steady s) {id : Nat} {b : Broadcast Payload} {ws other : Socket}
    (found : s.broadcasts id = some b) (running : b.Running) (behind : ws ∈ (s.connections b.key).take b.next)
    (comes : (s.connections b.key)[b.next]? = some other) (atStart : other ∈ b.atStart) :
    Missed (s.remove b.key ws) id other := by
  obtain ⟨current, sending⟩ := running
  have front := drop_of_getElem? comes
  have member : other ∈ (s.connections b.key).drop b.next := front ▸ List.mem_cons_self
  have unvisited : other ∉ current :: b.sends.map Prod.fst := fun visited =>
    (h.iterates id b current found sending).passed other visited member
  obtain ⟨ne, unsent⟩ := not_or.mp (mt List.mem_cons.mpr unvisited)
  have distinct : (other :: (s.connections b.key).drop (b.next + 1)).Nodup :=
    front ▸ (h.nodup b.key).sublist (List.drop_sublist ..)
  refine ⟨⟨_, h.registered b.key other (List.mem_of_mem_drop member), Handler.noConfusion⟩, b.note b.key ws,
    congrArg (Option.map (Broadcast.note b.key ws)) found, ?_⟩
  rw [Broadcast.note_running ⟨⟨current, sending⟩, rfl⟩]
  refine ⟨atStart, unsent, fun same => ne (Phase.sending.inj (sending.symm.trans same)).symm, fun _ => ?_⟩
  change other ∉ ((s.remove b.key ws).connections b.key).drop b.next
  rw [Server.remove_connections, if_pos rfl, drop_erase_of_mem_take behind]
  exact (List.nodup_cons.mp distinct).1

/-- The condition is needed: if a connection that the loop has passed leaves while one from the start comes next, the
broadcast does not send to that one any more, and returns without having done so. -/
theorem passedOver_of_leave {s t : Server Payload} (h : Steady s) {id : Nat} {b : Broadcast Payload}
    {ws other : Socket} (found : s.broadcasts id = some b) (running : b.Running)
    (registered : s.handlers ws = some (.registered b.key)) (behind : ws ∈ (s.connections b.key).take b.next)
    (comes : (s.connections b.key)[b.next]? = some other) (atStart : other ∈ b.atStart)
    (next : s.step (.leave ws) = some t) (acts : List (Act Payload)) :
    Throughout Server.step (fun s => ∀ b, s.broadcasts id = some b → b.phase = .returned → other ∉ b.removed →
      ¬ b.Reaches) t acts := by
  have missed : Missed t id other := by
    have removed := missed_of_remove h found running behind comes atStart
    cases Server.moved_of_step next with
    | leavesEarly accepted => cases accepted.symm.trans registered
    | leaves there inside =>
        obtain rfl := Handler.registered.inj (Option.some.inj (there.symm.trans registered))
        exact removed.setHandler (Or.inl Handler.noConfusion)
    | leavesRemoved there outside =>
        obtain rfl := Handler.registered.inj (Option.some.inj (there.symm.trans registered))
        exact absurd (List.mem_of_mem_take behind) outside
  have forever : Throughout Server.step (fun s => Missed s id other) t acts :=
    throughout_of_step (fun _ _ _ h next => h.step next) missed
  refine forever.mono fun s h b found returned kept => ?_
  exact h.not_reaches found returned kept

def visitor : Client := ⟨{ path := hitlPath }, 0⟩

/-- Two admins of a tenant are connected, and a broadcast is sent to the first of them. -/
def twoAdmins : List (Act Unit) :=
  [.connect 0 visitor, .connect 1 visitor, .receiveJson 0 (.text "t1"), .receiveJson 1 (.text "t1"),
    .broadcastToTenant 0 "t1" ()]

theorem reachesAll_twoAdmins : Throughout Server.step Server.ReachesAll ({} : Server Unit)
    (twoAdmins ++ [.sent 0 true, .sent 0 false]) := by
  refine reachesAll_of_considerate _ ?_
  refine along_cons rfl trivial (along_cons rfl trivial (along_cons rfl trivial (along_cons rfl trivial
    (along_cons rfl trivial (along_cons rfl ?_ (along_cons rfl ?_ trivial))))))
  · intro b ws found sending
    cases found
    exact ⟨Bool.noConfusion, List.forall_mem_nil _⟩
  · intro b ws found sending
    cases found
    cases sending
    refine ⟨fun _ => by decide, fun dead _ id' b' other found => ?_⟩
    cases id' with
    | zero => exact absurd rfl other
    | succ id' => cases found

/-- The first admin disconnects while the payload is sent to it, and the second gets nothing. -/
theorem leave_skips : ¬ Throughout Server.step Server.ReachesAll ({} : Server Unit)
    (twoAdmins ++ [.leave 0, .sent 0 true]) := by
  intro reaches
  have last := reaches.last (t := _) rfl
  have owed := (last 0 _ rfl).2 rfl 1 (by decide) (by decide) (by decide)
  exact absurd owed (by decide)

end CuckooEcho.Admin.Hitl
