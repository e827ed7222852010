import CuckooEcho.Frontend.WsClient

namespace CuckooEcho.Frontend
open Lib

namespace WsClient

/-! ## What a step does -/

/-- The outcome of an action with what the browser needs for it. -/
inductive Effect {ω : Type*} (valid : ω → Bool) (m : WsClient ω) : Act ω → WsClient ω → Prop
  | connect (options : ω) : Effect valid m (.connect options) { m.connect valid options with left := none }
  | disconnect : Effect valid m .disconnect { m.disconnect with left := some m.sockets.length }
  | send (data : String) : Effect valid m (.send data) (m.send data)
  | onOpen {i : Nat} {s : Socket ω} (found : m.sockets[i]? = some s) (connecting : s.readyState = .connecting) :
      Effect valid m (.onOpen i) (m.onOpen i)
  | onClose {i : Nat} {s : Socket ω} (code : Nat) (found : m.sockets[i]? = some s) (unfinished : s.unfinished = true) :
      Effect valid m (.onClose i code) (m.onClose i s.options code)
  | onError (i : Nat) : Effect valid m (.onError i) m
  | heartbeat (id : Nat) (data : String) : Effect valid m (.heartbeat id) (m.send data)
  | reconnect {id : Nat} {t : Timeout ω} (found : m.timeouts.find? (·.id = id) = some t) :
      Effect valid m (.reconnect id) (m.reconnect valid t)

theorem effect_of_step {ω : Type*} {valid : ω → Bool} {m m' : WsClient ω} {act : Act ω}
    (next : m.step valid act = some m') : Effect valid m act m' := by
  cases act with
  | connect options => exact Option.some.inj next ▸ .connect options
  | disconnect => exact Option.some.inj next ▸ .disconnect
  | send data => exact Option.some.inj next ▸ .send data
  | onOpen i =>
      obtain ⟨s, found, rfl⟩ := Option.map_eq_some_iff.mp next
      obtain ⟨found, connecting⟩ := Option.filter_eq_some_iff.mp found
      exact .onOpen found (of_decide_eq_true connecting)
  | onClose i code =>
      obtain ⟨s, found, rfl⟩ := Option.map_eq_some_iff.mp next
      obtain ⟨found, unfinished⟩ := Option.filter_eq_some_iff.mp found
      exact .onClose code found unfinished
  | onError i =>
      obtain ⟨s, -, rfl⟩ := Option.map_eq_some_iff.mp next
      exact .onError i
  | heartbeat id =>
      obtain ⟨-, eq⟩ := Option.ite_none_right_eq_some.mp next
      exact Option.some.inj eq ▸ .heartbeat id _
  | reconnect id =>
      obtain ⟨t, found, rfl⟩ := Option.map_eq_some_iff.mp next
      exact .reconnect found

/-! ## Counting sockets -/

section
variable {ω : Type*} {p : ω → Bool} {f : ω → ω}

theorem countP_modify_le (l : List ω) (i : Nat) (fewer : ∀ s ∈ l[i]?, p (f s) = true → p s = true) :
    (l.modify i f).countP p ≤ l.countP p := by
  induction l generalizing i with
  | nil => simp
  | cons s l ih =>
      cases i with
      | zero =>
          rw [List.modify_zero_cons, List.countP_cons, List.countP_cons]
          have here := fewer s rfl
          split <;> split <;> simp_all
      | succ i =>
          rw [List.modify_succ_cons, List.countP_cons, List.countP_cons]
          exact Nat.add_le_add_right (ih i fewer) _

theorem countP_modify_lt (l : List ω) (i : Nat) {s : ω} (found : l[i]? = some s) (before : p s = true)
    (after : p (f s) = false) : (l.modify i f).countP p < l.countP p := by
  induction l generalizing i with
  | nil => cases found
  | cons t l ih =>
      cases i with
      | zero =>
          obtain rfl := Option.some.inj found
          simp [before, after]
      | succ i =>
          rw [List.modify_succ_cons, List.countP_cons, List.countP_cons]
          exact Nat.add_lt_add_right (ih i found) _

end

/-! ## Timers -/

section
variable {ω : Type*} {valid : ω → Bool} {m m' : WsClient ω}

theorem stopHeartbeat_eq (shared : m.intervals = m.heartbeatTimer.toList) :
    m.stopHeartbeat = { m with intervals := [], heartbeatTimer := none } := by
  obtain ⟨ws, heartbeatTimer⟩ := m
  cases heartbeatTimer <;> simp_all [stopHeartbeat]

theorem clearReconnect_eq (shared : m.timeouts.map Timeout.id = m.reconnectTimer.toList) :
    m.clearReconnect = { m with timeouts := [], reconnectTimer := none } := by
  obtain ⟨ws, heartbeatTimer, reconnectTimer, reconnectDelay, intentionalClose, sockets, intervals, timeouts⟩ := m
  cases reconnectTimer with
  | none => simp_all [clearReconnect]
  | some id =>
      obtain ⟨t, rfl, same⟩ := List.map_eq_singleton_iff.mp shared
      simp [clearReconnect, same]

/-- The browser has the timers that the client knows, and after a `disconnect` nothing creates a socket. -/
structure Sound (m : WsClient ω) : Prop where
  intervals : m.intervals = m.heartbeatTimer.toList
  timeouts : m.timeouts.map Timeout.id = m.reconnectTimer.toList
  left : ∀ sockets, m.left = some sockets →
    m.intentionalClose = true ∧ m.timeouts = [] ∧ m.sockets.length = sockets

/-! ### What the methods do to the sockets -/

@[simp] theorem sockets_stopHeartbeat : m.stopHeartbeat.sockets = m.sockets := by
  unfold stopHeartbeat
  split <;> rfl

@[simp] theorem sockets_clearReconnect : m.clearReconnect.sockets = m.sockets := by
  unfold clearReconnect
  split <;> rfl

@[simp] theorem sockets_send {data : String} : (m.send data).sockets = m.sockets := by
  unfold send
  split
  · rfl
  · split <;> rfl

@[simp] theorem sockets_connect {options : ω} :
    (m.connect valid options).sockets =
      if valid options then m.sockets ++ [⟨options, .connecting⟩] else m.sockets := by
  unfold connect
  dsimp only
  split <;> rfl

@[simp] theorem ws_stopHeartbeat : m.stopHeartbeat.ws = m.ws := by
  unfold stopHeartbeat
  split <;> rfl

@[simp] theorem ws_clearReconnect : m.clearReconnect.ws = m.ws := by
  unfold clearReconnect
  split <;> rfl

theorem sockets_disconnect :
    m.disconnect.sockets = m.ws.elim m.sockets fun i => m.sockets.modify i Socket.close := by
  unfold disconnect
  dsimp only
  rw [ws_clearReconnect, ws_stopHeartbeat]
  cases m.ws with
  | none => exact sockets_clearReconnect.trans sockets_stopHeartbeat
  | some i => exact congrArg (List.modify · i Socket.close) (sockets_clearReconnect.trans sockets_stopHeartbeat)

@[simp] theorem sockets_onOpen {i : Nat} :
    (m.onOpen i).sockets = m.sockets.modify i fun s => { s with readyState := .opened } :=
  sockets_stopHeartbeat

@[simp] theorem sockets_onClose {i : Nat} {options : ω} {code : Nat} :
    (m.onClose i options code).sockets = m.sockets.modify i fun s => { s with readyState := .closed } := by
  unfold onClose
  dsimp only
  split
  · exact sockets_clearReconnect.trans sockets_stopHeartbeat
  · exact sockets_stopHeartbeat

/-! ### What the methods keep -/

theorem timeouts_stopHeartbeat : m.stopHeartbeat.timeouts = m.timeouts := by
  unfold stopHeartbeat
  split <;> rfl

theorem toList_length_le {α : Type*} (o : Option α) : o.toList.length ≤ 1 := by
  cases o <;> simp

theorem Sound.timeouts_le (h : Sound m) : m.timeouts.length ≤ 1 := by
  rw [← List.length_map (f := Timeout.id), h.timeouts]
  exact toList_length_le _

theorem Sound.oneConnection (h : Sound m) (live : m.liveSockets ≤ 1) : OneConnection m where
  live := live
  heartbeat := h.intervals ▸ toList_length_le _
  reconnect := h.timeouts_le
  quiet := fun sockets here => (h.left sockets here).2.2

theorem Sound.send (h : Sound m) (data : String) : Sound (m.send data) := by
  unfold WsClient.send
  split
  · exact h
  · split
    · exact ⟨h.intervals, h.timeouts, h.left⟩
    · exact h

theorem Sound.connect (h : Sound m) (options : ω) (here : m.left = none) : Sound (m.connect valid options) := by
  have away (sockets : Nat) (gone : m.left = some sockets) : False := nomatch here.symm.trans gone
  unfold WsClient.connect
  dsimp only
  split
  · exact ⟨h.intervals, h.timeouts, fun sockets gone => (away sockets gone).elim⟩
  · exact ⟨h.intervals, h.timeouts, fun sockets gone => (away sockets gone).elim⟩

theorem Sound.disconnect (h : Sound m) : Sound { m.disconnect with left := some m.sockets.length } := by
  have stopped : ({ m with intentionalClose := true }.stopHeartbeat).clearReconnect =
      { m with
        intentionalClose := true
        intervals := []
        heartbeatTimer := none
        timeouts := []
        reconnectTimer := none } := by
    rw [stopHeartbeat_eq (m := { m with intentionalClose := true }) h.intervals]
    exact clearReconnect_eq h.timeouts
  unfold WsClient.disconnect
  rw [stopped]
  dsimp only
  split
  · exact ⟨rfl, rfl, fun sockets here => ⟨rfl, rfl, Option.some.inj here⟩⟩
  · exact ⟨rfl, rfl, fun sockets here => ⟨rfl, rfl, (List.length_modify ..).trans (Option.some.inj here)⟩⟩

theorem Sound.setState (h : Sound m) (i delay : Nat) (state : ReadyState) :
    Sound { m with
      sockets := m.sockets.modify i fun s => { s with readyState := state }
      reconnectDelay := delay } := by
  refine ⟨h.intervals, h.timeouts, fun sockets here => ?_⟩
  obtain ⟨intentional, quiet, length⟩ := h.left sockets here
  exact ⟨intentional, quiet, (List.length_modify ..).trans length⟩

theorem Sound.stopHeartbeat (h : Sound m) : Sound m.stopHeartbeat := by
  rw [stopHeartbeat_eq h.intervals]
  exact ⟨rfl, h.timeouts, h.left⟩

theorem Sound.startHeartbeat (h : Sound m) : Sound m.startHeartbeat := by
  unfold WsClient.startHeartbeat
  rw [stopHeartbeat_eq h.intervals]
  exact ⟨rfl, h.timeouts, h.left⟩

theorem Sound.scheduleReconnect (h : Sound m) (options : ω) (again : ¬ m.intentionalClose) :
    Sound (m.scheduleReconnect options) := by
  unfold WsClient.scheduleReconnect
  rw [clearReconnect_eq h.timeouts]
  exact ⟨h.intervals, rfl, fun sockets here => absurd (h.left sockets here).1 again⟩

theorem Sound.onOpen (h : Sound m) (i : Nat) : Sound (m.onOpen i) := (h.setState i 1000 .opened).startHeartbeat

theorem Sound.onClose (h : Sound m) (i : Nat) (options : ω) (code : Nat) : Sound (m.onClose i options code) := by
  have closed := (h.setState i m.reconnectDelay .closed).stopHeartbeat
  unfold WsClient.onClose
  dsimp only
  split
  · rename_i again
    exact closed.scheduleReconnect options again.1
  · exact closed

theorem Sound.fired (h : Sound m) {id : Nat} {t : Timeout ω} (found : m.timeouts.find? (·.id = id) = some t) :
    m.timeouts = [t] := by
  have mem := List.mem_of_find?_eq_some found
  have shared := h.timeouts
  cases timer : m.reconnectTimer with
  | none =>
      rw [timer] at shared
      rw [List.map_eq_nil_iff.mp shared] at mem
      cases mem
  | some id =>
      rw [timer] at shared
      obtain ⟨t', only, -⟩ := List.map_eq_singleton_iff.mp shared
      rw [only] at mem ⊢
      rw [List.mem_singleton.mp mem]

theorem Sound.reconnect (h : Sound m) {id : Nat} {t : Timeout ω} (found : m.timeouts.find? (·.id = id) = some t) :
    Sound (m.reconnect valid t) := by
  have only := h.fired found
  have here : m.left = none := Option.eq_none_iff_forall_ne_some.mpr fun sockets gone => by
    rw [(h.left sockets gone).2.1] at only
    cases only
  have cleared : Sound { m with timeouts := m.timeouts.filter (·.id ≠ t.id), reconnectTimer := none } := by
    refine ⟨h.intervals, ?_, fun sockets gone => nomatch here.symm.trans gone⟩
    simp [only]
  exact cleared.connect t.options here

theorem Sound.step (h : Sound m) {act : Act ω} (effect : Effect valid m act m') : Sound m' := by
  cases effect with
  | connect options =>
      have here : { m.connect valid options with left := none } = { m with left := none }.connect valid options := by
        unfold WsClient.connect
        dsimp only
        split <;> rfl
      rw [here]
      exact Sound.connect (m := { m with left := none })
        ⟨h.intervals, h.timeouts, fun _ gone => nomatch gone⟩ options rfl
  | disconnect => exact h.disconnect
  | send data => exact h.send data
  | onOpen found connecting => exact h.onOpen _
  | onClose code found unfinished => exact h.onClose _ _ code
  | onError i => exact h
  | heartbeat id data => exact h.send data
  | reconnect found => exact h.reconnect found

/-! ### How many connections there are -/

theorem liveSockets_modify (live : m.liveSockets ≤ 1) (i : Nat) {f : Socket ω → Socket ω}
    (fewer : ∀ s ∈ m.sockets[i]?, (f s).live = true → s.live = true) :
    (m.sockets.modify i f).countP Socket.live ≤ 1 := Nat.le_trans (countP_modify_le _ i fewer) live

theorem liveSockets_connect {options : ω} :
    (m.connect valid options).liveSockets = m.liveSockets + if valid options then 1 else 0 := by
  unfold liveSockets
  rw [sockets_connect]
  split
  · simp [Socket.live]
  · rfl

theorem liveSockets_connect_le {options : ω} (live : m.liveSockets ≤ 1)
    (alone : valid options → m.liveSockets = 0) : (m.connect valid options).liveSockets ≤ 1 := by
  rw [liveSockets_connect]
  split
  · rename_i created
    exact Nat.le_of_eq (congrArg (· + 1) (alone created))
  · exact live

theorem alone_of_liveSockets_connect_le {options : ω} (live : (m.connect valid options).liveSockets ≤ 1)
    (created : valid options) : m.liveSockets = 0 := by
  rw [liveSockets_connect, if_pos created] at live
  exact Nat.le_zero.mp (Nat.le_of_succ_le_succ live)

theorem Socket.live_of_close {s : Socket ω} (live : s.close.live = true) : s.live = true := by
  by_contra ended
  unfold Socket.close at live
  rw [if_neg ended] at live
  exact ended live

theorem liveSockets_step (live : m.liveSockets ≤ 1) {act : Act ω} (alone : m.Alone valid act)
    (effect : Effect valid m act m') : m'.liveSockets ≤ 1 := by
  cases effect with
  | connect options => exact liveSockets_connect_le live alone
  | disconnect =>
      change m.disconnect.sockets.countP Socket.live ≤ 1
      rw [sockets_disconnect]
      cases m.ws with
      | none => exact live
      | some i => exact liveSockets_modify live i fun _ _ => Socket.live_of_close
  | send data =>
      unfold liveSockets
      rwa [sockets_send]
  | @onOpen i s found connecting =>
      unfold liveSockets
      rw [sockets_onOpen]
      refine liveSockets_modify live i fun t here _ => ?_
      obtain rfl := Option.some.inj (found.symm.trans here)
      simp [Socket.live, connecting]
  | onClose code found unfinished =>
      unfold liveSockets
      rw [sockets_onClose]
      exact liveSockets_modify live _ fun _ _ closed => nomatch closed
  | onError i => exact live
  | heartbeat id data =>
      unfold liveSockets
      rwa [sockets_send]
  | reconnect found =>
      exact liveSockets_connect_le (m := { m with timeouts := _, reconnectTimer := none }) live (alone _ found)

theorem alone_of_oneConnection {act : Act ω} (effect : Effect valid m act m') (one : m'.OneConnection) :
    m.Alone valid act := by
  cases effect with
  | connect options => exact alone_of_liveSockets_connect_le one.live
  | reconnect found =>
      intro t here
      obtain rfl := Option.some.inj (found.symm.trans here)
      exact alone_of_liveSockets_connect_le (m := { m with timeouts := _, reconnectTimer := none }) one.live
  | _ => trivial

theorem sound_initial : Sound (initial : WsClient ω) := ⟨rfl, rfl, fun _ gone => nomatch gone⟩

/-! ### A client that is used in turns -/

/-- `connect` is called only when every socket has closed and no reconnect is pending. -/
def InTurn (m : WsClient ω) : Act ω → Prop
  | .connect _ => m.sockets.countP Socket.unfinished = 0 ∧ m.timeouts = []
  | _ => True

/-- The sockets that have not closed and the pending reconnects. -/
def busy (m : WsClient ω) : Nat := m.sockets.countP Socket.unfinished + m.timeouts.length

theorem liveSockets_le_unfinished : m.liveSockets ≤ m.sockets.countP Socket.unfinished := by
  refine List.countP_mono_left fun s _ live => ?_
  cases state : s.readyState <;> simp_all [Socket.live, Socket.unfinished]

theorem Sound.unfinished_of_fired (h : Sound m) (one : m.busy ≤ 1) {id : Nat} {t : Timeout ω}
    (found : m.timeouts.find? (·.id = id) = some t) : m.sockets.countP Socket.unfinished = 0 := by
  have only := congrArg List.length (h.fired found)
  unfold busy at one
  rw [only] at one
  exact Nat.le_zero.mp (Nat.le_of_succ_le_succ one)

theorem busy_send {data : String} : (m.send data).busy = m.busy := by
  unfold send
  split
  · rfl
  · split <;> rfl

theorem unfinished_close (s : Socket ω) : s.close.unfinished = s.unfinished := by
  unfold Socket.close
  split
  · rename_i live
    cases state : s.readyState <;> simp_all [Socket.live, Socket.unfinished]
  · rfl

theorem Sound.busy_disconnect (h : Sound m) (one : m.busy ≤ 1) : m.disconnect.busy ≤ 1 := by
  have idle : m.disconnect.timeouts = [] := (h.disconnect.left _ rfl).2.1
  have fewer : m.disconnect.sockets.countP Socket.unfinished ≤ m.sockets.countP Socket.unfinished := by
    rw [sockets_disconnect]
    cases m.ws with
    | none => exact Nat.le_refl _
    | some i => exact countP_modify_le _ i fun s _ unfinished => unfinished_close s ▸ unfinished
  unfold busy at one ⊢
  rw [idle]
  exact Nat.le_trans fewer (Nat.le_trans (Nat.le_add_right ..) one)

theorem busy_onOpen (one : m.busy ≤ 1) {i : Nat} {s : Socket ω} (found : m.sockets[i]? = some s)
    (connecting : s.readyState = .connecting) : (m.onOpen i).busy ≤ 1 := by
  have fewer : (m.onOpen i).sockets.countP Socket.unfinished ≤ m.sockets.countP Socket.unfinished := by
    rw [sockets_onOpen]
    refine countP_modify_le _ i fun t here _ => ?_
    obtain rfl := Option.some.inj (found.symm.trans here)
    simp [Socket.unfinished, connecting]
  have same : (m.onOpen i).timeouts = m.timeouts := timeouts_stopHeartbeat
  unfold busy at one ⊢
  rw [same]
  exact Nat.le_trans (Nat.add_le_add_right fewer _) one

theorem Sound.busy_onClose (h : Sound m) (one : m.busy ≤ 1) {i code : Nat} {s : Socket ω}
    (found : m.sockets[i]? = some s) (unfinished : s.unfinished) : (m.onClose i s.options code).busy ≤ 1 := by
  have fewer : (m.onClose i s.options code).sockets.countP Socket.unfinished <
      m.sockets.countP Socket.unfinished := by
    rw [sockets_onClose]
    exact countP_modify_lt _ i found unfinished rfl
  have pending := (h.onClose i s.options code).timeouts_le
  unfold busy at one ⊢
  omega

theorem Sound.busy_reconnect (h : Sound m) (one : m.busy ≤ 1) {id : Nat} {t : Timeout ω}
    (found : m.timeouts.find? (·.id = id) = some t) : (m.reconnect valid t).busy ≤ 1 := by
  have closed := h.unfinished_of_fired one found
  have only := h.fired found
  unfold WsClient.reconnect WsClient.connect busy
  dsimp only
  split
  · simp [closed, only, Socket.unfinished]
  · simp [closed, only]

theorem Sound.busy_step (h : Sound m) (one : m.busy ≤ 1) {act : Act ω} (turn : m.InTurn act)
    (effect : Effect valid m act m') : m'.busy ≤ 1 := by
  cases effect with
  | connect options =>
      obtain ⟨closed, idle⟩ := turn
      change (m.connect valid options).busy ≤ 1
      unfold WsClient.connect busy
      dsimp only
      split
      · simp [closed, idle, Socket.unfinished]
      · simp [closed, idle]
  | disconnect => exact h.busy_disconnect one
  | send data => rwa [busy_send]
  | onOpen found connecting => exact busy_onOpen one found connecting
  | onClose code found unfinished => exact h.busy_onClose one found unfinished
  | onError i => exact one
  | heartbeat id data => rwa [busy_send]
  | reconnect found => exact h.busy_reconnect one found

/-- A client that is connected again only when its socket has closed and no reconnect is pending owns at most one
connection. -/
theorem oneConnection_of_inTurn {acts : List (Act ω)} (turns : Along (WsClient.step valid) InTurn initial acts) :
    Throughout (WsClient.step valid) OneConnection initial acts := by
  have kept : Throughout (WsClient.step valid) (fun m => Sound m ∧ m.busy ≤ 1) initial acts :=
    throughout_of_along (fun _ _ _ h turn next =>
      ⟨h.1.step (effect_of_step next), h.1.busy_step h.2 turn (effect_of_step next)⟩)
      ⟨sound_initial, Nat.zero_le _⟩ turns
  exact kept.mono fun _ h => h.1.oneConnection
    (Nat.le_trans liveSockets_le_unfinished (Nat.le_trans (Nat.le_add_right ..) h.2))

end

/-- There is at most one connection in exactly the runs in which a socket is created only while none is connecting or
open; the timers and a `disconnect` do their part in every run. -/
theorem oneConnection_iff_alone {ω : Type*} (valid : ω → Bool) (acts : List (Act ω)) :
    Throughout (step valid) OneConnection initial acts ↔ Along (step valid) (Alone valid) initial acts :=
  throughout_iff_along_any (fun m => Sound m ∧ m.liveSockets ≤ 1) (fun _ h => h.1.oneConnection h.2)
    (fun _ _ _ h alone next => ⟨h.1.step (effect_of_step next), liveSockets_step h.2 alone (effect_of_step next)⟩)
    (fun _ _ _ _ next one => alone_of_oneConnection (effect_of_step next) one) ⟨sound_initial, Nat.zero_le _⟩

/-- A connection is replaced before the old socket has closed, whose late close event makes the client connect once
more. -/
def replaced : List (Act Unit) :=
  [.connect (), .onOpen 0, .disconnect, .connect (), .onOpen 1, .onClose 0 1005, .reconnect 2]

theorem replaced_not_oneConnection :
    ¬ ∀ (ω : Type) (valid : ω → Bool) (acts : List (Act ω)), Throughout (step valid) OneConnection initial acts := by
  intro claim
  have run : exec (step fun _ => true) initial replaced = some
      { ws := some 2
        heartbeatTimer := none
        reconnectTimer := none
        reconnectDelay := 2000
        intentionalClose := false
        sockets := [⟨(), .closed⟩, ⟨(), .opened⟩, ⟨(), .connecting⟩]
        intervals := []
        timeouts := []
        timers := 3
        sent := []
        left := none } := rfl
  exact absurd ((claim Unit (fun _ => true) replaced).last run).live (by decide)

end WsClient

end CuckooEcho.Frontend
