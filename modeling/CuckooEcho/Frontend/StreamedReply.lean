import CuckooEcho.Frontend.ChatStore

namespace CuckooEcho.Frontend
open Lib

/-! ## Replies that stream while threads are loaded -/

structure ThreadMeta where
  id : String
  title : String
  lastMessageAt : String
  messageCount : Nat
  deriving DecidableEq, Repr

structure SessionState where
  threads : List ThreadMeta := []
  activeThreadId : Option String := none
  deriving DecidableEq, Repr

namespace SessionState
variable (session : SessionState)

/-- The chat store keeps the thread that it has. -/
def createThread (uuid now : String) : SessionState :=
  { threads := ⟨uuid, "", now, 0⟩ :: session.threads, activeThreadId := some uuid }

def switchThread (threadId : String) : SessionState := { session with activeThreadId := some threadId }

end SessionState

/-- The stream of one `sendMessage`, with the thread on display at that time, the thread that the request names and the
tokens received since. -/
structure Stream where
  id : Nat
  threadId : String
  posted : Option String
  tokens : List String
  deriving DecidableEq, Repr

/-- `added` has the messages that `finishStreaming` has added, each with the stream that it ended. -/
structure Chat where
  session : SessionState
  loads : Loads
  streams : List Stream
  sent : Nat
  added : List (Stream × Message)

namespace Chat

def initial : Chat := ⟨{}, .initial {}, [], 0, []⟩

variable (m : Chat)

def store : ChatState := m.loads.store

def withStore (store : ChatState) : Chat := { m with loads := { m.loads with store } }

def find (id : Nat) : Option Stream := m.streams.find? (·.id = id)

/-- Over the WebSocket, no stream is started. -/
def handleSend (content : String) (media : Option (List MediaAttachment)) (uuid now : String)
    (shouldUseWebSocket : Bool) : Chat :=
  let m' := m.withStore (m.store.sendMessage content media uuid now)
  if shouldUseWebSocket then m'
  else { m' with streams := ⟨m.sent, m.store.activeThread, m.session.activeThreadId, []⟩ :: m.streams, sent := m.sent + 1 }

def onToken (s : Stream) (token : String) : Chat :=
  { m.withStore (m.store.appendToken token) with
    streams := m.streams.map fun t => if t.id = s.id then { t with tokens := t.tokens ++ [token] } else t }

def finish (s : Stream) (messageId uuid now : String) : Chat :=
  { m.withStore (m.store.finishStreaming messageId uuid now) with
    streams := m.streams.filter (·.id ≠ s.id)
    added := (m.store.added messageId uuid now).map (s, ·) ++ m.added }

/-- A stream that is aborted, or that the server ends without a word. -/
def close (s : Stream) : Chat := { m with streams := m.streams.filter (·.id ≠ s.id) }

def handleCreate (uuid now : String) : Chat := { m with session := m.session.createThread uuid now }

def handleSwitch (threadId : String) : Chat :=
  { m with session := m.session.switchThread threadId, loads := m.loads.loadThread threadId }

/-- An empty text is no thread here. -/
def onReconnected : Chat :=
  match m.session.activeThreadId with
  | some threadId => if threadId = "" then m else { m with loads := m.loads.loadThread threadId }
  | none => m

inductive Act
  | handleCreate (uuid now : String)
  | handleSwitch (threadId : String)
  | onReconnected
  | handleSend (content : String) (media : Option (List MediaAttachment)) (uuid now : String)
      (shouldUseWebSocket : Bool)
  | onToken (id : Nat) (token : String)
  | onDone (id : Nat) (messageId uuid now : String)
  | onError (id : Nat) (uuid now : String)
  | close (id : Nat)
  | load (act : Loads.Act)
  deriving DecidableEq, Repr

def step : Act → Option Chat
  | .handleCreate uuid now => some (m.handleCreate uuid now)
  | .handleSwitch threadId => some (m.handleSwitch threadId)
  | .onReconnected => some m.onReconnected
  | .handleSend content media uuid now shouldUseWebSocket =>
      some (m.handleSend content media uuid now shouldUseWebSocket)
  | .onToken id token => (m.find id).map fun s => m.onToken s token
  | .onDone id messageId uuid now => (m.find id).map fun s => m.finish s messageId uuid now
  | .onError id uuid now => (m.find id).map fun s => m.finish s "" uuid now
  | .close id => (m.find id).map m.close
  | .load act => (m.loads.step act).map fun loads => { m with loads }

/-- Each reply is in the thread whose message it answers, which is the thread that the message was posted to, with the
text of its own stream, and only messages of the active thread are displayed. -/
structure RepliesInThread (m : Chat) : Prop where
  added : ∀ reply ∈ m.added, reply.2.threadId = reply.1.threadId ∧ reply.1.posted = some reply.2.threadId ∧
    reply.2.content = String.join reply.1.tokens
  displayed : ∀ msg ∈ m.store.messages, msg.threadId = m.store.activeThread

/-- A message is sent while no reply streams and none has left text behind. -/
def SentAlone (m : Chat) : Act → Prop
  | .handleSend _ _ _ _ false => m.streams = [] ∧ m.store.streamingContent = ""
  | _ => True

/-- The message that the stream answers was sent in the thread on display, and posted to it. -/
def Shows (m : Chat) (s : Stream) : Prop :=
  s.threadId = m.store.activeThread ∧ s.posted = some m.store.activeThread

/-- The thread of a reply that becomes a message when its stream ends is on display. -/
def StillShown (m : Chat) (id : Nat) (messageId : String) : Prop :=
  ∀ s ∈ m.find id, m.store.Appends messageId → m.Shows s

end Chat

/-- What the action displays of a thread. -/
def Loads.Act.shown (m : Loads) : Loads.Act → Option (String × List Message)
  | .cacheRead id (some cached) => (m.find id .reading).map fun l => (l.threadId, cached)
  | .serverReply id reply now =>
      (m.find id .fetching).map fun l => (l.threadId, reply.serverMessages l.threadId now)
  | _ => none

/-- The messages that are displayed for a thread are of that thread. -/
def Loads.OwnMessages (m : Loads) (act : Loads.Act) : Prop :=
  ∀ shown ∈ act.shown m, ∀ msg ∈ shown.2, msg.threadId = shown.1

/-- Only the server's own format and the cache can bring messages of another thread. -/
theorem Loads.ownMessages_langGraph (m : Loads) (id : Nat) (msgs : List LangGraphMessage) (now : String) :
    m.OwnMessages (.serverReply id (.langGraph msgs) now) := by
  intro shown here msg mem
  obtain ⟨l, -, rfl⟩ := Option.map_eq_some_iff.mp here
  exact convertLangGraphMessages_threadId mem

theorem Loads.step_store {m m' : Loads} {act : Loads.Act} (next : m.step act = some m') :
    m'.store = (act.shown m).elim m.store fun shown => m.store.display shown.1 shown.2 := by
  cases act with
  | loadThread threadId => exact Option.some.inj next ▸ rfl
  | cacheRead id cached =>
      obtain ⟨l, found, rfl⟩ := Option.map_eq_some_iff.mp next
      cases cached with
      | none => rfl
      | some messages => simp [Loads.Act.shown, found, Loads.cacheRead]
  | serverReply id reply now =>
      obtain ⟨l, found, rfl⟩ := Option.map_eq_some_iff.mp next
      simp [Loads.Act.shown, found, Loads.serverReply]
  | fail id stage =>
      obtain ⟨l, -, rfl⟩ := Option.map_eq_some_iff.mp next
      rfl

namespace Chat

/-- Nothing has come between a reply and its thread. -/
def Followed (m : Chat) : Act → Prop
  | .onDone id messageId _ _ => m.StillShown id messageId
  | .onError id _ _ => m.StillShown id ""
  | .load act => m.loads.OwnMessages act
  | _ => True

def Undisturbed (m : Chat) (act : Act) : Prop := m.SentAlone act ∧ m.Followed act

variable {m m' : Chat}

theorem mem_of_find {id : Nat} {s : Stream} (found : m.find id = some s) : s ∈ m.streams :=
  List.mem_of_find?_eq_some found

/-! ### What the steps keep -/

/-- At most one reply streams, and the text is all of it. -/
structure Following (m : Chat) : Prop where
  one : ∀ s ∈ m.streams, m.streams = [s]
  text : ∀ s ∈ m.streams, m.store.streamingContent = String.join s.tokens
  replies : m.RepliesInThread

/-- A call of `loadThread` displays nothing yet, and nothing displayed follows the session store. -/
theorem Following.called (h : Following m) (session : SessionState) (threadId : String) :
    Following { m with session, loads := m.loads.loadThread threadId } :=
  ⟨h.one, h.text, h.replies.added, h.replies.displayed⟩

theorem Following.onReconnected (h : Following m) : Following m.onReconnected := by
  unfold Chat.onReconnected
  split
  · split
    · exact h
    · exact h.called m.session _
  · exact h

theorem Following.handleSend (h : Following m) (content : String) (media : Option (List MediaAttachment))
    (uuid now : String) {shouldUseWebSocket : Bool}
    (alone : m.SentAlone (.handleSend content media uuid now shouldUseWebSocket)) :
    Following (m.handleSend content media uuid now shouldUseWebSocket) := by
  have displayed : ∀ msg ∈ m.store.messages ++ [m.store.optimisticMessage content media uuid now],
      msg.threadId = m.store.activeThread := by
    intro msg mem
    obtain mem | mem := List.mem_append.mp mem
    · exact h.replies.displayed msg mem
    · exact List.mem_singleton.mp mem ▸ rfl
  cases shouldUseWebSocket with
  | true => exact ⟨h.one, h.text, h.replies.added, displayed⟩
  | false =>
      obtain ⟨idle, empty⟩ := alone
      refine ⟨fun s mem => ?_, fun s mem => ?_, h.replies.added, displayed⟩
      · change s ∈ _ :: m.streams at mem
        change _ :: m.streams = _
        rw [idle] at mem ⊢
        rw [List.mem_singleton.mp mem]
      · change s ∈ _ :: m.streams at mem
        rw [idle] at mem
        rw [List.mem_singleton.mp mem]
        exact empty

theorem Following.onToken (h : Following m) {s : Stream} (streams : s ∈ m.streams) (token : String) :
    Following (m.onToken s token) := by
  have grown : (m.onToken s token).streams = [{ s with tokens := s.tokens ++ [token] }] := by
    simp [Chat.onToken, h.one s streams]
  refine ⟨fun t mem => ?_, fun t mem => ?_, h.replies.added, h.replies.displayed⟩
  · rw [grown] at mem ⊢
    rw [List.mem_singleton.mp mem]
  · rw [grown] at mem
    rw [List.mem_singleton.mp mem]
    change m.store.streamingContent ++ token = _
    rw [h.text s streams, String.join_append]
    simp

theorem Following.without (h : Following m) {s : Stream} (streams : s ∈ m.streams) :
    m.streams.filter (·.id ≠ s.id) = [] := by
  simp [h.one s streams]

theorem Following.finish (h : Following m) {s : Stream} (streams : s ∈ m.streams) {messageId uuid now : String}
    (shown : m.store.Appends messageId → m.Shows s) :
    Following (m.finish s messageId uuid now) := by
  have ended : (m.finish s messageId uuid now).streams = [] := h.without streams
  refine ⟨fun t mem => ?_, fun t mem => ?_, fun reply mem => ?_, ?_⟩
  · rw [ended] at mem
    cases mem
  · rw [ended] at mem
    cases mem
  · obtain mem | mem := List.mem_append.mp mem
    · obtain ⟨msg, here, rfl⟩ := List.mem_map.mp mem
      obtain ⟨appends, rfl⟩ := ChatState.mem_added here
      obtain ⟨thread, posted⟩ := shown appends
      exact ⟨thread.symm, posted, h.text s streams⟩
    · exact h.replies.added reply mem
  · have active : (m.finish s messageId uuid now).store.activeThread = m.store.activeThread :=
      congrArg (Option.getD · "") ChatState.finishStreaming_activeThreadId
    rw [active]
    exact ChatState.finishStreaming_threadId (P := (· = m.store.activeThread)) h.replies.displayed rfl

theorem Following.close (h : Following m) {s : Stream} (streams : s ∈ m.streams) : Following (m.close s) := by
  have ended : (m.close s).streams = [] := h.without streams
  refine ⟨fun t mem => ?_, fun t mem => ?_, h.replies.added, h.replies.displayed⟩ <;>
  · rw [ended] at mem
    cases mem

theorem Following.load (h : Following m) {act : Loads.Act} {loads : Loads} (own : m.loads.OwnMessages act)
    (next : m.loads.step act = some loads) : Following { m with loads } := by
  have store := Loads.step_store next
  have streaming : loads.store.streamingContent = m.store.streamingContent := by
    rw [store]
    cases act.shown m.loads <;> rfl
  refine ⟨h.one, fun s mem => streaming.trans (h.text s mem), h.replies.added, ?_⟩
  change ∀ msg ∈ loads.store.messages, msg.threadId = loads.store.activeThread
  rw [store]
  cases shown : act.shown m.loads with
  | none => exact h.replies.displayed
  | some displayed => exact own displayed shown

theorem Following.step (h : Following m) {act : Act} (undisturbed : m.Undisturbed act)
    (next : m.step act = some m') : Following m' := by
  cases act with
  | handleCreate uuid now => exact Option.some.inj next ▸ ⟨h.one, h.text, h.replies.added, h.replies.displayed⟩
  | handleSwitch threadId => exact Option.some.inj next ▸ h.called _ threadId
  | onReconnected => exact Option.some.inj next ▸ h.onReconnected
  | handleSend content media uuid now shouldUseWebSocket =>
      exact Option.some.inj next ▸ h.handleSend content media uuid now undisturbed.1
  | onToken id token =>
      obtain ⟨s, found, rfl⟩ := Option.map_eq_some_iff.mp next
      exact h.onToken (mem_of_find found) token
  | onDone id messageId uuid now =>
      obtain ⟨s, found, rfl⟩ := Option.map_eq_some_iff.mp next
      exact h.finish (mem_of_find found) (undisturbed.2 s found)
  | onError id uuid now =>
      obtain ⟨s, found, rfl⟩ := Option.map_eq_some_iff.mp next
      exact h.finish (mem_of_find found) (undisturbed.2 s found)
  | close id =>
      obtain ⟨s, found, rfl⟩ := Option.map_eq_some_iff.mp next
      exact h.close (mem_of_find found)
  | load act =>
      obtain ⟨loads, load, rfl⟩ := Option.map_eq_some_iff.mp next
      exact h.load undisturbed.2 load

theorem following_initial : Following initial where
  one := fun _ mem => nomatch mem
  text := fun _ mem => nomatch mem
  replies := ⟨fun _ mem => (nomatch mem), fun _ mem => nomatch mem⟩

/-! ### What loses the thread -/

theorem stillShown_of_finish {id : Nat} {messageId uuid now : String}
    (replies : ∀ s ∈ m.find id, (m.finish s messageId uuid now).RepliesInThread) : m.StillShown id messageId := by
  intro s found appends
  have mem : (s, m.store.assistantMessage messageId uuid now) ∈ (m.finish s messageId uuid now).added := by
    refine List.mem_append_left _ (List.mem_map_of_mem ?_)
    rw [ChatState.added_of_appends appends]
    exact List.mem_singleton_self _
  obtain ⟨thread, posted, -⟩ := (replies s found).added _ mem
  exact ⟨thread.symm, posted⟩

theorem followed_of_repliesInThread {act : Act} (next : m.step act = some m') (replies : m'.RepliesInThread) :
    m.Followed act := by
  cases act with
  | onDone id messageId uuid now =>
      obtain ⟨s, found, rfl⟩ := Option.map_eq_some_iff.mp next
      exact stillShown_of_finish fun t here => Option.some.inj (found.symm.trans here) ▸ replies
  | onError id uuid now =>
      obtain ⟨s, found, rfl⟩ := Option.map_eq_some_iff.mp next
      exact stillShown_of_finish fun t here => Option.some.inj (found.symm.trans here) ▸ replies
  | load act =>
      obtain ⟨loads, load, rfl⟩ := Option.map_eq_some_iff.mp next
      intro shown here
      have store := Loads.step_store load
      have displayed := replies.displayed
      change ∀ msg ∈ loads.store.messages, msg.threadId = loads.store.activeThread at displayed
      rw [store, Option.mem_def.mp here] at displayed
      exact displayed
  | _ => trivial

/-- As long as messages are sent one at a time, the replies stay in their threads in exactly the runs in which each
ends while its thread is on display. -/
theorem repliesInThread_iff_followed {acts : List Act} (alone : Along step SentAlone initial acts) :
    Throughout step RepliesInThread initial acts ↔ Along step Followed initial acts :=
  throughout_iff_along Following (fun _ h => h.replies)
    (fun _ _ _ h alone followed next => h.step ⟨alone, followed⟩ next)
    (fun _ _ _ _ _ next replies => followed_of_repliesInThread next replies) following_initial alone

theorem repliesInThread_of_undisturbed (acts : List Act) (undisturbed : Along step Undisturbed initial acts) :
    Throughout step RepliesInThread initial acts := by
  have following : Throughout step Following initial acts :=
    throughout_of_along (fun _ _ _ h good next => h.step good next) following_initial undisturbed
  exact following.mono fun _ h => h.replies

/-! ### A thread selected while a reply streams -/

def opened : List Act :=
  [.handleSwitch "thread-a", .load (.cacheRead 0 none), .load (.serverReply 0 (.messages []) "09:00:00"),
    .handleSend "hello" none "uuid-1" "09:00:01" false, .onToken 0 "hi"]

def selected : List Act :=
  [.handleSwitch "thread-b", .load (.cacheRead 1 none), .load (.serverReply 1 (.messages []) "09:00:02")]

def answered : Act := .onDone 0 "msg-1" "uuid-2" "09:00:03"

/-- The reply ends before the other thread is selected. -/
theorem repliesInThread_of_undisturbed_answered :
    Throughout step RepliesInThread initial (opened ++ answered :: selected) := by
  refine repliesInThread_of_undisturbed _ ?_
  refine along_cons rfl ⟨trivial, trivial⟩ ?_
  refine along_cons rfl ⟨trivial, nofun⟩ ?_
  refine along_cons rfl ⟨trivial, ?_⟩ ?_
  · intro shown here msg mem
    obtain rfl := Option.some.inj here
    cases mem
  refine along_cons rfl ⟨⟨rfl, rfl⟩, trivial⟩ ?_
  refine along_cons rfl ⟨trivial, trivial⟩ ?_
  refine along_cons rfl ⟨trivial, ?_⟩ ?_
  · intro s found _
    obtain rfl := Option.some.inj found
    exact ⟨rfl, rfl⟩
  refine along_cons rfl ⟨trivial, trivial⟩ ?_
  refine along_cons rfl ⟨trivial, nofun⟩ ?_
  refine along_cons rfl ⟨trivial, ?_⟩ trivial
  intro shown here msg mem
  obtain rfl := Option.some.inj here
  cases mem

theorem selectedMeanwhile_not_repliesInThread :
    ¬ ∀ acts : List Act, Throughout step RepliesInThread initial acts := by
  intro claim
  have run : exec step initial (opened ++ selected ++ [answered]) = some
      { session := ⟨[], some "thread-b"⟩
        loads :=
          { store :=
              { messages := [⟨"msg-1", "thread-b", .assistant, "hi", none, none, "09:00:03", false⟩]
                activeThreadId := some "thread-b" }
            pending := []
            calls := 2
            lastCall := some (1, "thread-b")
            served := [(1, "thread-b", []), (0, "thread-a", [])]
            failures := 0 }
        streams := []
        sent := 1
        added :=
          [(⟨0, "thread-a", some "thread-a", ["hi"]⟩,
            ⟨"msg-1", "thread-b", .assistant, "hi", none, none, "09:00:03", false⟩)] } := rfl
  have thread := (((claim _).last run).added _ List.mem_cons_self).1
  exact absurd thread (by decide)

end Chat

end CuckooEcho.Frontend
