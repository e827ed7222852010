import CuckooEcho.Chat.Reply
import CuckooEcho.Frontend.StreamedReply
import CuckooEcho.Frontend.TokenRoundTrip

namespace CuckooEcho.Chat
open Lib Json Agent

/-! ## The texts of a turn -/

/-- What an item says, before it is wrapped. -/
def Item.said : Item → String
  | .token text | .response _ text | .correction _ text => text
  | .failure => apology

/-- The texts that the generator yields; a request that is refused has none. -/
def saidTexts (limit : Option String) (acquired : Bool) (counts : List Nat) (run : AgentRun) : List String :=
  match limit with
  | some _ => []
  | none => if acquired then (consumeStream counts run).items.map Item.said else []

/-- No token looks as if it were wrapped. -/
def Plain (items : List Item) : Prop := ∀ text, Item.token text ∈ items → startsWithBrace text = false

variable {items : List Item}

theorem yieldItem_said {item : Item} (plain : ∀ text, item = .token text → startsWithBrace text = false) :
    yieldItem item.text = contentJson item.said := by
  cases item with
  | token text => simp [Item.text, Item.said, yieldItem, plain text rfl]
  | response node text => exact yieldItem_contentJson text
  | correction node text => exact yieldItem_contentJson text
  | failure => exact yieldItem_contentJson apology

theorem map_yieldItem (plain : Plain items) :
    items.map (fun item => yieldItem item.text) = (items.map Item.said).map contentJson := by
  rw [List.map_map]
  apply List.map_congr_left
  intro item member
  apply yieldItem_said
  rintro text rfl
  exact plain text member

theorem visible_said (plain : Plain items) :
    visible items = units (String.join (items.map Item.said)).toList := by
  have wrapped := congrArg (List.flatMap contentOf) (map_yieldItem plain)
  rw [List.flatMap_map, List.map_map, List.flatMap_map] at wrapped
  rw [visible, wrapped, toList_join, List.flatMap_map]
  simp only [Function.comp_apply, contentOf_contentJson]
  exact List.flatMap_assoc.symm

theorem accepted_of_unread {services : Services} {s : AgentState} {run : AgentRun} (path : Path services s run)
    (raises : preprocessNode services s = none) : ¬ Rejected run := by
  cases path with
  | preprocessRaised => simp [Rejected]
  | handedOff preprocessed _ | retrievalRaised preprocessed _ _ | toolAnswered preprocessed _ _
  | ragAnswered preprocessed _ _ => simp [raises] at preprocessed

/-- A turn that shows its reply says it, and nothing else. -/
theorem join_said_of_shownWhen {t : ChatTurn} {saved : AgentState} (plain : Plain (t.items saved))
    (shown : ShownWhen t saved) : String.join ((t.items saved).map Item.said) = (t.run saved).state.llmResponse := by
  have path := turn_path t.services (t.payload.merge saved)
  have seen : visible (t.items saved) = units (t.run saved).state.llmResponse.toList := by
    unfold ShownWhen at shown
    cases preprocessed : preprocessNode t.services (t.payload.merge saved) with
    | none =>
        have accepted : ¬ Rejected (t.run saved) := accepted_of_unread path preprocessed
        rw [preprocessed] at shown
        have shows : ShowsReply t.counts (t.run saved) := (showsReply_of_unread path preprocessed).mpr shown
        exact ((showsReply_iff_of_accepted accepted).mp shows).1
    | some s =>
        rw [preprocessed] at shown
        obtain ⟨reply, correction, routed⟩ := shown
        have accepted : ¬ Rejected (t.run saved) := fun rejected =>
          rejected_not_routedShown path preprocessed rejected routed
        have shows : ShowsReply t.counts (t.run saved) :=
          (showsReply_iff_routedShown path preprocessed reply correction accepted).mpr routed
        exact ((showsReply_iff_of_accepted accepted).mp shows).1
  rw [visible_said plain] at seen
  exact String.toList_injective (units_injective seen)

end CuckooEcho.Chat

namespace CuckooEcho.Frontend
open Lib Json
open CuckooEcho.Chat (ChatTurn concurrentRequest contentJson dataField dataLines dataLines_free dataLines_of_free
  done dumps dumps_braced dumps_free emptyThread eventGenerator frame Item join_said_of_shownWhen limitExceeded
  LineFree map_yieldItem Plain saidTexts ShownWhen ShowsReply showsReply_iff_of_accepted showsReply_iff_routedShown
  toList_dumps visible visible_said)
open CuckooEcho.Agent (AgentState Node offline preprocessNode Rejected turn_path userMessage)

/-! ## Responses with pings -/

/-- What `EventSourceResponse` sends: the events of the generator and, every fifteen seconds, a comment. -/
inductive Sent
  | event (data : String)
  | ping (time : List Char) (free : LineFree time)

namespace Sent

def pingPrefix : List Char := ": ping - ".toList

def pingLine (time : List Char) : List Char := pingPrefix ++ time ++ ['\r']

def text : Sent → List Char
  | event data => frame data
  | ping time _ => pingLine time ++ '\n' :: ['\r', '\n']

def data : Sent → Option String
  | event data => some data
  | ping .. => none

def lines : Sent → List (List Char)
  | event data => eventLines data
  | ping time _ => [pingLine time, ['\r']]

theorem cut_text (s : Sent) (rest : List Char) :
    cut '\n' (s.text ++ rest) = (s.lines ++ (cut '\n' rest).1, (cut '\n' rest).2) := by
  cases s with
  | event data =>
      have shape : (event data).text ++ rest =
          (dataLines data.toList).flatMap dataField ++ (['\r'] ++ '\n' :: rest) := by
        simp [text, frame]
      rw [shape, cut_dataFields _ (dataLines_free data.toList), cut_line '\n' ['\r'] rest (by decide)]
      simp [lines, eventLines]
  | ping time free =>
      have inside : '\n' ∉ pingLine time := by
        simp [pingLine, free.2, show '\n' ∉ pingPrefix by decide]
      have shape : (ping time free).text ++ rest = pingLine time ++ '\n' :: (['\r'] ++ '\n' :: rest) := by
        simp [text]
      rw [shape, cut_line '\n' (pingLine time) _ inside, cut_line '\n' ['\r'] rest (by decide)]
      rfl

theorem cut_flatMap (sents : List Sent) : cut '\n' (sents.flatMap text) = (sents.flatMap lines, []) := by
  induction sents with
  | nil => rfl
  | cons s sents ih => rw [List.flatMap_cons, cut_text, ih, List.flatMap_cons]

end Sent

theorem handleLine_ping (id : JsString) (time : List Char) : handleLine id (Sent.pingLine time) = ([], some id) := by
  have start : (Sent.pingLine time).dropWhile isTrimmed = Sent.pingLine time := rfl
  have other : ¬ dataPrefix <+: trim (Sent.pingLine time) := by
    intro front
    rw [trim, start] at front
    obtain ⟨rest, same⟩ := front.trans (List.rdropWhile_prefix isTrimmed _)
    exact absurd (List.cons.inj (show 'd' :: _ = ':' :: _ from same)).1 (by decide)
  rw [handleLine, if_pos other, ite_self]

theorem handleLines_sent (id : JsString) (sents : List Sent) :
    handleLines id (sents.flatMap Sent.lines) = handleLines id ((sents.filterMap Sent.data).flatMap eventLines) := by
  induction sents generalizing id with
  | nil => rfl
  | cons s sents ih =>
      cases s with
      | event data =>
          simp only [List.flatMap_cons, Sent.lines, handleLines_append, ih,
            List.filterMap_cons_some (show (Sent.event data).data = some data from rfl)]
      | ping time free =>
          have skipped : handleLines id (Sent.ping time free).lines = ([], some id) := by
            simp [Sent.lines, handleLines, handleLine_ping, handleLine_blank]
          rw [List.flatMap_cons, handleLines_append, skipped, List.filterMap_cons_none rfl, ← ih]
          rfl

/-- Neither the chunks nor the pings matter. -/
theorem parseStream_sent {chunks : List (List Char)} {sents : List Sent}
    (whole : chunks.flatten = sents.flatMap Sent.text) :
    parseStream chunks = (handleLines [] ((sents.filterMap Sent.data).flatMap eventLines)).1 := by
  rw [parseStream_eq, whole, Sent.cut_flatMap, handleLines_sent]

/-! ## What the callbacks tell the store -/

/-- A callback as the store can tell it from others. -/
inductive Signal
  | token (content : Value)
  | done (messageId : JsString)
  | error

def Callback.signal : Callback → Signal
  | .onToken content _ => .token content
  | .onDone messageId => .done messageId
  | .onError _ => .error

def tokenSignal (text : String) : Signal := .token (.str (units text.toList))

/-- How the stream of a response ends. -/
def lastSignal (limit : Option String) (acquired : Bool) : Signal :=
  if limit = none ∧ acquired = true then .done [] else .error

theorem handleLines_contents (id : JsString) (contents : List String) (rest : List (List Char)) :
    (handleLines id ((contents.map contentJson).flatMap eventLines ++ rest)).1.map Callback.signal =
      contents.map tokenSignal ++ (handleLines id rest).1.map Callback.signal := by
  induction contents with
  | nil => rfl
  | cons content contents ih =>
      rw [List.map_cons, List.flatMap_cons, List.append_assoc, handleLines_append, handleLines_contentJson]
      simp only [List.map_append, List.map_cons, List.map_nil, ih]
      rfl

/-- What a printed object is parsed to. -/
def parsedObject (members : List (String × String)) : Value :=
  .obj (members.map fun m => memberUnits (m.1.toList, m.2.toList))

theorem parse_dumps (members : List (String × String)) :
    parse (dumps members).toList = some (parsedObject members) := by
  rw [toList_dumps, parse_objectText, List.map_map]
  rfl

theorem prop_parsedObject (key : String) (members : List (String × String)) :
    prop key (parsedObject members) =
      (members.reverse.find? fun m => m.1 = key).map fun m => .str (units m.2.toList) := by
  have same (m : String × String) : units m.1.toList = units key.toList ↔ m.1 = key :=
    ⟨fun h => String.toList_injective (units_injective h), fun h => by rw [h]⟩
  have keys : ((fun m : List CodeUnit × Value => decide (m.1 = units key.toList)) ∘
      fun m : String × String => memberUnits (m.1.toList, m.2.toList)) = fun m => decide (m.1 = key) :=
    funext fun m => decide_eq_decide.mpr (same m)
  rw [prop, parsedObject, Value.member, ← List.map_reverse, List.find?_map, Option.map_map, keys]
  rfl

/-- A refusal ends the reading. -/
theorem handleLines_refusal (id : JsString) (members : List (String × String)) (code message : String)
    (isError : members.reverse.find? (·.1 = "error") = some ("error", code))
    (told : members.reverse.find? (·.1 = "message") = some ("message", message)) (rest : List (List Char)) :
    (handleLines id (eventLines (dumps members) ++ rest)).1 =
      [.onError ⟨units code.toList, units message.toList⟩] := by
  have notDone : (dumps members).toList ≠ "[DONE]".toList := by
    obtain ⟨inner, shape⟩ := dumps_braced members
    rw [shape]
    exact fun same => absurd (List.cons.inj same).1 (by decide)
  have refuses : extractError (parsedObject members) = some ⟨units code.toList, units message.toList⟩ := by
    simp [extractError, prop_parsedObject, isError, told]
  have read : handlePayload id (dumps members).toList =
      ([.onError ⟨units code.toList, units message.toList⟩], none) := by
    rw [handlePayload, if_neg notDone, parse_dumps]
    simp only [parsedObject] at refuses ⊢
    simp only [refuses]
  rw [handleLines_append, handleLines_eventLines, dataLines_of_free (dumps_free _),
    List.map_singleton, handleLines, handleLine_fieldLine, payloadOf_dumps, read]

theorem signals_limitExceeded (reason : String) :
    (handleLines [] ([limitExceeded reason, done].flatMap eventLines)).1.map Callback.signal = [.error] := by
  have refused := handleLines_refusal [] [("error", "LIMIT_EXCEEDED"),
    ("message", "Message limit exceeded: " ++ reason), ("code", "402_PAYMENT_REQUIRED")] _ _ rfl rfl
    (eventLines done ++ [])
  rw [List.flatMap_cons, limitExceeded, List.flatMap_cons, List.flatMap_nil, refused]
  rfl

theorem signals_concurrentRequest :
    (handleLines [] ([concurrentRequest].flatMap eventLines)).1.map Callback.signal = [.error] := by
  have refused := handleLines_refusal [] [("error", "CONCURRENT_REQUEST"), ("message", "AI is still processing")]
    _ _ rfl rfl []
  rw [List.flatMap_cons, concurrentRequest, List.flatMap_nil, refused]
  rfl

theorem signals_eventGenerator (limit : Option String) (acquired : Bool) {t : ChatTurn} {saved : AgentState}
    (plain : Plain (t.items saved)) :
    (handleLines [] ((eventGenerator limit acquired t.counts (t.run saved)).flatMap eventLines)).1.map
        Callback.signal =
      (saidTexts limit acquired t.counts (t.run saved)).map tokenSignal ++ [lastSignal limit acquired] := by
  cases limit with
  | some reason => exact signals_limitExceeded reason
  | none =>
      cases acquired with
      | false => exact signals_concurrentRequest
      | true =>
          have yields : eventGenerator none true t.counts (t.run saved) =
              (saidTexts none true t.counts (t.run saved)).map contentJson ++ [done] := by
            have wrapped := map_yieldItem plain
            simpa [eventGenerator, saidTexts, ChatTurn.items] using wrapped
          rw [yields, List.flatMap_append, handleLines_contents]
          rfl

/-! ## What the store hears -/

variable {m m' : Chat} {s : Stream} {id : Nat} {act : Chat.Act} {acts : List Chat.Act}

/-- What the action tells of a stream. -/
def Chat.Act.signal (id : Nat) : Chat.Act → Option Signal
  | .onToken stream token => if stream = id then some (tokenSignal token) else none
  | .onDone stream messageId _ _ => if stream = id then some (.done (units messageId.toList)) else none
  | .onError stream _ _ => if stream = id then some .error else none
  | .handleCreate .. | .handleSwitch _ | .onReconnected | .handleSend .. | .close _ | .load _ => none

def Chat.Act.tokenOf (id : Nat) : Chat.Act → Option String
  | .onToken stream token => if stream = id then some token else none
  | _ => none

/-- What is left of a stream after the action. -/
def Stream.hear (s : Stream) : Chat.Act → Option Stream
  | .onToken id token => some (if id = s.id then { s with tokens := s.tokens ++ [token] } else s)
  | .onDone id .. | .onError id .. | .close id => if id = s.id then none else some s
  | .handleCreate .. | .handleSwitch _ | .onReconnected | .handleSend .. | .load _ => some s

namespace Chat

theorem onReconnected_kept : m.onReconnected.streams = m.streams ∧ m.onReconnected.sent = m.sent := by
  unfold onReconnected
  split
  · split
    · exact ⟨rfl, rfl⟩
    · exact ⟨rfl, rfl⟩
  · exact ⟨rfl, rfl⟩

theorem id_of_find {other : Nat} {t : Stream} (found : m.find other = some t) : t.id = other := by
  simpa using List.find?_some found

theorem find_ended {other : Nat} {t : Stream} (found : m.find other = some t) :
    (m.streams.filter (·.id ≠ t.id)).find? (·.id = id) =
      (m.find id).bind fun s => if other = s.id then none else some s := by
  rw [List.find?_filter, id_of_find found]
  cases here : m.find id with
  | none =>
      have absent := List.find?_eq_none.mp here
      refine List.find?_eq_none.mpr fun s member => ?_
      simp [absent s member]
  | some s =>
      by_cases same : other = id
      · simp [same, id_of_find here]
      · have both : (fun s : Stream => decide (decide (s.id ≠ other) = true ∧ decide (s.id = id) = true)) =
            fun s => decide (s.id = id) := by
          funext s
          by_cases named : s.id = id <;> simp [named, Ne.symm same]
        rw [both, Option.bind_some, id_of_find here, if_neg same]
        exact here

/-- Streams are told apart by their numbers, and a new one does not get an old number. -/
theorem find_step (next : m.step act = some m') (started : id < m.sent) :
    m'.find id = (m.find id).bind (·.hear act) ∧ id < m'.sent := by
  cases act with
  | handleCreate uuid now =>
      obtain rfl := Option.some.inj next
      exact ⟨(Option.bind_fun_some _).symm, started⟩
  | handleSwitch threadId =>
      obtain rfl := Option.some.inj next
      exact ⟨(Option.bind_fun_some _).symm, started⟩
  | onReconnected =>
      obtain rfl := Option.some.inj next
      obtain ⟨streams, sent⟩ := m.onReconnected_kept
      rw [find, streams, sent]
      exact ⟨(Option.bind_fun_some _).symm, started⟩
  | handleSend content media uuid now shouldUseWebSocket =>
      obtain rfl := Option.some.inj next
      cases shouldUseWebSocket with
      | true => exact ⟨(Option.bind_fun_some _).symm, started⟩
      | false =>
          refine ⟨?_, Nat.lt_succ_of_lt started⟩
          have new : ¬ (m.sent = id) := (Nat.ne_of_lt started).symm
          exact (List.find?_cons_of_neg (by simpa using new)).trans (Option.bind_fun_some _).symm
  | onToken other token =>
      obtain ⟨t, found, rfl⟩ := Option.map_eq_some_iff.mp next
      refine ⟨?_, started⟩
      change (m.streams.map _).find? _ = _
      rw [List.find?_map, id_of_find found]
      have kept : ((fun s : Stream => decide (s.id = id)) ∘ fun s : Stream =>
          if s.id = other then { s with tokens := s.tokens ++ [token] } else s) = fun s => decide (s.id = id) := by
        funext s
        by_cases here : s.id = other <;> simp [here]
      rw [kept, Option.map_eq_bind]
      apply Option.bind_congr
      intro s _
      simp [Stream.hear, eq_comm]
  | onDone other messageId uuid now =>
      obtain ⟨t, found, rfl⟩ := Option.map_eq_some_iff.mp next
      exact ⟨find_ended found, started⟩
  | onError other uuid now =>
      obtain ⟨t, found, rfl⟩ := Option.map_eq_some_iff.mp next
      exact ⟨find_ended found, started⟩
  | close other =>
      obtain ⟨t, found, rfl⟩ := Option.map_eq_some_iff.mp next
      exact ⟨find_ended found, started⟩
  | load act =>
      obtain ⟨loads, load, rfl⟩ := Option.map_eq_some_iff.mp next
      exact ⟨(Option.bind_fun_some _).symm, started⟩

theorem hear_tokens {s' : Stream} (heard : s.hear act = some s') :
    s' = { s with tokens := s.tokens ++ (act.tokenOf s.id).toList } := by
  have quiet : ({ s with tokens := s.tokens ++ [] } : Stream) = s := by rw [List.append_nil]
  cases act with
  | handleCreate uuid now | handleSwitch threadId | onReconnected | load act
  | handleSend content media uuid now shouldUseWebSocket =>
      obtain rfl := Option.some.inj heard
      exact quiet.symm
  | onToken other token =>
      obtain rfl := Option.some.inj heard
      by_cases own : other = s.id
      · simp [Act.tokenOf, own]
      · simp [Act.tokenOf, own]
  | onDone other messageId uuid now | onError other uuid now | close other =>
      simp only [Stream.hear, Option.ite_none_left_eq_some, Option.some.injEq] at heard
      obtain ⟨-, rfl⟩ := heard
      exact quiet.symm

/-- A stream that a run leaves has been there before it, with the tokens that it has not received since. -/
theorem find_run {s' : Stream} (run : exec step m acts = some m') (started : id < m.sent)
    (left : m'.find id = some s') :
    ∃ s, m.find id = some s ∧ s' = { s with tokens := s.tokens ++ acts.filterMap (Act.tokenOf id) } := by
  induction acts generalizing m with
  | nil =>
      obtain rfl := Option.some.inj run
      refine ⟨s', left, ?_⟩
      rw [List.filterMap_nil, List.append_nil]
  | cons act acts ih =>
      obtain ⟨u, next, run⟩ := Option.bind_eq_some_iff.mp run
      obtain ⟨found, still⟩ := find_step next started
      obtain ⟨t, there, rfl⟩ := ih run still
      obtain ⟨s, here, heard⟩ := Option.bind_eq_some_iff.mp (found.symm.trans there)
      obtain rfl := hear_tokens heard
      refine ⟨s, here, ?_⟩
      rw [id_of_find here, List.append_assoc]
      congr 2
      cases told : act.tokenOf id with
      | none => simp [List.filterMap_cons_none told]
      | some token => simp [List.filterMap_cons_some told]

theorem tokenOf_of_signal {token : String} (told : act.signal id = some (tokenSignal token)) :
    act.tokenOf id = some token := by
  cases act with
  | onToken other text =>
      simp only [Act.signal, Option.ite_none_right_eq_some, Option.some.injEq] at told
      obtain ⟨own, same⟩ := told
      have texts : text = token := String.toList_injective (units_injective (Value.str.inj (Signal.token.inj same)))
      simp [Act.tokenOf, own, texts]
  | onDone other messageId uuid now => simp [Act.signal, tokenSignal] at told
  | onError other uuid now => simp [Act.signal, tokenSignal] at told
  | handleCreate uuid now | handleSwitch threadId | onReconnected | close other | load act
  | handleSend content media uuid now shouldUseWebSocket => cases told

theorem tokenOf_of_silent (silent : act.signal id = none) : act.tokenOf id = none := by
  cases act with
  | onToken other text => simpa [Act.signal, Act.tokenOf] using silent
  | handleCreate uuid now | handleSwitch threadId | onReconnected | close other | load act
  | handleSend content media uuid now shouldUseWebSocket | onDone other messageId uuid now
  | onError other uuid now => rfl

theorem tokensOf_signals {tokens : List String} (heard : acts.filterMap (Act.signal id) = tokens.map tokenSignal) :
    acts.filterMap (Act.tokenOf id) = tokens := by
  induction acts generalizing tokens with
  | nil => exact (List.map_eq_nil_iff.mp heard.symm).symm
  | cons act acts ih =>
      cases told : act.signal id with
      | none =>
          rw [List.filterMap_cons_none told] at heard
          rw [List.filterMap_cons_none (tokenOf_of_silent told), ih heard]
      | some signal =>
          rw [List.filterMap_cons_some told] at heard
          cases tokens with
          | nil => cases heard
          | cons token tokens =>
              obtain ⟨first, later⟩ := List.cons.inj heard
              rw [List.filterMap_cons_some (tokenOf_of_signal (told.trans (congrArg some first))), ih later]

/-! ### The reply on the screen -/

/-- The stream is over and its text, if there is any, the last message on display, in the thread that it answers. -/
structure Arrived (m m' : Chat) (threadId reply : String) : Prop where
  finished : m'.streams = [] ∧ m'.store.isStreaming = false ∧ m'.store.streamingContent = ""
  messages : ∃ uuid now, m'.store.messages = m.store.messages ++
    if reply = "" then []
    else [{ id := "assistant_" ++ uuid, threadId, role := .assistant, content := reply, createdAt := now }]

theorem any_of_named (named : ∀ msg ∈ m.store.messages, msg.id ≠ "") :
    (m.store.messages.any fun msg => decide (msg.id = "")) = false := by
  simpa using named

theorem arrived_of_finish (h : Following m) (member : s ∈ m.streams) {uuid now : String}
    (shown : m.store.Appends "" → m.Shows s)
    (named : ∀ msg ∈ m.store.messages, msg.id ≠ "") :
    Arrived m (m.finish s "" uuid now) s.threadId (String.join s.tokens) := by
  have unnamed := any_of_named named
  have text := h.text s member
  have store : (m.finish s "" uuid now).store = m.store.finishStreaming "" uuid now := rfl
  refine ⟨⟨h.without member, ?_, ChatState.finishStreaming_streamingContent⟩, uuid, now, ?_⟩
  · rw [store, ChatState.finishStreaming, if_neg (by simp [unnamed])]
    split <;> rfl
  · rw [store, ChatState.finishStreaming, if_neg (by simp [unnamed]), ← text]
    by_cases empty : m.store.streamingContent = ""
    · simp [empty]
    · obtain ⟨thread, -⟩ := shown ⟨unnamed, empty⟩
      simp [empty, ChatState.assistantMessage, thread]

/-- The callback that ends a stream. -/
theorem finish_of_signal {limit : Option String} {acquired : Bool}
    (told : act.signal id = some (lastSignal limit acquired)) (next : m.step act = some m')
    (followed : m.Followed act) :
    ∃ s uuid now, m.find id = some s ∧ m' = m.finish s "" uuid now ∧ m.StillShown id "" := by
  cases act with
  | handleCreate uuid now | handleSwitch threadId | onReconnected | close other | load act
  | handleSend content media uuid now shouldUseWebSocket => cases told
  | onToken other token =>
      simp only [Act.signal, lastSignal, tokenSignal, Option.ite_none_right_eq_some, Option.some.injEq] at told
      obtain ⟨-, same⟩ := told
      split at same <;> cases same
  | onDone other messageId uuid now =>
      simp only [Act.signal, Option.ite_none_right_eq_some, Option.some.injEq] at told
      obtain ⟨rfl, same⟩ := told
      obtain ⟨s, found, rfl⟩ := Option.map_eq_some_iff.mp next
      have unnamed : messageId = "" := by
        unfold lastSignal at same
        split at same
        · exact String.toList_injective (units_injective (Signal.done.inj same))
        · cases same
      subst unnamed
      exact ⟨s, uuid, now, found, rfl, followed⟩
  | onError other uuid now =>
      simp only [Act.signal, Option.ite_none_right_eq_some, Option.some.injEq] at told
      obtain ⟨rfl, -⟩ := told
      obtain ⟨s, found, rfl⟩ := Option.map_eq_some_iff.mp next
      exact ⟨s, uuid, now, found, rfl, followed⟩

/-- A message that the browser sends, and what it does before it and until the end of the response. -/
structure Exchange where
  before : List Act
  content : String
  media : Option (List MediaAttachment) := none
  uuid : String
  now : String
  after : List Act
  last : Act

namespace Exchange
variable (x : Exchange)

def send : Act := .handleSend x.content x.media x.uuid x.now false

def actions : List Act := x.before ++ x.send :: x.after ++ [x.last]

/-- `asked` is the browser before it sends the message, and `m` before the last callback of the response. -/
structure Hears (chunks : List (List Char)) (asked m m' : Chat) : Prop where
  asks : exec step initial x.before = some asked
  waits : exec step asked (x.send :: x.after) = some m
  ends : m.step x.last = some m'
  hears : (x.after ++ [x.last]).filterMap (Act.signal asked.sent) = (parseStream chunks).map Callback.signal
  last : x.last.signal asked.sent ≠ none

variable {x}

theorem Hears.tokens {chunks : List (List Char)} {asked : Chat} (hears : x.Hears chunks asked m m')
    {tokens : List String} {last : Signal}
    (signals : (parseStream chunks).map Callback.signal = tokens.map tokenSignal ++ [last]) :
    x.last.signal asked.sent = some last ∧
      ∀ s, m.find asked.sent = some s →
        s = ⟨asked.sent, asked.store.activeThread, asked.session.activeThreadId, tokens⟩ := by
  obtain ⟨heard, told⟩ := Option.ne_none_iff_exists'.mp hears.last
  have split := hears.hears.trans signals
  rw [List.filterMap_append, List.filterMap_cons_some told, List.filterMap_nil] at split
  obtain ⟨front, same⟩ := List.append_inj' split rfl
  refine ⟨told.trans (congrArg some (List.cons.inj same).1), fun s found => ?_⟩
  have run : exec step (asked.handleSend x.content x.media x.uuid x.now false) x.after = some m := hears.waits
  obtain ⟨first, begun, rfl⟩ := find_run run (Nat.lt_succ_self asked.sent) found
  have start : (asked.handleSend x.content x.media x.uuid x.now false).find asked.sent =
      some ⟨asked.sent, asked.store.activeThread, asked.session.activeThreadId, []⟩ :=
    List.find?_cons_of_pos (by simp)
  obtain rfl := Option.some.inj (start.symm.trans begun)
  rw [tokensOf_signals front]
  rfl

end Exchange

/-- The browser shows what the turn has put on its queue, in the thread that it was asked in, however the response is
cut and whatever else the browser does meanwhile. What it shows is in the thread that the turn has run in. If the turn
shows its reply, that is what its thread saves. -/
theorem reply_arrives (t : ChatTurn) (saved : AgentState) (limit : Option String) (acquired : Bool)
    (plain : Plain (t.items saved)) {sents : List Sent} {chunks : List (List Char)}
    (events : sents.filterMap Sent.data = eventGenerator limit acquired t.counts (t.run saved))
    (whole : chunks.flatten = sents.flatMap Sent.text) (x : Exchange) {asked m m' : Chat}
    (hears : x.Hears chunks asked m m') (undisturbed : Along step Undisturbed initial x.actions)
    (posted : ∀ threadId ∈ asked.session.activeThreadId, t.payload.threadId = some threadId)
    (named : ∀ msg ∈ m.store.messages, msg.id ≠ "") :
    Arrived m m' asked.store.activeThread (String.join (saidTexts limit acquired t.counts (t.run saved))) ∧
      (String.join (saidTexts limit acquired t.counts (t.run saved)) ≠ "" →
        t.payload.threadId = some asked.store.activeThread) ∧
      (limit = none → acquired = true → ShownWhen t saved →
        String.join (saidTexts limit acquired t.counts (t.run saved)) = (t.run saved).state.llmResponse) := by
  have path : exec step initial (x.before ++ x.send :: x.after) = some m := by
    rw [exec_append, hears.asks]
    exact hears.waits
  have following : Following m :=
    (throughout_of_along (fun _ _ _ h good next => h.step good next) following_initial undisturbed.front).last path
  have undisturbedEnd : m.Undisturbed x.last := (undisturbed.after path m' hears.ends).1
  have signals : (parseStream chunks).map Callback.signal =
      (saidTexts limit acquired t.counts (t.run saved)).map tokenSignal ++ [lastSignal limit acquired] := by
    rw [parseStream_sent whole, events]
    exact signals_eventGenerator limit acquired plain
  obtain ⟨told, stream⟩ := hears.tokens signals
  obtain ⟨s, uuid, now, found, rfl, still⟩ := finish_of_signal told hears.ends undisturbedEnd.2
  obtain rfl := stream s found
  have member := mem_of_find found
  refine ⟨arrived_of_finish following member (still _ found) named, fun text => ?_, ?_⟩
  · have appends : m.store.Appends "" := ⟨any_of_named named, following.text _ member ▸ text⟩
    obtain ⟨thread, shown⟩ := still _ found appends
    exact posted _ (shown.trans (congrArg some thread.symm))
  · rintro rfl rfl shown
    exact join_said_of_shownWhen plain shown

/-! ### A greeting -/

def greeting : ChatTurn where
  services := { offline with llm := fun _ _ => ⟨[.ofText "你好", .ofText "！"], false⟩ }
  payload := ⟨[userMessage "您好"], some "tenant", some "thread-a"⟩
  counts := []

def greetingSents : List Sent :=
  [.event (contentJson "你好"), .ping "09:00:02".toList ⟨by decide, by decide⟩, .event (contentJson "！"),
    .event done]

def greetingExchange : Exchange where
  before :=
    [.handleSwitch "thread-a", .load (.cacheRead 0 none), .load (.serverReply 0 (.messages []) "09:00:00")]
  content := "您好"
  uuid := "uuid-1"
  now := "09:00:01"
  after := [.onToken 0 "你好", .onToken 0 "！"]
  last := .onDone 0 "" "uuid-2" "09:00:03"

theorem items_greeting : greeting.items emptyThread = [.token "你好", .token "！"] := by decide +kernel

theorem plain_greeting : Plain (greeting.items emptyThread) := by
  rw [items_greeting]
  intro text member
  simp only [List.mem_cons, Item.token.injEq, List.not_mem_nil, or_false] at member
  rcases member with rfl | rfl <;> decide

theorem saidTexts_greeting : saidTexts none true greeting.counts (greeting.run emptyThread) = ["你好", "！"] :=
  congrArg (List.map Item.said) items_greeting

theorem events_greeting : greetingSents.filterMap Sent.data =
    eventGenerator none true greeting.counts (greeting.run emptyThread) := by
  have wrapped := congrArg (· ++ [done]) (map_yieldItem plain_greeting)
  refine Eq.trans ?_ wrapped.symm
  rw [items_greeting]
  rfl

theorem shownWhen_greeting : ShownWhen greeting emptyThread := by
  have accepted : ¬ Rejected (greeting.run emptyThread) := by
    unfold Rejected
    decide +kernel
  have reply : (greeting.run emptyThread).state.llmResponse = "你好！" := by decide +kernel
  have reads : (preprocessNode greeting.services (greeting.payload.merge emptyThread)).isSome = true := by
    decide +kernel
  obtain ⟨s, preprocessed⟩ := Option.isSome_iff_exists.mp reads
  have seen : visible (greeting.items emptyThread) = units "你好！".toList := by
    rw [visible_said plain_greeting, items_greeting]
    rfl
  have own (node : Node) (text : String) :
      Item.response node text ∉ greeting.items emptyThread := by
    simp [items_greeting]
  have shows : ShowsReply greeting.counts (greeting.run emptyThread) :=
    (showsReply_iff_of_accepted accepted).mpr
      ⟨seen.trans (congrArg (fun text : String => units text.toList) reply.symm), fun node text here =>
        absurd here (own node text)⟩
  have routed := (showsReply_iff_routedShown (turn_path greeting.services _) preprocessed rfl rfl accepted).mp shows
  rw [ShownWhen, preprocessed]
  exact ⟨rfl, rfl, routed⟩

/-- The response is cut after seven characters. -/
theorem reply_arrives_greeting : ∃ asked m m' : Chat, exec step initial greetingExchange.actions = some m' ∧
    Arrived m m' asked.store.activeThread "你好！" ∧ greeting.payload.threadId = some asked.store.activeThread ∧
    (greeting.run emptyThread).state.llmResponse = "你好！" := by
  have cut : [(greetingSents.flatMap Sent.text).take 7, (greetingSents.flatMap Sent.text).drop 7].flatten =
      greetingSents.flatMap Sent.text := by simp
  have hears : ∃ asked m m', exec step initial greetingExchange.actions = some m' ∧
      (∀ threadId ∈ asked.session.activeThreadId, greeting.payload.threadId = some threadId) ∧
      (∀ msg ∈ m.store.messages, msg.id ≠ "") ∧ greetingExchange.Hears
        [(greetingSents.flatMap Sent.text).take 7, (greetingSents.flatMap Sent.text).drop 7] asked m m' := by
    refine ⟨_, _, _, rfl, ?_, ?_, rfl, rfl, rfl, ?_, ?_⟩
    · intro threadId here
      obtain rfl := Option.some.inj here
      rfl
    · decide
    · rw [parseStream_sent cut, events_greeting, signals_eventGenerator none true plain_greeting, saidTexts_greeting]
      rfl
    · nofun
  obtain ⟨asked, m, m', run, posted, named, hears⟩ := hears
  have undisturbed : Along step Undisturbed initial greetingExchange.actions := by
    refine along_cons rfl ⟨trivial, trivial⟩ ?_
    refine along_cons rfl ⟨trivial, nofun⟩ ?_
    refine along_cons rfl ⟨trivial, ?_⟩ ?_
    · intro shown here msg mem
      obtain rfl := Option.some.inj here
      cases mem
    refine along_cons rfl ⟨⟨rfl, rfl⟩, trivial⟩ ?_
    refine along_cons rfl ⟨trivial, trivial⟩ ?_
    refine along_cons rfl ⟨trivial, trivial⟩ ?_
    refine along_cons rfl ⟨trivial, ?_⟩ trivial
    intro s found _
    obtain rfl := Option.some.inj found
    exact ⟨rfl, rfl⟩
  obtain ⟨arrived, thread, saves⟩ := reply_arrives greeting emptyThread none true plain_greeting events_greeting
    cut greetingExchange hears undisturbed posted named
  rw [saidTexts_greeting] at arrived thread saves
  exact ⟨asked, m, m', run, arrived, thread (by decide), (saves rfl rfl shownWhen_greeting).symm⟩

end Chat

end CuckooEcho.Frontend
