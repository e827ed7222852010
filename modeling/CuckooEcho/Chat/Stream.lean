import CuckooEcho.Agent.Thread
import CuckooEcho.Chat.Frames

namespace CuckooEcho.Chat
open Lib Agent

/-! ## The queue between `_consume_stream` and the generator -/

/-- An item of the queue, marked with what put it there: a token of the model, the reply or the correction
in a node's update, or the apology for a graph that raised. -/
inductive Item
  | token (text : String)
  | response (node : Node) (text : String)
  | correction (node : Node) (text : String)
  | failure
  deriving DecidableEq, Repr

def Item.text : Item → String
  | .token text => text
  | .response _ text => contentJson text
  | .correction _ text => contentJson text
  | .failure => contentJson apology

structure Consumer where
  yielded : List Item
  queue : List Item
  responseSent : Bool
  tokensUsed : Nat
  deriving DecidableEq, Repr

namespace Consumer

def start : Consumer := { yielded := [], queue := [], responseSent := false, tokensUsed := 0 }

def put (c : Consumer) (items : List Item) : Consumer := { c with queue := c.queue ++ items }

def get (c : Consumer) (count : Nat) : Consumer :=
  { c with yielded := c.yielded ++ c.queue.take count, queue := c.queue.drop count }

def items (c : Consumer) : List Item := c.yielded ++ c.queue

end Consumer

def pushResponse (c : Consumer) (u : AgentUpdate) : Consumer :=
  if u.state.llmResponse = "" ∨ c.responseSent then c
  -- tokens seem to have been pushed
  else if c.queue ≠ [] ∨ u.node = .llmGenerate then { c with responseSent := true }
  else { c.put [.response u.node u.state.llmResponse] with responseSent := true }

def correctionOf (u : AgentUpdate) : Option String := u.state.correctionMessage.filter (· ≠ "")

def pushCorrection (c : Consumer) (u : AgentUpdate) : Consumer :=
  match correctionOf u with
  | some text => c.put [.correction u.node text]
  | none => c

def countTokens (c : Consumer) (u : AgentUpdate) : Consumer :=
  if u.state.tokensUsed ≠ 0 then { c with tokensUsed := u.state.tokensUsed } else c

/-- One state update. The tokens that the node put on the queue come first; the generator has taken
`count` items by the time that the update arrives. -/
def handleUpdate (count : Nat) (u : AgentUpdate) (c : Consumer) : Consumer :=
  let c := (c.put ((tokenEffects u.effects).map .token)).get count
  countTokens (pushCorrection (pushResponse c u) u) u

def handleUpdates : List Nat → List AgentUpdate → Consumer → Consumer
  | _, [], c => c
  | counts, u :: us, c => handleUpdates counts.tail us (handleUpdate (counts.headD 0) u c)

def handleFailure (outcome : StateGraph.Outcome) (c : Consumer) : Consumer :=
  if outcome = .finished ∨ c.responseSent then c else c.put [.failure]

def consumeStream (counts : List Nat) (run : AgentRun) : Consumer :=
  handleFailure run.outcome (handleUpdates counts run.updates .start)

def limitExceeded (reason : String) : String :=
  dumps [("error", "LIMIT_EXCEEDED"), ("message", "Message limit exceeded: " ++ reason),
    ("code", "402_PAYMENT_REQUIRED")]

def concurrentRequest : String :=
  dumps [("error", "CONCURRENT_REQUEST"), ("message", "AI is still processing")]

/-- What `event_generator` yields when the client stays: `limit` is the reason of a refused plan limit. -/
def eventGenerator (limit : Option String) (acquired : Bool) (counts : List Nat) (run : AgentRun) : List String :=
  match limit with
  | some reason => [limitExceeded reason, done]
  | none =>
      if acquired then (consumeStream counts run).items.map (fun item => yieldItem item.text) ++ [done]
      else [concurrentRequest]

/-! ## The turns of a thread -/

structure ChatTurn where
  services : Services
  payload : Payload
  counts : List Nat

def ChatTurn.run (t : ChatTurn) (saved : AgentState) : AgentRun := turn t.services (t.payload.merge saved)

def ChatTurn.items (t : ChatTurn) (saved : AgentState) : List Item := (consumeStream t.counts (t.run saved)).items

def emptyThread : AgentState := {}

def nextTurn (saved : AgentState) (t : ChatTurn) : Option AgentState := some (t.run saved).state

/-! ## What an update adds -/

def Item.isCorrection : Item → Bool
  | .correction .. => true
  | _ => false

def responseItems (c : Consumer) (u : AgentUpdate) : List Item :=
  if u.state.llmResponse = "" ∨ c.responseSent then []
  else if c.queue ≠ [] ∨ u.node = .llmGenerate then []
  else [.response u.node u.state.llmResponse]

def correctionItems (u : AgentUpdate) : List Item := ((correctionOf u).map (Item.correction u.node)).toList

def tokenItems (u : AgentUpdate) : List Item := (tokenEffects u.effects).map .token

def arrived (count : Nat) (u : AgentUpdate) (c : Consumer) : Consumer := (c.put (tokenItems u)).get count

theorem items_put (c : Consumer) (items : List Item) : (c.put items).items = c.items ++ items := by
  simp [Consumer.items, Consumer.put]

theorem items_get (c : Consumer) (count : Nat) : (c.get count).items = c.items := by
  simp [Consumer.items, Consumer.get]

theorem items_pushResponse (c : Consumer) (u : AgentUpdate) :
    (pushResponse c u).items = c.items ++ responseItems c u := by
  unfold pushResponse responseItems
  split
  · rw [List.append_nil]
  · split
    · rw [List.append_nil]
      rfl
    · exact items_put c _

theorem items_pushCorrection (c : Consumer) (u : AgentUpdate) :
    (pushCorrection c u).items = c.items ++ correctionItems u := by
  unfold pushCorrection correctionItems
  cases correctionOf u with
  | none => simp
  | some text => exact items_put c _

theorem items_countTokens (c : Consumer) (u : AgentUpdate) : (countTokens c u).items = c.items := by
  unfold countTokens
  split <;> rfl

theorem items_handleUpdate (count : Nat) (u : AgentUpdate) (c : Consumer) :
    (handleUpdate count u c).items =
      c.items ++ tokenItems u ++ responseItems (arrived count u c) u ++ correctionItems u := by
  unfold handleUpdate
  rw [items_countTokens, items_pushCorrection, items_pushResponse, items_get, items_put]
  rfl

theorem responseSent_pushResponse (c : Consumer) (u : AgentUpdate) :
    (pushResponse c u).responseSent = (c.responseSent || u.state.llmResponse ≠ "") := by
  unfold pushResponse
  by_cases empty : u.state.llmResponse = ""
  · simp [empty]
  · cases sent : c.responseSent with
    | true => simp [sent]
    | false =>
        by_cases streamed : c.queue ≠ [] ∨ u.node = .llmGenerate
        · simp [empty, streamed]
        · simp [empty, streamed]

theorem responseSent_handleUpdate (count : Nat) (u : AgentUpdate) (c : Consumer) :
    (handleUpdate count u c).responseSent = (c.responseSent || u.state.llmResponse ≠ "") := by
  have kept (c : Consumer) : (countTokens (pushCorrection c u) u).responseSent = c.responseSent := by
    unfold countTokens pushCorrection
    cases correctionOf u with
    | none => split <;> rfl
    | some text => split <;> rfl
  exact (kept _).trans (responseSent_pushResponse _ u)

theorem items_prefix_handleUpdates (counts : List Nat) (us : List AgentUpdate) (c : Consumer) :
    c.items <+: (handleUpdates counts us c).items := by
  induction us generalizing counts c with
  | nil => exact List.prefix_refl _
  | cons u us ih =>
      refine List.IsPrefix.trans ?_ (ih counts.tail (handleUpdate (counts.headD 0) u c))
      rw [items_handleUpdate, List.append_assoc, List.append_assoc]
      exact List.prefix_append _ _

theorem items_handleFailure_of_finished (c : Consumer) : (handleFailure .finished c).items = c.items := by
  simp [handleFailure]

theorem items_prefix_handleFailure (outcome : StateGraph.Outcome) (c : Consumer) :
    c.items <+: (handleFailure outcome c).items := by
  unfold handleFailure
  split
  · exact List.prefix_refl _
  · rw [items_put]
    exact List.prefix_append _ _

theorem mem_consumeStream {counts : List Nat} {run : AgentRun} {item : Item}
    (here : item ∈ (handleUpdates counts run.updates .start).items) : item ∈ (consumeStream counts run).items :=
  (items_prefix_handleFailure _ _).subset here

/-! ## Corrections -/

theorem countP_tokenItems (u : AgentUpdate) : (tokenItems u).countP Item.isCorrection = 0 := by
  rw [List.countP_eq_zero]
  intro item here
  obtain ⟨text, -, rfl⟩ := List.mem_map.mp here
  simp [Item.isCorrection]

theorem countP_responseItems (c : Consumer) (u : AgentUpdate) :
    (responseItems c u).countP Item.isCorrection = 0 := by
  unfold responseItems
  split
  · rfl
  · split <;> rfl

theorem countP_correctionItems (u : AgentUpdate) :
    (correctionItems u).countP Item.isCorrection = if (correctionOf u).isSome then 1 else 0 := by
  unfold correctionItems
  cases correctionOf u <;> rfl

theorem countP_handleUpdates (counts : List Nat) (us : List AgentUpdate) (c : Consumer) :
    (handleUpdates counts us c).items.countP Item.isCorrection =
      c.items.countP Item.isCorrection + us.countP fun u => (correctionOf u).isSome := by
  induction us generalizing counts c with
  | nil => rfl
  | cons u us ih =>
      rw [handleUpdates, ih, items_handleUpdate, List.countP_append, List.countP_append, List.countP_append,
        countP_tokenItems, countP_responseItems, countP_correctionItems, List.countP_cons]
      omega

theorem countP_consumeStream (counts : List Nat) (run : AgentRun) :
    (consumeStream counts run).items.countP Item.isCorrection =
      run.updates.countP fun u => (correctionOf u).isSome := by
  have handled := countP_handleUpdates counts run.updates .start
  unfold consumeStream handleFailure
  split
  · rw [handled]
    exact Nat.zero_add _
  · rw [items_put, List.countP_append, handled]
    exact Nat.zero_add _

end CuckooEcho.Chat
