import CuckooEcho.Lib.Dict
import CuckooEcho.Lib.Json.Stringify

namespace CuckooEcho.Chat
open Lib Json

/-! ## The messages of a thread as the route returns them -/

abbrev JsonObject := Dict (List CodeUnit) Value

/-- The truth of a value in Python: a number is true unless all digits before its exponent are 0. -/
def truthy : Value → Bool
  | .null => false
  | .bool b => b
  | .num text => (text.takeWhile fun c => c ≠ 'e' && c ≠ 'E').any fun c => c.isDigit && c ≠ '0'
  | .str s => !s.isEmpty
  | .arr vs => !vs.isEmpty
  | .obj ms => !ms.isEmpty

/-- Who asks, and what the feedback service, where there is one, says of a message. -/
structure HistoryRequest where
  tenantId : Option String
  userId : Option String
  feedbackState : Option (Value → Value)

def present (id : Option String) : Bool := id.any (· ≠ "")

/-- `msg.get("id") or msg.get("additional_kwargs", {}).get("id")`, where the outer `none` is an exception. -/
def messageId (msg : JsonObject) : Option (Option Value) :=
  match (msg.get (ascii "id")).filter truthy with
  | some id => some (some id)
  | none =>
      match msg.get (ascii "additional_kwargs") with
      | none => some none
      | some (.obj kwargs) => some ((Value.obj kwargs).member "id")
      | some _ => none

def enrich (tenantId : Option String) (feedbackState : Value → Value) (msg : JsonObject) : Option JsonObject :=
  (messageId msg).map fun id =>
    match id.filter truthy with
    | some id => if present tenantId then msg.set (ascii "feedback_state") (feedbackState id) else msg
    | none => msg

def enrichAll (tenantId : Option String) (feedbackState : Value → Value) : List JsonObject → Option (List JsonObject)
  | [] => some []
  | msg :: messages => do
      let enriched ← enrich tenantId feedbackState msg
      let rest ← enrichAll tenantId feedbackState messages
      return enriched :: rest

/-- `get_thread_history` for a thread whose state has these messages; `none` where it raises. -/
def threadHistory (request : HistoryRequest) (messages : List JsonObject) : Option (List JsonObject) :=
  if present request.userId then
    match request.feedbackState with
    | some feedbackState => enrichAll request.tenantId feedbackState messages
    | none => some messages
  else some messages

/-- The body of the response. -/
def historyBody (threadId : String) (messages : List JsonObject) : JsonObject :=
  Dict.empty.setAll
    [(ascii "thread_id", .str (ascii threadId)), (ascii "messages", .arr (messages.map fun msg => .obj msg.items))]

/-! ### What the route leaves -/

/-- The members other than the state of the feedback, in their order. -/
def SameMembers (msg msg' : JsonObject) : Prop :=
  msg'.items.filter (·.1 ≠ ascii "feedback_state") = msg.items.filter (·.1 ≠ ascii "feedback_state")

theorem enrich_same {tenantId : Option String} {feedbackState : Value → Value} {msg msg' : JsonObject}
    (enriched : enrich tenantId feedbackState msg = some msg') : SameMembers msg msg' := by
  obtain ⟨id, -, rfl⟩ := Option.map_eq_some_iff.mp enriched
  split
  · split
    · exact Dict.filter_set msg _ _
    · rfl
  · rfl

theorem enrichAll_same {tenantId : Option String} {feedbackState : Value → Value} {messages out : List JsonObject}
    (enriched : enrichAll tenantId feedbackState messages = some out) : List.Forall₂ SameMembers messages out := by
  induction messages generalizing out with
  | nil =>
      obtain rfl := Option.some.inj enriched
      exact .nil
  | cons msg messages ih =>
      obtain ⟨first, here, enriched⟩ := Option.bind_eq_some_iff.mp enriched
      obtain ⟨rest, later, eq⟩ := Option.bind_eq_some_iff.mp enriched
      obtain rfl := Option.some.inj eq
      exact .cons (enrich_same here) (ih later)

theorem threadHistory_same {request : HistoryRequest} {messages out : List JsonObject}
    (history : threadHistory request messages = some out) : List.Forall₂ SameMembers messages out := by
  have unchanged : List.Forall₂ SameMembers messages messages := List.forall₂_same.mpr fun _ _ => rfl
  unfold threadHistory at history
  split at history
  · split at history
    · exact enrichAll_same history
    · exact Option.some.inj history ▸ unchanged
  · exact Option.some.inj history ▸ unchanged

end CuckooEcho.Chat
