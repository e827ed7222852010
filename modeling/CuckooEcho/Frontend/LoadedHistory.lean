import CuckooEcho.Frontend.NestedResponse
import CuckooEcho.Frontend.SseClient

namespace CuckooEcho.Frontend
open Lib Json Chat
open FieldMapper (ConvertsKeys camelObject camelValue transformNested)

/-! ## Loading the history of a thread -/

namespace LoadedHistory

/-- An object without the members that are `undefined`. -/
def objectOf (members : List (String × Option Value)) : JsonObject :=
  Dict.empty.setAll (members.filterMap fun m => m.2.map fun v => (ascii m.1, v))

/-- A property of a value, `none` where reading it throws; no primitive value has one of the names used here. -/
def property (name : String) : Value → Option (Option Value)
  | .null => none
  | v => some (v.member name)

def convertToolCall (tc : Value) : Option Value := do
  let id ← property "id" tc
  let name ← property "name" tc
  let args ← property "args" tc
  return .obj (objectOf [("id", id), ("name", name), ("arguments", args.map fun v => .str v.stringify)]).items

def convertEach : List Value → Option (List Value)
  | [] => some []
  | tc :: tcs => do
      let first ← convertToolCall tc
      let rest ← convertEach tcs
      return first :: rest

/-- `msg.tool_calls?.map(…)`: what is no array has no `map`. -/
def convertToolCalls (toolCalls : Option Value) : Option (Option Value) :=
  match defined toolCalls with
  | none => some none
  | some (.arr tcs) => (convertEach tcs).map fun calls => some (.arr calls)
  | some _ => none

/-- The roles of the types that the adapter knows; any other is an assistant. -/
def roleOf (type : Option Value) : Value :=
  match type with
  | some (.str name) => if name = ascii "human" then .str (ascii "user") else .str (ascii "assistant")
  | _ => .str (ascii "assistant")

def convertMessage (threadId now uuid : JsString) (msg : JsonObject) : Option JsonObject :=
  (convertToolCalls (msg.get (ascii "tool_calls"))).map fun toolCalls =>
    objectOf
      [("id", some ((defined (msg.get (ascii "id"))).getD (.str uuid))), ("threadId", some (.str threadId)),
        ("role", some (roleOf (msg.get (ascii "type")))), ("content", msg.get (ascii "content")),
        ("toolCalls", toolCalls), ("createdAt", some (.str now))]

def isTool (msg : JsonObject) : Bool :=
  match msg.get (ascii "type") with
  | some (.str name) => name == ascii "tool"
  | _ => false

/-- The message at each place has a new id at hand. -/
def convertMessages (threadId now : JsString) (uuid : Nat → JsString) : Nat → List JsonObject → Option (List JsonObject)
  | _, [] => some []
  | n, msg :: msgs => do
      let first ← convertMessage threadId now (uuid n) msg
      let rest ← convertMessages threadId now uuid (n + 1) msgs
      return first :: rest

def hasType (msg : JsonObject) : Bool := (msg.get (ascii "type")).isSome

def asObject : Value → Option JsonObject
  | .obj members => some (Dict.empty.setAll members)
  | _ => none

/-- `res.data.messages ?? []`, a list of objects. -/
def rawMessages (data : JsonObject) : List JsonObject :=
  match data.get (ascii "messages") with
  | some (.arr items) => items.filterMap asObject
  | _ => []

/-- The formats are told apart by the first message. -/
def serverMessages (threadId now : JsString) (uuid : Nat → JsString) : List JsonObject → Option (List JsonObject)
  | [] => some []
  | first :: rest =>
      if hasType first then convertMessages threadId now uuid 0 ((first :: rest).filter fun msg => !isTool msg)
      else some (first :: rest)

def threadEndpoint (threadId : String) : String := "/v1/threads/" ++ threadId

/-- The messages that `loadThread` puts into the store, for the data that the client has made of the response. -/
def loadThread (threadId : String) (now : JsString) (uuid : Nat → JsString) (data : JsonObject) :
    Option (List JsonObject) :=
  serverMessages (ascii threadId) now uuid (rawMessages data)

/-- A non-empty text. -/
def IsId (v : Value) : Prop := ∃ id : JsString, id ≠ [] ∧ v = .str id

/-- Each message can be told from the others of the list, and belongs to the thread. -/
structure Identified (threadId : JsString) (messages : List JsonObject) : Prop where
  ids : ∀ msg ∈ messages, ∃ id, msg.get (ascii "id") = some id ∧ IsId id
  distinct : (messages.map fun msg => msg.get (ascii "id")).Nodup
  thread : ∀ msg ∈ messages, msg.get (ascii "threadId") = some (.str threadId)

/-- The id that a message of the LangGraph format brings. -/
def broughtId (msg : JsonObject) : Option Value := defined (msg.get (ascii "id"))

/-- Messages in the LangGraph format bring no ids but distinct ones; in any other format, each brings all that it is
told apart by. -/
def Identifiable (threadId : JsString) : List JsonObject → Prop
  | [] => True
  | first :: rest =>
      if hasType first then
        (∀ id ∈ ((first :: rest).filter fun msg => !isTool msg).filterMap broughtId, IsId id) ∧
          (((first :: rest).filter fun msg => !isTool msg).filterMap broughtId).Nodup
      else Identified threadId (first :: rest)

/-- What drawing new ids is relied on for. -/
structure Fresh (uuid : Nat → JsString) (messages : List JsonObject) : Prop where
  nonempty : ∀ n, uuid n ≠ []
  injective : Function.Injective uuid
  unused : ∀ n, ∀ msg ∈ messages, broughtId msg ≠ some (.str (uuid n))

/-! ### Converted messages -/

theorem get_objectOf {members : List (String × Option Value)} (distinct : (members.map fun m => ascii m.1).Nodup)
    {name : String} {v : Option Value} (member : (name, v) ∈ members) : (objectOf members).get (ascii name) = v := by
  cases found : (objectOf members).get (ascii name) with
  | some w =>
      obtain ⟨m, there, eq⟩ := List.mem_filterMap.mp (Dict.mem_of_get_setAll found)
      obtain ⟨u, known, pair⟩ := Option.map_eq_some_iff.mp eq
      obtain ⟨same, rfl⟩ := Prod.mk.inj pair
      have unique : m = (name, v) := List.inj_on_of_nodup_map distinct there member same
      rw [← known, unique]
  | none =>
      cases v with
      | none => rfl
      | some w =>
          have listed : (ascii name, w) ∈ members.filterMap fun m => m.2.map fun v => (ascii m.1, v) :=
            List.mem_filterMap.mpr ⟨(name, some w), member, rfl⟩
          exact absurd found (Dict.get_setAll_ne_none listed)

variable {threadId now uuid₀ : JsString} {uuid : Nat → JsString} {msg : JsonObject} {messages loaded : List JsonObject}

theorem get_convertMessage {out : JsonObject} (converted : convertMessage threadId now uuid₀ msg = some out) :
    out.get (ascii "id") = some ((broughtId msg).getD (.str uuid₀)) ∧
      out.get (ascii "threadId") = some (.str threadId) := by
  obtain ⟨toolCalls, -, rfl⟩ := Option.map_eq_some_iff.mp converted
  have distinct : (["id", "threadId", "role", "content", "toolCalls", "createdAt"].map ascii).Nodup := by decide
  constructor
  · apply get_objectOf
    · exact distinct
    · exact List.mem_cons_self
  · apply get_objectOf
    · exact distinct
    · exact List.mem_cons_of_mem _ List.mem_cons_self

/-- The ids of converted messages: those that they bring, and new ones at the other places. -/
def idsFrom (uuid : Nat → JsString) : Nat → List JsonObject → List Value
  | _, [] => []
  | n, msg :: msgs => (broughtId msg).getD (.str (uuid n)) :: idsFrom uuid (n + 1) msgs

theorem get_convertMessages {n : Nat} (converted : convertMessages threadId now uuid n messages = some loaded) :
    (loaded.map fun msg => msg.get (ascii "id")) = (idsFrom uuid n messages).map some ∧
      ∀ msg ∈ loaded, msg.get (ascii "threadId") = some (.str threadId) := by
  induction messages generalizing n loaded with
  | nil =>
      obtain rfl := Option.some.inj converted
      exact ⟨rfl, fun _ none => absurd none List.not_mem_nil⟩
  | cons msg messages ih =>
      obtain ⟨first, here, converted⟩ := Option.bind_eq_some_iff.mp converted
      obtain ⟨rest, later, eq⟩ := Option.bind_eq_some_iff.mp converted
      obtain rfl := Option.some.inj eq
      obtain ⟨id, thread⟩ := get_convertMessage here
      obtain ⟨ids, threads⟩ := ih later
      refine ⟨?_, List.forall_mem_cons.mpr ⟨thread, threads⟩⟩
      rw [List.map_cons, id, ids]
      rfl

theorem mem_idsFrom {n : Nat} {v : Value} (member : v ∈ idsFrom uuid n messages) :
    v ∈ messages.filterMap broughtId ∨ ∃ i, n ≤ i ∧ v = .str (uuid i) := by
  induction messages generalizing n with
  | nil => exact absurd member List.not_mem_nil
  | cons msg messages ih =>
      rcases List.mem_cons.mp member with rfl | later
      · cases brought : broughtId msg with
        | none => exact .inr ⟨n, Nat.le_refl n, rfl⟩
        | some id => exact .inl (List.mem_filterMap.mpr ⟨msg, List.mem_cons_self, brought⟩)
      · rcases ih later with here | ⟨i, bound, eq⟩
        · obtain ⟨msg', there, brought⟩ := List.mem_filterMap.mp here
          exact .inl (List.mem_filterMap.mpr ⟨msg', List.mem_cons_of_mem _ there, brought⟩)
        · exact .inr ⟨i, Nat.le_of_succ_le bound, eq⟩

theorem mem_idsFrom_of_brought {n : Nat} {v : Value} (member : v ∈ messages.filterMap broughtId) :
    v ∈ idsFrom uuid n messages := by
  induction messages generalizing n with
  | nil => exact absurd member List.not_mem_nil
  | cons msg messages ih =>
      obtain ⟨msg', there, brought⟩ := List.mem_filterMap.mp member
      obtain rfl | later := List.mem_cons.mp there
      · rw [idsFrom, brought]
        exact List.mem_cons_self
      · exact List.mem_cons_of_mem _ (ih (List.mem_filterMap.mpr ⟨msg', later, brought⟩))

theorem isId_idsFrom_iff (fresh : Fresh uuid messages) (n : Nat) :
    (∀ v ∈ idsFrom uuid n messages, IsId v) ↔ ∀ v ∈ messages.filterMap broughtId, IsId v := by
  constructor
  · exact fun ids v member => ids v (mem_idsFrom_of_brought member)
  · intro ids v member
    rcases mem_idsFrom member with brought | ⟨i, -, rfl⟩
    · exact ids v brought
    · exact ⟨uuid i, fresh.nonempty i, rfl⟩

/-- New ids repeat nothing. -/
theorem nodup_idsFrom_iff (fresh : Fresh uuid messages) (n : Nat) :
    (idsFrom uuid n messages).Nodup ↔ (messages.filterMap broughtId).Nodup := by
  induction messages generalizing n with
  | nil => exact iff_of_true List.nodup_nil List.nodup_nil
  | cons msg messages ih =>
      have later : Fresh uuid messages :=
        ⟨fresh.nonempty, fresh.injective, fun i msg' there => fresh.unused i msg' (List.mem_cons_of_mem _ there)⟩
      rw [idsFrom, List.nodup_cons, ih later]
      cases brought : broughtId msg with
      | none =>
          rw [List.filterMap_cons_none brought]
          refine and_iff_right fun again => ?_
          rcases mem_idsFrom again with there | ⟨i, bound, eq⟩
          · obtain ⟨msg', member, used⟩ := List.mem_filterMap.mp there
            exact later.unused n msg' member used
          · have same : n = i := fresh.injective (Value.str.inj eq)
            omega
      | some id =>
          rw [List.filterMap_cons_some brought, List.nodup_cons, Option.getD_some]
          refine and_congr_left fun _ => not_congr ⟨fun again => ?_, mem_idsFrom_of_brought⟩
          rcases mem_idsFrom again with there | ⟨i, -, rfl⟩
          · exact there
          · exact absurd brought (fresh.unused i msg List.mem_cons_self)

/-! ### What decides -/

theorem identified_iff_maps :
    Identified threadId messages ↔
      (∀ v ∈ messages.map fun msg => msg.get (ascii "id"), ∃ id, v = some id ∧ IsId id) ∧
        (messages.map fun msg => msg.get (ascii "id")).Nodup ∧
          ∀ v ∈ messages.map fun msg => msg.get (ascii "threadId"), v = some (.str threadId) := by
  simp only [List.forall_mem_map]
  exact ⟨fun h => ⟨h.ids, h.distinct, h.thread⟩, fun h => ⟨h.1, h.2.1, h.2.2⟩⟩

/-- The members other than the state of the feedback. -/
def Alike (msg msg' : JsonObject) : Prop := ∀ key ≠ ascii "feedbackState", msg'.get key = msg.get key

theorem map_get_same {a b : List JsonObject} (same : List.Forall₂ Alike a b) {key : List CodeUnit}
    (other : key ≠ ascii "feedbackState") : (b.map fun msg => msg.get key) = a.map fun msg => msg.get key := by
  induction same with
  | nil => rfl
  | cons here _ ih => rw [List.map_cons, List.map_cons, here key other, ih]

theorem brought_same {a b : List JsonObject} (same : List.Forall₂ Alike a b) :
    (b.filter fun msg => !isTool msg).filterMap broughtId = (a.filter fun msg => !isTool msg).filterMap broughtId := by
  induction same with
  | nil => rfl
  | @cons msg msg' _ _ here _ ih =>
      have tool : isTool msg' = isTool msg := by rw [isTool, isTool, here _ (by decide)]
      have brought : broughtId msg' = broughtId msg := by rw [broughtId, broughtId, here _ (by decide)]
      rw [List.filter_cons, List.filter_cons, tool]
      split
      · rw [List.filterMap_cons, List.filterMap_cons, brought, ih]
      · exact ih

theorem identifiable_same {a b : List JsonObject} (same : List.Forall₂ Alike a b) :
    Identifiable threadId b ↔ Identifiable threadId a := by
  cases same with
  | nil => exact Iff.rfl
  | @cons first first' rest rest' here there =>
      have typed : hasType first' = hasType first := by rw [hasType, hasType, here _ (by decide)]
      have all : List.Forall₂ Alike (first :: rest) (first' :: rest') := .cons here there
      rw [Identifiable, Identifiable, typed, brought_same all]
      split
      · exact Iff.rfl
      · rw [identified_iff_maps, identified_iff_maps, map_get_same all (by decide), map_get_same all (by decide)]

theorem identified_convertMessages_iff (fresh : Fresh uuid messages) {n : Nat}
    (converted : convertMessages threadId now uuid n messages = some loaded) :
    Identified threadId loaded ↔
      (∀ id ∈ messages.filterMap broughtId, IsId id) ∧ (messages.filterMap broughtId).Nodup := by
  obtain ⟨ids, thread⟩ := get_convertMessages converted
  rw [identified_iff_maps, ids, List.nodup_map_iff fun _ _ => Option.some.inj, nodup_idsFrom_iff fresh,
    ← isId_idsFrom_iff fresh n]
  simp only [List.forall_mem_map, Option.some.injEq, exists_eq_left', and_iff_left thread]

theorem identified_serverMessages_iff (fresh : Fresh uuid messages)
    (load : serverMessages threadId now uuid messages = some loaded) :
    Identified threadId loaded ↔ Identifiable threadId messages := by
  cases messages with
  | nil =>
      obtain rfl := Option.some.inj load
      refine iff_of_true ⟨fun _ none => absurd none List.not_mem_nil, List.nodup_nil, ?_⟩ trivial
      exact fun _ none => absurd none List.not_mem_nil
  | cons first rest =>
      rw [serverMessages] at load
      rw [Identifiable]
      split at load
      · rename_i typed
        rw [if_pos typed]
        have kept : Fresh uuid ((first :: rest).filter fun msg => !isTool msg) :=
          ⟨fresh.nonempty, fresh.injective, fun n msg member => fresh.unused n msg (List.mem_of_mem_filter member)⟩
        exact identified_convertMessages_iff kept load
      · rename_i untyped
        rw [if_neg untyped, Option.some.inj load]

theorem fresh_same {a b : List JsonObject} (same : List.Forall₂ Alike a b) (fresh : Fresh uuid a) :
    Fresh uuid b := by
  refine ⟨fresh.nonempty, fresh.injective, fun n msg member brought => ?_⟩
  have ids : (b.map fun msg => msg.get (ascii "id")) = a.map fun msg => msg.get (ascii "id") :=
    map_get_same same (by decide)
  have here : msg.get (ascii "id") ∈ b.map fun msg => msg.get (ascii "id") := List.mem_map_of_mem member
  rw [ids] at here
  obtain ⟨msg', there, eq⟩ := List.mem_map.mp here
  refine fresh.unused n msg' there ?_
  rw [broughtId, eq]
  exact brought

/-! ### What the client makes of the response -/

variable {camelCase : List CodeUnit → List CodeUnit} {overview missedQueries docs : JsonObject → JsonObject}

theorem threadEndpoint_unmatched (threadId : String) : ∀ pattern ∈ ["/admin/v1/knowledge/docs/*",
    "/admin/v1/metrics/overview", "/admin/v1/metrics/missed-queries", "/admin/v1/auth/login"],
    ¬ FieldMapper.Matches (threadEndpoint threadId) pattern := by
  have free : ∀ c ∈ "/v1/threads/".toList, decide (c ≠ '?') := List.all_eq_true.mp rfl
  intro pattern member
  apply FieldMapper.not_matches_of_start free
  · revert pattern
    decide
  · revert pattern
    decide

theorem asObject_camelValue (msg : JsonObject) :
    asObject (camelValue camelCase (.obj msg.items)) = some (camelObject camelCase msg) := by
  rw [FieldMapper.camelValue_obj, asObject, Dict.setAll_items]

/-- No rule and no adapter is for the messages of a thread: they come with their keys camel-cased. -/
theorem rawMessages_transformNested (converts : ConvertsKeys camelCase) (threadId : String)
    (history : List JsonObject) :
    rawMessages (transformNested camelCase overview missedQueries docs (historyBody threadId history)
      (threadEndpoint threadId)) = history.map (camelObject camelCase) := by
  have thread : camelCase (ascii "thread_id") = ascii "threadId" := converts "thread_id" (by decide)
  have messages : camelCase (ascii "messages") = ascii "messages" := converts "messages" (by decide)
  have distinct : ([(ascii "thread_id", Value.str (ascii threadId)),
      (ascii "messages", .arr (history.map fun msg => .obj msg.items))].map Prod.fst).Nodup := by
    show [ascii "thread_id", ascii "messages"].Nodup
    decide
  have members : (historyBody threadId history).items =
      [(ascii "thread_id", .str (ascii threadId)), (ascii "messages", .arr (history.map fun msg => .obj msg.items))] :=
    congrArg Dict.items (Dict.setAll_items ⟨_, distinct⟩)
  have found : (camelObject camelCase (historyBody threadId history)).get (ascii "messages") =
      some (.arr (history.map fun msg => camelValue camelCase (.obj msg.items))) := by
    rw [FieldMapper.get_camelObject, members]
    have other : ascii "threadId" ≠ ascii "messages" := by decide
    simp [thread, messages, other, camelValue, FieldMapper.camelItems_eq_map]
  rw [transformNested, FieldMapper.transformWith_of_unmatched _ (threadEndpoint_unmatched threadId), rawMessages, found]
  dsimp only
  rw [List.filterMap_map]
  have each : asObject ∘ (fun msg : JsonObject => camelValue camelCase (.obj msg.items)) =
      fun msg => some (camelObject camelCase msg) := funext asObject_camelValue
  rw [each, List.filterMap_eq_map']

theorem alike_camelObject (converts : ConvertsKeys camelCase) {msg msg' : JsonObject} (same : SameMembers msg msg') :
    Alike (camelObject camelCase msg) (camelObject camelCase msg') := by
  intro key other
  have state : camelCase (ascii "feedback_state") = ascii "feedbackState" := converts "feedback_state" (by decide)
  -- the state of the feedback does not become the key
  have deciding (msg : JsonObject) : (msg.items.filter fun m => camelCase m.1 = key) =
      (msg.items.filter (·.1 ≠ ascii "feedback_state")).filter fun m => camelCase m.1 = key := by
    rw [List.filter_filter]
    refine List.filter_congr fun m _ => ?_
    by_cases own : m.1 = ascii "feedback_state"
    · simp [own, state, Ne.symm other]
    · simp [own]
  rw [FieldMapper.get_camelObject, FieldMapper.get_camelObject, deciding msg, deciding msg', same]

theorem alike_history (converts : ConvertsKeys camelCase) {request : HistoryRequest}
    {messages history : List JsonObject} (sent : threadHistory request messages = some history) :
    List.Forall₂ Alike (messages.map (camelObject camelCase)) (history.map (camelObject camelCase)) := by
  rw [List.forall₂_map_left_iff, List.forall₂_map_right_iff]
  exact (threadHistory_same sent).imp fun _ _ => alike_camelObject converts

/-- The history that is loaded can be told apart exactly if the messages that the service holds can, with their keys
camel-cased. -/
theorem identified_iff_identifiable (camelCase : List CodeUnit → List CodeUnit) (converts : ConvertsKeys camelCase)
    (overview missedQueries docs : JsonObject → JsonObject) (request : HistoryRequest) (threadId : String)
    (now : JsString) (uuid : Nat → JsString) (messages : List JsonObject) {history loaded : List JsonObject}
    (fresh : Fresh uuid (messages.map (camelObject camelCase)))
    (sent : threadHistory request messages = some history)
    (load : loadThread threadId now uuid (transformNested camelCase overview missedQueries docs
      (historyBody threadId history) (threadEndpoint threadId)) = some loaded) :
    Identified (ascii threadId) loaded ↔ Identifiable (ascii threadId) (messages.map (camelObject camelCase)) := by
  have same := alike_history converts sent
  rw [loadThread, rawMessages_transformNested converts] at load
  rw [identified_serverMessages_iff (fresh_same same fresh) load, identifiable_same same]

/-- The ids that are drawn in the runs below. -/
def numberedId (n : Nat) : JsString := List.replicate (n + 1) 0x75

theorem fresh_numberedId {messages : List JsonObject}
    (others : ∀ msg ∈ messages, ∀ id, broughtId msg = some (.str id) → id.head? ≠ some 0x75) :
    Fresh numberedId messages := by
  refine ⟨fun n => List.cons_ne_nil _ _, fun i j same => ?_, fun n msg member brought => ?_⟩
  · have lengths := congrArg List.length same
    simpa [numberedId] using lengths
  · exact others msg member _ brought rfl

/-- What the chat widget submits. -/
def submitted : JsonObject := objectOf [("role", some (.str (ascii "user"))), ("content", some (.str (ascii "hi")))]

theorem submitted_not_identified :
    ¬ ∀ (camelCase : List CodeUnit → List CodeUnit) (_ : ConvertsKeys camelCase)
      (overview missedQueries docs : JsonObject → JsonObject) (request : HistoryRequest) (threadId : String)
      (now : JsString) (uuid : Nat → JsString) (messages history loaded : List JsonObject),
      Fresh uuid (messages.map (camelObject camelCase)) → threadHistory request messages = some history →
        loadThread threadId now uuid (transformNested camelCase overview missedQueries docs
          (historyBody threadId history) (threadEndpoint threadId)) = some loaded →
            Identified (ascii threadId) loaded := by
  intro claim
  have received : [submitted].map (camelObject FieldMapper.plainCamel) = [submitted] := rfl
  have fresh : Fresh numberedId ([submitted].map (camelObject FieldMapper.plainCamel)) := by
    apply fresh_numberedId
    intro msg member id brought
    obtain rfl := List.mem_singleton.mp (received ▸ member)
    cases brought
  have identified := claim FieldMapper.plainCamel FieldMapper.convertsKeys_plainCamel id id id ⟨none, none, none⟩ "t"
    [] numberedId [submitted] [submitted] [submitted] fresh rfl rfl
  obtain ⟨id, brought, -⟩ := identified.ids submitted (List.mem_singleton_self _)
  cases brought

/-- A message as another service might save it, with its id and its thread. -/
def saved (role content id : String) : JsonObject :=
  objectOf [("role", some (.str (ascii role))), ("content", some (.str (ascii content))),
    ("id", some (.str (ascii id))), ("thread_id", some (.str (ascii "t")))]

theorem identified_iff_identifiable_conversation :
    ∃ history loaded, threadHistory ⟨some "acme", some "alice", some fun _ => .str (ascii "none")⟩
        [saved "user" "hi" "m1", saved "assistant" "hello" "m2"] = some history ∧
      loadThread "t" [] numberedId (transformNested FieldMapper.plainCamel id id id (historyBody "t" history)
        (threadEndpoint "t")) = some loaded ∧ loaded.length = 2 ∧ Identified (ascii "t") loaded := by
  have fresh : Fresh numberedId ([saved "user" "hi" "m1", saved "assistant" "hello" "m2"].map
      (camelObject FieldMapper.plainCamel)) := by
    apply fresh_numberedId
    intro msg member id brought
    rcases List.mem_cons.mp member with rfl | later
    · obtain rfl := Value.str.inj (Option.some.inj brought)
      decide
    · obtain rfl := List.mem_singleton.mp later
      obtain rfl := Value.str.inj (Option.some.inj brought)
      decide
  refine ⟨_, _, rfl, rfl, rfl, ?_⟩
  refine (identified_iff_identifiable FieldMapper.plainCamel FieldMapper.convertsKeys_plainCamel id id id
    ⟨some "acme", some "alice", some fun _ => .str (ascii "none")⟩ "t" [] numberedId
    [saved "user" "hi" "m1", saved "assistant" "hello" "m2"] fresh rfl rfl).mpr ?_
  have untyped : ¬ hasType (camelObject FieldMapper.plainCamel (saved "user" "hi" "m1")) := by decide
  rw [List.map_cons, Identifiable, if_neg untyped, identified_iff_maps]
  refine ⟨?_, ?_, ?_⟩
  · intro v member
    rcases List.mem_cons.mp member with rfl | later
    · exact ⟨.str (ascii "m1"), rfl, ascii "m1", by decide, rfl⟩
    · obtain rfl := List.mem_singleton.mp later
      exact ⟨.str (ascii "m2"), rfl, ascii "m2", by decide, rfl⟩
  · rw [List.map_cons, List.map_map, List.map_singleton]
    have apart : some (Value.str (ascii "m1")) ≠ some (.str (ascii "m2")) := fun same =>
      absurd (Value.str.inj (Option.some.inj same)) (by decide)
    exact List.nodup_cons.mpr ⟨fun again => apart (List.mem_singleton.mp again), List.nodup_singleton _⟩
  · intro v member
    rcases List.mem_cons.mp member with rfl | later
    · rfl
    · obtain rfl := List.mem_singleton.mp later
      rfl

end LoadedHistory

end CuckooEcho.Frontend
