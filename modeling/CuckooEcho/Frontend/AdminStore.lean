import CuckooEcho.Feedback.Submission
import CuckooEcho.Frontend.FieldMapper
import CuckooEcho.Hitl.Sessions

namespace CuckooEcho.Frontend.AdminStore
open Lib FieldMapper Feedback

/-! ## Sessions in the admin store -/

structure HitlStore where
  hitlSessions : List Object
  activeHitlSession : Option Object

def hasId (sessionId : String) (session : Object) : Bool := session.get "sessionId" = some (.text sessionId)

/-- The store after the answer of the service, `none` when the request failed. -/
def takeHitlSession (store : HitlStore) (sessionId : String) (answer : Option Object) : Option HitlStore :=
  answer.map fun data =>
    { activeHitlSession := some data
      hitlSessions := store.hitlSessions.map fun sess => if hasId sessionId sess then data else sess }

def endHitlSession (store : HitlStore) (sessionId : String) : HitlStore where
  activeHitlSession := store.activeHitlSession.filter fun session => !hasId sessionId session
  hitlSessions := store.hitlSessions.map fun sess =>
    if hasId sessionId sess then sess.set "status" (.text "resolved") else sess

def takeEndpoint (sessionId : String) : String := "/admin/v1/hitl/" ++ sessionId ++ "/take"

/-- The response of `take_session`, with the id that it was called with. -/
def takeResponse (sessionId : String) (response : Hitl.SessionResponse) : Object :=
  ⟨[("session_id", .text sessionId), ("thread_id", .text (uuidText response.threadId)),
      ("status", .text response.status.text)], by simp⟩

section
variable (camelCase : String → String) (overview missedQueries : Object → Object)
  (uuid : String → Option Hitl.Uuid) (rls : Bool) (db : Hitl.Db) (tenantId adminUserId : Hitl.Uuid)

/-- What the client gets from the service; an id that is no UUID makes the statement raise. -/
def take (sessionId : String) : Option Object :=
  match uuid sessionId with
  | none => none
  | some id =>
      match Hitl.takeSession rls db id tenantId adminUserId with
      | .error _ => none
      | .ok (_, response) =>
          some (transformObject camelCase overview missedQueries (takeResponse sessionId response)
            (takeEndpoint sessionId))

def pendingRow (sessionId : String) : Option Hitl.SessionRow :=
  (uuid sessionId).bind fun id =>
    (db.selectSession (Hitl.tenantDbContext rls tenantId) id).filter (·.status = .pending)

end

/-! ### The answer -/

variable {camelCase : String → String} {overview missedQueries : Object → Object}
  {uuid : String → Option Hitl.Uuid} {rls : Bool} {db : Hitl.Db} {tenantId adminUserId : Hitl.Uuid}

theorem takeEndpoint_unmatched (sessionId : String) : ∀ pattern ∈ ["/admin/v1/knowledge/docs/*",
    "/admin/v1/metrics/overview", "/admin/v1/metrics/missed-queries", "/admin/v1/auth/login"],
    ¬ Matches (takeEndpoint sessionId) pattern := by
  have free : ∀ c ∈ "/admin/v1/hitl/".toList, decide (c ≠ '?') := List.all_eq_true.mp rfl
  intro pattern member
  rw [takeEndpoint, String.append_assoc]
  apply not_matches_of_start free
  · revert pattern
    decide
  · revert pattern
    decide

theorem transformObject_takeEndpoint (data : Object) (sessionId : String) :
    transformObject camelCase overview missedQueries data (takeEndpoint sessionId) = toCamelCase camelCase data :=
  transformWith_of_unmatched data (takeEndpoint_unmatched sessionId)

/-- The session as the store gets it from the service. -/
def answered (sessionId : String) (row : Hitl.SessionRow) : Object :=
  ⟨[("sessionId", .text sessionId), ("threadId", .text (uuidText row.threadId)), ("status", .text "active")], by simp⟩

theorem toCamelCase_takeResponse (converts : ConvertsSnake camelCase) (sessionId : String) (row : Hitl.SessionRow)
    (id : Hitl.Uuid) : toCamelCase camelCase (takeResponse sessionId ⟨id, row.threadId, .active⟩) =
      answered sessionId row := by
  have camel (key name : String) (snake : isSnake key) (same : ofSnake key = name) : camelCase key = name :=
    (converts key snake).trans same
  simp [toCamelCase, takeResponse, answered, camel "session_id" "sessionId" (by decide) (by decide),
    camel "thread_id" "threadId" (by decide) (by decide), camel "status" "status" (by decide) (by decide),
    Dict.setAll, Dict.set, Dict.keys, Dict.empty, Hitl.SessionStatus.text]

theorem take_eq (converts : ConvertsSnake camelCase) (sessionId : String) :
    take camelCase overview missedQueries uuid rls db tenantId adminUserId sessionId =
      (pendingRow uuid rls db tenantId sessionId).map (answered sessionId) := by
  unfold take pendingRow
  cases uuid sessionId with
  | none => rfl
  | some id =>
      rw [Option.bind_some]
      unfold Hitl.takeSession
      cases selected : db.selectSession (Hitl.tenantDbContext rls tenantId) id with
      | none => simp [selected]
      | some row =>
          by_cases pending : row.status = .pending
          · simp [selected, pending, transformObject_takeEndpoint, toCamelCase_takeResponse converts]
          · simp [selected, pending]

/-! ### What taking a session changes -/

/-- The other sessions are the same objects, the one with the id keeps every field but two. -/
structure OnlyStatusChanged (sessionId : String) (before after : Object) : Prop where
  other : hasId sessionId before = false → after = before
  fields : ∀ field, field ≠ "status" → field ≠ "adminUserId" → after.get field = before.get field

/-- The session has no field that the answer lacks. -/
structure Answerable (row : Hitl.SessionRow) (session : Object) : Prop where
  thread : session.get "threadId" = some (.text (uuidText row.threadId))
  nothingElse : ∀ field ∉ ["sessionId", "threadId", "status", "adminUserId"], session.get field = none

theorem get_answered (sessionId : String) (row : Hitl.SessionRow) (field : String) :
    (answered sessionId row).get field =
      if field = "sessionId" then some (.text sessionId)
      else if field = "threadId" then some (.text (uuidText row.threadId))
      else if field = "status" then some (.text "active") else none := by
  by_cases first : field = "sessionId"
  · rw [first]
    rfl
  by_cases second : field = "threadId"
  · rw [second]
    rfl
  by_cases third : field = "status"
  · rw [third]
    rfl
  simp [answered, Dict.get, List.find?, first, second, third, Ne.symm first, Ne.symm second, Ne.symm third]

theorem onlyStatusChanged_answered {sessionId : String} {row : Hitl.SessionRow} {session : Object}
    (same : hasId sessionId session) :
    OnlyStatusChanged sessionId session (answered sessionId row) ↔ Answerable row session := by
  constructor
  · intro changed
    refine ⟨?_, ?_⟩
    · rw [← changed.fields "threadId" (by decide) (by decide), get_answered]
      rfl
    · intro field rest
      obtain ⟨first, second, third, fourth⟩ : field ≠ "sessionId" ∧ field ≠ "threadId" ∧ field ≠ "status" ∧
          field ≠ "adminUserId" := by simpa using rest
      rw [← changed.fields field third fourth, get_answered, if_neg first, if_neg second, if_neg third]
  · intro bare
    refine ⟨fun different => absurd same (by simp [different]), ?_⟩
    intro field third fourth
    rw [get_answered]
    split
    · rename_i here
      rw [here]
      exact (of_decide_eq_true same).symm
    split
    · rename_i here
      rw [here]
      exact bare.thread.symm
    rename_i first second
    exact (bare.nothingElse field (by simp [first, second, third, fourth])).symm

theorem onlyStatusChanged_refl (sessionId : String) (session : Object) : OnlyStatusChanged sessionId session session :=
  ⟨fun _ => rfl, fun _ _ _ => rfl⟩

theorem endHitlSession_onlyStatusChanged (store : HitlStore) (sessionId : String) :
    List.Forall₂ (OnlyStatusChanged sessionId) store.hitlSessions (endHitlSession store sessionId).hitlSessions := by
  rw [endHitlSession, List.forall₂_map_right_iff, List.forall₂_same]
  intro session _
  cases same : hasId sessionId session with
  | false => exact onlyStatusChanged_refl sessionId session
  | true =>
      refine ⟨fun different => absurd same (by simp [different]), ?_⟩
      intro field status _
      rw [if_pos rfl, Dict.get_set, if_neg status]

/-- Taking a session replaces it by the answer, which has three fields. -/
theorem takeHitlSession_onlyStatusChanged_iff (converts : ConvertsSnake camelCase) (store : HitlStore)
    (sessionId : String) :
    (∀ after, takeHitlSession store sessionId
        (take camelCase overview missedQueries uuid rls db tenantId adminUserId sessionId) = some after →
      List.Forall₂ (OnlyStatusChanged sessionId) store.hitlSessions after.hitlSessions) ↔
    ∀ row, pendingRow uuid rls db tenantId sessionId = some row →
      ∀ session ∈ store.hitlSessions, hasId sessionId session → Answerable row session := by
  rw [take_eq converts]
  cases pendingRow uuid rls db tenantId sessionId with
  | none => simp [takeHitlSession]
  | some row =>
      simp only [takeHitlSession, Option.map_some, Option.some.injEq, forall_eq', List.forall₂_map_right_iff,
        List.forall₂_same]
      apply forall₂_congr
      intro session _
      cases same : hasId sessionId session with
      | false => simp [onlyStatusChanged_refl]
      | true => simpa using onlyStatusChanged_answered same

/-! ### A session that is waiting -/

def threadRow : Hitl.SessionRow where
  tenantId := 7
  threadId := 11
  adminUserId := none
  endedAt := none
  status := .pending

def waitingDb : Hitl.Db where
  now := 0
  threads := fun _ => none
  sessions := fun id => if id = 5 then some threadRow else none
  tasks := []
  tickets := []

def sessionText : String := uuidText 5

/-- As the service lists it, and with the reason of the hand-off. -/
def waiting : Object :=
  ⟨[("sessionId", .text sessionText), ("threadId", .text (uuidText 11)), ("status", .text "pending"),
      ("adminUserId", .null), ("createdAt", .text "2025-01-01T00:00:00"), ("reason", .text "user asked"),
      ("unresolvedTurns", .number 3)], by simp⟩

theorem takeHitlSession_onlyStatusChanged_iff_waiting :
    (∀ after, takeHitlSession ⟨[waiting], none⟩ sessionText
        (take ofSnake id id hexUuid true waitingDb 7 1 sessionText) = some after →
      List.Forall₂ (OnlyStatusChanged sessionText) [waiting] after.hitlSessions) ↔
    ∀ row, pendingRow hexUuid true waitingDb 7 sessionText = some row →
      ∀ session ∈ [waiting], hasId sessionText session → Answerable row session :=
  takeHitlSession_onlyStatusChanged_iff (fun _ _ => rfl) ⟨[waiting], none⟩ sessionText

theorem pendingRow_waiting : pendingRow hexUuid true waitingDb 7 sessionText = some threadRow := by
  have named : hexUuid sessionText = some 5 := hexUuid_uuidText 5 (by decide)
  rw [pendingRow, named]
  decide

/-- The reason is gone once the session has been taken. -/
theorem taken_without_reason :
    ¬ ∀ (camelCase : String → String) (overview missedQueries : Object → Object) (uuid : String → Option Hitl.Uuid)
      (rls : Bool) (db : Hitl.Db) (tenantId adminUserId : Hitl.Uuid) (store after : HitlStore) (sessionId : String),
      ConvertsSnake camelCase →
      takeHitlSession store sessionId
        (take camelCase overview missedQueries uuid rls db tenantId adminUserId sessionId) = some after →
      List.Forall₂ (OnlyStatusChanged sessionId) store.hitlSessions after.hitlSessions := by
  intro claim
  have taken : takeHitlSession ⟨[waiting], none⟩ sessionText
      (take ofSnake id id hexUuid true waitingDb 7 1 sessionText) =
        some ⟨[answered sessionText threadRow], some (answered sessionText threadRow)⟩ := by
    have same : hasId sessionText waiting := decide_eq_true rfl
    rw [take_eq (fun _ _ => rfl), pendingRow_waiting]
    simp [takeHitlSession, same]
  have changed := claim ofSnake id id hexUuid true waitingDb 7 1 _ _ sessionText (fun _ _ => rfl) taken
  have reason := (List.forall₂_cons.mp changed).1.fields "reason" (by decide) (by decide)
  rw [get_answered] at reason
  cases reason

end CuckooEcho.Frontend.AdminStore
