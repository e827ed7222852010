import CuckooEcho.Frontend.FieldMapper
import CuckooEcho.Lib.Run

namespace CuckooEcho.Frontend.HitlPanel
open Lib FieldMapper

/-! ## Messages on the admins' WebSocket -/

inductive Field
  | flat (value : Value)
  | nested (o : Object)

abbrev WSMessage := Dict String Field

def isType (msg : WSMessage) (name : String) : Bool :=
  match msg.get "type" with
  | some (.flat (.text type)) => type = name
  | _ => false

structure HitlRequest where
  sessionId : String
  threadId : String
  reason : String
  unresolvedTurns : Int
  deriving DecidableEq, Repr

/-- What `notify_hitl_request` broadcasts; no mapper is on the way to the panel. -/
def notifyHitlRequest (request : HitlRequest) : WSMessage :=
  ⟨[("type", .flat (.text "hitl_request")), ("session_id", .flat (.text request.sessionId)),
      ("thread_id", .flat (.text request.threadId)), ("reason", .flat (.text request.reason)),
      ("unresolved_turns", .flat (.number request.unresolvedTurns))], by simp⟩

/-- `value.name`, which throws where the value is undefined or null. -/
def read (value : Option Field) (name : String) : Option (Option Value) :=
  match value with
  | none | some (.flat .null) => none
  | some (.flat _) => some none
  | some (.nested o) => some (o.get name)

/-! ## The panel -/

/-- An undefined entry of the list is `none`. The handler works on the list and the active session of the last render.
The last three fields only record. -/
structure Panel where
  mounted : Bool := true
  hitlSessions : List (Option Field)
  captured : List (Option Field)
  activeHitlSession : Option Object := none
  messages : List (Option Field) := []
  loaded : List Object
  received : List HitlRequest := []
  thrown : Bool := false

def someSame (session : Option Field) : List (Option Field) → Option Bool
  | [] => some false
  | s :: rest => do
      let id ← read s "sessionId"
      let id' ← read session "sessionId"
      if id = id' then some true else someSame session rest

def replaceSame (session : Option Field) (sessions : List (Option Field)) : Option (List (Option Field)) :=
  sessions.mapM fun s => do
    let id ← read s "sessionId"
    let id' ← read session "sessionId"
    some (if id = id' then session else s)

def withSession (session : Option Field) (sessions : List (Option Field)) : Option (List (Option Field)) := do
  if ← someSame session sessions then replaceSame session sessions else some (sessions ++ [session])

/-- What throws is caught in `onmessage`; the notification only makes a sound. -/
def Panel.handleWsMessage (panel : Panel) (msg : WSMessage) : Panel :=
  if isType msg "hitl_request" || isType msg "hitl_update" then
    let session := msg.get "data"
    match withSession session panel.captured with
    | none => { panel with thrown := true }
    | some sessions =>
        match read session "status" with
        | none => { panel with hitlSessions := sessions, thrown := true }
        | some _ => { panel with hitlSessions := sessions }
  else if isType msg "hitl_message" then
    let message := msg.get "data"
    match panel.activeHitlSession with
    | none => panel
    | some active =>
        match read message "threadId" with
        | none => { panel with thrown := true }
        | some threadId =>
            if threadId = active.get "threadId" then { panel with messages := panel.messages ++ [message] } else panel
  else panel

inductive Act
  | load (sessions : List Object)
  | render
  | receive (request : HitlRequest)

/-- A render reads the status of every session; where that throws, the error boundary takes the panel down. -/
def step (panel : Panel) : Act → Option Panel
  | .load sessions =>
      some { panel with hitlSessions := sessions.map fun o => some (.nested o), loaded := sessions }
  | .render =>
      if panel.mounted then
        if panel.hitlSessions.all fun s => (read s "status").isSome then
          some { panel with captured := panel.hitlSessions }
        else some { panel with mounted := false }
      else none
  | .receive request =>
      if panel.mounted then
        some { panel.handleWsMessage (notifyHitlRequest request) with received := panel.received ++ [request] }
      else none

def initial (sessions : List Object) : Panel where
  hitlSessions := sessions.map fun o => some (.nested o)
  captured := sessions.map fun o => some (.nested o)
  loaded := sessions

/-! ### What the panel shows -/

def hasId (id : String) (session : Option Field) : Bool := read session "sessionId" = some (some (.text id))

structure Panel.ShowsRequests (panel : Panel) : Prop where
  neverThrew : panel.thrown = false
  shown : ∀ request ∈ panel.received, ∃ session, panel.hitlSessions.filter (hasId request.sessionId) = [session] ∧
    read session "threadId" = some (some (.text request.threadId))
  kept : ∀ o ∈ panel.loaded, (∀ request ∈ panel.received, hasId request.sessionId (some (.nested o)) = false) →
    some (.nested o) ∈ panel.hitlSessions
  nothingElse : ∀ session ∈ panel.hitlSessions, (∃ o ∈ panel.loaded, session = some (.nested o)) ∨
    ∃ request ∈ panel.received, hasId request.sessionId session

theorem showsRequests_of_loaded {panel : Panel} (calm : panel.thrown = false) (quiet : panel.received = [])
    (listed : panel.hitlSessions = panel.loaded.map fun o => some (.nested o)) : panel.ShowsRequests where
  neverThrew := calm
  shown request member := by
    rw [quiet] at member
    exact absurd member List.not_mem_nil
  kept o member _ := by
    rw [listed]
    exact List.mem_map_of_mem (f := fun o => some (Field.nested o)) member
  nothingElse session member := by
    rw [listed] at member
    obtain ⟨o, here, same⟩ := List.mem_map.mp member
    exact Or.inl ⟨o, here, same.symm⟩

/-- The message has no `data`, and nothing can be read from an undefined session. -/
theorem withSession_undefined (sessions : List (Option Field)) :
    withSession none sessions = if sessions = [] then some [none] else none := by
  cases sessions with
  | nil => rfl
  | cons s rest =>
      have throws : someSame none (s :: rest) = none := by
        rw [someSame]
        cases read s "sessionId" with
        | none => rfl
        | some id => rfl
      rw [withSession, throws]
      rfl

theorem handleWsMessage_throws (panel : Panel) (request : HitlRequest) :
    (panel.handleWsMessage (notifyHitlRequest request)).thrown = true := by
  have type : isType (notifyHitlRequest request) "hitl_request" = true := rfl
  have data : (notifyHitlRequest request).get "data" = none := rfl
  simp only [Panel.handleWsMessage, type, data, Bool.true_or, if_true, withSession_undefined]
  split
  · rfl
  · rename_i sessions _
    rfl

def Act.isReceive : Act → Bool
  | .receive _ => true
  | _ => false

/-- Every pushed hand-off throws, so the panel shows what it should as long as none is received. -/
theorem throughout_showsRequests_iff (sessions : List Object) (acts : List Act) :
    Throughout step Panel.ShowsRequests (initial sessions) acts ↔
      Along step (fun _ act => act.isReceive = false) (initial sessions) acts := by
  apply throughout_iff_along_any fun panel => panel.thrown = false ∧ panel.received = [] ∧
    panel.hitlSessions = panel.loaded.map fun o => some (.nested o)
  · rintro panel ⟨calm, quiet, listed⟩
    exact showsRequests_of_loaded calm quiet listed
  · rintro panel act panel' ⟨calm, quiet, listed⟩ other next
    cases act with
    | load sessions =>
        obtain rfl := Option.some.inj next
        exact ⟨calm, quiet, rfl⟩
    | render =>
        obtain ⟨-, next⟩ := Option.ite_none_right_eq_some.mp next
        split at next
        · obtain rfl := Option.some.inj next
          exact ⟨calm, quiet, listed⟩
        · obtain rfl := Option.some.inj next
          exact ⟨calm, quiet, listed⟩
    | receive request => cases other
  · rintro panel act panel' - next shows
    cases act with
    | receive request =>
        obtain ⟨-, rfl⟩ := Option.ite_none_right_eq_some.mp next |>.imp_right fun same => Option.some.inj same
        exact absurd shows.neverThrew (by simp [handleWsMessage_throws])
    | _ => rfl
  · exact ⟨rfl, rfl, rfl⟩

def handOff : HitlRequest where
  sessionId := "b6a0c1de-6f8d-4a53-9a1e-0d4f7c2b1a90"
  threadId := "3f2504e0-4f89-41d3-9a0c-0305e82c3301"
  reason := "user asked"
  unresolvedTurns := 3

theorem handOff_throws : ¬ ∀ (sessions : List Object) (acts : List Act),
    Throughout step Panel.ShowsRequests (initial sessions) acts := by
  intro claim
  have shows : Panel.ShowsRequests _ := (claim [] [.receive handOff]).last rfl
  exact absurd shows.neverThrew (by simp [handleWsMessage_throws])

end CuckooEcho.Frontend.HitlPanel
