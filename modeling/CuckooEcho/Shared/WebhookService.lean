import CuckooEcho.Lib.Dict
import CuckooEcho.Lib.Run
import Mathlib.Data.List.Perm.Basic

namespace CuckooEcho.Shared.Webhooks
open Lib

structure WebhookConfig where
  id : String
  tenantId : String
  url : String
  secretKey : String
  eventTypes : List String
  enabled : Bool := true
  deriving DecidableEq, Repr

inductive DeliveryStatus
  | pending | success | failed
  deriving DecidableEq, Repr

structure WebhookDelivery (Payload : Type*) where
  id : String
  webhookId : String
  eventType : String
  payload : Payload
  status : DeliveryStatus := .pending
  attempts : Nat := 0
  lastAttemptAt : Option String := none
  error : Option String := none
  responseCode : Option Nat := none
  createdAt : String

structure ValidationError where
  loc : List String
  message : String
  deriving DecidableEq, Repr

/-- The answer to a request: a status, or the text of an exception. -/
abbrev Response := Except String Nat

def succeeded : Response → Bool
  | .ok status => status < 400
  | .error _ => false

section
variable {Payload : Type*}

/-- The model's constructor checks that every field without a default is there. -/
def WebhookDelivery.validate (id webhookId eventType : String) (payload : Payload) :
    Option String → Except ValidationError (WebhookDelivery Payload)
  | some createdAt => .ok { id, webhookId, eventType, payload, createdAt }
  | none => .error ⟨["created_at"], "Field required"⟩

/-- What a response writes. -/
def WebhookDelivery.answered (d : WebhookDelivery Payload) : Response → WebhookDelivery Payload
  | .ok status => { d with responseCode := some status, status := if status < 400 then .success else .failed }
  | .error text => { d with status := .failed, error := some text }

structure Post where
  url : String
  body : String
  contentType : String
  signature : String
  eventType : String
  deriving DecidableEq, Repr

/-- A delivery with its number and what it has been answered. -/
structure Tracked (Payload : Type*) where
  number : Nat
  delivery : WebhookDelivery Payload
  exchanges : List (Post × Response) := []

def Tracked.exchanged (t : Tracked Payload) (now : String) (sent : Post) (response : Response) : Tracked Payload :=
  let answered := t.delivery.answered response
  { t with
    delivery := { answered with attempts := answered.attempts + 1, lastAttemptAt := some now }
    exchanges := t.exchanges ++ [(sent, response)] }

/-- A call of `emit_event`: the webhooks that it concerns, those for which it has queued a delivery, and the error
that it has raised. -/
structure Emitted where
  matching : List String
  queued : List String
  raised : Option ValidationError
  deriving DecidableEq, Repr

structure WebhookService (Payload : Type*) where
  webhooks : Dict String WebhookConfig
  deleted : List String := []
  queue : List (Tracked Payload) := []
  retrying : List (Tracked Payload) := []
  queued : Nat := 0
  events : List Emitted := []
  dropped : List (Tracked Payload) := []
  persisted : List (Tracked Payload) := []

/-- What the service is given: the text of JSON, and a signature of a text under a secret. -/
structure Wire (Payload : Type*) where
  dumps : Payload → String
  hexdigest : String → String → String

namespace WebhookService

def initial (webhooks : List WebhookConfig) : WebhookService Payload :=
  { webhooks := Dict.empty.setAll (webhooks.map fun w => (w.id, w)) }

variable (m : WebhookService Payload)

def createWebhook (now tenantId url secretKey : String) (eventTypes : List String) : WebhookService Payload :=
  let webhook : WebhookConfig := { id := "wh_" ++ now, tenantId, url, secretKey, eventTypes }
  { m with webhooks := m.webhooks.set webhook.id webhook }

def deleteWebhook (webhookId : String) : WebhookService Payload × Bool :=
  if webhookId ∈ m.webhooks.keys then
    ({ m with webhooks := m.webhooks.erase webhookId, deleted := webhookId :: m.deleted }, true)
  else (m, false)

def listWebhooks (tenantId : String) : List WebhookConfig := m.webhooks.values.filter (·.tenantId = tenantId)

/-- The webhooks that `emit_event` makes deliveries for. -/
def matching (tenantId eventType : String) : List WebhookConfig :=
  (m.listWebhooks tenantId).filter fun w => w.enabled ∧ eventType ∈ w.eventTypes

section
-- What is passed as `created_at`
variable (createdAt : Option String)

def queueDelivery (now eventType : String) (payload : Payload) (webhook : WebhookConfig) :
    Except ValidationError (WebhookService Payload) :=
  (WebhookDelivery.validate ("del_" ++ now) webhook.id eventType payload createdAt).map fun delivery =>
    { m with queue := m.queue ++ [{ number := m.queued, delivery }], queued := m.queued + 1 }

/-- The loop over the webhooks ends with the first error. -/
def queueDeliveries (now eventType : String) (payload : Payload) :
    WebhookService Payload → List WebhookConfig → WebhookService Payload × List String × Option ValidationError
  | m, [] => (m, [], none)
  | m, webhook :: webhooks =>
      match m.queueDelivery createdAt now eventType payload webhook with
      | .ok m =>
          let (m, queued, raised) := queueDeliveries now eventType payload m webhooks
          (m, webhook.id :: queued, raised)
      | .error e => (m, [], some e)

def emitEvent (now tenantId eventType : String) (payload : Payload) : WebhookService Payload :=
  let matching := m.matching tenantId eventType
  let (m, queued, raised) := queueDeliveries createdAt now eventType payload m matching
  { m with events := ⟨matching.map (·.id), queued, raised⟩ :: m.events }

end

variable (wire : Wire Payload)

def post (webhook : WebhookConfig) (d : WebhookDelivery Payload) : Post :=
  let payloadJson := wire.dumps d.payload
  { url := webhook.url
    body := payloadJson
    contentType := "application/json"
    signature := wire.hexdigest webhook.secretKey payloadJson
    eventType := d.eventType }

def executeDelivery (now : String) (response : Response) (t : Tracked Payload) : WebhookService Payload :=
  match m.webhooks.get t.delivery.webhookId with
  | none => { m with dropped := t :: m.dropped }
  | some webhook =>
      let t := t.exchanged now (post wire webhook t.delivery) response
      if t.delivery.status = .failed ∧ t.delivery.attempts < 3 then { m with retrying := m.retrying ++ [t] }
      else { m with persisted := t :: m.persisted }

/-- A delivery that is to be retried is back in the queue after the sleep, in which others may run. -/
def retryDelivery (i : Nat) : Option (WebhookService Payload) :=
  m.retrying[i]?.map fun t => { m with queue := m.queue ++ [t], retrying := m.retrying.eraseIdx i }

/-- One round of the loop of `deliver_pending`, which goes on as long as the queue is not empty. -/
def deliverPending (now : String) (response : Response) : Option (WebhookService Payload) :=
  match m.queue with
  | [] => none
  | t :: queue => some ({ m with queue }.executeDelivery wire now response t)

end WebhookService

inductive Act (Payload : Type*)
  | create (now tenantId url secretKey : String) (eventTypes : List String)
  | delete (webhookId : String)
  | emit (now tenantId eventType : String) (payload : Payload)
  | deliver (now : String) (response : Response)
  | retry (i : Nat)

def stepWith (createdAt : Option String) (wire : Wire Payload) (m : WebhookService Payload) :
    Act Payload → Option (WebhookService Payload)
  | .create now tenantId url secretKey eventTypes => some (m.createWebhook now tenantId url secretKey eventTypes)
  | .delete webhookId => some (m.deleteWebhook webhookId).1
  | .emit now tenantId eventType payload => some (m.emitEvent createdAt now tenantId eventType payload)
  | .deliver now response => m.deliverPending wire now response
  | .retry i => m.retryDelivery i

/-- The code passes no `created_at`. -/
def step (wire : Wire Payload) (m : WebhookService Payload) (act : Act Payload) : Option (WebhookService Payload) :=
  stepWith none wire m act

end

end CuckooEcho.Shared.Webhooks
