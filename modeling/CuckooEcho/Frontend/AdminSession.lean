import CuckooEcho.Admin.Auth
import CuckooEcho.Frontend.AuthStore

namespace CuckooEcho.Frontend
open Admin

/-! ## Refreshing the token of a logged-in admin -/

/-- What the client posts: it asks for the cookies to be sent, and sets no header. -/
def refreshRequest : Request := { path := "/admin/v1/auth/refresh" }

/-- The request interceptor of `apiClient`, which the refresh does not go through. -/
def injectToken (accessToken : Option String) (request : Request) : Request :=
  match accessToken with
  | none => request
  | some token => if token = "" then request else request.setHeader "Authorization" ("Bearer " ++ token)

/-- A response with an error status is rejected, and leads to the `catch`. -/
def replyOf : Except ErrorResponse TokenResponse → Option String
  | .ok res => some res.accessToken
  | .error _ => none

section
variable {υ : Type*} (service : Service) (now : Nat) (userOf : String → Option υ) (request : Request) (m : Page υ)

/-- One call of `refreshTokenWithMutex`, up to the arrival of the response that it waits for, and what it returns. -/
def Page.refresh : Page υ × Option String :=
  let waiting := m.refreshTokenWithMutex
  let reply := replyOf (service.postRefresh now request)
  (waiting.refreshed userOf (waiting.refreshPromise.getD 0) reply, reply)

structure Page.RefreshSucceeds : Prop where
  accepted : ∃ res, service.postRefresh now request = .ok res ∧
    (m.refresh service now userOf request).2 = some res.accessToken ∧
      (m.refresh service now userOf request).1.store = holding userOf res.accessToken
  stays : (m.refresh service now userOf request).1.logouts = m.logouts

end

section
variable {υ : Type*} {service : Service} {now : Nat} {userOf : String → Option υ} {m : Page υ}

theorem refreshRequest_guarded : refreshRequest.path ∉ exemptPaths := by decide

theorem postRefresh_refreshRequest :
    service.postRefresh now refreshRequest = .error ⟨401, .error "Missing token"⟩ :=
  Service.dispatch_missing refreshRequest_guarded rfl

theorem refresh_logsOut :
    (m.refresh service now userOf refreshRequest).1.store.LoggedOut ∧
      (m.refresh service now userOf refreshRequest).2 = none := by
  unfold Page.refresh
  rw [postRefresh_refreshRequest]
  exact ⟨⟨rfl, rfl⟩, rfl⟩

theorem refreshTokenWithMutex_logouts : m.refreshTokenWithMutex.logouts = m.logouts := by
  unfold Page.refreshTokenWithMutex
  split <;> rfl

theorem refreshSucceeds_of_accepted {request : Request} {res : TokenResponse}
    (accepted : service.postRefresh now request = .ok res) : m.RefreshSucceeds service now userOf request := by
  have reply : replyOf (service.postRefresh now request) = some res.accessToken := accepted ▸ rfl
  constructor
  · refine ⟨res, accepted, reply, ?_⟩
    unfold Page.refresh
    rw [reply]
    rfl
  · unfold Page.refresh
    rw [reply]
    exact refreshTokenWithMutex_logouts

/-- Had the request gone through `apiClient`, the refresh would succeed. -/
theorem refreshSucceeds_of_injected {token : String} {payload : Payload} (held : m.store.accessToken = some token)
    (nonempty : token ≠ "") (valid : service.jwt.decode token service.adminJwtSecret now = .ok payload) :
    m.RefreshSucceeds service now userOf (injectToken m.store.accessToken refreshRequest) := by
  have sent : injectToken m.store.accessToken refreshRequest =
      refreshRequest.setHeader "Authorization" (bearer ++ token) := by
    rw [held]
    exact if_neg nonempty
  rw [sent]
  exact refreshSucceeds_of_accepted
    (Service.dispatch_bearer refreshRequest_guarded (Request.header_setHeader ..) valid)

end

/-- No refresh succeeds: its request carries no token, and the rejection logs the admin out. -/
theorem refresh_fails {υ : Type*} (service : Service) (now : Nat) (userOf : String → Option υ) (m : Page υ) :
    ¬ m.RefreshSucceeds service now userOf refreshRequest := by
  rintro ⟨⟨res, accepted, -, -⟩, -⟩
  cases postRefresh_refreshRequest.symm.trans accepted

/-- Knows one token, which is valid for a day. -/
def sampleJwt : Jwt where
  encode payload _ := if payload.iat = 0 then "token-1" else "token-2"
  decode token _ now :=
    if token = "token-1" ∧ now < 86400 then .ok (Service.payload 0 "admin-1" "tenant-1" "admin")
    else .error .invalidToken

theorem sampleRefresh_fails :
    ¬ ∀ (service : Service) (now : Nat) (userOf : String → Option String) (m : Page String) (token : String)
      (payload : Payload), m.store.accessToken = some token →
        service.jwt.decode token service.adminJwtSecret now = .ok payload →
          m.RefreshSucceeds service now userOf refreshRequest := by
  intro claim
  obtain ⟨⟨res, accepted, -, -⟩, -⟩ := claim ⟨sampleJwt, "secret"⟩ 3600 (fun _ => none)
    (.initial ⟨some "token-1", none, true⟩) "token-1" (Service.payload 0 "admin-1" "tenant-1" "admin") rfl rfl
  cases postRefresh_refreshRequest.symm.trans accepted

end CuckooEcho.Frontend
