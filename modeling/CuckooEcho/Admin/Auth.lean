import Mathlib.Data.List.Basic

namespace CuckooEcho.Admin

/-! ## Requests -/

structure Request where
  path : String
  headers : List (String × String) := []
  deriving DecidableEq, Repr

namespace Request
variable (request : Request)

/-- The case of a header's name does not matter. -/
def header (name : String) : Option String :=
  (request.headers.find? fun h => h.1.toLower = name.toLower).map (·.2)

def setHeader (name value : String) : Request :=
  { request with headers := (name, value) :: request.headers.filter (·.1.toLower ≠ name.toLower) }

@[simp] theorem setHeader_path (name value : String) : (request.setHeader name value).path = request.path := rfl

@[simp] theorem header_setHeader (name value : String) : (request.setHeader name value).header name = some value := by
  simp [header, setHeader]

end Request

inductive Content
  | error (text : String)
  | detail (text : String)
  | plain (text : String)
  deriving DecidableEq, Repr

structure ErrorResponse where
  statusCode : Nat
  content : Content
  deriving DecidableEq, Repr

structure TokenResponse where
  accessToken : String
  tokenType : String := "bearer"
  expiresIn : Nat := 86400
  deriving DecidableEq, Repr

/-! ## Tokens -/

structure Payload where
  adminUserId : Option String
  tenantId : Option String
  role : Option String
  exp : Nat
  iat : Nat
  deriving DecidableEq, Repr

inductive JwtError
  | expiredSignature
  | invalidToken
  deriving DecidableEq, Repr

/-- The token library, with the algorithm HS256; `decode` is told the time. -/
structure Jwt where
  encode : Payload → String → String
  decode : String → String → Nat → Except JwtError Payload

/-! ## The middleware and the routes -/

def exemptPaths : List String := ["/health", "/admin/v1/auth/login", "/docs", "/openapi.json"]

def bearer : String := "Bearer "

structure RequestState where
  tenantId : String
  adminUserId : String
  role : String
  deriving DecidableEq, Repr

def Payload.requestState (payload : Payload) : RequestState where
  tenantId := payload.tenantId.getD ""
  adminUserId := payload.adminUserId.getD ""
  role := payload.role.getD "admin"

structure AdminUser where
  id : String
  tenantId : String
  passwordHash : String
  role : String
  deriving DecidableEq, Repr

structure LoginRequest where
  email : String
  password : String
  deriving DecidableEq, Repr

structure Service where
  jwt : Jwt
  adminJwtSecret : String

namespace Service
variable (service : Service) (now : Nat)

/-- `callNext` gets what the middleware has set on the request, which is nothing on an exempt path. -/
def dispatch {α : Type*} (request : Request) (callNext : Option RequestState → Except ErrorResponse α) :
    Except ErrorResponse α :=
  if request.path ∈ exemptPaths then callNext none
  else
    let auth := (request.header "Authorization").getD ""
    if ¬ bearer.toList <+: auth.toList then .error ⟨401, .error "Missing token"⟩
    else
      match service.jwt.decode (String.ofList (auth.toList.drop 7)) service.adminJwtSecret now with
      | .ok payload => callNext (some payload.requestState)
      | .error .expiredSignature => .error ⟨401, .error "Token expired"⟩
      | .error .invalidToken => .error ⟨401, .error "Invalid token"⟩

def payload (adminUserId tenantId role : String) : Payload :=
  ⟨some adminUserId, some tenantId, some role, now + 24 * 3600, now⟩

def login (rowOf : String → Option AdminUser) (checkpw : String → String → Bool) (body : LoginRequest) :
    Except ErrorResponse TokenResponse :=
  match rowOf body.email with
  | none => .error ⟨401, .detail "Invalid credentials"⟩
  | some row =>
      if ¬ checkpw body.password row.passwordHash then .error ⟨401, .detail "Invalid credentials"⟩
      else .ok { accessToken := service.jwt.encode (payload now row.id row.tenantId row.role) service.adminJwtSecret }

/-- Without the middleware's attributes, reading them raises. -/
def refresh : Option RequestState → Except ErrorResponse TokenResponse
  | none => .error ⟨500, .plain "Internal Server Error"⟩
  | some state => .ok
      { accessToken :=
          service.jwt.encode (payload now state.adminUserId state.tenantId state.role) service.adminJwtSecret }

/-- A request to the refresh route, through the middleware. -/
def postRefresh (request : Request) : Except ErrorResponse TokenResponse :=
  service.dispatch now request (service.refresh now)

end Service

namespace Service
variable {service : Service} {now : Nat} {request : Request}

theorem dispatch_missing {α : Type*} {callNext : Option RequestState → Except ErrorResponse α}
    (guarded : request.path ∉ exemptPaths) (missing : request.header "Authorization" = none) :
    service.dispatch now request callNext = .error ⟨401, .error "Missing token"⟩ := by
  rw [dispatch, if_neg guarded, missing]
  rfl

theorem dispatch_bearer {α : Type*} {callNext : Option RequestState → Except ErrorResponse α} {token : String}
    {payload : Payload} (guarded : request.path ∉ exemptPaths)
    (sent : request.header "Authorization" = some (bearer ++ token))
    (valid : service.jwt.decode token service.adminJwtSecret now = .ok payload) :
    service.dispatch now request callNext = callNext (some payload.requestState) := by
  have auth : (bearer ++ token).toList = bearer.toList ++ token.toList := String.toList_append
  have named : bearer.toList <+: (bearer ++ token).toList := auth ▸ List.prefix_append _ _
  have rest : String.ofList ((bearer ++ token).toList.drop 7) = token := by
    rw [auth]
    exact String.ofList_toList
  rw [dispatch, if_neg guarded, sent]
  dsimp only [Option.getD_some]
  rw [if_neg (not_not.mpr named), rest, valid]

/-- What `login` and `refresh` issue at a time. -/
def issued (service : Service) (now : Nat) (admin tenant role : String) : String :=
  service.jwt.encode (payload now admin tenant role) service.adminJwtSecret

theorem login_issued {rowOf : String → Option AdminUser} {checkpw : String → String → Bool} {body : LoginRequest}
    {res : TokenResponse} (ok : service.login now rowOf checkpw body = .ok res) :
    ∃ row, rowOf body.email = some row ∧ res.accessToken = service.issued now row.id row.tenantId row.role := by
  unfold login at ok
  split at ok
  · cases ok
  · rename_i row found
    split at ok
    · cases ok
    · exact ⟨row, found, Except.ok.inj ok ▸ rfl⟩

end Service

end CuckooEcho.Admin
