import CuckooEcho.Admin.Auth
import CuckooEcho.Frontend.AuthStore
import CuckooEcho.Frontend.SseClient
import CuckooEcho.Lib.Base64
import CuckooEcho.Lib.Json.Compact
import CuckooEcho.Lib.Substitution
import Mathlib.Algebra.Order.Field.Rat

namespace CuckooEcho.Frontend
open Lib Json Base64
open Substitution (split_append free_of_not_mem)

/-! ## The token as PyJWT writes it -/

def asciiBytes (text : List Char) : List UInt8 := text.map fun c => .ofNat c.toNat

/-- A claim that is absent is not written; a time is written in whole seconds. -/
def claims (payload : Admin.Payload) : List (String × Scalar) :=
  (payload.adminUserId.toList.map fun id => ("admin_user_id", .str id)) ++
    (payload.tenantId.toList.map fun id => ("tenant_id", .str id)) ++
    (payload.role.toList.map fun role => ("role", .str role)) ++ [("exp", .nat payload.exp), ("iat", .nat payload.iat)]

/-- The token library, whatever its header and its signatures are. -/
def pyJwt (header : List UInt8) (hs256 : String → List Char → List UInt8)
    (decode : String → String → Nat → Except Admin.JwtError Admin.Payload) : Admin.Jwt where
  encode payload secret :=
    let signed := urlsafeEncode header ++ ['.'] ++ urlsafeEncode (asciiBytes (compactObject (claims payload)))
    String.ofList (signed ++ ['.'] ++ urlsafeEncode (hs256 secret signed))
  decode := decode

/-! ## The payload as the auth store reads it -/

/-- `none` where the function returns null. -/
def decodeJwtPayload (token : String) : Option Value :=
  match Text.split ['.'] token.toList with
  | [_, part, _] => (atob (part.map toStandard)).bind parse
  | _ => none

structure AdminUser where
  id : Option Value
  email : Option Value
  tenantId : Option Value
  tenantName : Option Value
  role : Option Value

/-- `v ?? other` -/
def orElse (v other : Option Value) : Option Value := (defined v).orElse fun _ => other

def userFromPayload (payload : Value) : AdminUser :=
  let id := orElse (orElse (prop "admin_user_id" payload) (prop "sub" payload)) (some (.str []))
  { id
    email := orElse (prop "email" payload) id
    tenantId := prop "tenant_id" payload
    tenantName := orElse (prop "tenant_name" payload) (prop "tenant_id" payload)
    role := prop "role" payload }

/-! ### Numbers -/

def signed : List Char → ℤ
  | '-' :: ds => -Nat.ofDigitChars 10 ds 0
  | '+' :: ds => Nat.ofDigitChars 10 ds 0
  | ds => Nat.ofDigitChars 10 ds 0

/-- The number that a numeral stands for. A time is far below 2^53 milliseconds, so what is computed here with the
seconds of one is exact. -/
def numeral (text : List Char) : ℚ :=
  let mantissa := text.takeWhile fun c => c ≠ 'e' ∧ c ≠ 'E'
  let whole := mantissa.takeWhile (· ≠ '.')
  let part := mantissa.drop (whole.length + 1)
  signed (whole ++ part) * 10 ^ (signed (text.drop (mantissa.length + 1)) - part.length)

def truthy : Value → Bool
  | .null => false
  | .bool b => b
  | .num text => numeral text ≠ 0
  | .str s => s ≠ []
  | .arr _ | .obj _ => true

/-! ### What the store does with it -/

section
variable (coerce : Value → Option ℚ)

/-- The operand of an arithmetic operator, `none` for `NaN`. `coerce` is what becomes of a value other than a number. -/
def toNumber : Option Value → Option ℚ
  | none => none
  | some (.num text) => some (numeral text)
  | some v => coerce v

/-- `payload.exp * 1000 - Date.now() < limit`, and true where there is no payload. -/
def expiresWithin (limit : ℚ) (token : String) (clock : ℤ) : Bool :=
  match decodeJwtPayload token with
  | none => true
  | some payload =>
      if truthy payload then
        match toNumber coerce (prop "exp" payload) with
        | none => false
        | some exp => exp * 1000 - clock < limit
      else true

def isTokenExpired (token : String) (clock : ℤ) : Bool := expiresWithin coerce 60000 token clock

def userOf (token : String) : Option AdminUser :=
  (decodeJwtPayload token).bind fun payload => if truthy payload then some (userFromPayload payload) else none

structure LoginData where
  accessToken : Option String := none
  access_token : Option String := none

def LoginData.token (data : LoginData) : String := (data.accessToken.orElse fun _ => data.access_token).getD ""

namespace AuthState

def login (data : LoginData) : AuthState AdminUser := holding userOf data.token

def setAccessToken (token : String) : AuthState AdminUser := holding userOf token

def checkTokenExpiry (store : AuthState AdminUser) (clock : ℤ) : Bool :=
  match store.accessToken with
  | none => true
  | some token => if token = "" then true else expiresWithin coerce (60 * 60 * 1000) token clock

end AuthState

end

/-! ## What is written is read back -/

theorem map_byteChar_asciiBytes {text : List Char} (ascii : Ascii text) :
    (asciiBytes text).map byteChar = text := by
  rw [asciiBytes, List.map_map]
  refine (List.map_congr_left fun c member => ?_).trans (List.map_id text)
  have small : c.toNat < 0x80 := ascii c member
  have byte : (UInt8.ofNat c.toNat).toNat = c.toNat := by
    rw [UInt8.toNat_ofNat', Nat.mod_eq_of_lt (by omega)]
  rw [Function.comp_apply, byteChar, byte, Char.ofNat_toNat, id_eq]

theorem decodeJwtPayload_encode (header : List UInt8) (hs256 : String → List Char → List UInt8)
    (decode : String → String → Nat → Except Admin.JwtError Admin.Payload) (payload : Admin.Payload)
    (secret : String) :
    decodeJwtPayload ((pyJwt header hs256 decode).encode payload secret) =
      some (.obj ((claims payload).map memberValue)) := by
  have dotFree (bytes : List UInt8) : Substitution.Free ['.'] (urlsafeEncode bytes) :=
    free_of_not_mem (dot_not_mem_urlsafeEncode bytes)
  have three (first second third : List UInt8) :
      Text.split ['.'] (urlsafeEncode first ++ ['.'] ++ urlsafeEncode second ++ (['.'] ++ urlsafeEncode third)) =
        [urlsafeEncode first, urlsafeEncode second, urlsafeEncode third] := by
    rw [List.append_assoc, List.append_assoc, split_append (List.cons_ne_nil _ _) (dotFree first),
      split_append (List.cons_ne_nil _ _) (dotFree second),
      Text.split_of_not_mem (List.mem_singleton_self '.') (dot_not_mem_urlsafeEncode third)]
  have ascii : Ascii (compactObject (claims payload)) := compactObject_ascii _
  rw [decodeJwtPayload, pyJwt]
  dsimp only
  rw [String.toList_ofList, List.append_assoc _ ['.'] _, three]
  dsimp only
  rw [atob_urlsafeEncode, map_byteChar_asciiBytes ascii, Option.bind_some, parse_compactObject]

theorem encode_ne_empty (header : List UInt8) (hs256 : String → List Char → List UInt8)
    (decode : String → String → Nat → Except Admin.JwtError Admin.Payload) (payload : Admin.Payload)
    (secret : String) : (pyJwt header hs256 decode).encode payload secret ≠ "" := by
  intro empty
  have := congrArg String.toList empty
  simp [pyJwt] at this

theorem member_memberValue (key : String) (ms : List (String × Scalar)) :
    (Value.obj (ms.map memberValue)).member key = (ms.reverse.find? fun m => m.1 = key).map fun m => m.2.value := by
  have same (m : String × Scalar) : ((memberValue m).1 = units key.toList) ↔ m.1 = key := by
    rw [memberValue, units_injective.eq_iff, String.toList_inj]
  rw [Value.member, ← List.map_reverse, List.find?_map, Option.map_map]
  simp only [Function.comp_def, same]
  rfl

theorem signed_toDigits (n : Nat) : signed (Nat.toDigits 10 n) = n := by
  have unlike (c : Char) (noDigit : c.isDigit = false) (rest : List Char) : Nat.toDigits 10 n ≠ c :: rest :=
    fun same => ne_of_mem_toDigits (same ▸ List.mem_cons_self) noDigit rfl
  have plain : signed (Nat.toDigits 10 n) = Nat.ofDigitChars 10 (Nat.toDigits 10 n) 0 := by
    unfold signed
    split
    · exact absurd ‹_› (unlike '-' rfl _)
    · exact absurd ‹_› (unlike '+' rfl _)
    · rfl
  rw [plain, Nat.ofDigitChars_ten_toDigits]

theorem numeral_toDigits (n : Nat) : numeral (Nat.toDigits 10 n) = n := by
  have other (c : Char) (noDigit : c.isDigit = false) : ∀ d ∈ Nat.toDigits 10 n, d ≠ c :=
    fun _ member => ne_of_mem_toDigits member noDigit
  have mantissa : (Nat.toDigits 10 n).takeWhile (fun c => c ≠ 'e' ∧ c ≠ 'E') = Nat.toDigits 10 n := by
    refine List.takeWhile_eq_self_iff.mpr fun d member => decide_eq_true ?_
    exact ⟨other 'e' rfl d member, other 'E' rfl d member⟩
  have whole : (Nat.toDigits 10 n).takeWhile (· ≠ '.') = Nat.toDigits 10 n :=
    List.takeWhile_eq_self_iff.mpr fun d member => decide_eq_true (other '.' rfl d member)
  have power : signed [] = 0 := rfl
  rw [numeral, mantissa, whole, List.drop_of_length_le (Nat.le_succ _), List.append_nil, signed_toDigits, power]
  simp

/-! ## The token of an admin -/

/-- Issued at the whole second `now`, by a login or by a refresh, for the admin, the tenant and the role. -/
inductive Issues (service : Admin.Service) (now : Nat) : String → String → String → String → Prop
  | login {rowOf : String → Option Admin.AdminUser} {checkpw : String → String → Bool} {body : Admin.LoginRequest}
      {row : Admin.AdminUser} {res : Admin.TokenResponse} (found : rowOf body.email = some row)
      (ok : service.login now rowOf checkpw body = .ok res) :
      Issues service now row.id row.tenantId row.role res.accessToken
  | refresh {state : Admin.RequestState} {res : Admin.TokenResponse} (ok : service.refresh now (some state) = .ok res) :
      Issues service now state.adminUserId state.tenantId state.role res.accessToken

def text (s : String) : Option Value := some (.str (units s.toList))

/-- The admin without an email address or a name of the tenant, which the token does not have. -/
def adminUser (admin tenant role : String) : AdminUser where
  id := text admin
  email := text admin
  tenantId := text tenant
  tenantName := text tenant
  role := text role

/-- The response of a login is read as it is sent, and as the interceptor leaves it. -/
structure ReadBack (coerce : Value → Option ℚ) (admin tenant role : String) (exp : Nat) (token : String) : Prop where
  payload : ∃ payload, decodeJwtPayload token = some payload ∧ prop "admin_user_id" payload = text admin ∧
    prop "tenant_id" payload = text tenant ∧ prop "role" payload = text role ∧
    toNumber coerce (prop "exp" payload) = some (exp : ℚ)
  login : AuthState.login { access_token := some token } = ⟨some token, some (adminUser admin tenant role), true⟩
  loginCamelCased : AuthState.login { accessToken := some token } =
    ⟨some token, some (adminUser admin tenant role), true⟩
  setAccessToken : AuthState.setAccessToken token = ⟨some token, some (adminUser admin tenant role), true⟩
  checkTokenExpiry : ∀ clock : ℤ, (AuthState.setAccessToken token).checkTokenExpiry coerce clock =
    decide ((exp : ℤ) * 1000 - clock < 60 * 60 * 1000)
  isTokenExpired : ∀ clock : ℤ, isTokenExpired coerce token clock = decide ((exp : ℤ) * 1000 - clock < 60000)

theorem issued_of_issues {service : Admin.Service} {now : Nat} {admin tenant role token : String}
    (h : Issues service now admin tenant role token) : token = service.issued now admin tenant role := by
  cases h with
  | login found ok =>
      obtain ⟨row, here, issued⟩ := Admin.Service.login_issued ok
      obtain rfl := Option.some.inj (found.symm.trans here)
      exact issued
  | refresh ok => exact (congrArg Admin.TokenResponse.accessToken (Except.ok.inj ok)).symm

section
variable (coerce : Value → Option ℚ) {token : String} {payload : Value}
  (decoded : decodeJwtPayload token = some payload)
include decoded

theorem holding_of_decoded (object : truthy payload = true) :
    holding userOf token = ⟨some token, some (userFromPayload payload), true⟩ := by
  rw [holding, userOf, decoded, Option.bind_some, if_pos object]

theorem expiresWithin_of_decoded (object : truthy payload = true) {exp : Nat}
    (found : prop "exp" payload = some (.num (Nat.toDigits 10 exp))) (limit clock : ℤ) :
    expiresWithin coerce limit token clock = decide ((exp : ℤ) * 1000 - clock < limit) := by
  rw [expiresWithin, decoded]
  dsimp only
  rw [if_pos object, found, toNumber]
  dsimp only
  rw [numeral_toDigits]
  refine decide_eq_decide.mpr ?_
  exact_mod_cast Iff.rfl

end

def issuedObject (now : Nat) (admin tenant role : String) : Value :=
  .obj ((claims (Admin.Service.payload now admin tenant role)).map memberValue)

section
variable (now : Nat) (admin tenant role : String)

theorem prop_issuedObject (key : String) : prop key (issuedObject now admin tenant role) =
    ((claims (Admin.Service.payload now admin tenant role)).reverse.find? fun m => m.1 = key).map fun m => m.2.value :=
  member_memberValue key _

theorem exp_issuedObject :
    prop "exp" (issuedObject now admin tenant role) = some (.num (Nat.toDigits 10 (now + 24 * 3600))) :=
  prop_issuedObject now admin tenant role "exp"

theorem userFromPayload_issuedObject :
    userFromPayload (issuedObject now admin tenant role) = adminUser admin tenant role := by
  simp only [userFromPayload, prop_issuedObject]
  rfl

end

/-- What is issued in the one language is read in the other as what has been issued. -/
theorem issued_readBack (coerce : Value → Option ℚ) (header : List UInt8) (hs256 : String → List Char → List UInt8)
    (decode : String → String → Nat → Except Admin.JwtError Admin.Payload) (secret : String) {now : Nat}
    {admin tenant role token : String} (h : Issues ⟨pyJwt header hs256 decode, secret⟩ now admin tenant role token) :
    ReadBack coerce admin tenant role (now + 24 * 3600) token := by
  obtain rfl := issued_of_issues h
  have decoded : decodeJwtPayload _ = some (issuedObject now admin tenant role) :=
    decodeJwtPayload_encode header hs256 decode (Admin.Service.payload now admin tenant role) secret
  have object : truthy (issuedObject now admin tenant role) = true := rfl
  have read := prop_issuedObject now admin tenant role
  have exp := exp_issuedObject now admin tenant role
  have holds := holding_of_decoded decoded object
  rw [userFromPayload_issuedObject] at holds
  refine ⟨⟨_, decoded, read "admin_user_id", read "tenant_id", read "role", ?_⟩, holds, holds, holds, fun clock => ?_,
    fun clock => ?_⟩
  · rw [exp, toNumber, numeral_toDigits]
  · have within := expiresWithin_of_decoded coerce decoded object exp (60 * 60 * 1000) clock
    have nonempty := encode_ne_empty header hs256 decode (Admin.Service.payload now admin tenant role) secret
    rw [AuthState.checkTokenExpiry, AuthState.setAccessToken, holding]
    dsimp only
    rw [Admin.Service.issued, if_neg nonempty]
    exact_mod_cast within
  · have within := expiresWithin_of_decoded coerce decoded object exp 60000 clock
    exact_mod_cast within

def editor : Admin.AdminUser := ⟨"admin-1", "tenant-1", "hash", "éditeur"⟩

def unsigned : Admin.Service := ⟨pyJwt [] (fun _ _ => []) fun _ _ _ => .error .invalidToken, "secret"⟩

theorem issued_readBack_editor : ReadBack (fun _ => none) "admin-1" "tenant-1" "éditeur" (1700000000 + 24 * 3600)
    (unsigned.issued 1700000000 "admin-1" "tenant-1" "éditeur") :=
  issued_readBack (fun _ => none) [] (fun _ _ => []) (fun _ _ _ => .error .invalidToken) "secret"
    (@Issues.login unsigned 1700000000 (fun _ => some editor) (fun _ _ => true) ⟨"a@b.c", "pw"⟩ editor
      { accessToken := unsigned.issued 1700000000 "admin-1" "tenant-1" "éditeur" } rfl rfl)

end CuckooEcho.Frontend
