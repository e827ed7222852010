import CuckooEcho.Feedback.Stats
import CuckooEcho.Lib.Dict
import CuckooEcho.Lib.Python
import Mathlib.Algebra.Group.Nat.Defs
import Mathlib.Algebra.GroupWithZero.Nat

namespace CuckooEcho.Feedback
open Lib

/-! ## `record_feedback`, from the request to the table -/

structure HTTPException where
  statusCode : Nat
  detail : String
  deriving DecidableEq, Repr

/-- The text of a UUID, in groups of 8, 4, 4, 4 and 12 hexadecimal digits. -/
def hexDigits : Nat → Nat → List Char
  | 0, _ => []
  | width + 1, n => hexDigits width (n / 16) ++ [Nat.digitChar (n % 16)]

def group (digits : List Char) : List Nat → List Char
  | [] => digits
  | size :: sizes => digits.take size ++ '-' :: group (digits.drop size) sizes

def uuidText (id : Uuid) : String := String.ofList (group (hexDigits 32 id) [8, 4, 4, 4])

theorem digitChar_facts : ∀ n < 16, hexDigit (Nat.digitChar n) = some n ∧ Nat.digitChar n ≠ '-' ∧
    Nat.digitChar n ≠ ':' ∧ isBrace (Nat.digitChar n) = false := by
  decide

theorem length_hexDigits (width n : Nat) : (hexDigits width n).length = width := by
  induction width generalizing n with
  | zero => rfl
  | succ width ih => simp [hexDigits, ih]

theorem mem_hexDigits {width n : Nat} {c : Char} (member : c ∈ hexDigits width n) :
    ∃ m < 16, c = Nat.digitChar m := by
  induction width generalizing n with
  | zero => exact absurd member List.not_mem_nil
  | succ width ih =>
      rcases List.mem_append.mp member with before | last
      · exact ih before
      · exact ⟨n % 16, Nat.mod_lt n (by decide), List.mem_singleton.mp last⟩

theorem foldlM_hexDigits (width n : Nat) :
    (hexDigits width n).foldlM (fun n c => (hexDigit c).map (16 * n + ·)) 0 = some (n % 16 ^ width) := by
  induction width generalizing n with
  | zero => simp [hexDigits, Nat.mod_one]
  | succ width ih =>
      have last := (digitChar_facts (n % 16) (Nat.mod_lt n (by decide))).1
      have value : 16 * (n / 16 % 16 ^ width) + n % 16 = n % 16 ^ (width + 1) := by
        rw [Nat.pow_succ, Nat.mul_comm (16 ^ width) 16, Nat.mod_mul, Nat.add_comm]
      rw [hexDigits, List.foldlM_append, ih]
      simp [last, value]

theorem filter_group {digits : List Char} (free : '-' ∉ digits) (sizes : List Nat) :
    (group digits sizes).filter (· ≠ '-') = digits := by
  induction sizes generalizing digits with
  | nil =>
      rw [group, List.filter_eq_self]
      intro c member
      have other : c ≠ '-' := fun same => free (same ▸ member)
      simpa using other
  | cons size sizes ih =>
      have rest : (group (digits.drop size) sizes).filter (· ≠ '-') = digits.drop size :=
        ih fun member => free (List.mem_of_mem_drop member)
      have front : (digits.take size).filter (· ≠ '-') = digits.take size := by
        rw [List.filter_eq_self]
        intro c member
        have other : c ≠ '-' := fun same => free (same ▸ List.mem_of_mem_take member)
        simpa using other
      rw [group, List.filter_append, front, List.filter_cons_of_neg (by simp), rest, List.take_append_drop]

theorem mem_group {digits : List Char} {sizes : List Nat} {c : Char} (member : c ∈ group digits sizes) :
    c = '-' ∨ c ∈ digits := by
  induction sizes generalizing digits with
  | nil => exact .inr member
  | cons size sizes ih =>
      rw [group, List.mem_append, List.mem_cons] at member
      obtain front | rfl | back := member
      · exact .inr (List.mem_of_mem_take front)
      · exact .inl rfl
      · exact (ih back).imp_right List.mem_of_mem_drop

theorem mem_uuidText {id : Uuid} {c : Char} (member : c ∈ group (hexDigits 32 id) [8, 4, 4, 4]) :
    c ≠ ':' ∧ isBrace c = false := by
  obtain rfl | digit := mem_group member
  · decide
  · obtain ⟨m, small, rfl⟩ := mem_hexDigits digit
    exact (digitChar_facts m small).2.2

theorem dropWhile_isBrace {text : List Char} (free : ∀ c ∈ text, isBrace c = false) :
    text.dropWhile isBrace = text := by
  cases text with
  | nil => rfl
  | cons c rest => exact List.dropWhile_cons_of_neg (by simp [free c List.mem_cons_self])

theorem hexUuid_of_plain {text : List Char} (colon : ':' ∉ text) (brace : ∀ c ∈ text, isBrace c = false)
    (length : (text.filter (· ≠ '-')).length = 32) :
    hexUuid (String.ofList text) =
      (text.filter (· ≠ '-')).foldlM (fun n c => (hexDigit c).map (16 * n + ·)) 0 := by
  have urn : Text.split "urn:".toList text = [text] := Text.split_of_not_mem (c := ':') (by decide) colon
  have whole : Text.split "uuid:".toList text = [text] := Text.split_of_not_mem (c := ':') (by decide) colon
  have back : ∀ c ∈ text.reverse, isBrace c = false := fun c member => brace c (List.mem_reverse.mp member)
  simp only [hexUuid, String.toList_ofList, urn, whole, List.flatten_cons, List.flatten_nil, List.append_nil,
    dropWhile_isBrace brace, dropWhile_isBrace back, List.reverse_reverse]
  rw [if_pos length]

/-- Reading the text of a UUID gives it back. -/
theorem hexUuid_uuidText (id : Uuid) (bounded : id < 2 ^ 128) : hexUuid (uuidText id) = some id := by
  have dash : '-' ∉ hexDigits 32 id := by
    intro member
    obtain ⟨m, small, same⟩ := mem_hexDigits member
    exact (digitChar_facts m small).2.1 same.symm
  have plain : (group (hexDigits 32 id) [8, 4, 4, 4]).filter (· ≠ '-') = hexDigits 32 id := filter_group dash _
  have length : ((group (hexDigits 32 id) [8, 4, 4, 4]).filter (· ≠ '-')).length = 32 := by
    rw [plain, length_hexDigits]
  have size : 16 ^ 32 = 2 ^ 128 := by decide
  rw [uuidText, hexUuid_of_plain (fun member => (mem_uuidText member).1 rfl) (fun c member => (mem_uuidText member).2)
    length, plain, foldlM_hexDigits, size, Nat.mod_eq_of_lt bounded]

structure Tenant where
  id : Uuid
  bounded : id < 2 ^ 128
  apiKeyHash : String
  status : String

/-- `userId` is what a middleware has left in the request's state. -/
structure Request where
  authorization : String
  userId : Option String
  body : Dict String PyValue

structure App where
  tenants : List Tenant
  feedbackService : Bool

structure Submission where
  threadId : String
  messageId : String
  userId : String
  tenantId : String
  feedbackType : FeedbackType
  deriving DecidableEq, Repr

inductive Refusal
  | unauthorized
  | raised (error : HTTPException)
  deriving DecidableEq, Repr

/-- Why `store_feedback` raises. -/
inductive StoreError
  | conversion
  | database
  deriving DecidableEq, Repr

def FeedbackType.text : FeedbackType → String
  | .thumbsUp => "thumbs_up"
  | .thumbsDown => "thumbs_down"

section
variable (sha256 : String → String) (isPrintable : Char → Bool) (uuid : String → Option Uuid)

/-- `ChatTenantAuthMiddleware` -/
def App.authenticate (app : App) (authorization : String) : Option String :=
  let apiKey := String.ofList (authorization.toList.drop 7)
  if ¬ "Bearer ".toList <+: authorization.toList ∨ apiKey = "" then none
  else match app.tenants.find? (·.apiKeyHash = sha256 apiKey) with
    | some tenant => if tenant.status = "active" then some (uuidText tenant.id) else none
    | none => none

/-- A value as an f-string shows it. -/
def shown : PyValue → String
  | .str s => s
  | value => String.ofList (PyValue.repr isPrintable value)

def required (body : Dict String PyValue) (field : String) : Except HTTPException PyValue :=
  match (body.get field).filter PyValue.truthy with
  | some value => .ok value
  | none => .error ⟨400, "Missing required field: " ++ field⟩

def knownType : PyValue → Except HTTPException FeedbackType
  | .str "thumbs_up" => .ok .thumbsUp
  | .str "thumbs_down" => .ok .thumbsDown
  | value => .error ⟨400,
      "Invalid feedback_type: " ++ shown isPrintable value ++ ". Must be 'thumbs_up' or 'thumbs_down'"⟩

/-- A value without `replace` raises the `AttributeError` that is caught with the `ValueError`. -/
def identifier (field : String) : PyValue → Except HTTPException String
  | .str text => if (uuid text).isSome then .ok text else .error ⟨400, "Invalid " ++ field ++ " format: " ++ text⟩
  | value => .error ⟨400, "Invalid " ++ field ++ " format: " ++ shown isPrintable value⟩

def authorized (tenantId : Option String) : Except HTTPException String :=
  match given tenantId with
  | some tenantId => .ok tenantId
  | none => .error ⟨401, "Unauthorized: Missing tenant_id"⟩

def App.validate (app : App) (tenantId userId : Option String) (body : Dict String PyValue) :
    Except HTTPException Submission := do
  let threadId ← required body "thread_id"
  let messageId ← required body "message_id"
  let feedbackType ← required body "feedback_type"
  let feedbackType ← knownType isPrintable feedbackType
  let threadId ← identifier isPrintable uuid "thread_id" threadId
  let messageId ← identifier isPrintable uuid "message_id" messageId
  let tenantId ← authorized tenantId
  let userId := (given userId).getD "anonymous"
  if app.feedbackService then .ok { threadId, messageId, userId, tenantId, feedbackType }
  else .error ⟨500, "Feedback service not initialized"⟩

/-- The middleware and the checks of the route. -/
def App.accept (app : App) (request : Request) : Except Refusal Submission :=
  match app.authenticate sha256 request.authorization with
  | none => .error .unauthorized
  | some tenantId =>
      (app.validate isPrintable uuid (some tenantId) request.userId request.body).mapError .raised

namespace Submission
variable (submission : Submission)

def key : Option FeedbackKey :=
  FeedbackKey.parse uuid submission.threadId submission.messageId submission.userId submission.tenantId

def storeFeedback (db : Db) : Except StoreError (Option FeedbackType × Db) :=
  match submission.key uuid with
  | none => .error .conversion
  | some key => match db.store key submission.feedbackType with
      | none => .error .database
      | some stored => .ok stored

/-- Every identifier is converted, and what is left to fail is the database. -/
def Storable : Prop :=
  (submission.key uuid).isSome ∧
    ∀ (db : Db) (error : StoreError), submission.storeFeedback uuid db = .error error → error = .database

end Submission

/-- `str(e)` is part of the detail. -/
def App.recordFeedback (str : StoreError → String) (app : App) (request : Request) (db : Db) :
    Except Refusal (Option FeedbackType × Db) := do
  let submission ← app.accept sha256 isPrintable uuid request
  (submission.storeFeedback uuid db).mapError fun error =>
    .raised ⟨500, "Failed to store feedback: " ++ str error⟩

/-! ### What an accepted request may lack -/

variable {sha256 isPrintable uuid} {app : App} {request : Request} {submission : Submission}

theorem bind_eq_ok {ε α β : Type} {x : Except ε α} {f : α → Except ε β} {b : β} :
    (x >>= f) = .ok b ↔ ∃ a, x = .ok a ∧ f a = .ok b := by
  cases x with
  | error e => simp [bind, Except.bind]
  | ok a => simp [bind, Except.bind]

theorem identifier_ok {field text : String} {value : PyValue} (ok : identifier isPrintable uuid field value = .ok text) :
    (uuid text).isSome := by
  cases value with
  | str s =>
      simp only [identifier] at ok
      split at ok
      · rename_i converts
        obtain rfl := Except.ok.inj ok
        exact converts
      · contradiction
  | _ => contradiction

theorem authenticate_eq_some {authorization tenantId : String}
    (found : app.authenticate sha256 authorization = some tenantId) :
    ∃ tenant ∈ app.tenants, tenantId = uuidText tenant.id := by
  simp only [App.authenticate] at found
  split at found
  · contradiction
  · split at found
    · rename_i tenant row
      split at found
      · exact ⟨tenant, List.mem_of_find?_eq_some row, (Option.some.inj found).symm⟩
      · contradiction
    · contradiction

structure Checked (uuid : String → Option Uuid) (tenantId userId : Option String) (submission : Submission) : Prop where
  thread : (uuid submission.threadId).isSome
  message : (uuid submission.messageId).isSome
  tenant : given tenantId = some submission.tenantId
  user : submission.userId = (given userId).getD "anonymous"

theorem checked_of_validate {tenantId userId : Option String} {body : Dict String PyValue}
    (ok : app.validate isPrintable uuid tenantId userId body = .ok submission) :
    Checked uuid tenantId userId submission := by
  obtain ⟨_, -, ok⟩ := bind_eq_ok.mp ok
  obtain ⟨_, -, ok⟩ := bind_eq_ok.mp ok
  obtain ⟨_, -, ok⟩ := bind_eq_ok.mp ok
  obtain ⟨_, -, ok⟩ := bind_eq_ok.mp ok
  obtain ⟨thread, threadOk, ok⟩ := bind_eq_ok.mp ok
  obtain ⟨message, messageOk, ok⟩ := bind_eq_ok.mp ok
  obtain ⟨tenant, tenantOk, ok⟩ := bind_eq_ok.mp ok
  split at ok
  · obtain rfl := Except.ok.inj ok
    refine ⟨identifier_ok threadOk, identifier_ok messageOk, ?_, rfl⟩
    cases known : given tenantId with
    | none => simp [authorized, known] at tenantOk
    | some text => simpa [authorized, known] using tenantOk
  · contradiction

theorem checked_of_accept (ok : app.accept sha256 isPrintable uuid request = .ok submission) :
    ∃ tenant ∈ app.tenants, Checked uuid (some (uuidText tenant.id)) request.userId submission := by
  unfold App.accept at ok
  split at ok
  · contradiction
  · rename_i tenantId found
    obtain ⟨tenant, member, rfl⟩ := authenticate_eq_some found
    cases validated : app.validate isPrintable uuid (some (uuidText tenant.id)) request.userId request.body with
    | error error => simp [validated, Except.mapError] at ok
    | ok checked =>
        obtain rfl : checked = submission := by simpa [validated, Except.mapError] using ok
        exact ⟨tenant, member, checked_of_validate validated⟩

theorem given_eq_some {text : Option String} {s : String} : given text = some s ↔ text = some s ∧ s ≠ "" := by
  simp [given, Option.filter_eq_some_iff]

theorem Submission.key_isSome : (submission.key uuid).isSome ↔
    (uuid submission.tenantId).isSome ∧ (uuid submission.threadId).isSome ∧ (uuid submission.messageId).isSome ∧
      (uuid submission.userId).isSome := by
  simp only [Submission.key, FeedbackKey.parse, bind, pure, Option.isSome_bind]
  cases uuid submission.tenantId <;> cases uuid submission.threadId <;> cases uuid submission.messageId <;>
    simp

theorem Submission.storable_iff : submission.Storable uuid ↔ (submission.key uuid).isSome := by
  refine ⟨fun storable => storable.1, fun converts => ⟨converts, fun db error raised => ?_⟩⟩
  obtain ⟨key, parsed⟩ := Option.isSome_iff_exists.mp converts
  simp only [Submission.storeFeedback, parsed] at raised
  split at raised
  · exact (Except.error.inj raised).symm
  · contradiction

/-- A request that names no user passes the checks and is answered with 500, whatever the table holds. -/
theorem recordFeedback_without_user (str : StoreError → String) (anonymous : uuid "anonymous" = none)
    (accepted : app.accept sha256 isPrintable uuid request = .ok submission) (nobody : given request.userId = none)
    (db : Db) : app.recordFeedback sha256 isPrintable uuid str request db =
      .error (.raised ⟨500, "Failed to store feedback: " ++ str .conversion⟩) := by
  obtain ⟨tenant, -, checked⟩ := checked_of_accept accepted
  have user : submission.userId = "anonymous" := by rw [checked.user, nobody, Option.getD_none]
  have refused : submission.key uuid = none := by
    rw [← Option.not_isSome_iff_eq_none, Submission.key_isSome, user, anonymous]
    simp
  simp [App.recordFeedback, accepted, Submission.storeFeedback, refused, bind, Except.bind, Except.mapError]

/-- Only the user id can be one that `uuid.UUID` refuses: the default that stands for a missing one is refused. -/
theorem storable_iff_userId (sha256 : String → String) (isPrintable : Char → Bool) (uuid : String → Option Uuid)
    (reads : ∀ id < 2 ^ 128, uuid (uuidText id) = some id) (anonymous : uuid "anonymous" = none) (app : App)
    (request : Request) (submission : Submission)
    (accepted : app.accept sha256 isPrintable uuid request = .ok submission) :
    submission.Storable uuid ↔ ∃ userId, request.userId = some userId ∧ userId ≠ "" ∧ (uuid userId).isSome := by
  obtain ⟨tenant, -, checked⟩ := checked_of_accept accepted
  have tenantId : submission.tenantId = uuidText tenant.id :=
    (Option.some.inj (given_eq_some.mp checked.tenant).1).symm
  have tenantOk : (uuid submission.tenantId).isSome := by
    rw [tenantId, reads tenant.id tenant.bounded]
    rfl
  rw [Submission.storable_iff, Submission.key_isSome, checked.user]
  simp only [tenantOk, checked.thread, checked.message, true_and]
  cases user : given request.userId with
  | none =>
      have absent (userId : String) : ¬ (request.userId = some userId ∧ userId ≠ "") := fun present => by
        simp [given_eq_some.mpr present] at user
      rw [Option.getD_none, anonymous]
      simp only [Option.isSome_none, Bool.false_eq_true, false_iff]
      rintro ⟨userId, known, nonempty, -⟩
      exact absent userId ⟨known, nonempty⟩
  | some userId =>
      obtain ⟨known, nonempty⟩ := given_eq_some.mp user
      simp [known, nonempty]

end

def oneTenantApp : App := ⟨[⟨10, by decide, "hash", "active"⟩], true⟩

def thumbsUp (userId : Option String) : Request where
  authorization := "Bearer key"
  userId := userId
  body := ⟨[("thread_id", .str "00000000-0000-0000-0000-000000000001"),
    ("message_id", .str "00000000-0000-0000-0000-000000000002"), ("feedback_type", .str "thumbs_up")], by decide⟩

def thumbsUpSubmission (userId : String) : Submission :=
  ⟨"00000000-0000-0000-0000-000000000001", "00000000-0000-0000-0000-000000000002", userId,
    "00000000-0000-0000-0000-00000000000a", .thumbsUp⟩

theorem accepted_not_storable :
    ¬ ∀ (app : App) (request : Request) (submission : Submission),
      app.accept (fun _ => "hash") (fun _ => true) hexUuid request = .ok submission → submission.Storable hexUuid := by
  intro claim
  have storable := claim oneTenantApp (thumbsUp none) (thumbsUpSubmission "anonymous") (by decide +kernel)
  exact absurd storable.1 (by decide +kernel)

theorem storable_iff_userId_uuid :
    (thumbsUpSubmission "00000000-0000-0000-0000-000000000003").Storable hexUuid ↔
      ∃ userId, (thumbsUp (some "00000000-0000-0000-0000-000000000003")).userId = some userId ∧ userId ≠ "" ∧
        (hexUuid userId).isSome :=
  storable_iff_userId (fun _ => "hash") (fun _ => true) hexUuid hexUuid_uuidText (by decide +kernel) oneTenantApp
    (thumbsUp (some "00000000-0000-0000-0000-000000000003")) _ (by decide +kernel)

end CuckooEcho.Feedback
