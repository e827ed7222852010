import CuckooEcho.Frontend.AdminSession
import CuckooEcho.Lib.Inevitable
import CuckooEcho.Lib.Interleaving

namespace CuckooEcho.Frontend
open Lib Admin

/-! ## Calls of `apiClient` -/

/-- `networkError` is a rejection without a response whose code is `ERR_NETWORK`, `noResponse` any other one. -/
inductive ApiReply (δ : Type*)
  | ok (data : δ)
  | status (code : Nat)
  | networkError
  | noResponse
  deriving DecidableEq, Repr

inductive CallPoint (δ : Type*)
  | sent
  | refreshing (id : Nat)
  | delayed
  | resolved (data : δ)
  | rejected
  deriving DecidableEq, Repr

/-- `request` and `retry` are of the call's `config`; `sends` and `replies` are what has gone over the network, and
`logouts` counts those of the page before the 401 after which the call has asked for a refresh. -/
structure ApiCall (δ : Type*) where
  request : Request
  retry : Bool := false
  sends : List Request := []
  replies : List (ApiReply δ) := []
  logouts : Nat := 0
  point : CallPoint δ := .sent
  deriving DecidableEq, Repr

/-- `answers` are what the refresh requests have come to; `redirected` after `window.location.href = '/login'`. -/
structure ApiClient (υ δ : Type*) where
  page : Page υ
  answers : Nat → Option (Option String)
  calls : List (ApiCall δ)
  toasts : List String
  redirected : Bool

def FALLBACK_ERROR_MAP : List (Nat × String) :=
  [(401, "登录已过期，请重新登录"), (404, "请求的资源不存在"), (409, "AI 正在处理上一条消息，请稍候"),
    (413, "文件过大（最大 200MB）"), (415, "不支持该文件格式"), (429, "请求过于频繁，请稍后重试"),
    (500, "服务器内部错误，请稍后重试"), (503, "系统繁忙，请稍后重试")]

/-- `if (status && status !== 401)` -/
def statusToast (code : Nat) : List String :=
  if code ≠ 0 ∧ code ≠ 401 then [(FALLBACK_ERROR_MAP.lookup code).getD "未知错误，请稍后重试"] else []

/-- `apiClient(config)`: the request interceptor, and the request. -/
def ApiCall.send {δ : Type*} (accessToken : Option String) (c : ApiCall δ) : ApiCall δ :=
  let request := injectToken accessToken c.request
  { c with request, sends := c.sends ++ [request], point := .sent }

def ApiCall.answered {δ : Type*} (reply : ApiReply δ) (c : ApiCall δ) : ApiCall δ :=
  { c with replies := c.replies ++ [reply] }

namespace ApiClient
variable {υ δ : Type*}

def initial (store : AuthState υ) : ApiClient υ δ := ⟨.initial store, fun _ => none, [], [], false⟩

inductive Act (δ : Type*)
  | page (act : Page.Act)
  | call (request : Request)
  | reply (i : Nat) (reply : ApiReply δ)
  | resume (i : Nat)
  | wake (i : Nat)

section
variable (userOf : String → Option υ) (transformResponse : δ → String → δ) (m : ApiClient υ δ)

def put (i : Nat) (c : ApiCall δ) : ApiClient υ δ := { m with calls := m.calls.set i c }

/-- The response interceptor. -/
def respond (i : Nat) (c : ApiCall δ) : ApiReply δ → ApiClient υ δ
  | .ok data => m.put i { c.answered (.ok data) with point := .resolved (transformResponse data c.request.path) }
  | .networkError =>
      { m with toasts := m.toasts ++ ["后端服务不可用，请检查服务状态"] }.put i
        { c.answered .networkError with point := .rejected }
  | .noResponse => m.put i { c.answered .noResponse with point := .rejected }
  | .status code =>
      if code = 401 ∧ c.retry = false then
        let page := m.page.refreshTokenWithMutex
        { m with page }.put i
          { c.answered (.status code) with
            retry := true, logouts := m.page.logouts, point := .refreshing (page.refreshPromise.getD 0) }
      else if code = 429 ∧ c.retry = false then
        m.put i { c.answered (.status code) with retry := true, point := .delayed }
      else
        { m with toasts := m.toasts ++ statusToast code }.put i { c.answered (.status code) with point := .rejected }

/-- What the call does with the token that the refresh has returned, `none` for `null`. -/
def resume (i : Nat) (c : ApiCall δ) (newToken : Option String) : ApiClient υ δ :=
  match newToken.filter (· ≠ "") with
  | some token =>
      m.put i (ApiCall.send m.page.store.accessToken
        { c with request := c.request.setHeader "Authorization" (bearer ++ token) })
  | none => { m with redirected := true }.put i { c with point := .rejected }

/-- A new document loses the calls. -/
def browse (act : Page.Act) (page : Page υ) : ApiClient υ δ :=
  match act with
  | .refreshed id reply => { m with page, answers := Function.update m.answers id (some reply) }
  | .reload _ => { m with page, calls := [], redirected := false }
  | _ => { m with page }

def step : Act δ → Option (ApiClient υ δ)
  | .page act => (m.page.step userOf act).map (m.browse act)
  | .call request => some { m with calls := m.calls ++ [ApiCall.send m.page.store.accessToken { request }] }
  | .reply i reply => m.calls[i]?.bind fun c =>
      match c.point with
      | .sent => some (m.respond transformResponse i c reply)
      | _ => none
  | .resume i => m.calls[i]?.bind fun c =>
      match c.point with
      | .refreshing id => (m.answers id).map (m.resume i c)
      | _ => none
  | .wake i => m.calls[i]?.bind fun c =>
      match c.point with
      | .delayed => some (m.put i (c.send m.page.store.accessToken))
      | _ => none

end

/-! ## What is known of a call at each of its points -/

/-- The call has come to what its last reply says. -/
def Concluded (transformResponse : δ → String → δ) (c : ApiCall δ) : Prop :=
  match c.point with
  | .resolved data => ∃ raw, c.replies.getLast? = some (.ok raw) ∧ data = transformResponse raw c.request.path
  | .rejected => ∀ raw, c.replies.getLast? ≠ some (.ok raw)
  | _ => False

/-- Unless the refresh has been answered, it is the one on its way. -/
def Awaited (m : ApiClient υ δ) (id : Nat) : Prop := m.answers id = none → m.page.refreshPromise = some id

inductive Stage (transformResponse : δ → String → δ) (m : ApiClient υ δ) (c : ApiCall δ) : Prop
  | first (point : c.point = .sent) (retry : c.retry = false) (sends : c.sends.length = 1) (replies : c.replies = [])
  | refreshing {id : Nat} (point : c.point = .refreshing id) (retry : c.retry = true) (sends : c.sends.length = 1)
      (replies : c.replies = [.status 401]) (awaited : m.Awaited id)
  | delayed (point : c.point = .delayed) (retry : c.retry = true) (sends : c.sends.length = 1)
      (replies : c.replies = [.status 429])
  | again {first : ApiReply δ} (point : c.point = .sent) (retry : c.retry = true) (sends : c.sends.length = 2)
      (replies : c.replies = [first]) (retried : first = .status 401 ∨ first = .status 429)
  | settledFirst {only : ApiReply δ} (concluded : Concluded transformResponse c) (sends : c.sends.length = 1)
      (replies : c.replies = [only])
  | settledAgain {first last : ApiReply δ} (concluded : Concluded transformResponse c) (sends : c.sends.length = 2)
      (replies : c.replies = [first, last]) (retried : first = .status 401 ∨ first = .status 429)

structure Sound (transformResponse : δ → String → δ) (m : ApiClient υ δ) : Prop where
  shared : m.page.refreshes = m.page.refreshPromise.toList
  calls : ∀ c ∈ m.calls, Stage transformResponse m c

section
variable {userOf : String → Option υ} {transformResponse : δ → String → δ} {m n : ApiClient υ δ} {c : ApiCall δ}
  {i : Nat}

theorem Stage.frame (stage : Stage transformResponse m c) (keep : ∀ id, m.Awaited id → n.Awaited id) :
    Stage transformResponse n c := by
  cases stage with
  | first point retry sends replies => exact .first point retry sends replies
  | refreshing point retry sends replies awaited => exact .refreshing point retry sends replies (keep _ awaited)
  | delayed point retry sends replies => exact .delayed point retry sends replies
  | again point retry sends replies retried => exact .again point retry sends replies retried
  | settledFirst concluded sends replies => exact .settledFirst concluded sends replies
  | settledAgain concluded sends replies retried => exact .settledAgain concluded sends replies retried

theorem Sound.put (h : Sound transformResponse m) (same : n.calls = m.calls)
    (shared : n.page.refreshes = n.page.refreshPromise.toList) (keep : ∀ id, m.Awaited id → n.Awaited id)
    (stage : Stage transformResponse n c) : Sound transformResponse (n.put i c) := by
  have keep' (id : Nat) (awaited : n.Awaited id) : (n.put i c).Awaited id := awaited
  refine ⟨shared, Interleaving.forall_set (P := fun c => Stage transformResponse m c) ?_ ?_ (stage.frame keep') i⟩
  · rw [same]
    exact h.calls
  · exact fun d before => (before.frame keep).frame keep'

/-! ### The page under the calls -/

theorem refreshPromise_of_mem (h : Sound transformResponse m) {id : Nat} (flying : id ∈ m.page.refreshes) :
    m.page.refreshPromise = some id := by
  rw [h.shared, Option.mem_toList] at flying
  exact flying

theorem refreshTokenWithMutex_shared (shared : m.page.refreshes = m.page.refreshPromise.toList) :
    m.page.refreshTokenWithMutex.refreshes = m.page.refreshTokenWithMutex.refreshPromise.toList ∧
      m.page.refreshTokenWithMutex.refreshPromise.isSome := by
  unfold Page.refreshTokenWithMutex
  split
  · rename_i flying
    rw [flying] at shared ⊢
    exact ⟨shared, rfl⟩
  · rename_i idle
    rw [idle] at shared
    exact ⟨by simp [shared], rfl⟩

theorem awaited_refreshTokenWithMutex {id : Nat} (awaited : m.Awaited id) :
    Awaited { m with page := m.page.refreshTokenWithMutex } id := by
  intro unanswered
  have flying := awaited unanswered
  simp only [Page.refreshTokenWithMutex, flying]

/-! ### The steps of a call -/

theorem Stage.of_sent (stage : Stage transformResponse m c) (sent : c.point = .sent) :
    (c.retry = false ∧ c.sends.length = 1 ∧ c.replies = []) ∨
      ∃ first, c.retry = true ∧ c.sends.length = 2 ∧ c.replies = [first] ∧
        (first = .status 401 ∨ first = .status 429) := by
  cases stage with
  | first _ retry sends replies => exact Or.inl ⟨retry, sends, replies⟩
  | again _ retry sends replies retried => exact Or.inr ⟨_, retry, sends, replies, retried⟩
  | refreshing point => simp [sent] at point
  | delayed point => simp [sent] at point
  | settledFirst concluded => simp [Concluded, sent] at concluded
  | settledAgain concluded => simp [Concluded, sent] at concluded

theorem Stage.of_refreshing (stage : Stage transformResponse m c) {id : Nat} (waits : c.point = .refreshing id) :
    c.retry = true ∧ c.sends.length = 1 ∧ c.replies = [.status 401] ∧ m.Awaited id := by
  cases stage with
  | refreshing point retry sends replies awaited =>
      obtain rfl : id = _ := CallPoint.refreshing.inj (waits.symm.trans point)
      exact ⟨retry, sends, replies, awaited⟩
  | first point => simp [waits] at point
  | delayed point => simp [waits] at point
  | again point => simp [waits] at point
  | settledFirst concluded => simp [Concluded, waits] at concluded
  | settledAgain concluded => simp [Concluded, waits] at concluded

theorem Stage.of_delayed (stage : Stage transformResponse m c) (delayed : c.point = .delayed) :
    c.retry = true ∧ c.sends.length = 1 ∧ c.replies = [.status 429] := by
  cases stage with
  | delayed _ retry sends replies => exact ⟨retry, sends, replies⟩
  | first point => simp [delayed] at point
  | refreshing point => simp [delayed] at point
  | again point => simp [delayed] at point
  | settledFirst concluded => simp [Concluded, delayed] at concluded
  | settledAgain concluded => simp [Concluded, delayed] at concluded

/-- A reply that ends the call. -/
theorem Stage.conclude (stage : Stage transformResponse m c) (sent : c.point = .sent) (reply : ApiReply δ)
    (point : CallPoint δ) (concluded : Concluded transformResponse { c.answered reply with point }) :
    Stage transformResponse n { c.answered reply with point } := by
  rcases stage.of_sent sent with ⟨-, sends, replies⟩ | ⟨first, -, sends, replies, retried⟩
  · have only : { c.answered reply with point }.replies = [reply] := by simp [ApiCall.answered, replies]
    exact .settledFirst concluded sends only
  · have both : { c.answered reply with point }.replies = [first, reply] := by simp [ApiCall.answered, replies]
    exact .settledAgain concluded sends both retried

theorem Stage.first_of_retry (stage : Stage transformResponse m c) (sent : c.point = .sent) (retry : c.retry = false) :
    c.sends.length = 1 ∧ c.replies = [] := by
  rcases stage.of_sent sent with ⟨-, first⟩ | ⟨_, retried, -⟩
  · exact first
  · exact absurd (retry.symm.trans retried) Bool.false_ne_true

theorem Sound.respond (h : Sound transformResponse m) (here : m.calls[i]? = some c) (sent : c.point = .sent)
    (reply : ApiReply δ) : Sound transformResponse (m.respond transformResponse i c reply) := by
  have stage := h.calls c (List.mem_of_getElem? here)
  have same (id : Nat) (awaited : m.Awaited id) : m.Awaited id := awaited
  cases reply with
  | ok data =>
      refine h.put rfl h.shared same (stage.conclude sent _ _ ?_)
      exact ⟨data, by simp [ApiCall.answered], rfl⟩
  | networkError =>
      refine h.put (n := { m with toasts := _ }) rfl h.shared (fun _ awaited => awaited) (stage.conclude sent _ _ ?_)
      simp [Concluded, ApiCall.answered]
  | noResponse =>
      refine h.put rfl h.shared same (stage.conclude sent _ _ ?_)
      simp [Concluded, ApiCall.answered]
  | status code =>
      simp only [ApiClient.respond]
      split
      · rename_i unauthorized
        obtain ⟨rfl, retry⟩ := unauthorized
        obtain ⟨sends, replies⟩ := stage.first_of_retry sent retry
        obtain ⟨shared, flying⟩ := refreshTokenWithMutex_shared h.shared
        obtain ⟨id, promise⟩ := Option.isSome_iff_exists.mp flying
        refine h.put (n := { m with page := _ }) rfl shared (fun _ => awaited_refreshTokenWithMutex) ?_
        refine .refreshing rfl rfl sends (by simp [ApiCall.answered, replies]) fun _ => ?_
        simp only [promise, Option.getD_some]
      · split
        · rename_i limited
          obtain ⟨rfl, retry⟩ := limited
          obtain ⟨sends, replies⟩ := stage.first_of_retry sent retry
          exact h.put rfl h.shared same (.delayed rfl rfl sends (by simp [ApiCall.answered, replies]))
        · refine h.put (n := { m with toasts := _ }) rfl h.shared (fun _ awaited => awaited)
            (stage.conclude sent _ _ ?_)
          simp [Concluded, ApiCall.answered]

theorem Stage.resend (retry : c.retry = true) (sends : c.sends.length = 1) {first : ApiReply δ}
    (replies : c.replies = [first]) (retried : first = .status 401 ∨ first = .status 429)
    (accessToken : Option String) : Stage transformResponse m (c.send accessToken) :=
  .again rfl retry (by simp [ApiCall.send, sends]) replies retried

theorem Sound.resume (h : Sound transformResponse m) (here : m.calls[i]? = some c) {id : Nat}
    (waits : c.point = .refreshing id) (newToken : Option String) :
    Sound transformResponse (m.resume i c newToken) := by
  obtain ⟨retry, sends, replies, -⟩ := (h.calls c (List.mem_of_getElem? here)).of_refreshing waits
  unfold ApiClient.resume
  split
  · refine h.put rfl h.shared (fun _ awaited => awaited) (Stage.resend ?_ ?_ ?_ (Or.inl rfl) _)
    · exact retry
    · exact sends
    · exact replies
  · refine h.put (n := { m with redirected := true }) rfl h.shared (fun _ awaited => awaited) ?_
    exact .settledFirst (by simp [Concluded, replies]) sends replies

theorem Sound.wake (h : Sound transformResponse m) (here : m.calls[i]? = some c) (delayed : c.point = .delayed) :
    Sound transformResponse (m.put i (c.send m.page.store.accessToken)) := by
  obtain ⟨retry, sends, replies⟩ := (h.calls c (List.mem_of_getElem? here)).of_delayed delayed
  exact h.put rfl h.shared (fun _ awaited => awaited) (.resend retry sends replies (Or.inr rfl) _)

/-! ### Any step -/

theorem Sound.keepPage (h : Sound transformResponse m) {page : Page υ} (refreshes : page.refreshes = m.page.refreshes)
    (promise : page.refreshPromise = m.page.refreshPromise) : Sound transformResponse { m with page } := by
  refine ⟨by simp only [refreshes, promise, h.shared], fun d member => (h.calls d member).frame fun id awaited => ?_⟩
  intro unanswered
  exact promise.trans (awaited unanswered)

theorem Sound.browse (h : Sound transformResponse m) {act : Page.Act} {page : Page υ}
    (next : m.page.step userOf act = some page) : Sound transformResponse (m.browse act page) := by
  cases act with
  | login =>
      obtain rfl := Option.some.inj next
      exact h.keepPage rfl rfl
  | loggedIn l reply =>
      obtain ⟨-, eq⟩ := Option.ite_none_right_eq_some.mp next
      obtain rfl := Option.some.inj eq
      cases reply <;> exact h.keepPage rfl rfl
  | logout =>
      obtain rfl := Option.some.inj next
      exact h.keepPage rfl rfl
  | setAccessToken token =>
      obtain rfl := Option.some.inj next
      exact h.keepPage rfl rfl
  | refreshTokenWithMutex =>
      obtain rfl := Option.some.inj next
      refine ⟨(refreshTokenWithMutex_shared h.shared).1, fun d member => ?_⟩
      exact (h.calls d member).frame fun _ => awaited_refreshTokenWithMutex
  | refreshed id reply =>
      obtain ⟨flying, eq⟩ := Option.ite_none_right_eq_some.mp next
      obtain rfl := Option.some.inj eq
      have promise := refreshPromise_of_mem h flying
      have idle : (m.page.refreshed userOf id reply).refreshes = [] ∧
          (m.page.refreshed userOf id reply).refreshPromise = none := by
        have rest : m.page.refreshes.filter (· ≠ id) = [] := by simp [h.shared, promise]
        cases reply <;> exact ⟨rest, rfl⟩
      refine ⟨by simp only [ApiClient.browse, idle, Option.toList_none], fun d member => ?_⟩
      refine (h.calls d member).frame fun other awaited unanswered => ?_
      -- the one refresh on its way has been answered
      by_cases same : other = id
      · simp [ApiClient.browse, same] at unanswered
      · have before : m.answers other = none := by simpa [ApiClient.browse, same] using unanswered
        exact absurd (Option.some.inj ((awaited before).symm.trans promise)) same
  | reload expired =>
      obtain rfl := Option.some.inj next
      exact ⟨rfl, fun _ => nofun⟩

theorem step_reply {reply : ApiReply δ} (next : m.step userOf transformResponse (.reply i reply) = some n) :
    ∃ c, m.calls[i]? = some c ∧ c.point = .sent ∧ n = m.respond transformResponse i c reply := by
  obtain ⟨c, here, does⟩ := Option.bind_eq_some_iff.mp next
  cases point : c.point with
  | sent => exact ⟨c, here, point, by simpa [point, eq_comm] using does⟩
  | refreshing _ | delayed | resolved _ | rejected => simp [point] at does

theorem step_resume (next : m.step userOf transformResponse (.resume i) = some n) :
    ∃ c id newToken, m.calls[i]? = some c ∧ c.point = .refreshing id ∧ m.answers id = some newToken ∧
      n = m.resume i c newToken := by
  obtain ⟨c, here, does⟩ := Option.bind_eq_some_iff.mp next
  cases point : c.point with
  | refreshing id =>
      obtain ⟨newToken, answered, rfl⟩ : ∃ newToken, m.answers id = some newToken ∧ m.resume i c newToken = n := by
        simpa [point] using does
      exact ⟨c, id, newToken, here, point, answered, rfl⟩
  | sent | delayed | resolved _ | rejected => simp [point] at does

theorem step_wake (next : m.step userOf transformResponse (.wake i) = some n) :
    ∃ c, m.calls[i]? = some c ∧ c.point = .delayed ∧ n = m.put i (c.send m.page.store.accessToken) := by
  obtain ⟨c, here, does⟩ := Option.bind_eq_some_iff.mp next
  cases point : c.point with
  | delayed => exact ⟨c, here, point, by simpa [point, eq_comm] using does⟩
  | sent | refreshing _ | resolved _ | rejected => simp [point] at does

theorem Sound.step (h : Sound transformResponse m) {act : Act δ}
    (next : m.step userOf transformResponse act = some n) : Sound transformResponse n := by
  cases act with
  | page act =>
      obtain ⟨page, stepped, rfl⟩ := Option.map_eq_some_iff.mp next
      exact h.browse stepped
  | call request =>
      obtain rfl := Option.some.inj next
      refine ⟨h.shared, fun d member => ?_⟩
      rcases List.mem_append.mp member with old | new
      · exact (h.calls d old).frame fun _ awaited => awaited
      · obtain rfl := List.mem_singleton.mp new
        exact .first rfl rfl rfl rfl
  | reply i reply =>
      obtain ⟨c, here, sent, rfl⟩ := step_reply next
      exact h.respond here sent reply
  | resume i =>
      obtain ⟨c, id, newToken, here, waits, -, rfl⟩ := step_resume next
      exact h.resume here waits newToken
  | wake i =>
      obtain ⟨c, here, delayed, rfl⟩ := step_wake next
      exact h.wake here delayed

end

/-! ## A call comes to its end -/

def SettledAt (transformResponse : δ → String → δ) (i : Nat) (m : ApiClient υ δ) : Prop :=
  ∃ c, m.calls[i]? = some c ∧ Concluded transformResponse c

/-- The steps of the call itself, and the reply to the refresh that it waits for. -/
def Own (i : Nat) (m : ApiClient υ δ) : Act δ → Prop
  | .reply j _ | .resume j | .wake j => j = i
  | .page (.refreshed id _) => m.answers id = none ∧ ∃ c, m.calls[i]? = some c ∧ c.point = .refreshing id
  | _ => False

/-- How many steps the call has left at most. -/
def stepsLeft (answers : Nat → Option (Option String)) (c : ApiCall δ) : Nat :=
  match c.point with
  | .sent => if c.retry then 1 else 4
  | .refreshing id => if (answers id).isSome then 2 else 3
  | .delayed => 2
  | .resolved _ | .rejected => 0

def left (i : Nat) (m : ApiClient υ δ) : Nat := m.calls[i]?.elim 0 (stepsLeft m.answers)

section
variable {userOf : String → Option υ} {transformResponse : δ → String → δ} {m n : ApiClient υ δ} {c : ApiCall δ}
  {i : Nat}

theorem left_eq (here : m.calls[i]? = some c) : m.left i = stepsLeft m.answers c := by
  rw [left, here, Option.elim_some]

theorem put_at (same : n.calls = m.calls) (here : m.calls[i]? = some c) (d : ApiCall δ) :
    (n.put i d).calls[i]? = some d := by
  obtain ⟨inside, -⟩ := List.getElem?_eq_some_iff.mp here
  simp [put, same, inside]

/-- What a step of the call comes to when it puts the call at a point that is nearer to its end. -/
def Nears (i : Nat) (m n : ApiClient υ δ) : Prop := (∃ d, n.calls[i]? = some d) ∧ n.left i < m.left i

theorem nears_put (here : m.calls[i]? = some c) (same : n.calls = m.calls) {d : ApiCall δ}
    (less : stepsLeft n.answers d < stepsLeft m.answers c) : Nears i m (n.put i d) := by
  have there := put_at same here d
  refine ⟨⟨d, there⟩, ?_⟩
  rw [left_eq there, left_eq here]
  exact less

theorem nears_respond (here : m.calls[i]? = some c) (sent : c.point = .sent) (reply : ApiReply δ) :
    Nears i m (m.respond transformResponse i c reply) := by
  have some : 0 < stepsLeft m.answers c := by
    simp only [stepsLeft, sent]
    split <;> omega
  cases reply with
  | ok data => exact nears_put here rfl some
  | networkError => exact nears_put (n := { m with toasts := _ }) here rfl some
  | noResponse => exact nears_put here rfl some
  | status code =>
      simp only [respond]
      split
      · rename_i unauthorized
        refine nears_put (n := { m with page := _ }) here rfl ?_
        simp only [stepsLeft, sent, unauthorized.2, Bool.false_eq_true, ↓reduceIte]
        split <;> omega
      · split
        · rename_i limited
          refine nears_put here rfl ?_
          simp [stepsLeft, sent, limited.2]
        · exact nears_put (n := { m with toasts := _ }) here rfl some

theorem Sound.nears_resume (h : Sound transformResponse m) (here : m.calls[i]? = some c) {id : Nat}
    (waits : c.point = .refreshing id) {newToken : Option String} (answered : m.answers id = some newToken) :
    Nears i m (m.resume i c newToken) := by
  obtain ⟨retry, -⟩ := (h.calls c (List.mem_of_getElem? here)).of_refreshing waits
  have two : stepsLeft m.answers c = 2 := by simp [stepsLeft, waits, answered]
  unfold ApiClient.resume
  split
  · refine nears_put here rfl ?_
    rw [two]
    simp [stepsLeft, ApiCall.send, retry]
  · refine nears_put (n := { m with redirected := true }) here rfl ?_
    rw [two]
    simp [stepsLeft]

theorem Sound.nears_wake (h : Sound transformResponse m) (here : m.calls[i]? = some c) (delayed : c.point = .delayed) :
    Nears i m (m.put i (c.send m.page.store.accessToken)) := by
  obtain ⟨retry, -⟩ := (h.calls c (List.mem_of_getElem? here)).of_delayed delayed
  refine nears_put here rfl ?_
  simp [stepsLeft, delayed, ApiCall.send, retry]

theorem nears_refreshed {id : Nat} {reply : Option String} {page : Page υ} (here : m.calls[i]? = some c)
    (waits : c.point = .refreshing id) (unanswered : m.answers id = none) :
    Nears i m (m.browse (.refreshed id reply) page) := by
  have there : (m.browse (.refreshed id reply) page).calls[i]? = some c := here
  refine ⟨⟨c, there⟩, ?_⟩
  rw [left_eq there, left_eq here]
  simp [stepsLeft, waits, unanswered, ApiClient.browse]

theorem Sound.nears (h : Sound transformResponse m) {act : Act δ} (own : Own i m act)
    (next : m.step userOf transformResponse act = some n) : Nears i m n := by
  cases act with
  | page act =>
      obtain ⟨page, -, rfl⟩ := Option.map_eq_some_iff.mp next
      cases act with
      | refreshed id reply =>
          obtain ⟨unanswered, c, here, waits⟩ := own
          exact nears_refreshed here waits unanswered
      | _ => cases own
  | call request => cases own
  | reply j reply =>
      obtain rfl : j = i := own
      obtain ⟨c, here, sent, rfl⟩ := step_reply next
      exact nears_respond here sent reply
  | resume j =>
      obtain rfl : j = i := own
      obtain ⟨c, id, newToken, here, waits, answered, rfl⟩ := step_resume next
      exact h.nears_resume here waits answered
  | wake j =>
      obtain rfl : j = i := own
      obtain ⟨c, here, delayed, rfl⟩ := step_wake next
      exact h.nears_wake here delayed

/-- A call that has not come to its end has a step to take, or waits for a refresh that is on its way. -/
theorem Sound.settled_of_stuck (h : Sound transformResponse m) (here : m.calls[i]? = some c)
    (stuck : ∀ act, Own i m act → m.step userOf transformResponse act = none) : SettledAt transformResponse i m := by
  have stage := h.calls c (List.mem_of_getElem? here)
  cases stage with
  | settledFirst concluded => exact ⟨c, here, concluded⟩
  | settledAgain concluded => exact ⟨c, here, concluded⟩
  | first sent | again sent =>
      have none := stuck (.reply i .noResponse) rfl
      simp [ApiClient.step, here, sent] at none
  | delayed delayed =>
      have none := stuck (.wake i) rfl
      simp [ApiClient.step, here, delayed] at none
  | @refreshing id waits _ _ _ awaited =>
      cases answer : m.answers id with
      | some newToken =>
          have none := stuck (.resume i) rfl
          simp [ApiClient.step, here, waits, answer] at none
      | none =>
          have flying : id ∈ m.page.refreshes := by simp [h.shared, awaited answer]
          have none := stuck (.page (.refreshed id none)) ⟨answer, c, here, waits⟩
          simp [ApiClient.step, Page.step, flying] at none

theorem Sound.settles (h : Sound transformResponse m) (here : m.calls[i]? = some c) :
    Inevitable (ApiClient.step userOf transformResponse) (Own i) (SettledAt transformResponse i) m := by
  apply inevitable_of_measure Nat.lt_wfRel.wf (left i)
    fun m => Sound transformResponse m ∧ ∃ c, m.calls[i]? = some c
  · intro s a t ⟨sound, _⟩ own next
    obtain ⟨there, lower⟩ := sound.nears own next
    exact ⟨⟨sound.step next, there⟩, lower⟩
  · intro s ⟨sound, _, there⟩ stuck
    exact sound.settled_of_stuck there stuck
  · exact ⟨h, c, here⟩

variable (userOf transformResponse) in
/-- What holds however calls, refreshes, logins and logouts interleave. -/
structure Serves (m : ApiClient υ δ) : Prop where
  sends : ∀ c ∈ m.calls, c.sends.length ≤ 2
  retried : ∀ c ∈ m.calls, c.sends.length = 2 →
    c.replies.head? = some (.status 401) ∨ c.replies.head? = some (.status 429)
  single : m.page.refreshes.length ≤ 1
  shares : ∀ c ∈ m.calls, ∀ id, c.point = .refreshing id → m.answers id = none → m.page.refreshes = [id]
  settles : ∀ i c, m.calls[i]? = some c →
    Inevitable (step userOf transformResponse) (Own i) (SettledAt transformResponse i) m

theorem Stage.sends (stage : Stage transformResponse m c) : c.sends.length = 1 ∨ c.sends.length = 2 ∧
    (c.replies.head? = some (.status 401) ∨ c.replies.head? = some (.status 429)) := by
  cases stage with
  | first _ _ sends | refreshing _ _ sends | delayed _ _ sends | settledFirst _ sends => exact Or.inl sends
  | again _ _ sends replies retried | settledAgain _ sends replies retried =>
      refine Or.inr ⟨sends, ?_⟩
      rw [replies]
      exact retried.imp (congrArg some) (congrArg some)

theorem Sound.serves (h : Sound transformResponse m) : Serves userOf transformResponse m := by
  refine ⟨fun c member => ?_, fun c member twice => ?_, ?_, fun c member id waits unanswered => ?_,
    fun i c here => h.settles here⟩
  · rcases (h.calls c member).sends with one | ⟨two, -⟩ <;> omega
  · rcases (h.calls c member).sends with one | ⟨-, retried⟩
    · omega
    · exact retried
  · rw [h.shared]
    cases m.page.refreshPromise <;> simp
  · rw [h.shared, ((h.calls c member).of_refreshing waits).2.2.2 unanswered, Option.toList_some]

theorem sound_initial (store : AuthState υ) : Sound transformResponse (ApiClient.initial store : ApiClient υ δ) :=
  ⟨rfl, fun _ => nofun⟩

end

theorem apiClient_serves (userOf : String → Option υ) (transformResponse : δ → String → δ) (store : AuthState υ)
    (acts : List (Act δ)) :
    Throughout (step userOf transformResponse) (Serves userOf transformResponse) (initial store) acts :=
  (throughout_of_step (fun _ _ _ h next => h.step next) (sound_initial store)).mono fun _ h => h.serves

end ApiClient

end CuckooEcho.Frontend
