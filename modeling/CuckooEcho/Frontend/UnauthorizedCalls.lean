import CuckooEcho.Frontend.ApiClient

namespace CuckooEcho.Frontend
open Lib Admin

namespace ApiClient
variable {υ δ : Type*}

/-! ## With the admin service as it is -/

/-- The replies to refreshes are those of the admin service. -/
def AnsweredBy (service : Service) (_ : ApiClient υ δ) : Act δ → Prop
  | .page (.refreshed _ reply) => ∃ now, reply = replyOf (service.postRefresh now refreshRequest)
  | _ => True

def Unauthorized (c : ApiCall δ) : Prop := c.replies.head? = some (.status 401)

/-- After its 401 the call was not sent again, and the admin was logged out. -/
def Rejected (m : ApiClient υ δ) (c : ApiCall δ) : Prop :=
  c.point = .rejected ∧ c.sends.length = 1 ∧ m.redirected = true ∧ c.logouts < m.page.logouts

def RejectedAt (i : Nat) (m : ApiClient υ δ) : Prop := ∃ c, m.calls[i]? = some c ∧ Rejected m c

/-- The call waits for a refresh; when that is answered, the admin has been logged out since the call's 401. -/
def Waits (m : ApiClient υ δ) (c : ApiCall δ) : Prop :=
  c.logouts ≤ m.page.logouts ∧
    ∃ id, c.point = .refreshing id ∧ (m.answers id ≠ none → c.logouts < m.page.logouts)

/-- Every refresh that has been answered has failed. -/
structure Failing (m : ApiClient υ δ) : Prop where
  answers : ∀ id reply, m.answers id = some reply → reply = none
  flying : ∀ id ∈ m.page.refreshes, id < m.page.sent ∧ m.answers id = none
  unsent : ∀ id, m.page.sent ≤ id → m.answers id = none
  calls : ∀ c ∈ m.calls, Unauthorized c → Waits m c ∨ Rejected m c

section
variable {service : Service} {userOf : String → Option υ} {transformResponse : δ → String → δ} {m n : ApiClient υ δ}
  {c : ApiCall δ} {i : Nat}

theorem reply_of_answeredBy {id : Nat} {reply : Option String}
    (answered : AnsweredBy service m (.page (.refreshed id reply))) : reply = none := by
  obtain ⟨now, rfl⟩ := answered
  rw [postRefresh_refreshRequest]
  rfl

theorem Waits.frame (h : Waits m c) (answers : n.answers = m.answers) (logouts : m.page.logouts ≤ n.page.logouts) :
    Waits n c := by
  obtain ⟨before, id, waits, out⟩ := h
  exact ⟨before.trans logouts, id, waits, fun answered => (out (answers ▸ answered)).trans_le logouts⟩

theorem Rejected.frame (h : Rejected m c) (logouts : m.page.logouts ≤ n.page.logouts)
    (redirected : m.redirected = true → n.redirected = true) : Rejected n c := by
  obtain ⟨rejected, once, gone, out⟩ := h
  exact ⟨rejected, once, redirected gone, out.trans_le logouts⟩

/-- The calls are put back, one of them at another point. -/
theorem Failing.put (h : Failing m) (same : n.calls = m.calls) (answers : n.answers = m.answers)
    (page : n.page = m.page) (redirected : m.redirected = true → n.redirected = true)
    (call : Unauthorized c → Waits n c ∨ Rejected n c) : Failing (n.put i c) := by
  have logouts : m.page.logouts ≤ n.page.logouts := (congrArg Page.logouts page).ge
  have kept : ∀ d ∈ (n.put i c).calls, Unauthorized d → Waits n d ∨ Rejected n d := by
    refine Interleaving.forall_set (same ▸ h.calls) (fun d before own => ?_) call i
    exact (before own).imp (·.frame answers logouts) (·.frame logouts redirected)
  refine ⟨answers ▸ h.answers, ?_, ?_, kept⟩
  · show ∀ id ∈ n.page.refreshes, id < n.page.sent ∧ n.answers id = none
    rw [page, answers]
    exact h.flying
  · show ∀ id, n.page.sent ≤ id → n.answers id = none
    rw [page, answers]
    exact h.unsent

theorem Failing.refreshTokenWithMutex (h : Failing m) :
    Failing { m with page := m.page.refreshTokenWithMutex } := by
  have logouts : m.page.logouts ≤ m.page.refreshTokenWithMutex.logouts := refreshTokenWithMutex_logouts.ge
  have calls (c : ApiCall δ) (member : c ∈ m.calls) (own : Unauthorized c) :
      Waits { m with page := m.page.refreshTokenWithMutex } c ∨
        Rejected { m with page := m.page.refreshTokenWithMutex } c :=
    (h.calls c member own).imp (·.frame rfl logouts) (·.frame logouts fun gone => gone)
  unfold Page.refreshTokenWithMutex at calls ⊢
  cases promise : m.page.refreshPromise with
  | some id =>
      simp only [promise] at calls
      exact ⟨h.answers, h.flying, h.unsent, calls⟩
  | none =>
      simp only [promise] at calls
      refine ⟨h.answers, fun id member => ?_, fun id later => h.unsent id (Nat.le_of_succ_le later), calls⟩
      obtain rfl | earlier := List.mem_cons.mp member
      · exact ⟨Nat.lt_succ_self _, h.unsent _ le_rfl⟩
      · exact ⟨Nat.lt_succ_of_lt (h.flying id earlier).1, (h.flying id earlier).2⟩

theorem Failing.authorized (h : Failing m) (member : c ∈ m.calls) (sent : c.point = .sent) : ¬ Unauthorized c := by
  intro unauthorized
  rcases h.calls c member unauthorized with ⟨-, id, waits, -⟩ | ⟨rejected, -⟩
  · simp [sent] at waits
  · simp [sent] at rejected

theorem Failing.unauthorized (h : Failing m) (sound : Sound transformResponse m) (member : c ∈ m.calls)
    (sent : c.point = .sent) {reply : ApiReply δ} (unauthorized : Unauthorized (c.answered reply)) :
    reply = .status 401 ∧ c.retry = false := by
  have before := h.authorized member sent
  rcases (sound.calls c member).of_sent sent with ⟨retry, -, replies⟩ | ⟨first, -, -, replies, -⟩
  · simp only [Unauthorized, ApiCall.answered, replies, List.nil_append, List.head?_cons, Option.some.injEq]
      at unauthorized
    exact ⟨unauthorized, retry⟩
  · simp only [Unauthorized, ApiCall.answered, replies, List.cons_append, List.head?_cons] at unauthorized before
    exact absurd unauthorized before

theorem Failing.respond (h : Failing m) (sound : Sound transformResponse m) (here : m.calls[i]? = some c)
    (sent : c.point = .sent) (reply : ApiReply δ) : Failing (m.respond transformResponse i c reply) := by
  have known : Unauthorized (c.answered reply) → reply = .status 401 ∧ c.retry = false :=
    h.unauthorized sound (List.mem_of_getElem? here) sent
  cases reply with
  | ok data =>
      refine h.put rfl rfl rfl id fun unauthorized => ?_
      simpa using (known unauthorized).1
  | networkError =>
      refine h.put (n := { m with toasts := _ }) rfl rfl rfl id fun unauthorized => ?_
      simpa using (known unauthorized).1
  | noResponse =>
      refine h.put rfl rfl rfl id fun unauthorized => ?_
      simpa using (known unauthorized).1
  | status code =>
      simp only [ApiClient.respond]
      split
      · -- the refresh that the call asks for is on its way
        obtain ⟨shared, asked⟩ := refreshTokenWithMutex_shared sound.shared
        obtain ⟨id, promise⟩ := Option.isSome_iff_exists.mp asked
        have after := h.refreshTokenWithMutex
        have unanswered : m.answers id = none := (after.flying id (by simp [shared, promise])).2
        refine after.put rfl rfl rfl (fun gone => gone) fun _ => Or.inl ?_
        refine ⟨refreshTokenWithMutex_logouts.ge, id, by simp [promise], fun answered => ?_⟩
        exact absurd unanswered answered
      · rename_i authorized
        have other : ¬ Unauthorized (c.answered (.status code)) := by
          intro unauthorized
          obtain ⟨same, retry⟩ := known unauthorized
          exact authorized ⟨ApiReply.status.inj same, retry⟩
        split
        · exact h.put rfl rfl rfl id fun unauthorized => absurd unauthorized other
        · exact h.put (n := { m with toasts := _ }) rfl rfl rfl id fun unauthorized => absurd unauthorized other

theorem Failing.resume (h : Failing m) (sound : Sound transformResponse m) (here : m.calls[i]? = some c) {id : Nat}
    (waits : c.point = .refreshing id) {newToken : Option String} (answered : m.answers id = some newToken) :
    Failing (m.resume i c newToken) := by
  obtain rfl := h.answers id newToken answered
  have member := List.mem_of_getElem? here
  obtain ⟨-, once, -⟩ := (sound.calls c member).of_refreshing waits
  refine h.put (n := { m with redirected := true }) rfl rfl rfl (fun _ => rfl) fun unauthorized => Or.inr ?_
  rcases h.calls c member unauthorized with ⟨-, other, same, out⟩ | ⟨rejected, -⟩
  · obtain rfl := CallPoint.refreshing.inj (waits.symm.trans same)
    exact ⟨rfl, once, rfl, out (by simp [answered])⟩
  · simp [waits] at rejected

theorem Failing.wake (h : Failing m) (sound : Sound transformResponse m) (here : m.calls[i]? = some c)
    (delayed : c.point = .delayed) : Failing (m.put i (c.send m.page.store.accessToken)) := by
  obtain ⟨-, -, replies⟩ := (sound.calls c (List.mem_of_getElem? here)).of_delayed delayed
  refine h.put rfl rfl rfl id fun unauthorized => ?_
  simp [Unauthorized, ApiCall.send, replies] at unauthorized

/-- What happens to the page besides its refreshes. -/
theorem Failing.keepPage (h : Failing m) {page : Page υ} (refreshes : page.refreshes = m.page.refreshes)
    (sent : m.page.sent ≤ page.sent) (logouts : m.page.logouts ≤ page.logouts) : Failing { m with page } := by
  refine ⟨h.answers, fun id member => ?_, fun id later => h.unsent id (sent.trans later), fun c member own => ?_⟩
  · obtain ⟨early, unanswered⟩ := h.flying id (refreshes ▸ member)
    exact ⟨early.trans_le sent, unanswered⟩
  · exact (h.calls c member own).imp (·.frame rfl logouts) (·.frame logouts fun gone => gone)

/-- The answer to a refresh logs the admin out, whom all the calls that wait for it have found logged in. -/
theorem Failing.refreshed (h : Failing m) {id : Nat} (flying : id ∈ m.page.refreshes) :
    Failing (m.browse (.refreshed id none) (m.page.refreshed userOf id none)) := by
  have answers (other : Nat) (different : other ≠ id) :
      (m.browse (.refreshed id none) (m.page.refreshed userOf id none)).answers other = m.answers other :=
    Function.update_of_ne different _ _
  have logouts : m.page.logouts < (m.page.refreshed userOf id none).logouts := Nat.lt_succ_self _
  refine ⟨fun other reply answer => ?_, fun other member => ?_, fun other later => ?_, fun c member own => ?_⟩
  · by_cases same : other = id
    · simpa [ApiClient.browse, same] using answer.symm
    · exact h.answers other reply ((answers other same).symm.trans answer)
  · obtain ⟨before, different⟩ := List.mem_filter.mp member
    rw [answers other (of_decide_eq_true different)]
    exact h.flying other before
  · rw [answers other ((h.flying id flying).1.trans_le later).ne']
    exact h.unsent other later
  · rcases h.calls c member own with ⟨before, other, waits, -⟩ | rejected
    · exact Or.inl ⟨before.trans logouts.le, other, waits, fun _ => before.trans_lt logouts⟩
    · exact Or.inr (rejected.frame logouts.le fun gone => gone)

theorem Failing.browse (h : Failing m) {act : Page.Act} {page : Page υ} (next : m.page.step userOf act = some page)
    (answered : AnsweredBy service m (.page act)) : Failing (m.browse act page) := by
  cases act with
  | login =>
      obtain rfl := Option.some.inj next
      exact h.keepPage rfl (Nat.le_succ _) le_rfl
  | loggedIn l reply =>
      obtain ⟨-, eq⟩ := Option.ite_none_right_eq_some.mp next
      obtain rfl := Option.some.inj eq
      cases reply <;> exact h.keepPage rfl le_rfl le_rfl
  | logout =>
      obtain rfl := Option.some.inj next
      exact h.keepPage rfl le_rfl (Nat.le_succ _)
  | setAccessToken token =>
      obtain rfl := Option.some.inj next
      exact h.keepPage rfl le_rfl le_rfl
  | refreshTokenWithMutex =>
      obtain rfl := Option.some.inj next
      exact h.refreshTokenWithMutex
  | refreshed id reply =>
      obtain ⟨flying, eq⟩ := Option.ite_none_right_eq_some.mp next
      obtain rfl := Option.some.inj eq
      obtain rfl := reply_of_answeredBy answered
      exact h.refreshed flying
  | reload expired =>
      obtain rfl := Option.some.inj next
      exact ⟨h.answers, fun _ => nofun, h.unsent, fun _ => nofun⟩

theorem Failing.step (h : Failing m) (sound : Sound transformResponse m) {act : Act δ}
    (answered : AnsweredBy service m act) (next : m.step userOf transformResponse act = some n) : Failing n := by
  cases act with
  | page act =>
      obtain ⟨page, stepped, rfl⟩ := Option.map_eq_some_iff.mp next
      exact h.browse stepped answered
  | call request =>
      obtain rfl := Option.some.inj next
      refine ⟨h.answers, h.flying, h.unsent, fun d member unauthorized => ?_⟩
      rcases List.mem_append.mp member with old | new
      · exact h.calls d old unauthorized
      · obtain rfl := List.mem_singleton.mp new
        cases unauthorized
  | reply i reply =>
      obtain ⟨c, here, sent, rfl⟩ := step_reply next
      exact h.respond sound here sent reply
  | resume i =>
      obtain ⟨c, id, newToken, here, waits, answer, rfl⟩ := step_resume next
      exact h.resume sound here waits answer
  | wake i =>
      obtain ⟨c, here, delayed, rfl⟩ := step_wake next
      exact h.wake sound here delayed

/-- The steps of a call that has been answered 401 leave it so. -/
theorem Failing.unauthorized_own (h : Failing m) (here : m.calls[i]? = some c) (unauthorized : Unauthorized c)
    {act : Act δ} (own : Own i m act) (next : m.step userOf transformResponse act = some n) :
    ∃ d, n.calls[i]? = some d ∧ Unauthorized d := by
  cases act with
  | page act =>
      obtain ⟨page, -, rfl⟩ := Option.map_eq_some_iff.mp next
      cases act with
      | refreshed id reply => exact ⟨c, here, unauthorized⟩
      | _ => cases own
  | call request => cases own
  | reply j reply =>
      obtain rfl : j = i := own
      obtain ⟨d, there, sent, -⟩ := step_reply next
      obtain rfl := Option.some.inj (here.symm.trans there)
      exact absurd unauthorized (h.authorized (List.mem_of_getElem? here) sent)
  | wake j =>
      obtain rfl : j = i := own
      obtain ⟨d, there, delayed, -⟩ := step_wake next
      obtain rfl := Option.some.inj (here.symm.trans there)
      rcases h.calls c (List.mem_of_getElem? here) unauthorized with ⟨-, id, waits, -⟩ | ⟨rejected, -⟩
      · simp [delayed] at waits
      · simp [delayed] at rejected
  | resume j =>
      obtain rfl : j = i := own
      obtain ⟨d, id, newToken, there, -, answered, rfl⟩ := step_resume next
      obtain rfl := Option.some.inj (here.symm.trans there)
      obtain rfl := h.answers id newToken answered
      exact ⟨_, put_at (n := { m with redirected := true }) rfl here _, unauthorized⟩

theorem Failing.rejected_of_stuck (h : Failing m) (sound : Sound transformResponse m) (here : m.calls[i]? = some c)
    (unauthorized : Unauthorized c)
    (stuck : ∀ act, Own i m act ∧ AnsweredBy service m act → m.step userOf transformResponse act = none) :
    RejectedAt i m := by
  have member := List.mem_of_getElem? here
  rcases h.calls c member unauthorized with ⟨-, id, waits, -⟩ | rejected
  · exfalso
    cases answer : m.answers id with
    | some newToken =>
        have none := stuck (.resume i) ⟨rfl, trivial⟩
        simp [ApiClient.step, here, waits, answer] at none
    | none =>
        obtain ⟨-, -, -, awaited⟩ := (sound.calls c member).of_refreshing waits
        have flying : id ∈ m.page.refreshes := by simp [sound.shared, awaited answer]
        have none := stuck (.page (.refreshed id (replyOf (service.postRefresh 0 refreshRequest))))
          ⟨⟨answer, c, here, waits⟩, 0, rfl⟩
        simp [ApiClient.step, Page.step, flying] at none
  · exact ⟨c, here, rejected⟩

variable (service userOf transformResponse) in
/-- What becomes of a call that is answered 401. -/
structure Rejects (m : ApiClient υ δ) : Prop where
  once : ∀ c ∈ m.calls, Unauthorized c → c.sends.length = 1
  rejected : ∀ i c, m.calls[i]? = some c → Unauthorized c →
    Inevitable (step userOf transformResponse) (fun m act => Own i m act ∧ AnsweredBy service m act) (RejectedAt i) m

theorem Failing.rejects (h : Failing m) (sound : Sound transformResponse m) :
    Rejects service userOf transformResponse m := by
  constructor
  · intro c member unauthorized
    rcases h.calls c member unauthorized with ⟨-, id, waits, -⟩ | ⟨-, once, -⟩
    · exact ((sound.calls c member).of_refreshing waits).2.1
    · exact once
  · intro i c here unauthorized
    apply inevitable_of_measure Nat.lt_wfRel.wf (left i)
      fun m => Sound transformResponse m ∧ Failing m ∧ ∃ c, m.calls[i]? = some c ∧ Unauthorized c
    · rintro s act t ⟨sound, failing, d, there, unauthorized⟩ ⟨own, answered⟩ next
      refine ⟨⟨sound.step next, failing.step sound answered next, ?_⟩, (sound.nears own next).2⟩
      exact failing.unauthorized_own there unauthorized own next
    · rintro s ⟨sound, failing, d, there, unauthorized⟩ stuck
      exact failing.rejected_of_stuck sound there unauthorized stuck
    · exact ⟨sound, h, c, here, unauthorized⟩

end

/-- A call that is answered 401 is not sent again: no refresh brings a token. -/
theorem unauthorized_rejected (service : Service) (userOf : String → Option υ) (transformResponse : δ → String → δ)
    (store : AuthState υ) (acts : List (Act δ))
    (along : Along (step userOf transformResponse) (AnsweredBy service) (initial store) acts) :
    Throughout (step userOf transformResponse) (Rejects service userOf transformResponse) (initial store) acts := by
  have start : Sound transformResponse (initial store : ApiClient υ δ) ∧ Failing (initial store : ApiClient υ δ) :=
    ⟨sound_initial store, fun _ _ => nofun, fun _ => nofun, fun _ _ => rfl, fun _ => nofun⟩
  have keep (m : ApiClient υ δ) (act : Act δ) (n : ApiClient υ δ) (h : Sound transformResponse m ∧ Failing m)
      (answered : AnsweredBy service m act) (next : m.step userOf transformResponse act = some n) :
      Sound transformResponse n ∧ Failing n := ⟨h.1.step next, h.2.step h.1 answered next⟩
  exact (throughout_of_along keep start along).mono fun _ h => h.2.rejects h.1

/-- Two calls are answered 401; one refresh is sent for both. -/
def unauthorizedTwice : List (Act String) :=
  [.call ⟨"/admin/v1/knowledge/docs", []⟩, .call ⟨"/admin/v1/metrics/overview", []⟩, .reply 0 (.status 401),
    .reply 1 (.status 401), .page (.refreshed 0 none), .resume 1, .resume 0]

theorem unauthorized_rejected_twice :
    Throughout (step (fun _ => some "admin-1") fun data _ => data)
      (Rejects ⟨sampleJwt, "secret"⟩ (fun _ => some "admin-1") fun data _ => data)
      (initial ⟨some "token-1", some "admin-1", true⟩) unauthorizedTwice := by
  refine unauthorized_rejected ⟨sampleJwt, "secret"⟩ _ _ _ _ (along_of_mem ?_ _)
  simp [unauthorizedTwice, AnsweredBy, postRefresh_refreshRequest, replyOf]

end ApiClient

end CuckooEcho.Frontend
