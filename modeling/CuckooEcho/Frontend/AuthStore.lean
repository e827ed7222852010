import CuckooEcho.Lib.Run

namespace CuckooEcho.Frontend
open Lib

/-! ## The auth store

`userOf` is what `decodeJwtPayload` and `userFromPayload` make of a token. -/

structure AuthState (υ : Type*) where
  accessToken : Option String := none
  user : Option υ := none
  isAuthenticated : Bool := false
  deriving DecidableEq, Repr

def AuthState.LoggedOut {υ : Type*} (store : AuthState υ) : Prop :=
  store.accessToken = none ∧ store.isAuthenticated = false

instance {υ : Type*} (store : AuthState υ) : Decidable store.LoggedOut := inferInstanceAs (Decidable (_ ∧ _))

section
variable {υ : Type*} (userOf : String → Option υ)

/-- What `setAccessToken` and a successful `login` set. -/
def holding (token : String) : AuthState υ := ⟨some token, userOf token, true⟩

/-! ## Requests on their way -/

structure Login where
  id : Nat
  logouts : Nat
  deriving DecidableEq, Repr

/-- `refreshPromise` is the request that the shared promise waits for. After a logout the page is `left` until a
login that has started since completes; `logouts` counts the logouts. -/
structure Page (υ : Type*) where
  store : AuthState υ
  refreshPromise : Option Nat
  refreshes : List Nat
  logins : List Login
  sent : Nat
  logouts : Nat
  left : Bool

namespace Page

def initial (store : AuthState υ) : Page υ := ⟨store, none, [], [], 0, 0, false⟩

variable (m : Page υ)

def logout : Page υ := { m with store := {}, logouts := m.logouts + 1, left := true }

def setAccessToken (token : String) : Page υ := { m with store := holding userOf token }

def refreshTokenWithMutex : Page υ :=
  match m.refreshPromise with
  | some _ => m
  | none => { m with refreshPromise := some m.sent, refreshes := m.sent :: m.refreshes, sent := m.sent + 1 }

/-- What happens when the reply arrives, `none` for a request that fails. -/
def refreshed (id : Nat) (reply : Option String) : Page υ :=
  let m := { m with refreshes := m.refreshes.filter (· ≠ id), refreshPromise := none }
  match reply with
  | some token => m.setAccessToken userOf token
  | none => m.logout

def login : Page υ := { m with logins := ⟨m.sent, m.logouts⟩ :: m.logins, sent := m.sent + 1 }

def loggedIn (l : Login) (reply : Option String) : Page υ :=
  let m := { m with logins := m.logins.filter (· ≠ l) }
  match reply with
  | some token => { m.setAccessToken userOf token with left := m.left && l.logouts ≠ m.logouts }
  | none => m

/-- A new document, as `logout` asks for: what was on its way is lost, and the stored state is read back unless its
token has expired. -/
def reload (expired : Bool) : Page υ :=
  { m with
    store := if expired ∧ m.store.accessToken.getD "" ≠ "" then {} else m.store
    refreshPromise := none, refreshes := [], logins := [] }

inductive Act
  | login
  | loggedIn (l : Login) (reply : Option String)
  | logout
  | setAccessToken (token : String)
  | refreshTokenWithMutex
  | refreshed (id : Nat) (reply : Option String)
  | reload (expired : Bool)
  deriving DecidableEq, Repr

def step : Act → Option (Page υ)
  | .login => some m.login
  | .loggedIn l reply => if l ∈ m.logins then some (m.loggedIn userOf l reply) else none
  | .logout => some m.logout
  | .setAccessToken token => some (m.setAccessToken userOf token)
  | .refreshTokenWithMutex => some m.refreshTokenWithMutex
  | .refreshed id reply => if id ∈ m.refreshes then some (m.refreshed userOf id reply) else none
  | .reload expired => some (m.reload expired)

def LogoutFinal : Prop := (m.left = true → m.store.LoggedOut) ∧ m.refreshes.length ≤ 1

/-- After a logout no token arrives but that of a login that has started since. -/
def NoLateToken : Act → Prop
  | .loggedIn l (some _) => m.left = true → l.logouts = m.logouts
  | .setAccessToken _ | .refreshed _ (some _) => m.left = false
  | _ => True

end Page

namespace Page
variable {userOf} {m m' : Page υ}

/-- The promise is shared while its request is on its way. -/
structure Sound (m : Page υ) : Prop where
  shared : m.refreshes = m.refreshPromise.toList
  final : m.left = true → m.store.LoggedOut

theorem Sound.logoutFinal (h : Sound m) : m.LogoutFinal := by
  refine ⟨h.final, ?_⟩
  rw [h.shared]
  cases m.refreshPromise <;> simp

theorem Sound.logout (h : Sound m) : Sound m.logout := ⟨h.shared, fun _ => ⟨rfl, rfl⟩⟩

theorem Sound.setAccessToken (h : Sound m) (present : m.left = false) (token : String) :
    Sound (m.setAccessToken userOf token) :=
  ⟨h.shared, fun left => absurd (present.symm.trans left) Bool.false_ne_true⟩

theorem Sound.refreshTokenWithMutex (h : Sound m) : Sound m.refreshTokenWithMutex := by
  unfold Page.refreshTokenWithMutex
  split
  · exact h
  · rename_i idle
    exact ⟨by simp [h.shared, idle], h.final⟩

theorem Sound.settle (h : Sound m) {id : Nat} (flying : id ∈ m.refreshes) :
    Sound { m with refreshes := m.refreshes.filter (· ≠ id), refreshPromise := none } := by
  refine ⟨?_, h.final⟩
  rw [h.shared, Option.mem_toList] at flying
  simp [h.shared, Option.mem_def.mp flying]

theorem Sound.step (h : Sound m) {act : Act} (fresh : m.NoLateToken act) (next : m.step userOf act = some m') :
    Sound m' := by
  cases act with
  | login => exact Option.some.inj next ▸ ⟨h.shared, h.final⟩
  | logout => exact Option.some.inj next ▸ h.logout
  | setAccessToken token => exact Option.some.inj next ▸ h.setAccessToken fresh token
  | refreshTokenWithMutex => exact Option.some.inj next ▸ h.refreshTokenWithMutex
  | reload expired =>
      obtain rfl := Option.some.inj next
      refine ⟨rfl, fun left => ?_⟩
      unfold Page.reload
      dsimp only
      split
      · exact ⟨rfl, rfl⟩
      · exact h.final left
  | loggedIn l reply =>
      obtain ⟨-, eq⟩ := Option.ite_none_right_eq_some.mp next
      obtain rfl := Option.some.inj eq
      cases reply with
      | none => exact ⟨h.shared, h.final⟩
      | some token =>
          refine ⟨h.shared, fun left => ?_⟩
          obtain ⟨left, stale⟩ := Bool.and_eq_true_iff.mp left
          exact absurd (fresh left) (of_decide_eq_true stale)
  | refreshed id reply =>
      obtain ⟨flying, eq⟩ := Option.ite_none_right_eq_some.mp next
      obtain rfl := Option.some.inj eq
      cases reply with
      | none => exact (h.settle flying).logout
      | some token => exact (h.settle flying).setAccessToken fresh token

theorem noLateToken_of_logoutFinal {act : Act} (next : m.step userOf act = some m') (final : m'.LogoutFinal) :
    m.NoLateToken act := by
  -- A late token is in the store of a page that is still left.
  have late (stored : m'.store.accessToken ≠ none) : m'.left = false :=
    Bool.eq_false_iff.mpr fun left => stored (final.1 left).1
  cases act with
  | setAccessToken token =>
      obtain rfl := Option.some.inj next
      exact late nofun
  | loggedIn l reply =>
      obtain ⟨-, eq⟩ := Option.ite_none_right_eq_some.mp next
      obtain rfl := Option.some.inj eq
      cases reply with
      | none => trivial
      | some token =>
          intro left
          have present := late nofun
          simpa [Page.loggedIn, left] using present
  | refreshed id reply =>
      obtain ⟨-, eq⟩ := Option.ite_none_right_eq_some.mp next
      obtain rfl := Option.some.inj eq
      cases reply with
      | none => trivial
      | some token => exact late nofun
  | _ => trivial

end Page

/-- A logout is final in exactly the runs in which no token arrives after it that was asked for before or without
a new login. -/
theorem logoutFinal_iff_noLateToken (userOf : String → Option υ) (store : AuthState υ) (acts : List Page.Act) :
    Throughout (Page.step userOf) Page.LogoutFinal (.initial store) acts ↔
      Along (Page.step userOf) Page.NoLateToken (.initial store) acts := by
  have start : Page.Sound (.initial store) := ⟨rfl, nofun⟩
  exact throughout_iff_along_any Page.Sound (fun _ h => h.logoutFinal) (fun _ _ _ h fresh next => h.step fresh next)
    (fun _ _ _ _ next final => Page.noLateToken_of_logoutFinal next final) start

end

/-- The reply to a refresh that started before the logout. -/
def refreshAcrossLogout : List Page.Act := [.refreshTokenWithMutex, .logout, .refreshed 0 (some "token-2")]

theorem refreshAcrossLogout_notFinal :
    ¬ ∀ (userOf : String → Option String) (store : AuthState String) (acts : List Page.Act),
      Throughout (Page.step userOf) Page.LogoutFinal (.initial store) acts := by
  intro claim
  have final := claim (fun _ => none) ⟨some "token-1", none, true⟩ refreshAcrossLogout
  have ended : exec (Page.step fun _ => (none : Option String)) (.initial ⟨some "token-1", none, true⟩)
      refreshAcrossLogout = some ⟨⟨some "token-2", none, true⟩, none, [], [], 1, 1, true⟩ := rfl
  exact absurd ((final.last ended).1 rfl).1 nofun

end CuckooEcho.Frontend
