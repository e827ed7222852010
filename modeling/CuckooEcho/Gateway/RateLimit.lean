import CuckooEcho.Lib.ExpiringCounters
import CuckooEcho.Lib.Run

namespace CuckooEcho.Gateway
open Lib

structure Response where
  statusCode : Nat
  content : List (String × String)
  headers : List (String × String)
  deriving DecidableEq, Repr

def rateLimitResponse : Response :=
  { statusCode := 429, content := [("error", "Rate limit exceeded")], headers := [("Retry-After", "1")] }

/-! ## Tier 1: the local token bucket -/

structure TokenBucket where
  capacity : Int
  tokens : Rat
  lastRefill : Rat
  deriving DecidableEq, Repr

namespace TokenBucket

def new (capacity : Int) (now : Rat) : TokenBucket := ⟨capacity, capacity, now⟩

def allow (now : Rat) (bucket : TokenBucket) : Bool × TokenBucket :=
  let elapsed := now - bucket.lastRefill
  let tokens := min (bucket.capacity : Rat) (bucket.tokens + elapsed * bucket.capacity)
  if 1 ≤ tokens then (true, { bucket with tokens := tokens - 1, lastRefill := now })
  else (false, { bucket with tokens, lastRefill := now })

/-- The bucket found under a key of the `defaultdict`, replaced if the capacity has changed. -/
def current (userRps : Int) (now : Rat) (found : Option TokenBucket) : TokenBucket :=
  let bucket := found.getD (new 10 now)
  if bucket.capacity ≠ userRps then new userRps now else bucket

end TokenBucket

/-! ## `dispatch` in several processes -/

structure Request where
  path : String
  tenantId : Option String
  userId : Option String
  deriving DecidableEq, Repr

structure Caller where
  tenantId : String
  userId : String
  deriving DecidableEq, Repr

def Caller.bucketKey (c : Caller) : String := c.tenantId ++ ":" ++ c.userId

def Caller.redisKey (c : Caller) : String := "cuckoo:ratelimit:" ++ c.tenantId ++ ":" ++ c.userId

def extractUserId (request : Request) : String := request.userId.getD "anonymous"

/-- Whom a request counts for; `none` if it goes straight to `call_next`. -/
def Request.caller (request : Request) : Option Caller :=
  if request.path = "/health" then none
  else match request.tenantId with
    | none => none
    | some tenantId => if tenantId = "" then none else some ⟨tenantId, extractUserId request⟩

/-- Where a dispatch waits. Redis executes INCR and EXPIRE before their replies arrive. -/
inductive Stage
  | loading
  | incring (userRps : Int)
  | counted (userRps : Int) (count : Nat)
  | expiring (userRps : Int) (count : Nat)
  | armed (userRps : Int) (count : Nat)
  deriving DecidableEq, Repr

structure Dispatch where
  process : Nat
  caller : Caller
  stage : Stage
  deriving DecidableEq, Repr

/-- The dispatch has seen the count 1 and Redis has not executed its EXPIRE yet. -/
def Dispatch.arming (d : Dispatch) : Bool :=
  match d.stage with
  | .counted _ count => count = 1
  | .expiring .. => true
  | _ => false

inductive Outcome
  | callNext
  | respond (response : Response)
  deriving DecidableEq, Repr

/-- How a dispatch ended; `lifetime` is the number of expirations of its counter until then. -/
structure Finished where
  id : Nat
  caller : Caller
  outcome : Outcome
  lifetime : Nat
  deriving DecidableEq, Repr

/-- The tickets of `redis` are held by the dispatches whose INCR they are. -/
structure Cluster where
  redis : Counters String (Nat × Caller)
  buckets : Nat → String → Option TokenBucket
  dispatches : Nat → Option Dispatch
  started : Nat
  finished : List Finished

namespace Cluster

def initial (now : Rat) : Cluster := ⟨.empty now, fun _ _ => none, fun _ => none, 0, []⟩

def put (m : Cluster) (id : Nat) (d : Dispatch) : Cluster :=
  { m with dispatches := Function.update m.dispatches id (some d) }

def drop (m : Cluster) (id : Nat) : Cluster :=
  { m with dispatches := Function.update m.dispatches id none }

def finish (m : Cluster) (id : Nat) (d : Dispatch) (outcome : Outcome) : Cluster :=
  { m.drop id with
    finished := ⟨id, d.caller, outcome, m.redis.expirations d.caller.redisKey⟩ :: m.finished }

def start (m : Cluster) (process : Nat) (request : Request) : Cluster :=
  match request.caller with
  | none => { m with started := m.started + 1 }
  | some caller => { m.put m.started ⟨process, caller, .loading⟩ with started := m.started + 1 }

/-- `_get_user_rps` has returned: the rest of tier 1, up to the INCR. -/
def load (m : Cluster) (id : Nat) (d : Dispatch) (userRps : Int) : Cluster :=
  let found := m.buckets d.process d.caller.bucketKey
  let (allowed, bucket) := (TokenBucket.current userRps m.redis.now found).allow m.redis.now
  let m := { m with
    buckets := Function.update m.buckets d.process
      (Function.update (m.buckets d.process) d.caller.bucketKey (some bucket)) }
  if allowed then m.put id { d with stage := .incring userRps }
  else m.finish id d (.respond rateLimitResponse)

def incr (m : Cluster) (id : Nat) (d : Dispatch) (userRps : Int) : Cluster :=
  { m.put id { d with stage := .counted userRps (m.redis.next d.caller.redisKey) } with
    redis := m.redis.incr d.caller.redisKey (id, d.caller) }

def expire (m : Cluster) (id : Nat) (d : Dispatch) (userRps : Int) (count : Nat) : Cluster :=
  { m.put id { d with stage := .armed userRps count } with
    redis := m.redis.expire d.caller.redisKey 1 }

def compare (m : Cluster) (id : Nat) (d : Dispatch) (userRps : Int) (count : Nat) : Cluster :=
  m.finish id d (if userRps < count then .respond rateLimitResponse else .callNext)

inductive Act
  | start (process : Nat) (request : Request)
  | load (id : Nat) (userRps : Int)
  | incr (id : Nat)
  | expire (id : Nat)
  | resume (id : Nat)
  | abort (id : Nat)
  | wait (seconds : Rat)
  deriving DecidableEq, Repr

def step (m : Cluster) : Act → Option Cluster
  | .start process request => some (m.start process request)
  | .load id userRps => (m.dispatches id).bind fun d =>
      if d.stage = .loading then some (m.load id d userRps) else none
  | .incr id => (m.dispatches id).bind fun d =>
      match d.stage with
      | .incring userRps => some (m.incr id d userRps)
      | _ => none
  | .resume id => (m.dispatches id).bind fun d =>
      match d.stage with
      | .counted userRps count =>
          if count = 1 then some (m.put id { d with stage := .expiring userRps count })
          else some (m.compare id d userRps count)
      | .armed userRps count => some (m.compare id d userRps count)
      | _ => none
  | .expire id => (m.dispatches id).bind fun d =>
      match d.stage with
      | .expiring userRps count => some (m.expire id d userRps count)
      | _ => none
  -- a cancellation or an error at any await
  | .abort id => (m.dispatches id).bind fun _ => some (m.drop id)
  | .wait seconds => if 0 ≤ seconds then some { m with redis := m.redis.elapse seconds } else none

/-- No dispatch is cancelled or fails between its INCR and its EXPIRE. -/
def Arms (m : Cluster) : Act → Prop
  | .abort id => ∀ d ∈ m.dispatches id, d.arming = false
  | _ => True

instance (m : Cluster) : (act : Act) → Decidable (m.Arms act)
  | .abort _ => inferInstanceAs (Decidable (∀ _ ∈ _, _))
  | .start .. | .load .. | .incr _ | .expire _ | .resume _ | .wait _ => isTrue trivial

/-! ### What a step can do -/

inductive Effect (m : Cluster) : Act → Cluster → Prop
  | passed {process request} (free : request.caller = none) :
      Effect m (.start process request) { m with started := m.started + 1 }
  | started {process request caller} (limited : request.caller = some caller) :
      Effect m (.start process request)
        { m.put m.started ⟨process, caller, .loading⟩ with started := m.started + 1 }
  | allowed {id userRps d buckets} (found : m.dispatches id = some d) (stage : d.stage = .loading) :
      Effect m (.load id userRps) ({ m with buckets }.put id { d with stage := .incring userRps })
  | refused {id userRps d buckets} (found : m.dispatches id = some d) (stage : d.stage = .loading) :
      Effect m (.load id userRps) ({ m with buckets }.finish id d (.respond rateLimitResponse))
  | counted {id d userRps} (found : m.dispatches id = some d) (stage : d.stage = .incring userRps) :
      Effect m (.incr id) (m.incr id d userRps)
  | expiring {id d userRps} (found : m.dispatches id = some d) (stage : d.stage = .counted userRps 1) :
      Effect m (.resume id) (m.put id { d with stage := .expiring userRps 1 })
  | decided {id d userRps count} (found : m.dispatches id = some d)
      (stage : d.stage = .counted userRps count ∧ count ≠ 1 ∨ d.stage = .armed userRps count) :
      Effect m (.resume id) (m.compare id d userRps count)
  | armed {id d userRps count} (found : m.dispatches id = some d)
      (stage : d.stage = .expiring userRps count) : Effect m (.expire id) (m.expire id d userRps count)
  | aborted {id d} (found : m.dispatches id = some d) : Effect m (.abort id) (m.drop id)
  | waited {seconds} (forward : 0 ≤ seconds) :
      Effect m (.wait seconds) { m with redis := m.redis.elapse seconds }

theorem effect_of_step {m m' : Cluster} {act : Act} (next : m.step act = some m') : Effect m act m' := by
  cases act with
  | start process request =>
      obtain rfl := Option.some.inj next
      unfold start
      cases limited : request.caller with
      | none => exact .passed limited
      | some caller => exact .started limited
  | load id userRps =>
      obtain ⟨d, found, next⟩ := Option.bind_eq_some_iff.mp next
      obtain ⟨stage, eq⟩ := Option.ite_none_right_eq_some.mp next
      obtain rfl := Option.some.inj eq
      unfold load
      dsimp only
      split
      · exact .allowed found stage
      · exact .refused found stage
  | incr id =>
      obtain ⟨d, found, next⟩ := Option.bind_eq_some_iff.mp next
      split at next
      · rename_i userRps stage
        obtain rfl := Option.some.inj next
        exact .counted found stage
      · exact nomatch next
  | expire id =>
      obtain ⟨d, found, next⟩ := Option.bind_eq_some_iff.mp next
      split at next
      · rename_i userRps count stage
        obtain rfl := Option.some.inj next
        exact .armed found stage
      · exact nomatch next
  | resume id =>
      obtain ⟨d, found, next⟩ := Option.bind_eq_some_iff.mp next
      split at next
      · rename_i userRps count stage
        by_cases first : count = 1
        · subst first
          obtain rfl := Option.some.inj next
          exact .expiring found stage
        · rw [if_neg first] at next
          obtain rfl := Option.some.inj next
          exact .decided found (Or.inl ⟨stage, first⟩)
      · rename_i userRps count stage
        obtain rfl := Option.some.inj next
        exact .decided found (Or.inr stage)
      · exact nomatch next
  | abort id =>
      obtain ⟨d, found, next⟩ := Option.bind_eq_some_iff.mp next
      obtain rfl := Option.some.inj next
      exact .aborted found
  | wait seconds =>
      obtain ⟨forward, eq⟩ := Option.ite_none_right_eq_some.mp next
      obtain rfl := Option.some.inj eq
      exact .waited forward

/-! ### Which dispatch is where -/

theorem put_dispatches (m : Cluster) (id other : Nat) (d : Dispatch) :
    (m.put id d).dispatches other = if other = id then some d else m.dispatches other :=
  Function.update_apply ..

theorem drop_dispatches (m : Cluster) (id other : Nat) :
    (m.drop id).dispatches other = if other = id then none else m.dispatches other :=
  Function.update_apply ..

end Cluster

end CuckooEcho.Gateway
