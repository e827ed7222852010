import CuckooEcho.Gateway.RateLimit

namespace CuckooEcho.Gateway
open Lib Cluster

/-! ## The limit that a dispatch loads and the one that an admin sets -/

/-- `tenants.rate_limit` -/
structure RateLimit where
  tenantRps : Option Int
  userRps : Option Int
  deriving DecidableEq, Repr

structure RateLimitUpdate where
  tenantRps : Int := 100
  userRps : Int := 10
  deriving DecidableEq, Repr

def RateLimitUpdate.modelDump (body : RateLimitUpdate) : RateLimit := ⟨some body.tenantRps, some body.userRps⟩

/-- The limit without a row of the tenant is the one without the field. -/
def userRpsOf (row : Option RateLimit) : Int := (row.bind RateLimit.userRps).getD 10

def rpsKey (tenantId : String) : String := "cuckoo:rps:" ++ tenantId

def configKey (tenantId : String) : String := "cuckoo:ratelimit_config:" ++ tenantId

structure Cached where
  userRps : Int
  expires : Rat
  deriving DecidableEq, Repr

/-- Where `_get_user_rps` waits. -/
inductive Awaited
  | cached
  | row
  | stored (userRps : Int)
  | replied (userRps : Int)
  deriving DecidableEq, Repr

structure Load where
  tenantId : String
  awaited : Awaited
  deriving DecidableEq, Repr

inductive PutStage
  | updating | deleting | responding | returned
  deriving DecidableEq, Repr

structure Put where
  tenantId : String
  body : RateLimitUpdate
  stage : PutStage
  deriving DecidableEq, Repr

/-- `lone` is a tenant's PUT that has been the only one since it started, `settled` what it has set once it has
returned, and `due` what was settled when a dispatch started. -/
structure Service where
  cluster : Cluster
  tenants : String → Option RateLimit
  cache : String → Option Cached
  loads : Nat → Option Load
  puts : List Put
  lone : String → Option Nat
  settled : String → Option Int
  due : Nat → Option Int

namespace Service

def initial (now : Rat) (tenants : String → Option RateLimit) : Service :=
  { cluster := .initial now, tenants, cache := fun _ => none, loads := fun _ => none, puts := [],
    lone := fun _ => none, settled := fun _ => none, due := fun _ => none }

def now (m : Service) : Rat := m.cluster.redis.now

def lookup (m : Service) (key : String) : Option Int :=
  ((m.cache key).filter fun entry => m.now < entry.expires).map Cached.userRps

def await (m : Service) (id : Nat) (l : Load) (awaited : Awaited) : Service :=
  { m with loads := Function.update m.loads id (some { l with awaited }) }

/-- No PUT of the tenant is on its way. -/
def Calm (m : Service) (tenantId : String) : Prop := ∀ p ∈ m.puts, p.tenantId = tenantId → p.stage = .returned

instance (m : Service) (tenantId : String) : Decidable (m.Calm tenantId) :=
  inferInstanceAs (Decidable (∀ _ ∈ _, _))

def start (m : Service) (process : Nat) (request : Request) : Service :=
  let id := m.cluster.started
  let m := { m with cluster := m.cluster.start process request }
  match request.caller with
  | none => m
  | some caller => { m with
      loads := Function.update m.loads id (some ⟨caller.tenantId, .cached⟩)
      due := Function.update m.due id (m.settled caller.tenantId) }

/-! ### `_get_user_rps` -/

def getCached (m : Service) (id : Nat) (l : Load) : Service :=
  match m.lookup (rpsKey l.tenantId) with
  | some userRps => m.await id l (.replied userRps)
  | none => m.await id l .row

def selectRow (m : Service) (id : Nat) (l : Load) : Service :=
  m.await id l (.stored (userRpsOf (m.tenants l.tenantId)))

def setCached (m : Service) (id : Nat) (l : Load) (userRps : Int) : Service :=
  { m.await id l (.replied userRps) with
    cache := Function.update m.cache (rpsKey l.tenantId) (some ⟨userRps, m.now + 60⟩) }

/-! ### `update_rate_limit` -/

def put (m : Service) (tenantId : String) (body : RateLimitUpdate) : Service :=
  { m with
    puts := m.puts ++ [⟨tenantId, body, .updating⟩]
    lone := Function.update m.lone tenantId (if m.Calm tenantId then some m.puts.length else none)
    settled := Function.update m.settled tenantId none }

def proceed (m : Service) (i : Nat) (p : Put) (stage : PutStage) : Service :=
  { m with puts := m.puts.set i { p with stage } }

def update (m : Service) (i : Nat) (p : Put) : Service :=
  { m.proceed i p .deleting with
    tenants := Function.update m.tenants p.tenantId ((m.tenants p.tenantId).map fun _ => p.body.modelDump) }

def delete (m : Service) (i : Nat) (p : Put) : Service :=
  { m.proceed i p .responding with cache := Function.update m.cache (configKey p.tenantId) none }

def respond (m : Service) (i : Nat) (p : Put) : Service :=
  { m.proceed i p .returned with
    settled := if m.lone p.tenantId = some i then Function.update m.settled p.tenantId (some p.body.userRps)
      else m.settled }

inductive Act
  | start (process : Nat) (request : Request)
  | getCached (id : Nat)
  | selectRow (id : Nat)
  | setCached (id : Nat)
  | load (id : Nat)
  | incr (id : Nat)
  | expire (id : Nat)
  | resume (id : Nat)
  | abort (id : Nat)
  | wait (seconds : Rat)
  | put (tenantId : String) (body : RateLimitUpdate)
  | update (i : Nat)
  | delete (i : Nat)
  | respond (i : Nat)
  deriving DecidableEq, Repr

def forward (m : Service) (act : Cluster.Act) : Option Service :=
  (m.cluster.step act).map fun cluster => { m with cluster }

def step (m : Service) : Act → Option Service
  | .start process request => some (m.start process request)
  | .getCached id => (m.loads id).bind fun l => if l.awaited = .cached then some (m.getCached id l) else none
  | .selectRow id => (m.loads id).bind fun l => if l.awaited = .row then some (m.selectRow id l) else none
  | .setCached id => (m.loads id).bind fun l =>
      match l.awaited with
      | .stored userRps => some (m.setCached id l userRps)
      | _ => none
  | .load id => (m.loads id).bind fun l =>
      match l.awaited with
      | .replied userRps => { m with loads := Function.update m.loads id none }.forward (.load id userRps)
      | _ => none
  | .incr id => m.forward (.incr id)
  | .expire id => m.forward (.expire id)
  | .resume id => m.forward (.resume id)
  | .abort id => { m with loads := Function.update m.loads id none }.forward (.abort id)
  | .wait seconds => m.forward (.wait seconds)
  | .put tenantId body => some (m.put tenantId body)
  | .update i => m.puts[i]?.bind fun p => if p.stage = .updating then some (m.update i p) else none
  | .delete i => m.puts[i]?.bind fun p => if p.stage = .deleting then some (m.delete i p) else none
  | .respond i => m.puts[i]?.bind fun p => if p.stage = .responding then some (m.respond i p) else none

/-! ### What a request is checked against -/

/-- The capacity of the bucket that tier 1 asks, and what tier 2 compares the count with. -/
def checks (m : Service) : Act → Option (Nat × Int)
  | .load id => do
      let l ← m.loads id
      let d ← m.cluster.dispatches id
      match l.awaited with
      | .replied userRps =>
          let found := m.cluster.buckets d.process d.caller.bucketKey
          some (id, (TokenBucket.current userRps m.now found).capacity)
      | _ => none
  | .resume id => do
      let d ← m.cluster.dispatches id
      match d.stage with
      | .counted userRps count => if count = 1 then none else some (id, userRps)
      | .armed userRps _ => some (id, userRps)
      | _ => none
  | _ => none

/-- A dispatch that has started after a PUT returned and before another one is checked against what it set. -/
def TakesEffect (m : Service) (act : Act) : Prop :=
  ∀ check ∈ m.checks act, ∀ userRps ∈ m.due check.1, check.2 = userRps

/-- A PUT is one of a tenant, and no `_get_user_rps` of the tenant is under way while it runs. -/
def Apart (m : Service) : Act → Prop
  | .put tenantId _ => (m.tenants tenantId).isSome ∧
      ∀ id < m.cluster.started, ∀ l ∈ m.loads id, l.tenantId ≠ tenantId
  | .start _ request => ∀ caller ∈ request.caller, m.Calm caller.tenantId
  | _ => True

instance (m : Service) (act : Act) : Decidable (m.TakesEffect act) :=
  inferInstanceAs (Decidable (∀ _ ∈ _, ∀ _ ∈ _, _))

instance (m : Service) : (act : Act) → Decidable (m.Apart act)
  | .put .. => inferInstanceAs (Decidable (_ ∧ ∀ id < _, ∀ _ ∈ _, _))
  | .start .. => inferInstanceAs (Decidable (∀ _ ∈ _, _))
  | .getCached _ | .selectRow _ | .setCached _ | .load _ | .incr _ | .expire _ | .resume _ | .abort _ | .wait _
  | .update _ | .delete _ | .respond _ => isTrue trivial

/-- No other limit than the one set last is still cached when the dispatch asks for it. -/
def FindsCurrent (m : Service) : Act → Prop
  | .getCached id => ∀ l ∈ m.loads id, ∀ userRps ∈ m.due id,
      ∀ cached ∈ m.lookup (rpsKey l.tenantId), cached = userRps
  | _ => True

instance (m : Service) : (act : Act) → Decidable (m.FindsCurrent act)
  | .getCached _ => inferInstanceAs (Decidable (∀ _ ∈ _, ∀ _ ∈ _, ∀ _ ∈ _, _))
  | .start .. | .selectRow _ | .setCached _ | .load _ | .incr _ | .expire _ | .resume _ | .abort _ | .wait _
  | .put .. | .update _ | .delete _ | .respond _ => isTrue trivial

end Service

def Stage.userRps : Stage → Option Int
  | .loading => none
  | .incring userRps | .counted userRps _ | .expiring userRps _ | .armed userRps _ => some userRps

theorem Cluster.Effect.userRps {m m' : Cluster} {act : Cluster.Act} (effect : m.Effect act m') {id : Nat}
    {d : Dispatch} (found : m'.dispatches id = some d) {limit : Int} (limited : d.stage.userRps = some limit) :
    (∃ e, m.dispatches id = some e ∧ e.stage.userRps = some limit) ∨ act = .load id limit := by
  -- A stage that follows another one keeps its limit.
  have follows {k : Cluster} {i : Nat} {e e' : Dispatch} (k_dispatches : k.dispatches = m.dispatches)
      (before : m.dispatches i = some e) (same : e'.stage.userRps = e.stage.userRps)
      (found : (k.put i e').dispatches id = some d) :
      ∃ e, m.dispatches id = some e ∧ e.stage.userRps = some limit := by
    rw [put_dispatches] at found
    split at found
    · rename_i here
      obtain rfl := Option.some.inj found
      exact ⟨e, here ▸ before, same ▸ limited⟩
    · exact ⟨d, k_dispatches ▸ found, limited⟩
  have stays {k : Cluster} {i : Nat} (k_dispatches : k.dispatches = m.dispatches)
      (found : (k.drop i).dispatches id = some d) :
      ∃ e, m.dispatches id = some e ∧ e.stage.userRps = some limit := by
    rw [drop_dispatches, Option.ite_none_left_eq_some] at found
    exact ⟨d, k_dispatches ▸ found.2, limited⟩
  cases effect with
  | passed free => exact Or.inl ⟨d, found, limited⟩
  | @started process request caller owner =>
      rw [show _ = (m.put m.started _).dispatches id from rfl, put_dispatches] at found
      split at found
      · obtain rfl := Option.some.inj found
        exact nomatch limited
      · exact Or.inl ⟨d, found, limited⟩
  | @allowed i userRps e buckets before stage =>
      rw [put_dispatches] at found
      split at found
      · rename_i here
        obtain rfl := Option.some.inj found
        obtain rfl := Option.some.inj limited
        exact Or.inr (here ▸ rfl)
      · exact Or.inl ⟨d, found, limited⟩
  | refused before stage => exact Or.inl (stays rfl found)
  | counted before stage => exact Or.inl (follows rfl before (by rw [stage]; rfl) found)
  | expiring before stage => exact Or.inl (follows rfl before (by rw [stage]; rfl) found)
  | decided before stage => exact Or.inl (stays rfl found)
  | armed before stage => exact Or.inl (follows rfl before (by rw [stage]; rfl) found)
  | aborted before => exact Or.inl (stays rfl found)
  | waited forward => exact Or.inl ⟨d, found, limited⟩

theorem Cluster.Effect.issued {m m' : Cluster} {act : Cluster.Act} (effect : m.Effect act m')
    (issued : ∀ id d, m.dispatches id = some d → id < m.started) {id : Nat} {d : Dispatch}
    (found : m'.dispatches id = some d) : id < m'.started := by
  have puts {k : Cluster} {i : Nat} {e e' : Dispatch} (k_dispatches : k.dispatches = m.dispatches)
      (before : m.dispatches i = some e) (found : (k.put i e').dispatches id = some d) : id < m.started := by
    rw [put_dispatches] at found
    split at found
    · rename_i here
      exact here ▸ issued i e before
    · exact issued id d (k_dispatches ▸ found)
  have drops {k : Cluster} {i : Nat} (k_dispatches : k.dispatches = m.dispatches)
      (found : (k.drop i).dispatches id = some d) : id < m.started := by
    rw [drop_dispatches, Option.ite_none_left_eq_some] at found
    exact issued id d (k_dispatches ▸ found.2)
  cases effect with
  | passed free => exact Nat.lt_succ_of_lt (issued id d found)
  | @started process request caller owner =>
      rw [show _ = (m.put m.started _).dispatches id from rfl, put_dispatches] at found
      split at found
      · rename_i here
        exact here ▸ Nat.lt_succ_self _
      · exact Nat.lt_succ_of_lt (issued id d found)
  | allowed before stage => exact puts rfl before found
  | refused before stage => exact drops rfl found
  | counted before stage => exact puts rfl before found
  | expiring before stage => exact puts rfl before found
  | decided before stage => exact drops rfl found
  | armed before stage => exact puts rfl before found
  | aborted before => exact drops rfl found
  | waited forward => exact issued id d found

theorem Cluster.Effect.started_le {m m' : Cluster} {act : Cluster.Act} (effect : m.Effect act m') :
    m.started ≤ m'.started := by
  cases effect with
  | passed | started => exact Nat.le_succ _
  | _ => exact le_rfl

namespace Service

/-- What is settled for a tenant is in its row, and what its dispatches have loaded since is the same. -/
structure Settling (m : Service) : Prop where
  issued : ∀ id d, m.cluster.dispatches id = some d → id < m.cluster.started
  loads : ∀ id l, m.loads id = some l → id < m.cluster.started
  calm : ∀ id l, m.loads id = some l → m.Calm l.tenantId
  due : ∀ id l, m.loads id = some l → m.due id = m.settled l.tenantId
  loaded : ∀ id l, m.loads id = some l → ∀ userRps, l.awaited = .stored userRps ∨ l.awaited = .replied userRps →
    ∀ limit ∈ m.due id, userRps = limit
  limited : ∀ id d, m.cluster.dispatches id = some d → ∀ userRps ∈ d.stage.userRps,
    ∀ limit ∈ m.due id, userRps = limit
  known : ∀ p ∈ m.puts, (m.tenants p.tenantId).isSome
  lone : ∀ tenantId i, m.lone tenantId = some i → ∃ p, m.puts[i]? = some p ∧ p.tenantId = tenantId ∧
    (∀ j q, m.puts[j]? = some q → q.tenantId = tenantId → j ≠ i → q.stage = .returned) ∧
    (p.stage ≠ .updating → userRpsOf (m.tenants tenantId) = p.body.userRps)
  settled : ∀ tenantId limit, m.settled tenantId = some limit → ∃ i p, m.lone tenantId = some i ∧
    m.puts[i]? = some p ∧ p.stage = .returned ∧ p.body.userRps = limit

section
variable {m : Service} {id : Nat} {l : Load}

theorem Settling.row (h : Settling m) {tenantId : String} {limit : Int}
    (settled : m.settled tenantId = some limit) : userRpsOf (m.tenants tenantId) = limit := by
  obtain ⟨i, p, lone, found, returned, rfl⟩ := h.settled tenantId limit settled
  obtain ⟨q, found', -, -, row⟩ := h.lone tenantId i lone
  obtain rfl := Option.some.inj (found.symm.trans found')
  exact row (by simp [returned])

theorem Settling.await (h : Settling m) (found : m.loads id = some l) {awaited : Awaited}
    (current : ∀ userRps, awaited = .stored userRps ∨ awaited = .replied userRps →
      ∀ limit ∈ m.due id, userRps = limit) : Settling (m.await id l awaited) where
  issued := h.issued
  loads other l' here := by
    simp only [Service.await, Function.update_apply] at here
    split at here
    · rename_i same
      exact same ▸ h.loads id l found
    · exact h.loads other l' here
  calm other l' here := by
    simp only [Service.await, Function.update_apply] at here
    split at here
    · obtain rfl := Option.some.inj here
      exact h.calm id l found
    · exact h.calm other l' here
  due other l' here := by
    simp only [Service.await, Function.update_apply] at here
    split at here
    · rename_i same
      obtain rfl := Option.some.inj here
      exact same ▸ h.due id l found
    · exact h.due other l' here
  loaded other l' here := by
    simp only [Service.await, Function.update_apply] at here
    split at here
    · rename_i same
      obtain rfl := Option.some.inj here
      exact same ▸ current
    · exact h.loaded other l' here
  limited := h.limited
  known := h.known
  lone := h.lone
  settled := h.settled

theorem Settling.withCache (h : Settling m) (cache : String → Option Cached) : Settling { m with cache } :=
  ⟨h.issued, h.loads, h.calm, h.due, h.loaded, h.limited, h.known, h.lone, h.settled⟩

theorem Settling.unload (h : Settling m) (id : Nat) :
    Settling { m with loads := Function.update m.loads id none } := by
  have before {other : Nat} {l : Load} (here : Function.update m.loads id none other = some l) :
      m.loads other = some l := by
    rw [Function.update_apply, Option.ite_none_left_eq_some] at here
    exact here.2
  exact ⟨h.issued, fun other l here => h.loads other l (before here), fun other l here => h.calm other l (before here),
    fun other l here => h.due other l (before here), fun other l here => h.loaded other l (before here), h.limited,
    h.known, h.lone, h.settled⟩

theorem Settling.forward (h : Settling m) {act : Cluster.Act} {m' : Service}
    (current : ∀ id userRps, act = .load id userRps → ∀ limit ∈ m.due id, userRps = limit)
    (next : m.forward act = some m') : Settling m' := by
  obtain ⟨cluster, moved, rfl⟩ := Option.map_eq_some_iff.mp next
  have effect := effect_of_step moved
  refine { h with issued := fun _ _ => effect.issued h.issued, loads := fun id l found => ?_, limited := ?_ }
  · exact (h.loads id l found).trans_le effect.started_le
  · intro id d found userRps limited limit due
    rcases effect.userRps found limited with ⟨e, before, limited⟩ | loads
    · exact h.limited id e before userRps limited limit due
    · exact current id userRps loads limit due

theorem Settling.start (h : Settling m) (process : Nat) {request : Request}
    (apart : m.Apart (.start process request)) : Settling (m.start process request) := by
  have effect : m.cluster.Effect (.start process request) (m.cluster.start process request) :=
    effect_of_step rfl
  unfold Service.start
  dsimp only
  cases owner : request.caller with
  | none =>
      refine { h with issued := fun _ _ => effect.issued h.issued, loads := fun id l found => ?_, limited := ?_ }
      · exact (h.loads id l found).trans_le effect.started_le
      · intro id d found userRps limited
        obtain ⟨e, before, limited⟩ := (effect.userRps found limited).resolve_right nofun
        exact h.limited id e before userRps limited
  | some caller =>
      have counted : m.cluster.started < (m.cluster.start process request).started := by
        simp [Cluster.start, owner]
      refine { h with
        issued := fun _ _ => effect.issued h.issued, loads := ?_, calm := ?_, due := ?_, loaded := ?_, limited := ?_ }
      all_goals simp only [Function.update_apply]
      · intro id l found
        split at found
        · rename_i same
          exact same ▸ counted
        · exact (h.loads id l found).trans_le effect.started_le
      · intro id l found
        split at found
        · obtain rfl := Option.some.inj found
          exact apart caller owner
        · exact h.calm id l found
      · intro id l found
        split at found
        · rename_i same
          obtain rfl := Option.some.inj found
          rw [if_pos same]
        · rename_i ne
          rw [if_neg ne]
          exact h.due id l found
      · intro id l found
        split at found
        · obtain rfl := Option.some.inj found
          rintro userRps (stored | replied)
          · exact nomatch stored
          · exact nomatch replied
        · rename_i ne
          rw [if_neg ne]
          exact h.loaded id l found
      · intro id d found userRps limited
        obtain ⟨e, before, limited⟩ := (effect.userRps found limited).resolve_right nofun
        rw [if_neg (Nat.ne_of_lt (h.issued id e before))]
        exact h.limited id e before userRps limited

/-! ### The steps of a PUT -/

theorem Settling.put (h : Settling m) {tenantId : String} {body : RateLimitUpdate}
    (apart : m.Apart (.put tenantId body)) : Settling (m.put tenantId body) where
  issued := h.issued
  loads := h.loads
  calm id l found p member same := by
    rcases List.mem_append.mp member with old | new
    · exact h.calm id l found p old same
    · obtain rfl := List.mem_singleton.mp new
      exact absurd same.symm (apart.2 id (h.loads id l found) l found)
  due id l found := by
    have other := apart.2 id (h.loads id l found) l found
    simp only [Service.put, Function.update_of_ne other]
    exact h.due id l found
  loaded := h.loaded
  limited := h.limited
  known p member := by
    rcases List.mem_append.mp member with old | new
    · exact h.known p old
    · obtain rfl := List.mem_singleton.mp new
      exact apart.1
  lone tenantId' i alone := by
    simp only [Service.put, Function.update_apply] at alone ⊢
    split at alone
    · rename_i same
      subst same
      obtain ⟨calm, eq⟩ := Option.ite_none_right_eq_some.mp alone
      obtain rfl := Option.some.inj eq
      refine ⟨_, List.getElem?_concat_length, rfl, fun j q found same ne => ?_, fun later => absurd rfl later⟩
      have old : j < m.puts.length := by
        have bound := (List.getElem?_eq_some_iff.mp found).1
        rw [List.length_append, List.length_singleton] at bound
        omega
      rw [List.getElem?_append_left old] at found
      exact calm q (List.mem_of_getElem? found) same
    · rename_i differs
      obtain ⟨p, found, owner, others, row⟩ := h.lone tenantId' i alone
      refine ⟨p, ?_, owner, fun j q found' same ne => ?_, row⟩
      · rw [List.getElem?_append_left (List.getElem?_eq_some_iff.mp found).1]
        exact found
      · by_cases old : j < m.puts.length
        · rw [List.getElem?_append_left old] at found'
          exact others j q found' same ne
        · have new : q ∈ [(⟨tenantId, body, .updating⟩ : Put)] := by
            rw [List.getElem?_append_right (by omega)] at found'
            exact List.mem_of_getElem? found'
          obtain rfl := List.mem_singleton.mp new
          exact absurd same (Ne.symm differs)
  settled tenantId' limit eq := by
    simp only [Service.put, Function.update_apply] at eq ⊢
    split at eq
    · exact nomatch eq
    · rename_i differs
      obtain ⟨i, p, lone, found, rest⟩ := h.settled tenantId' limit eq
      refine ⟨i, p, by rw [if_neg differs]; exact lone, ?_, rest⟩
      rw [List.getElem?_append_left (List.getElem?_eq_some_iff.mp found).1]
      exact found

section
variable {i : Nat} {p : Put}

theorem Settling.lone_eq (h : Settling m) (found : m.puts[i]? = some p) (busy : p.stage ≠ .returned) {j : Nat}
    (alone : m.lone p.tenantId = some j) : j = i := by
  obtain ⟨q, -, -, others, -⟩ := h.lone _ j alone
  exact not_not.mp fun ne => busy (others i p found rfl (Ne.symm ne))

theorem Settling.unsettled (h : Settling m) (found : m.puts[i]? = some p) (busy : p.stage ≠ .returned) :
    m.settled p.tenantId = none := by
  cases settled : m.settled p.tenantId with
  | none => rfl
  | some limit =>
      obtain ⟨j, q, alone, found', returned, -⟩ := h.settled _ limit settled
      obtain rfl := h.lone_eq found busy alone
      obtain rfl := Option.some.inj (found.symm.trans found')
      exact absurd returned busy

theorem Settling.loads_elsewhere (h : Settling m) (found : m.puts[i]? = some p) (busy : p.stage ≠ .returned)
    (here : m.loads id = some l) : l.tenantId ≠ p.tenantId := fun same =>
  busy (h.calm id l here p (List.mem_of_getElem? found) same.symm)

/-- A PUT goes on; if it has been alone, the row holds what it sets. -/
theorem Settling.proceed (h : Settling m) (found : m.puts[i]? = some p) (busy : p.stage ≠ .returned)
    (stage : PutStage) {tenants : String → Option RateLimit}
    (elsewhere : ∀ tenantId, tenantId ≠ p.tenantId → tenants tenantId = m.tenants tenantId)
    (known : (tenants p.tenantId).isSome)
    (row : m.lone p.tenantId = some i → userRpsOf (tenants p.tenantId) = p.body.userRps) :
    Settling { m.proceed i p stage with tenants } where
  issued := h.issued
  loads := h.loads
  calm id l here q member same := by
    rcases List.mem_or_eq_of_mem_set member with old | rfl
    · exact h.calm id l here q old same
    · exact absurd (show l.tenantId = p.tenantId from same.symm) (h.loads_elsewhere found busy here)
  due := h.due
  loaded := h.loaded
  limited := h.limited
  known q member := by
    have before : (m.tenants q.tenantId).isSome := by
      rcases List.mem_or_eq_of_mem_set member with old | rfl
      · exact h.known q old
      · exact h.known p (List.mem_of_getElem? found)
    change (tenants q.tenantId).isSome
    by_cases same : q.tenantId = p.tenantId
    · exact same ▸ known
    · exact (elsewhere _ same).symm ▸ before
  lone tenantId j alone := by
    have there (k : Nat) : (m.puts.set i { p with stage })[k]? =
        if i = k then some { p with stage } else m.puts[k]? := by
      rw [List.getElem?_set]
      simp [(List.getElem?_eq_some_iff.mp found).1]
    simp only [Service.proceed, there]
    by_cases here : tenantId = p.tenantId
    · subst here
      obtain rfl := h.lone_eq found busy alone
      obtain ⟨q, found', -, others, -⟩ := h.lone _ j alone
      refine ⟨{ p with stage }, if_pos rfl, rfl, fun k q' found'' same ne => ?_, fun _ => row alone⟩
      rw [if_neg (Ne.symm ne)] at found''
      exact others k q' found'' same ne
    · obtain ⟨q, found', owner, others, held⟩ := h.lone tenantId j alone
      have apart : i ≠ j := by
        rintro rfl
        obtain rfl := Option.some.inj (found.symm.trans found')
        exact here owner.symm
      refine ⟨q, by rw [if_neg apart, found'], owner, fun k q' found'' same ne => ?_, ?_⟩
      · split at found''
        · obtain rfl := Option.some.inj found''
          exact absurd same.symm here
        · exact others k q' found'' same ne
      · rw [elsewhere tenantId here]
        exact held
  settled tenantId limit settled := by
    obtain ⟨j, q, alone, found', returned, eq⟩ := h.settled tenantId limit settled
    have apart : i ≠ j := by
      rintro rfl
      obtain rfl := Option.some.inj (found.symm.trans found')
      exact busy returned
    exact ⟨j, q, alone, (List.getElem?_set_ne apart).trans found', returned, eq⟩

theorem Settling.row_of_lone (h : Settling m) (found : m.puts[i]? = some p) (updated : p.stage ≠ .updating)
    (alone : m.lone p.tenantId = some i) : userRpsOf (m.tenants p.tenantId) = p.body.userRps := by
  obtain ⟨q, found', -, -, row⟩ := h.lone _ i alone
  obtain rfl := Option.some.inj (found.symm.trans found')
  exact row updated

theorem Settling.update (h : Settling m) (found : m.puts[i]? = some p) (stage : p.stage = .updating) :
    Settling (m.update i p) := by
  obtain ⟨row, here⟩ := Option.isSome_iff_exists.mp (h.known p (List.mem_of_getElem? found))
  refine h.proceed found (by simp [stage]) .deleting (fun tenantId ne => Function.update_of_ne ne ..) ?_ fun _ => ?_
  · rw [Function.update_self, here]
    rfl
  · rw [Function.update_self, here]
    rfl

theorem Settling.delete (h : Settling m) (found : m.puts[i]? = some p) (stage : p.stage = .deleting) :
    Settling (m.delete i p) :=
  (h.proceed found (by simp [stage]) .responding (fun _ _ => rfl) (h.known p (List.mem_of_getElem? found))
    (h.row_of_lone found (by simp [stage]))).withCache _

theorem Settling.respond (h : Settling m) (found : m.puts[i]? = some p) (stage : p.stage = .responding) :
    Settling (m.respond i p) := by
  have busy : p.stage ≠ .returned := by simp [stage]
  have proceeded : Settling (m.proceed i p .returned) :=
    h.proceed found busy .returned (fun _ _ => rfl) (h.known p (List.mem_of_getElem? found))
      (h.row_of_lone found (by simp [stage]))
  unfold Service.respond
  by_cases alone : m.lone p.tenantId = some i
  · simp only [alone, ↓reduceIte]
    refine { proceeded with due := fun id l here => ?_, settled := fun tenantId limit settled => ?_ }
    · change m.due id = Function.update m.settled p.tenantId _ l.tenantId
      rw [Function.update_of_ne (h.loads_elsewhere found busy here)]
      exact h.due id l here
    · change Function.update m.settled p.tenantId _ tenantId = some limit at settled
      rw [Function.update_apply] at settled
      split at settled
      · rename_i same
        refine ⟨i, { p with stage := .returned }, same ▸ alone, ?_, rfl, Option.some.inj settled⟩
        exact List.getElem?_set_self (List.getElem?_eq_some_iff.mp found).1
      · exact proceeded.settled tenantId limit settled
  · simp only [alone, ↓reduceIte]
    exact proceeded

end

/-! ### Runs -/

theorem Settling.getCached (h : Settling m) (found : m.loads id = some l)
    (current : m.FindsCurrent (.getCached id)) : Settling (m.getCached id l) := by
  unfold Service.getCached
  split
  · rename_i cached here
    refine h.await found ?_
    rintro userRps (stored | replied)
    · exact nomatch stored
    · obtain rfl := Awaited.replied.inj replied
      exact fun limit due => current l found limit due cached here
  · refine h.await found ?_
    rintro userRps (stored | replied)
    · exact nomatch stored
    · exact nomatch replied

theorem Settling.selectRow (h : Settling m) (found : m.loads id = some l) : Settling (m.selectRow id l) := by
  refine h.await found ?_
  rintro userRps (stored | replied) limit due
  · obtain rfl := Awaited.stored.inj stored
    exact h.row ((h.due id l found).symm.trans due)
  · exact nomatch replied

theorem Settling.setCached (h : Settling m) (found : m.loads id = some l) {userRps : Int}
    (stored : l.awaited = .stored userRps) : Settling (m.setCached id l userRps) := by
  refine (h.await found ?_).withCache _
  rintro userRps' (stored' | replied)
  · exact nomatch stored'
  · obtain rfl := Awaited.replied.inj replied
    exact h.loaded id l found userRps (Or.inl stored)

theorem Settling.step {m' : Service} {act : Act} (h : Settling m) (apart : m.Apart act)
    (current : m.FindsCurrent act) (next : m.step act = some m') : Settling m' := by
  cases act with
  | start process request => exact Option.some.inj next ▸ h.start process apart
  | getCached id =>
      obtain ⟨l, found, next⟩ := Option.bind_eq_some_iff.mp next
      obtain ⟨-, eq⟩ := Option.ite_none_right_eq_some.mp next
      exact Option.some.inj eq ▸ h.getCached found current
  | selectRow id =>
      obtain ⟨l, found, next⟩ := Option.bind_eq_some_iff.mp next
      obtain ⟨-, eq⟩ := Option.ite_none_right_eq_some.mp next
      exact Option.some.inj eq ▸ h.selectRow found
  | setCached id =>
      obtain ⟨l, found, next⟩ := Option.bind_eq_some_iff.mp next
      split at next
      · rename_i userRps stored
        exact Option.some.inj next ▸ h.setCached found stored
      · exact nomatch next
  | load id =>
      obtain ⟨l, found, next⟩ := Option.bind_eq_some_iff.mp next
      split at next
      · rename_i userRps replied
        refine (h.unload id).forward ?_ next
        rintro id' userRps' same limit due
        obtain ⟨rfl, rfl⟩ := Cluster.Act.load.inj same
        exact h.loaded id l found userRps (Or.inr replied) limit due
      · exact nomatch next
  | incr id => exact h.forward (by simp) next
  | expire id => exact h.forward (by simp) next
  | resume id => exact h.forward (by simp) next
  | abort id => exact (h.unload id).forward (by simp) next
  | wait seconds => exact h.forward (by simp) next
  | put tenantId body => exact Option.some.inj next ▸ h.put apart
  | update i =>
      obtain ⟨p, found, next⟩ := Option.bind_eq_some_iff.mp next
      obtain ⟨stage, eq⟩ := Option.ite_none_right_eq_some.mp next
      exact Option.some.inj eq ▸ h.update found stage
  | delete i =>
      obtain ⟨p, found, next⟩ := Option.bind_eq_some_iff.mp next
      obtain ⟨stage, eq⟩ := Option.ite_none_right_eq_some.mp next
      exact Option.some.inj eq ▸ h.delete found stage
  | respond i =>
      obtain ⟨p, found, next⟩ := Option.bind_eq_some_iff.mp next
      obtain ⟨stage, eq⟩ := Option.ite_none_right_eq_some.mp next
      exact Option.some.inj eq ▸ h.respond found stage

theorem capacity_current (userRps : Int) (now : Rat) (found : Option TokenBucket) :
    (TokenBucket.current userRps now found).capacity = userRps := by
  unfold TokenBucket.current
  dsimp only
  split
  · rfl
  · rename_i same
    exact not_not.mp same

theorem Settling.takesEffect (h : Settling m) (act : Act) : m.TakesEffect act := by
  intro check checked userRps due
  cases act with
  | load id =>
      obtain ⟨l, found, checked⟩ := Option.bind_eq_some_iff.mp checked
      obtain ⟨d, -, checked⟩ := Option.bind_eq_some_iff.mp checked
      split at checked
      · rename_i limit replied
        obtain rfl := Option.some.inj checked
        exact (capacity_current ..).trans (h.loaded id l found limit (Or.inr replied) userRps due)
      · exact nomatch checked
  | resume id =>
      obtain ⟨d, found, checked⟩ := Option.bind_eq_some_iff.mp checked
      split at checked
      · rename_i limit count stage
        obtain ⟨-, eq⟩ := Option.ite_none_left_eq_some.mp checked
        obtain rfl := Option.some.inj eq
        exact h.limited id d found limit (by rw [stage]; rfl) userRps due
      · rename_i limit count stage
        obtain rfl := Option.some.inj checked
        exact h.limited id d found limit (by rw [stage]; rfl) userRps due
      · exact nomatch checked
  | _ => exact nomatch checked

theorem settling_initial (now : Rat) (tenants : String → Option RateLimit) : Settling (initial now tenants) := by
  refine ⟨?_, ?_, ?_, ?_, ?_, ?_, ?_, ?_, ?_⟩ <;> simp [initial, Cluster.initial]

end

/-- As long as no dispatch finds an older limit still cached, every one that starts after a PUT is checked against
what the PUT has set. -/
theorem takesEffect_of_findsCurrent (now : Rat) (tenants : String → Option RateLimit) (acts : List Act)
    (apart : Along Service.step Apart (initial now tenants) acts)
    (current : Along Service.step FindsCurrent (initial now tenants) acts) :
    Along Service.step TakesEffect (initial now tenants) acts := by
  refine along_of_along Settling ?_ ?_ (settling_initial now tenants) (apart.and current)
  · exact fun _ act _ h _ _ => h.takesEffect act
  · exact fun _ _ _ h good next => h.step good.1 good.2 next

def question : Request := ⟨"/v1/chat/completions", some "tenant-1", some "u1"⟩

/-- A request, then a PUT of the limit 1. -/
def lowered : List Act :=
  [.start 0 question, .getCached 0, .selectRow 0, .setCached 0, .load 0, .put "tenant-1" { userRps := 1 },
    .update 0, .delete 0, .respond 0]

theorem lowered_ineffective : ¬ ∀ (now : Rat) (tenants : String → Option RateLimit) (acts : List Act),
    Along Service.step Apart (initial now tenants) acts →
      Along Service.step TakesEffect (initial now tenants) acts := by
  intro claim
  have effect := claim 0 (fun _ => some ⟨some 100, some 10⟩)
    (lowered ++ [.start 0 question, .getCached 1, .load 1]) (by decide +kernel)
  exact absurd effect (by decide +kernel)

theorem takesEffect_of_findsCurrent_later :
    Along Service.step TakesEffect (initial 0 fun _ => some ⟨some 100, some 10⟩)
      (lowered ++ [.wait 60, .start 0 question, .getCached 1, .selectRow 1, .setCached 1, .load 1, .incr 1, .resume 1,
        .start 1 question, .getCached 2, .load 2, .incr 2, .resume 2]) :=
  takesEffect_of_findsCurrent 0 _ _ (by decide +kernel) (by decide +kernel)

end Service

end CuckooEcho.Gateway
