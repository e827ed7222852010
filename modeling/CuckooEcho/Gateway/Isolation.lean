import CuckooEcho.Gateway.RateLimit
import CuckooEcho.Lib.Noninterference
import CuckooEcho.Lib.Lines

namespace CuckooEcho.Gateway
open Lib Cluster

/-! ## The keys of two callers -/

/-- The textual form of a UUID: groups of 8, 4, 4, 4 and 12 hexadecimal digits. -/
def IsUuidText (text : String) : Prop :=
  (text.toList.splitOn '-').map List.length = [8, 4, 4, 4, 12] ∧
    ∀ c ∈ text.toList, c = '-' ∨ c ∈ "0123456789abcdefABCDEF".toList

instance (text : String) : Decidable (IsUuidText text) := inferInstanceAs (Decidable (_ ∧ _))

theorem isUuidText_of_all {text : String} (groups : (text.toList.splitOn '-').map List.length = [8, 4, 4, 4, 12])
    (digits : text.toList.all (fun c => c == '-' || "0123456789abcdefABCDEF".toList.contains c) = true) :
    IsUuidText text := by
  refine ⟨groups, fun c member => ?_⟩
  simpa using List.all_eq_true.mp digits c member

theorem IsUuidText.colon_notMem {text : String} (uuid : IsUuidText text) : ':' ∉ text.toList := fun member =>
  absurd (uuid.2 ':' member) (by decide)

def Caller.FromUuid (caller : Caller) : Prop := IsUuidText caller.tenantId

variable {caller other : Caller}

theorem bucketKey_ne (uuid : caller.FromUuid) (uuid' : other.FromUuid) (ne : caller ≠ other) :
    caller.bucketKey ≠ other.bucketKey := by
  intro same
  have texts := congrArg String.toList same
  simp only [Caller.bucketKey, String.toList_append, String.reduceToList, List.append_assoc, List.cons_append,
    List.nil_append] at texts
  have first := congrArg (fun text => (cut ':' text).1.head?) texts
  simp only [cut_line _ _ _ uuid.colon_notMem, cut_line _ _ _ uuid'.colon_notMem, List.head?_cons,
    Option.some.injEq] at first
  rw [first, List.append_cancel_left_eq] at texts
  refine ne ?_
  cases caller
  cases other
  exact Caller.mk.injEq .. ▸ ⟨String.toList_injective first, String.toList_injective (List.cons.inj texts).2⟩

theorem bucketKey_eq_of_redisKey (same : caller.redisKey = other.redisKey) : caller.bucketKey = other.bucketKey := by
  unfold Caller.redisKey at same
  unfold Caller.bucketKey
  generalize "cuckoo:ratelimit:" = start at same
  simpa only [String.append_assoc, String.append_right_inj] using same

theorem redisKey_ne (uuid : caller.FromUuid) (uuid' : other.FromUuid) (ne : caller ≠ other) :
    caller.redisKey ≠ other.redisKey := fun same =>
  bucketKey_ne uuid uuid' ne (bucketKey_eq_of_redisKey same)

/-! ## A run without the requests of the other callers -/

/-- `seen` requests have started, `own` of them without the other callers' requests; `name` is what the requests of
the caller are numbered there. -/
structure Renaming where
  seen : Nat
  own : Nat
  name : Nat → Option Nat

def Renaming.mine (x : Renaming) : Renaming :=
  { seen := x.seen + 1, own := x.own + 1, name := Function.update x.name x.seen (some x.own) }

def rename (caller : Caller) (x : Renaming) : Act → Renaming × Option Act
  | .start process request =>
      match request.caller with
      | none => ({ x with seen := x.seen + 1, own := x.own + 1 }, some (.start process request))
      | some owner =>
          if owner = caller then (x.mine, some (.start process request))
          else ({ x with seen := x.seen + 1 }, none)
  | .load id userRps => (x, (x.name id).map fun own => .load own userRps)
  | .incr id => (x, (x.name id).map .incr)
  | .expire id => (x, (x.name id).map .expire)
  | .resume id => (x, (x.name id).map .resume)
  | .abort id => (x, (x.name id).map .abort)
  | .wait seconds => (x, some (.wait seconds))

def Renaming.initial : Renaming := ⟨0, 0, fun _ => none⟩

/-- The run in which the requests of all other callers are removed. -/
def alone (caller : Caller) (acts : List Act) : List Act := project (rename caller) .initial acts

def aloneName (caller : Caller) (acts : List Act) : Nat → Option Nat :=
  (projected (rename caller) .initial acts).name

def FromUuidTenant : Act → Prop
  | .start _ request => ∀ caller ∈ request.caller, caller.FromUuid
  | _ => True

instance : (act : Act) → Decidable (FromUuidTenant act)
  | .start _ request => inferInstanceAs (Decidable (∀ caller ∈ request.caller, IsUuidText caller.tenantId))
  | .load .. | .incr _ | .expire _ | .resume _ | .abort _ | .wait _ => isTrue trivial

/-! ### What the other callers' requests leave alone -/

structure Shadows (caller : Caller) (x : Renaming) (m m' : Cluster) : Prop where
  seen : x.seen = m.started
  own : x.own = m'.started
  named : ∀ id own, x.name id = some own → id < m.started ∧ own < m'.started
  injective : ∀ id id' own, x.name id = some own → x.name id' = some own → id = id'
  issued : ∀ id d, m.dispatches id = some d → id < m.started
  issuedOwn : ∀ own d, m'.dispatches own = some d → own < m'.started
  uuids : ∀ id d, m.dispatches id = some d → d.caller.FromUuid
  mine : ∀ id d, m.dispatches id = some d → (d.caller = caller ↔ (x.name id).isSome)
  same : ∀ id own, x.name id = some own → m.dispatches id = m'.dispatches own
  redis : m.redis.Agree caller.redisKey m'.redis
  buckets : ∀ process, m.buckets process caller.bucketKey = m'.buckets process caller.bucketKey
  ended : ∀ f ∈ m.finished, f.id < m.started
  finished : (m.finished.filter fun f => f.caller = caller).map (fun f => (x.name f.id, f.outcome)) =
    m'.finished.map fun f => (some f.id, f.outcome)

section
variable {x : Renaming} {m m' : Cluster} {id own : Nat} {d : Dispatch}

/-- `put` and `drop` are the two cases. -/
def Cluster.assign (m : Cluster) (id : Nat) (d : Option Dispatch) : Cluster :=
  { m with dispatches := Function.update m.dispatches id d }

theorem assign_dispatches (m : Cluster) (id other : Nat) (d : Option Dispatch) :
    (m.assign id d).dispatches other = if other = id then d else m.dispatches other :=
  Function.update_apply ..

theorem Shadows.assign (h : Shadows caller x m m') (named : x.name id = some own) (uuid : caller.FromUuid)
    (after : Option Dispatch) (mine : ∀ e ∈ after, e.caller = caller) :
    Shadows caller x (m.assign id after) (m'.assign own after) where
  seen := h.seen
  own := h.own
  named := h.named
  injective := h.injective
  issued id' e here := by
    rw [assign_dispatches] at here
    split at here
    · rename_i same
      exact same ▸ (h.named id own named).1
    · exact h.issued id' e here
  issuedOwn own' e here := by
    rw [assign_dispatches] at here
    split at here
    · rename_i same
      exact same ▸ (h.named id own named).2
    · exact h.issuedOwn own' e here
  uuids id' e here := by
    rw [assign_dispatches] at here
    split at here
    · exact (mine e here).symm ▸ uuid
    · exact h.uuids id' e here
  mine id' e here := by
    rw [assign_dispatches] at here
    split at here
    · rename_i same
      exact iff_of_true (mine e here) (by rw [same, named]; rfl)
    · exact h.mine id' e here
  same id' own' named' := by
    by_cases here : id' = id
    · obtain rfl : own' = own := Option.some.inj (named'.symm.trans (here ▸ named))
      rw [here, assign_dispatches, assign_dispatches, if_pos rfl, if_pos rfl]
    · have apart : own' ≠ own := fun eq => here (h.injective id' id own (eq ▸ named') named)
      rw [assign_dispatches, assign_dispatches, if_neg here, if_neg apart]
      exact h.same id' own' named'
  redis := h.redis
  buckets := h.buckets
  ended := h.ended
  finished := h.finished

theorem Shadows.assign_other (h : Shadows caller x m m') (unnamed : x.name id = none) (issued : id < m.started)
    (after : Option Dispatch) (others : ∀ e ∈ after, e.caller ≠ caller ∧ e.caller.FromUuid) :
    Shadows caller x (m.assign id after) m' where
  seen := h.seen
  own := h.own
  named := h.named
  injective := h.injective
  issued id' e here := by
    rw [assign_dispatches] at here
    split at here
    · rename_i same
      exact same ▸ issued
    · exact h.issued id' e here
  issuedOwn := h.issuedOwn
  uuids id' e here := by
    rw [assign_dispatches] at here
    split at here
    · exact (others e here).2
    · exact h.uuids id' e here
  mine id' e here := by
    rw [assign_dispatches] at here
    split at here
    · rename_i same
      exact iff_of_false (others e here).1 (by simp [same, unnamed])
    · exact h.mine id' e here
  same id' own' named' := by
    have here : id' ≠ id := by
      rintro rfl
      exact absurd (unnamed.symm.trans named') (by simp)
    rw [assign_dispatches, if_neg here]
    exact h.same id' own' named'
  redis := h.redis
  buckets := h.buckets
  ended := h.ended
  finished := h.finished

theorem Shadows.withRedis (h : Shadows caller x m m') {redis redis' : Counters String (Nat × Caller)}
    (agree : redis.Agree caller.redisKey redis') :
    Shadows caller x { m with redis } { m' with redis := redis' } :=
  { h with redis := agree }

def Cluster.store (m : Cluster) (process : Nat) (key : String) (bucket : TokenBucket) : Cluster :=
  { m with buckets := Function.update m.buckets process (Function.update (m.buckets process) key (some bucket)) }

theorem store_buckets (m : Cluster) (process : Nat) (key : String) (bucket : TokenBucket) (process' : Nat)
    (key' : String) : (m.store process key bucket).buckets process' key' =
      if process' = process ∧ key' = key then some bucket else m.buckets process' key' := by
  by_cases here : process' = process
  · subst here
    simp [Cluster.store, Function.update_apply]
  · simp [Cluster.store, here]

theorem Shadows.store (h : Shadows caller x m m') (process : Nat) (bucket : TokenBucket) :
    Shadows caller x (m.store process caller.bucketKey bucket) (m'.store process caller.bucketKey bucket) :=
  { h with buckets := fun process' => by rw [store_buckets, store_buckets, h.buckets] }

theorem Shadows.store_other (h : Shadows caller x m m') (process : Nat) {key : String}
    (ne : caller.bucketKey ≠ key) (bucket : TokenBucket) : Shadows caller x (m.store process key bucket) m' :=
  { h with buckets := fun process' => by rw [store_buckets, if_neg fun here => ne here.2, h.buckets] }

theorem Shadows.finish (h : Shadows caller x m m') (named : x.name id = some own) (uuid : caller.FromUuid)
    (mine : d.caller = caller) (outcome : Outcome) :
    Shadows caller x (m.finish id d outcome) (m'.finish own d outcome) := by
  have dropped := h.assign named uuid none nofun
  refine { dropped with ended := ?_, finished := ?_ }
  · exact List.forall_mem_cons.mpr ⟨(h.named id own named).1, h.ended⟩
  · simp only [Cluster.finish, List.filter_cons, mine, decide_true, ↓reduceIte, List.map_cons, named]
    exact congrArg _ h.finished

theorem Shadows.finish_other (h : Shadows caller x m m') (unnamed : x.name id = none) (issued : id < m.started)
    (others : d.caller ≠ caller) (outcome : Outcome) : Shadows caller x (m.finish id d outcome) m' := by
  have dropped := h.assign_other unnamed issued none nofun
  refine { dropped with ended := ?_, finished := ?_ }
  · exact List.forall_mem_cons.mpr ⟨issued, h.ended⟩
  · simpa only [Cluster.finish, List.filter_cons, others, decide_false, Bool.false_eq_true, ↓reduceIte]
      using h.finished

/-! ### Steps of one dispatch -/

/-- What a dispatch does depends on its caller's keys only and changes nothing under other keys. -/
structure Local (caller : Caller) (act : Cluster → Nat → Dispatch → Option Cluster) : Prop where
  mine : ∀ {x m m' id own d n}, Shadows caller x m m' → x.name id = some own → d.caller = caller →
    act m id d = some n → ∃ n', act m' own d = some n' ∧ Shadows caller x n n'
  others : ∀ {x m m' id d n}, Shadows caller x m m' → x.name id = none → id < m.started →
    d.caller ≠ caller → d.caller.FromUuid → act m id d = some n → Shadows caller x n m'

theorem Local.follow {act : Cluster → Nat → Dispatch → Option Cluster} (acts : Local caller act)
    (h : Shadows caller x m m') {n : Cluster} (next : (m.dispatches id).bind (act m id) = some n) :
    match x.name id with
    | some own => ∃ n', (m'.dispatches own).bind (act m' own) = some n' ∧ Shadows caller x n n'
    | none => Shadows caller x n m' := by
  obtain ⟨d, found, next⟩ := Option.bind_eq_some_iff.mp next
  have mine := h.mine id d found
  split
  · rename_i own named
    obtain ⟨n', next', related⟩ := acts.mine h named (mine.mpr (by rw [named]; rfl)) next
    refine ⟨n', ?_, related⟩
    rw [← h.same id own named, found]
    exact next'
  · rename_i unnamed
    have others : d.caller ≠ caller := fun same => absurd (mine.mp same) (by simp [unnamed])
    exact acts.others h unnamed (h.issued id d found) others (h.uuids id d found) next

theorem local_load (uuid : caller.FromUuid) (userRps : Int) :
    Local caller fun m id d => if d.stage = .loading then some (m.load id d userRps) else none where
  mine {x m m' id own d n} h named mine next := by
    obtain ⟨loading, eq⟩ := Option.ite_none_right_eq_some.mp next
    obtain rfl := Option.some.inj eq
    subst mine
    refine ⟨_, if_pos loading, ?_⟩
    unfold Cluster.load
    dsimp only
    rw [← h.buckets, ← h.redis.now]
    have stored := h.store d.process
      ((TokenBucket.current userRps m.redis.now (m.buckets d.process d.caller.bucketKey)).allow m.redis.now).2
    split
    · exact stored.assign named uuid (some _) fun e here => Option.some.inj here ▸ rfl
    · exact stored.finish named uuid rfl _
  others {x m m' id d n} h unnamed issued others fromUuid next := by
    obtain ⟨loading, eq⟩ := Option.ite_none_right_eq_some.mp next
    obtain rfl := Option.some.inj eq
    have stored := h.store_other d.process (bucketKey_ne uuid fromUuid (Ne.symm others))
      ((TokenBucket.current userRps m.redis.now (m.buckets d.process d.caller.bucketKey)).allow m.redis.now).2
    unfold Cluster.load
    dsimp only
    split
    · exact stored.assign_other unnamed issued (some _) fun e here => Option.some.inj here ▸ ⟨others, fromUuid⟩
    · exact stored.finish_other unnamed issued others _

theorem local_incr (uuid : caller.FromUuid) :
    Local caller fun m id d => match d.stage with
      | .incring userRps => some (m.incr id d userRps)
      | _ => none where
  mine {x m m' id own d n} h named mine next := by
    subst mine
    cases stage : d.stage with
    | incring userRps =>
        simp only [stage] at next ⊢
        obtain rfl := Option.some.inj next
        refine ⟨_, rfl, ?_⟩
        unfold Cluster.incr
        rw [h.redis.next]
        have counted := h.withRedis (h.redis.incr (id, d.caller) (own, d.caller))
        exact counted.assign named uuid (some _) fun e here => Option.some.inj here ▸ rfl
    | _ => simp [stage] at next
  others {x m m' id d n} h unnamed issued others fromUuid next := by
    cases stage : d.stage with
    | incring userRps =>
        simp only [stage] at next
        obtain rfl := Option.some.inj next
        have counted := h.withRedis (h.redis.incr_ne (redisKey_ne uuid fromUuid (Ne.symm others)) (id, d.caller))
        exact counted.assign_other unnamed issued (some _) fun e here => Option.some.inj here ▸ ⟨others, fromUuid⟩
    | _ => simp [stage] at next

theorem local_expire (uuid : caller.FromUuid) :
    Local caller fun m id d => match d.stage with
      | .expiring userRps count => some (m.expire id d userRps count)
      | _ => none where
  mine {x m m' id own d n} h named mine next := by
    subst mine
    cases stage : d.stage with
    | expiring userRps count =>
        simp only [stage] at next ⊢
        obtain rfl := Option.some.inj next
        refine ⟨_, rfl, ?_⟩
        have armed := h.withRedis (h.redis.expire 1)
        exact armed.assign named uuid (some _) fun e here => Option.some.inj here ▸ rfl
    | _ => simp [stage] at next
  others {x m m' id d n} h unnamed issued others fromUuid next := by
    cases stage : d.stage with
    | expiring userRps count =>
        simp only [stage] at next
        obtain rfl := Option.some.inj next
        have armed := h.withRedis (h.redis.expire_ne (redisKey_ne uuid fromUuid (Ne.symm others)) 1)
        exact armed.assign_other unnamed issued (some _) fun e here => Option.some.inj here ▸ ⟨others, fromUuid⟩
    | _ => simp [stage] at next

theorem local_resume (uuid : caller.FromUuid) :
    Local caller fun m id d => match d.stage with
      | .counted userRps count =>
          if count = 1 then some (m.put id { d with stage := .expiring userRps count })
          else some (m.compare id d userRps count)
      | .armed userRps count => some (m.compare id d userRps count)
      | _ => none where
  mine {x m m' id own d n} h named mine next := by
    subst mine
    cases stage : d.stage with
    | counted userRps count =>
        simp only [stage] at next ⊢
        by_cases first : count = 1
        · rw [if_pos first] at next
          obtain rfl := Option.some.inj next
          exact ⟨_, if_pos first, h.assign named uuid (some _) fun e here => Option.some.inj here ▸ rfl⟩
        · rw [if_neg first] at next
          obtain rfl := Option.some.inj next
          exact ⟨_, if_neg first, h.finish named uuid rfl _⟩
    | armed userRps count =>
        simp only [stage] at next ⊢
        obtain rfl := Option.some.inj next
        exact ⟨_, rfl, h.finish named uuid rfl _⟩
    | _ => simp [stage] at next
  others {x m m' id d n} h unnamed issued others fromUuid next := by
    cases stage : d.stage with
    | counted userRps count =>
        simp only [stage] at next
        by_cases first : count = 1
        · rw [if_pos first] at next
          obtain rfl := Option.some.inj next
          exact h.assign_other unnamed issued (some _) fun e here => Option.some.inj here ▸ ⟨others, fromUuid⟩
        · rw [if_neg first] at next
          obtain rfl := Option.some.inj next
          exact h.finish_other unnamed issued others _
    | armed userRps count =>
        simp only [stage] at next
        obtain rfl := Option.some.inj next
        exact h.finish_other unnamed issued others _
    | _ => simp [stage] at next

theorem local_abort (uuid : caller.FromUuid) : Local caller fun m id _ => some (m.drop id) where
  mine {x m m' id own d n} h named mine next := by
    obtain rfl := Option.some.inj next
    exact ⟨_, rfl, h.assign named uuid none nofun⟩
  others {x m m' id d n} h unnamed issued others fromUuid next := by
    obtain rfl := Option.some.inj next
    exact h.assign_other unnamed issued none nofun

/-! ### Requests -/

theorem Shadows.unnamed_started (h : Shadows caller x m m') : x.name m.started = none := by
  cases named : x.name m.started with
  | none => rfl
  | some own => exact absurd (h.named _ own named).1 (lt_irrefl _)

theorem Shadows.pass (h : Shadows caller x m m') :
    Shadows caller { x with seen := x.seen + 1, own := x.own + 1 } { m with started := m.started + 1 }
      { m' with started := m'.started + 1 } where
  seen := congrArg (· + 1) h.seen
  own := congrArg (· + 1) h.own
  named id own named := (h.named id own named).imp Nat.lt_succ_of_lt Nat.lt_succ_of_lt
  injective := h.injective
  issued id d found := Nat.lt_succ_of_lt (h.issued id d found)
  issuedOwn own d found := Nat.lt_succ_of_lt (h.issuedOwn own d found)
  uuids := h.uuids
  mine := h.mine
  same := h.same
  redis := h.redis
  buckets := h.buckets
  ended f member := Nat.lt_succ_of_lt (h.ended f member)
  finished := h.finished

theorem Shadows.start_other (h : Shadows caller x m m') {d : Dispatch} (others : d.caller ≠ caller)
    (fromUuid : d.caller.FromUuid) :
    Shadows caller { x with seen := x.seen + 1 } { m.assign m.started (some d) with started := m.started + 1 } m' := by
  -- The new dispatch is assigned under a number that is already counted.
  have counted : Shadows caller { x with seen := x.seen + 1 } { m with started := m.started + 1 } m' :=
    { h with
      seen := congrArg (· + 1) h.seen
      named := fun id own named => (h.named id own named).imp_left Nat.lt_succ_of_lt
      issued := fun id d found => Nat.lt_succ_of_lt (h.issued id d found)
      ended := fun f member => Nat.lt_succ_of_lt (h.ended f member) }
  exact counted.assign_other h.unnamed_started (Nat.lt_succ_self _) (some d)
    fun e here => Option.some.inj here ▸ ⟨others, fromUuid⟩

theorem Shadows.mine_name (h : Shadows caller x m m') (id : Nat) :
    x.mine.name id = if id = m.started then some m'.started else x.name id := by
  rw [← h.seen, ← h.own]
  exact Function.update_apply ..

theorem Shadows.mine_name_old (h : Shadows caller x m m') (old : id < m.started) : x.mine.name id = x.name id := by
  rw [h.mine_name, if_neg (Nat.ne_of_lt old)]

theorem Shadows.mine_name_cases (h : Shadows caller x m m') (named : x.mine.name id = some own) :
    id = m.started ∧ own = m'.started ∨ id < m.started ∧ own < m'.started ∧ x.name id = some own := by
  rw [h.mine_name] at named
  split at named
  · rename_i here
    exact Or.inl ⟨here, (Option.some.inj named).symm⟩
  · exact Or.inr ⟨(h.named id own named).1, (h.named id own named).2, named⟩

theorem Shadows.vacant (h : Shadows caller x m m') : m.dispatches m.started = m'.dispatches m'.started := by
  rw [Option.eq_none_iff_forall_ne_some.mpr fun d found => lt_irrefl _ (h.issued _ d found),
    Option.eq_none_iff_forall_ne_some.mpr fun d found => lt_irrefl _ (h.issuedOwn _ d found)]

theorem Shadows.start_mine (h : Shadows caller x m m') (uuid : caller.FromUuid) {d : Dispatch}
    (mine : d.caller = caller) :
    Shadows caller x.mine { m.assign m.started (some d) with started := m.started + 1 }
      { m'.assign m'.started (some d) with started := m'.started + 1 } := by
  have counted : Shadows caller x.mine { m with started := m.started + 1 } { m' with started := m'.started + 1 } :=
    { seen := congrArg (· + 1) h.seen
      own := congrArg (· + 1) h.own
      named := fun id own named => by
        rcases h.mine_name_cases named with ⟨rfl, rfl⟩ | ⟨old, old', -⟩
        · exact ⟨Nat.lt_succ_self _, Nat.lt_succ_self _⟩
        · exact ⟨Nat.lt_succ_of_lt old, Nat.lt_succ_of_lt old'⟩
      injective := fun id id' own named named' => by
        rcases h.mine_name_cases named with ⟨here, same⟩ | ⟨-, old, before⟩ <;>
          rcases h.mine_name_cases named' with ⟨here', same'⟩ | ⟨-, old', before'⟩
        · exact here.trans here'.symm
        · exact absurd old' (by omega)
        · exact absurd old (by omega)
        · exact h.injective id id' own before before'
      issued := fun id d found => Nat.lt_succ_of_lt (h.issued id d found)
      issuedOwn := fun own d found => Nat.lt_succ_of_lt (h.issuedOwn own d found)
      uuids := h.uuids
      mine := fun id d found => (h.mine id d found).trans (by rw [h.mine_name_old (h.issued id d found)])
      same := fun id own named => by
        rcases h.mine_name_cases named with ⟨rfl, rfl⟩ | ⟨-, -, before⟩
        · exact h.vacant
        · exact h.same id own before
      redis := h.redis
      buckets := h.buckets
      ended := fun f member => Nat.lt_succ_of_lt (h.ended f member)
      finished := by
        refine Eq.trans (List.map_congr_left fun f member => ?_) h.finished
        exact congrArg (·, f.outcome) (h.mine_name_old (h.ended f (List.mem_of_mem_filter member))) }
  refine counted.assign ?_ uuid (some d) fun e here => Option.some.inj here ▸ mine
  rw [h.mine_name, if_pos rfl]

/-! ### Runs -/

theorem Shadows.start (h : Shadows caller x m m') (uuid : caller.FromUuid) (process : Nat) {request : Request}
    (good : FromUuidTenant (.start process request)) :
    ∃ n', exec Cluster.step m' (rename caller x (.start process request)).2.toList = some n' ∧
      Shadows caller (rename caller x (.start process request)).1 (m.start process request) n' := by
  have starts (k : Cluster) : exec Cluster.step k [.start process request] = some (k.start process request) := rfl
  cases owner : request.caller with
  | none =>
      have kept : rename caller x (.start process request) =
          ({ x with seen := x.seen + 1, own := x.own + 1 }, some (.start process request)) := by
        simp only [rename, owner]
      rw [kept]
      refine ⟨_, starts m', ?_⟩
      simp only [Cluster.start, owner]
      exact h.pass
  | some other =>
      by_cases same : other = caller
      · have kept : rename caller x (.start process request) = (x.mine, some (.start process request)) := by
          simp only [rename, owner, same, ↓reduceIte]
        rw [kept]
        refine ⟨_, starts m', ?_⟩
        simp only [Cluster.start, owner]
        exact h.start_mine uuid same
      · have removed : rename caller x (.start process request) = ({ x with seen := x.seen + 1 }, none) := by
          simp only [rename, owner, same, ↓reduceIte]
        rw [removed]
        refine ⟨m', rfl, ?_⟩
        simp only [Cluster.start, owner]
        exact h.start_other same (good other owner)

theorem Local.exec {act : Cluster → Nat → Dispatch → Option Cluster} (acts : Local caller act) (label : Nat → Act)
    (labels : ∀ (k : Cluster) (id : Nat), k.step (label id) = (k.dispatches id).bind (act k id))
    (h : Shadows caller x m m') {n : Cluster} (next : m.step (label id) = some n) :
    ∃ n', Lib.exec Cluster.step m' ((x.name id).map label).toList = some n' ∧ Shadows caller x n n' := by
  have related := acts.follow h (labels m id ▸ next)
  cases named : x.name id with
  | none =>
      rw [named] at related
      exact ⟨m', rfl, related⟩
  | some own =>
      rw [named] at related
      obtain ⟨n', next', related⟩ := related
      exact ⟨n', by simp [labels, next'], related⟩

theorem Shadows.follow (h : Shadows caller x m m') (uuid : caller.FromUuid) {act : Act}
    (good : FromUuidTenant act) {n : Cluster} (next : m.step act = some n) :
    ∃ n', exec Cluster.step m' (rename caller x act).2.toList = some n' ∧
      Shadows caller (rename caller x act).1 n n' := by
  cases act with
  | start process request =>
      obtain rfl := Option.some.inj next
      exact h.start uuid process good
  | load id userRps => exact (local_load uuid userRps).exec (.load · userRps) (fun _ _ => rfl) h next
  | incr id => exact (local_incr uuid).exec .incr (fun _ _ => rfl) h next
  | expire id => exact (local_expire uuid).exec .expire (fun _ _ => rfl) h next
  | resume id => exact (local_resume uuid).exec .resume (fun _ _ => rfl) h next
  | abort id => exact (local_abort uuid).exec .abort (fun _ _ => rfl) h next
  | wait seconds =>
      obtain ⟨forward, eq⟩ := Option.ite_none_right_eq_some.mp next
      obtain rfl := Option.some.inj eq
      exact ⟨_, by simp [rename, Cluster.step, forward], h.withRedis (h.redis.elapse seconds)⟩

end

theorem shadows_initial (caller : Caller) (now : Rat) : Shadows caller .initial (initial now) (initial now) := by
  refine ⟨rfl, rfl, ?_, ?_, ?_, ?_, ?_, ?_, ?_, ⟨rfl, rfl, rfl⟩, fun _ => rfl, ?_, rfl⟩ <;>
    simp [initial, Renaming.initial]

/-- The requests of a caller are decided as they would be without the requests of all other callers. -/
theorem decisions_alone {caller : Caller} (uuid : caller.FromUuid) (now : Rat) {acts : List Act}
    (uuids : ∀ act ∈ acts, FromUuidTenant act) {m : Cluster}
    (run : exec Cluster.step (initial now) acts = some m) :
    ∃ m', exec Cluster.step (initial now) (alone caller acts) = some m' ∧
      (m.finished.filter fun f => f.caller = caller).map (fun f => (aloneName caller acts f.id, f.outcome)) =
        m'.finished.map fun f => (some f.id, f.outcome) := by
  have follow (x : Renaming) (m m' : Cluster) (act : Act) (n : Cluster) (h : Shadows caller x m m')
      (good : FromUuidTenant act) (next : m.step act = some n) := h.follow uuid good next
  have along : Along Cluster.step (fun _ => FromUuidTenant) (initial now) acts :=
    along_of_mem (fun act member _ => uuids act member) _
  obtain ⟨m', run', related⟩ := exec_project follow (shadows_initial caller now) along run
  exact ⟨m', run', related.finished⟩

def shopId : String := "6f9619ff-8b86-d011-b42d-00c04fc964ff"

def ask (userId : String) : Request := ⟨"/v1/chat/completions", some shopId, some userId⟩

theorem isUuidText_shopId : IsUuidText shopId := isUuidText_of_all (by decide +kernel) (by decide +kernel)

theorem fromUuidTenant_ask (process : Nat) (userId : String) : FromUuidTenant (.start process (ask userId)) := by
  intro caller here
  have named : (ask userId).caller = some ⟨shopId, userId⟩ := rfl
  obtain rfl := Option.some.inj (named.symm.trans here)
  exact isUuidText_shopId

/-- A second user, whose name has a colon, exhausts a limit of 1 while the first one is served. -/
def twoUsers : List Act :=
  [.start 0 (ask "u1"), .start 1 (ask "u1:x"), .load 1 1, .load 0 1, .incr 1, .start 0 (ask "u1:x"), .load 2 1,
    .incr 0, .incr 2, .resume 2, .resume 1, .resume 0, .expire 0, .expire 1, .resume 1, .resume 0]

theorem decisions_alone_twoUsers : ∃ m m', exec Cluster.step (initial 0) twoUsers = some m ∧
    exec Cluster.step (initial 0) (alone ⟨shopId, "u1"⟩ twoUsers) = some m' ∧
    (m.finished.filter fun f => f.caller = ⟨shopId, "u1"⟩).map
        (fun f => (aloneName ⟨shopId, "u1"⟩ twoUsers f.id, f.outcome)) =
      m'.finished.map fun f => (some f.id, f.outcome) := by
  have uuid : Caller.FromUuid ⟨shopId, "u1"⟩ := isUuidText_shopId
  have uuids : ∀ act ∈ twoUsers, FromUuidTenant act := by
    intro act member
    cases act with
    | start process request =>
        simp only [twoUsers, List.mem_cons, Act.start.injEq, reduceCtorEq, false_or, or_false, List.not_mem_nil] at member
        obtain ⟨rfl, rfl⟩ | ⟨rfl, rfl⟩ | ⟨rfl, rfl⟩ := member <;> exact fromUuidTenant_ask _ _
    | _ => trivial
  obtain ⟨m, run⟩ := Option.isSome_iff_exists.mp
    (show (exec Cluster.step (initial 0) twoUsers).isSome = true by decide +kernel)
  obtain ⟨m', run', same⟩ := decisions_alone uuid 0 uuids run
  exact ⟨m, m', run, run', same⟩

end CuckooEcho.Gateway
