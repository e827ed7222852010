import CuckooEcho.Gateway.RateLimit

namespace CuckooEcho.Gateway
open Lib Cluster

/-! ## How many requests reach `call_next` -/

def Cluster.reaches (m : Cluster) (id : Nat) : Bool :=
  m.finished.any fun f => f.id = id && f.outcome = .callNext

/-- The requests of the caller that reach `call_next`, by the INCR that let them through. -/
def Cluster.admits (m : Cluster) (caller : Caller) (t : Ticket String (Nat × Caller)) : Bool :=
  t.holder.2 = caller && m.reaches t.holder.1

structure RequestsLimited (userRps : Nat) (caller : Caller) (m : Cluster) : Prop where
  lifetime : ∀ lifetime,
    m.redis.tickets.countP (fun t => m.admits caller t && t.lifetime = lifetime) ≤ userRps
  second : ∀ start, m.redis.tickets.countP
    (fun t => m.admits caller t && (start ≤ t.time && t.time < start + 1)) ≤ 2 * userRps

/-- The same with the requests of a lifetime counted when they reach `call_next`. -/
structure ArrivalsLimited (userRps : Nat) (caller : Caller) (m : Cluster) : Prop where
  lifetime : ∀ lifetime, m.finished.countP
    (fun f => f.caller = caller && f.outcome = .callNext && f.lifetime = lifetime) ≤ userRps
  second : ∀ start, m.redis.tickets.countP
    (fun t => m.admits caller t && (start ≤ t.time && t.time < start + 1)) ≤ 2 * userRps

def ReadsConstant (userRps : Nat) (caller : Caller) (m : Cluster) : Act → Prop
  | .load id rps => ∀ d ∈ m.dispatches id, d.caller = caller → rps = userRps
  | _ => True

instance (userRps : Nat) (caller : Caller) (m : Cluster) :
    (act : Act) → Decidable (ReadsConstant userRps caller m act)
  | .load .. => inferInstanceAs (Decidable (∀ _ ∈ _, _))
  | .start .. | .incr _ | .expire _ | .resume _ | .abort _ | .wait _ => isTrue trivial

/-- What is known of an open dispatch: whether it holds a ticket, and the limit that it has read. -/
def Dispatch.Holds (userRps : Nat) (caller : Caller) (tickets : List (Ticket String (Nat × Caller)))
    (id : Nat) (d : Dispatch) : Prop :=
  match d.stage with
  | .loading => ∀ t ∈ tickets, t.holder.1 ≠ id
  | .incring rps => (∀ t ∈ tickets, t.holder.1 ≠ id) ∧ (d.caller = caller → rps = userRps)
  | .counted rps count | .expiring rps count | .armed rps count =>
      (∀ t ∈ tickets, t.holder.1 = id → t.holder.2 = d.caller ∧ t.count = count) ∧
        (d.caller = caller → rps = userRps)

structure Limits (userRps : Nat) (caller : Caller) (m : Cluster) : Prop where
  lawful : m.redis.Lawful 1
  keyed : ∀ t ∈ m.redis.tickets, t.key = t.holder.2.redisKey
  issued : ∀ t ∈ m.redis.tickets, t.holder.1 < m.started
  ended : ∀ f ∈ m.finished, f.id < m.started
  running : ∀ id d, m.dispatches id = some d →
    id < m.started ∧ m.reaches id = false ∧ d.Holds userRps caller m.redis.tickets id
  admitted : ∀ t ∈ m.redis.tickets, m.admits caller t → t.count ≤ userRps

section Steps
variable {userRps : Nat} {caller : Caller} {m m' : Cluster}

theorem Limits.requestsLimited (h : Limits userRps caller m) : RequestsLimited userRps caller m := by
  have keyed : ∀ t ∈ m.redis.tickets, m.admits caller t → t.key = caller.redisKey := by
    intro t member admitted
    rw [h.keyed t member, of_decide_eq_true (Bool.and_eq_true_iff.mp admitted).1]
  have each (p : Ticket String (Nat × Caller) → Bool) (admitted : ∀ t, p t → m.admits caller t)
      (lifetime : Nat) : m.redis.tickets.countP (fun t => p t && t.lifetime = lifetime) ≤ userRps := by
    have bounded : ∀ t ∈ m.redis.tickets, p t && t.lifetime = lifetime →
        t.key = caller.redisKey ∧ t.lifetime = lifetime ∧ t.count ≤ userRps := by
      intro t member chosen
      obtain ⟨chosen, life⟩ := Bool.and_eq_true_iff.mp chosen
      have admits := admitted t chosen
      exact ⟨keyed t member admits, of_decide_eq_true life, h.admitted t member admits⟩
    exact h.lawful.countP_lifetime_le bounded
  refine ⟨each _ fun t admitted => admitted, fun start => ?_⟩
  have bounded : ∀ t ∈ m.redis.tickets, m.admits caller t && (start ≤ t.time && t.time < start + 1) →
      t.key = caller.redisKey ∧ start ≤ t.time ∧ t.time < start + 1 := by
    intro t member chosen
    obtain ⟨admitted, within⟩ := Bool.and_eq_true_iff.mp chosen
    obtain ⟨after, before⟩ := Bool.and_eq_true_iff.mp within
    exact ⟨keyed t member admitted, of_decide_eq_true after, of_decide_eq_true before⟩
  exact h.lawful.countP_interval_le bounded (each _ fun t chosen => (Bool.and_eq_true_iff.mp chosen).1)

theorem reaches_finish (m : Cluster) (id : Nat) (d : Dispatch) (outcome : Outcome) (other : Nat) :
    (m.finish id d outcome).reaches other = (decide (id = other) && outcome = .callNext || m.reaches other) :=
  rfl

theorem Limits.put (h : Limits userRps caller m) {id : Nat} {d d' : Dispatch}
    (found : m.dispatches id = some d) (holds : d'.Holds userRps caller m.redis.tickets id) :
    Limits userRps caller (m.put id d') where
  lawful := h.lawful
  keyed := h.keyed
  issued := h.issued
  ended := h.ended
  admitted := h.admitted
  running other e here := by
    rw [put_dispatches] at here
    split at here
    · rename_i same
      subst same
      obtain rfl := Option.some.inj here
      obtain ⟨issued, reaches, -⟩ := h.running _ d found
      exact ⟨issued, reaches, holds⟩
    · exact h.running other e here

theorem Limits.refill (h : Limits userRps caller m) (buckets : Nat → String → Option TokenBucket) :
    Limits userRps caller { m with buckets } :=
  ⟨h.lawful, h.keyed, h.issued, h.ended, h.running, h.admitted⟩

theorem Limits.drop (h : Limits userRps caller m) (id : Nat) : Limits userRps caller (m.drop id) where
  lawful := h.lawful
  keyed := h.keyed
  issued := h.issued
  ended := h.ended
  admitted := h.admitted
  running other e here := by
    rw [drop_dispatches, Option.ite_none_left_eq_some] at here
    exact h.running other e here.2

theorem Limits.finish (h : Limits userRps caller m) {id : Nat} {d : Dispatch}
    (found : m.dispatches id = some d) {outcome : Outcome}
    (within : outcome = .callNext → ∀ t ∈ m.redis.tickets, t.holder.1 = id → t.holder.2 = caller →
      t.count ≤ userRps) : Limits userRps caller (m.finish id d outcome) where
  lawful := h.lawful
  keyed := h.keyed
  issued := h.issued
  ended := List.forall_mem_cons.mpr ⟨(h.running id d found).1, h.ended⟩
  running other e here := by
    rw [show (m.finish id d outcome).dispatches other = (m.drop id).dispatches other from rfl,
      drop_dispatches, Option.ite_none_left_eq_some] at here
    obtain ⟨ne, here⟩ := here
    obtain ⟨issued, reaches, holds⟩ := h.running other e here
    refine ⟨issued, ?_, holds⟩
    rw [reaches_finish, reaches, decide_eq_false (Ne.symm ne)]
    rfl
  admitted t member admits := by
    obtain ⟨own, reaches⟩ := Bool.and_eq_true_iff.mp admits
    rw [reaches_finish, Bool.or_eq_true_iff, Bool.and_eq_true_iff] at reaches
    rcases reaches with ⟨same, next⟩ | before
    · exact within (of_decide_eq_true next) t member (of_decide_eq_true same).symm (of_decide_eq_true own)
    · exact h.admitted t member (Bool.and_eq_true_iff.mpr ⟨own, before⟩)

theorem Dispatch.Holds.cons {tickets : List (Ticket String (Nat × Caller))} {id : Nat} {d : Dispatch}
    (holds : d.Holds userRps caller tickets id) {t : Ticket String (Nat × Caller)} (other : t.holder.1 ≠ id) :
    d.Holds userRps caller (t :: tickets) id := by
  obtain ⟨process, owner, stage⟩ := d
  cases stage with
  | loading => exact List.forall_mem_cons.mpr ⟨other, holds⟩
  | incring rps => exact ⟨List.forall_mem_cons.mpr ⟨other, holds.1⟩, holds.2⟩
  | counted rps count | expiring rps count | armed rps count =>
      exact ⟨List.forall_mem_cons.mpr ⟨fun same => absurd same other, holds.1⟩, holds.2⟩

theorem Limits.incr (h : Limits userRps caller m) {id : Nat} {d : Dispatch} {rps : Int}
    (found : m.dispatches id = some d) (stage : d.stage = .incring rps) :
    Limits userRps caller (m.incr id d rps) := by
  obtain ⟨issued, reaches, holds⟩ := h.running id d found
  rw [Dispatch.Holds, stage] at holds
  refine ⟨h.lawful.incr _ _, ?_, ?_, h.ended, fun other e here => ?_, ?_⟩
  · exact List.forall_mem_cons.mpr ⟨rfl, h.keyed⟩
  · exact List.forall_mem_cons.mpr ⟨issued, h.issued⟩
  · rw [show (m.incr id d rps).dispatches other = (m.put id _).dispatches other from rfl,
      put_dispatches] at here
    split at here
    · rename_i same
      subst same
      obtain rfl := Option.some.inj here
      refine ⟨issued, reaches, List.forall_mem_cons.mpr ⟨fun _ => ⟨rfl, rfl⟩, ?_⟩, holds.2⟩
      exact fun t member same => absurd same (holds.1 t member)
    · rename_i ne
      obtain ⟨issued', reaches', holds'⟩ := h.running other e here
      exact ⟨issued', reaches', holds'.cons (Ne.symm ne)⟩
  · refine List.forall_mem_cons.mpr ⟨fun admits => ?_, h.admitted⟩
    have reached := (Bool.and_eq_true_iff.mp admits).2
    exact absurd (reached.symm.trans reaches) (by simp)

theorem Limits.compare (h : Limits userRps caller m) {id : Nat} {d : Dispatch} {rps : Int} {count : Nat}
    (found : m.dispatches id = some d)
    (own : ∀ t ∈ m.redis.tickets, t.holder.1 = id → t.holder.2 = d.caller ∧ t.count = count)
    (reads : d.caller = caller → rps = userRps) : Limits userRps caller (m.compare id d rps count) := by
  refine h.finish found fun next t member holder belongs => ?_
  obtain ⟨owner, counted⟩ := own t member holder
  have limit := reads (owner.symm.trans belongs)
  by_cases exceeded : rps < count
  · rw [if_pos exceeded] at next
    exact nomatch next
  · omega

theorem Limits.step (h : Limits userRps caller m) {act : Act} (reads : ReadsConstant userRps caller m act)
    (effect : Effect m act m') : Limits userRps caller m' := by
  cases effect with
  | passed free =>
      refine ⟨h.lawful, h.keyed, fun t member => Nat.lt_succ_of_lt (h.issued t member),
        fun f member => Nat.lt_succ_of_lt (h.ended f member), fun id d here => ?_, h.admitted⟩
      obtain ⟨issued, rest⟩ := h.running id d here
      exact ⟨Nat.lt_succ_of_lt issued, rest⟩
  | @started process request owner limited =>
      refine ⟨h.lawful, h.keyed, fun t member => Nat.lt_succ_of_lt (h.issued t member),
        fun f member => Nat.lt_succ_of_lt (h.ended f member), fun id d here => ?_, h.admitted⟩
      rw [show _ = (m.put m.started _).dispatches id from rfl, put_dispatches] at here
      split at here
      · rename_i same
        subst same
        obtain rfl := Option.some.inj here
        refine ⟨Nat.lt_succ_self _, ?_, fun t member same => absurd (h.issued t member) (by simp [same])⟩
        refine List.any_eq_false.mpr fun f member reached => ?_
        have same := of_decide_eq_true (Bool.and_eq_true_iff.mp reached).1
        exact absurd (h.ended f member) (by simp [same])
      · obtain ⟨issued, rest⟩ := h.running id d here
        exact ⟨Nat.lt_succ_of_lt issued, rest⟩
  | @allowed id rps d buckets found stage =>
      have holds := (h.running id d found).2.2
      rw [Dispatch.Holds, stage] at holds
      exact (h.refill buckets).put found ⟨holds, reads d found⟩
  | @refused id rps d buckets found stage =>
      exact (h.refill buckets).finish found fun next => nomatch next
  | counted found stage => exact h.incr found stage
  | @expiring id d rps found stage =>
      have holds := (h.running id d found).2.2
      rw [Dispatch.Holds, stage] at holds
      exact h.put found holds
  | @decided id d rps count found stage =>
      have holds := (h.running id d found).2.2
      rcases stage with ⟨stage, -⟩ | stage
      · rw [Dispatch.Holds, stage] at holds
        exact h.compare found holds.1 holds.2
      · rw [Dispatch.Holds, stage] at holds
        exact h.compare found holds.1 holds.2
  | @armed id d rps count found stage =>
      have holds := (h.running id d found).2.2
      rw [Dispatch.Holds, stage] at holds
      have next : Limits userRps caller (m.put id { d with stage := .armed rps count }) := h.put found holds
      exact ⟨h.lawful.expire one_pos _, next.keyed, next.issued, next.ended, next.running, next.admitted⟩
  | aborted found => exact h.drop _
  | waited forward =>
      exact ⟨h.lawful.elapse forward, h.keyed, h.issued, h.ended, h.running, h.admitted⟩

end Steps

theorem limits_initial (userRps : Nat) (caller : Caller) (now : Rat) :
    Limits userRps caller (initial now) := by
  refine ⟨Counters.lawful_empty 1 now, ?_, ?_, ?_, ?_, ?_⟩ <;> simp [initial, Counters.empty]

/-- However many processes share the counter, of the requests that one of its lifetimes counts at
most `user_rps` reach `call_next`, and of those that one second counts at most twice as many. -/
theorem requestsLimited_throughout (userRps : Nat) (caller : Caller) (now : Rat) (acts : List Act)
    (reads : Along Cluster.step (ReadsConstant userRps caller) (initial now) acts) :
    Throughout Cluster.step (RequestsLimited userRps caller) (initial now) acts := by
  have keep (m : Cluster) (act : Act) (m' : Cluster) (h : Limits userRps caller m)
      (good : ReadsConstant userRps caller m act) (next : m.step act = some m') :
      Limits userRps caller m' := h.step good (effect_of_step next)
  exact (throughout_of_along keep (limits_initial userRps caller now) reads).mono
    fun _ h => h.requestsLimited

def chat : Request := ⟨"/v1/chat/completions", some "tenant-1", some "u1"⟩

/-- The reply to the EXPIRE of the first request comes after the counter has expired. -/
def lateReply : List Act :=
  [.start 0 chat, .load 0 1, .incr 0, .resume 0, .expire 0, .wait 1,
    .start 1 chat, .load 1 1, .incr 1, .resume 1, .expire 1, .resume 1, .resume 0, .wait 1]

theorem lateReply_breaks : ¬ ∀ (userRps : Nat) (caller : Caller) (now : Rat) (acts : List Act),
    1 ≤ userRps → Along Cluster.step (ReadsConstant userRps caller) (initial now) acts →
      Along Cluster.step Arms (initial now) acts →
      Throughout Cluster.step (ArrivalsLimited userRps caller) (initial now) acts := by
  intro claim
  have limited := claim 1 ⟨"tenant-1", "u1"⟩ 0 lateReply le_rfl (by decide +kernel) (by decide +kernel)
  have twice : (exec Cluster.step (initial 0) lateReply).any (fun m => m.finished.countP (fun f =>
      f.caller = ⟨"tenant-1", "u1"⟩ && f.outcome = .callNext && f.lifetime = 1) = 2) = true := by
    decide +kernel
  obtain ⟨m, run, count⟩ := (Option.any_eq_true _ _).mp twice
  have once := (limited.last run).lifetime 1
  rw [of_decide_eq_true count] at once
  exact absurd once (by decide)

theorem requestsLimited_throughout_lateReply :
    Throughout Cluster.step (RequestsLimited 1 ⟨"tenant-1", "u1"⟩) (initial 0) lateReply :=
  requestsLimited_throughout 1 ⟨"tenant-1", "u1"⟩ 0 lateReply (by decide +kernel)

end CuckooEcho.Gateway
