import CuckooEcho.Gateway.RateLimit

namespace CuckooEcho.Gateway
open Lib Cluster

/-! ## Whether a counter always expires -/

def Cluster.Arming (m : Cluster) (id : Nat) (key : String) : Prop :=
  ∃ d, m.dispatches id = some d ∧ d.arming = true ∧ d.caller.redisKey = key

/-- Unless a dispatch is between its INCR and its EXPIRE, a counter vanishes within a second. -/
def Expires (m : Cluster) : Prop :=
  ∀ key c, m.redis.counter key = some c → (∀ id, ¬ m.Arming id key) →
    ∃ e, c.expires = some e ∧ e ≤ m.redis.now + 1

/-- A dispatch that still has to set the time to live is the only one for its counter, which exists
and has none. -/
structure Armable (m : Cluster) : Prop where
  lawful : m.redis.Lawful 1
  issued : ∀ id d, m.dispatches id = some d → id < m.started
  unset : ∀ id key, m.Arming id key → ∃ c, m.redis.counter key = some c ∧ c.expires = none
  only : ∀ id other key, m.Arming id key → m.Arming other key → id = other

section Steps
variable {m m' : Cluster}

theorem arming_put {id : Nat} {d : Dispatch} {other : Nat} {key : String} :
    (m.put id d).Arming other key ↔
      if other = id then d.arming = true ∧ d.caller.redisKey = key else m.Arming other key := by
  unfold Arming
  rw [put_dispatches]
  split
  · simp
  · rfl

theorem arming_drop {id other : Nat} {key : String} :
    (m.drop id).Arming other key ↔ other ≠ id ∧ m.Arming other key := by
  unfold Arming
  rw [drop_dispatches]
  split <;> simp [*]

theorem arming_put_of_idle {id : Nat} {d d' : Dispatch} (found : m.dispatches id = some d)
    (idle : d.arming = false) (idle' : d'.arming = false) {other : Nat} {key : String} :
    (m.put id d').Arming other key ↔ m.Arming other key := by
  rw [arming_put]
  split
  · rename_i same
    subst same
    simp [Arming, found, idle, idle']
  · rfl

theorem arming_drop_of_idle {id : Nat} {d : Dispatch} (found : m.dispatches id = some d)
    (idle : d.arming = false) {other : Nat} {key : String} :
    (m.drop id).Arming other key ↔ m.Arming other key := by
  rw [arming_drop]
  refine and_iff_right_of_imp ?_
  rintro ⟨e, here, arming, -⟩ rfl
  obtain rfl := Option.some.inj (found.symm.trans here)
  simp [idle] at arming

theorem Armable.congr (h : Armable m) (redis : m'.redis = m.redis)
    (arming : ∀ id key, m'.Arming id key → m.Arming id key)
    (issued : ∀ id d, m'.dispatches id = some d → id < m'.started) : Armable m' where
  lawful := redis ▸ h.lawful
  issued := issued
  unset id key here := redis ▸ h.unset id key (arming id key here)
  only id other key here there := h.only id other key (arming id key here) (arming other key there)

theorem Expires.congr (h : Expires m) (redis : m'.redis = m.redis)
    (arming : ∀ id key, m.Arming id key → m'.Arming id key) : Expires m' := by
  intro key c found idle
  rw [redis] at found ⊢
  exact h key c found fun id here => idle id (arming id key here)

theorem Armable.issued_put (h : Armable m) {id : Nat} {d d' : Dispatch} (found : m.dispatches id = some d)
    {other : Nat} {e : Dispatch} (here : (m.put id d').dispatches other = some e) : other < m.started := by
  rw [put_dispatches] at here
  split at here
  · rename_i same
    exact same ▸ h.issued id d found
  · exact h.issued other e here

theorem Armable.issued_drop (h : Armable m) {id other : Nat} {e : Dispatch}
    (here : (m.drop id).dispatches other = some e) : other < m.started := by
  rw [drop_dispatches, Option.ite_none_left_eq_some] at here
  exact h.issued other e here.2

theorem Armable.arming_start (h : Armable m) {process : Nat} {caller : Caller} {other : Nat}
    {key : String} : (m.put m.started ⟨process, caller, .loading⟩).Arming other key ↔ m.Arming other key := by
  rw [arming_put]
  split
  · rename_i same
    refine iff_of_false (fun arms => nomatch arms.1) ?_
    rintro ⟨d, here, -⟩
    exact absurd (h.issued other d here) (by simp [same])
  · rfl

theorem idle_of_decided {d : Dispatch} {rps : Int} {count : Nat}
    (stage : d.stage = .counted rps count ∧ count ≠ 1 ∨ d.stage = .armed rps count) : d.arming = false := by
  rcases stage with ⟨stage, ne⟩ | stage
  · simp [Dispatch.arming, stage, ne]
  · simp [Dispatch.arming, stage]

/-! ### INCR -/

theorem next_eq_one (h : m.redis.Lawful 1) {key : String} :
    m.redis.next key = 1 ↔ m.redis.counter key = none := by
  cases found : m.redis.counter key with
  | none => simp [Counters.next, found]
  | some c =>
      have started := h.started key c found
      rw [Counters.next_of_eq found]
      simp only [reduceCtorEq, iff_false]
      omega

theorem arming_incr {id : Nat} {d : Dispatch} {rps : Int} {other : Nat} {key : String} :
    (m.incr id d rps).Arming other key ↔
      if other = id then m.redis.next d.caller.redisKey = 1 ∧ d.caller.redisKey = key
      else m.Arming other key := by
  rw [show (m.incr id d rps).Arming other key ↔ (m.put id _).Arming other key from Iff.rfl, arming_put]
  simp [Dispatch.arming]

theorem Armable.incr (h : Armable m) {id : Nat} {d : Dispatch} {rps : Int}
    (found : m.dispatches id = some d) : Armable (m.incr id d rps) where
  lawful := h.lawful.incr _ _
  issued other e here := h.issued_put found here
  unset other key arming := by
    rw [arming_incr] at arming
    change ∃ c, (m.redis.incr d.caller.redisKey (id, d.caller)).counter key = some c ∧ _
    rw [Counters.incr_counter]
    split at arming
    · obtain ⟨first, rfl⟩ := arming
      rw [if_pos rfl, (next_eq_one h.lawful).mp first]
      exact ⟨_, rfl, rfl⟩
    · obtain ⟨c, before, none⟩ := h.unset other key arming
      by_cases same : key = d.caller.redisKey
      · rw [if_pos same, ← same, before]
        exact ⟨_, rfl, none⟩
      · rw [if_neg same]
        exact ⟨c, before, none⟩
  only one two key here there := by
    rw [arming_incr] at here there
    -- A first INCR finds no counter, so that no dispatch was arming this one.
    have fresh {other : Nat} (first : m.redis.next d.caller.redisKey = 1 ∧ d.caller.redisKey = key)
        (arming : m.Arming other key) : False := by
      obtain ⟨c, before, -⟩ := h.unset other key arming
      rw [next_eq_one h.lawful, first.2, before] at first
      exact nomatch first.1
    split at here <;> split at there
    · simp [*]
    · exact (fresh here there).elim
    · exact (fresh there here).elim
    · exact h.only one two key here there

theorem Expires.incr (h : Expires m) (armable : Armable m) {id : Nat} {d : Dispatch} {rps : Int}
    (found : m.dispatches id = some d) (stage : d.stage = .incring rps) : Expires (m.incr id d rps) := by
  intro key c here idle
  have before : ∀ other, ¬ m.Arming other key := by
    intro other arming
    have ne : other ≠ id := by
      rintro rfl
      obtain ⟨e, there, arms, -⟩ := arming
      obtain rfl := Option.some.inj (found.symm.trans there)
      simp [Dispatch.arming, stage] at arms
    exact idle other (arming_incr.mpr (by rwa [if_neg ne]))
  have counter := here
  rw [show (m.incr id d rps).redis = m.redis.incr d.caller.redisKey (id, d.caller) from rfl,
    Counters.incr_counter] at counter
  split at counter
  · rename_i same
    cases old : m.redis.counter key with
    | none =>
        have first := (next_eq_one armable.lawful).mpr (same ▸ old)
        exact absurd (arming_incr.mpr (by simp [first, same])) (idle id)
    | some c' =>
        obtain ⟨e, expires, soon⟩ := h key c' old before
        refine ⟨e, ?_, soon⟩
        rw [← Option.some.inj counter, ← same, old]
        exact expires
  · exact h key c counter before

/-! ### EXPIRE -/

theorem arming_expire {id : Nat} {d : Dispatch} {rps : Int} {count other : Nat} {key : String} :
    (m.expire id d rps count).Arming other key ↔ other ≠ id ∧ m.Arming other key := by
  rw [show (m.expire id d rps count).Arming other key ↔ (m.put id _).Arming other key from Iff.rfl,
    arming_put]
  split
  · rename_i same
    simp [Dispatch.arming, same]
  · rename_i ne
    simp [ne]

theorem Armable.expire (h : Armable m) {id : Nat} {d : Dispatch} {rps : Int} {count : Nat}
    (found : m.dispatches id = some d) (stage : d.stage = .expiring rps count) :
    Armable (m.expire id d rps count) where
  lawful := h.lawful.expire one_pos _
  issued other e here := h.issued_put found here
  unset other key arming := by
    obtain ⟨ne, arming⟩ := arming_expire.mp arming
    have apart : key ≠ d.caller.redisKey := by
      rintro rfl
      exact ne (h.only other id _ arming ⟨d, found, by simp [Dispatch.arming, stage], rfl⟩)
    obtain ⟨c, before, none⟩ := h.unset other key arming
    exact ⟨c, ((Counters.expire_counter ..).trans (if_neg apart)).trans before, none⟩
  only one two key here there :=
    h.only one two key (arming_expire.mp here).2 (arming_expire.mp there).2

theorem Expires.expire (h : Expires m) {id : Nat} {d : Dispatch} {rps : Int} {count : Nat}
    (found : m.dispatches id = some d) : Expires (m.expire id d rps count) := by
  intro key c here idle
  have counter : (m.redis.expire d.caller.redisKey 1).counter key = some c := here
  by_cases same : key = d.caller.redisKey
  · rw [Counters.expire_counter, if_pos same] at counter
    obtain ⟨old, -, rfl⟩ := Option.map_eq_some_iff.mp counter
    exact ⟨m.redis.now + 1, rfl, le_rfl⟩
  · rw [Counters.expire_counter, if_neg same] at counter
    refine h key c counter fun other arming => idle other (arming_expire.mpr ⟨?_, arming⟩)
    rintro rfl
    obtain ⟨e, there, -, owns⟩ := arming
    obtain rfl := Option.some.inj (found.symm.trans there)
    exact same owns.symm

/-! ### Time -/

theorem Armable.wait (h : Armable m) {seconds : Rat} (forward : 0 ≤ seconds) :
    Armable { m with redis := m.redis.elapse seconds } where
  lawful := h.lawful.elapse forward
  issued := h.issued
  unset id key arming := by
    obtain ⟨c, found, none⟩ := h.unset id key arming
    exact ⟨c, Option.filter_eq_some_iff.mpr ⟨found, by simp [Counter.alive, none]⟩, none⟩
  only := h.only

theorem Expires.wait (h : Expires m) {seconds : Rat} (forward : 0 ≤ seconds) :
    Expires { m with redis := m.redis.elapse seconds } := by
  intro key c found idle
  obtain ⟨e, expires, soon⟩ := h key c (Counters.of_elapse found).1 idle
  refine ⟨e, expires, soon.trans ?_⟩
  exact add_le_add_left (le_add_of_nonneg_right forward) 1

/-! ### Steps -/

theorem Armable.step (h : Armable m) {act : Act} (effect : Effect m act m') : Armable m' := by
  cases effect with
  | passed free =>
      exact h.congr rfl (fun _ _ arming => arming) fun id d here => Nat.lt_succ_of_lt (h.issued id d here)
  | @started process request caller limited =>
      refine h.congr rfl (fun _ _ arming => h.arming_start.mp arming) fun id d here => ?_
      rw [show _ = (m.put m.started _).dispatches id from rfl, put_dispatches] at here
      split at here
      · rename_i same
        exact same ▸ Nat.lt_succ_self _
      · exact Nat.lt_succ_of_lt (h.issued id d here)
  | @allowed id rps d buckets found stage =>
      have idle : d.arming = false := by simp [Dispatch.arming, stage]
      exact h.congr rfl (fun _ _ arming => (arming_put_of_idle found idle rfl).mp arming)
        fun other e here => h.issued_put found here
  | @refused id rps d buckets found stage =>
      exact h.congr rfl (fun _ _ arming => (arming_drop.mp arming).2) fun other e here => h.issued_drop here
  | counted found stage => exact h.incr found
  | @expiring id d rps found stage =>
      refine h.congr rfl (fun other key arming => ?_) fun other e here => h.issued_put found here
      rw [arming_put] at arming
      split at arming
      · rename_i same
        exact ⟨d, same ▸ found, by simp [Dispatch.arming, stage], arming.2⟩
      · exact arming
  | decided found stage =>
      exact h.congr rfl (fun _ _ arming => (arming_drop.mp arming).2) fun other e here => h.issued_drop here
  | armed found stage => exact h.expire found stage
  | aborted found =>
      exact h.congr rfl (fun _ _ arming => (arming_drop.mp arming).2) fun other e here => h.issued_drop here
  | waited forward => exact h.wait forward

theorem Expires.step (h : Expires m) (armable : Armable m) {act : Act} (arms : m.Arms act)
    (effect : Effect m act m') : Expires m' := by
  cases effect with
  | passed free => exact h.congr rfl fun _ _ arming => arming
  | started limited => exact h.congr rfl fun _ _ arming => armable.arming_start.mpr arming
  | @allowed id rps d buckets found stage =>
      have idle : d.arming = false := by simp [Dispatch.arming, stage]
      exact h.congr rfl fun _ _ arming => (arming_put_of_idle found idle rfl).mpr arming
  | @refused id rps d buckets found stage =>
      have idle : d.arming = false := by simp [Dispatch.arming, stage]
      exact h.congr rfl fun _ _ arming => (arming_drop_of_idle found idle).mpr arming
  | counted found stage => exact h.incr armable found stage
  | @expiring id d rps found stage =>
      refine h.congr rfl fun other key arming => ?_
      rw [arming_put]
      split
      · rename_i same
        obtain ⟨e, here, -, owns⟩ := arming
        obtain rfl := Option.some.inj (found.symm.trans (same ▸ here))
        exact ⟨rfl, owns⟩
      · exact arming
  | decided found stage =>
      exact h.congr rfl fun _ _ arming => (arming_drop_of_idle found (idle_of_decided stage)).mpr arming
  | armed found stage => exact h.expire found
  | aborted found =>
      exact h.congr rfl fun _ _ arming => (arming_drop_of_idle found (arms _ found)).mpr arming
  | waited forward => exact h.wait forward

/-- A dispatch that is lost before its EXPIRE leaves a counter that nobody will give a time to live. -/
theorem arms_of_expires (armable : Armable m) {act : Act} (effect : Effect m act m') (h : Expires m') :
    m.Arms act := by
  cases effect with
  | @aborted id d found =>
      intro e here
      obtain rfl := Option.some.inj (found.symm.trans here)
      by_contra arming
      have own : m.Arming id d.caller.redisKey := ⟨d, found, by simpa using arming, rfl⟩
      obtain ⟨c, counter, none⟩ := armable.unset id _ own
      obtain ⟨e, expires, -⟩ := h _ c counter fun other there =>
        (arming_drop.mp there).1 (armable.only other id _ (arming_drop.mp there).2 own)
      exact absurd (none.symm.trans expires) (by simp)
  | _ => trivial

end Steps

theorem armable_initial (now : Rat) : Armable (initial now) := by
  refine ⟨Counters.lawful_empty 1 now, ?_, ?_, ?_⟩ <;> simp [initial, Arming]

theorem armable_throughout (now : Rat) (acts : List Act) :
    Throughout Cluster.step Armable (initial now) acts :=
  throughout_of_step (fun _ _ _ h next => h.step (effect_of_step next)) (armable_initial now)

/-- Every counter expires in exactly the runs in which no dispatch is lost between its INCR and its
EXPIRE. -/
theorem expires_throughout_iff (now : Rat) (acts : List Act) :
    Throughout Cluster.step Expires (initial now) acts ↔ Along Cluster.step Arms (initial now) acts := by
  have start : Armable (initial now) ∧ Expires (initial now) := by
    refine ⟨armable_initial now, fun key c found => ?_⟩
    simp [initial, Counters.empty] at found
  refine throughout_iff_along_any (fun m => Armable m ∧ Expires m) (fun m h => h.2) ?_ ?_ start
  · intro m act m' h arms next
    exact ⟨h.1.step (effect_of_step next), h.2.step h.1 arms (effect_of_step next)⟩
  · intro m act m' h next expires
    exact arms_of_expires h.1 (effect_of_step next) expires

/-- The client disconnects after the first INCR; an hour later the counter is still there. -/
def lostExpire : List Act :=
  [.start 0 ⟨"/v1/chat/completions", some "tenant-1", some "u1"⟩, .load 0 10, .incr 0, .abort 0, .wait 3600]

theorem lostExpire_breaks : ¬ ∀ (now : Rat) (acts : List Act),
    Throughout Cluster.step Expires (initial now) acts := by
  intro claim
  have ended : (exec Cluster.step (initial 0) lostExpire).any (fun m =>
      m.redis.counter "cuckoo:ratelimit:tenant-1:u1" = some ⟨1, none⟩ && m.started = 1 &&
        m.dispatches 0 = none) = true := by decide +kernel
  obtain ⟨m, run, facts⟩ := (Option.any_eq_true _ _).mp ended
  simp only [Bool.and_eq_true, decide_eq_true_eq] at facts
  obtain ⟨⟨counter, one⟩, gone⟩ := facts
  have armable := (armable_throughout 0 lostExpire).last run
  have idle : ∀ id, ¬ m.Arming id "cuckoo:ratelimit:tenant-1:u1" := by
    rintro id ⟨d, here, -⟩
    have first : id = 0 := by
      have issued := armable.issued id d here
      omega
    rw [first, gone] at here
    exact nomatch here
  obtain ⟨e, expires, -⟩ := (claim 0 lostExpire).last run _ _ counter idle
  exact nomatch expires

end CuckooEcho.Gateway
