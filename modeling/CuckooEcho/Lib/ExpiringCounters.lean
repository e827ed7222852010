import Mathlib.Tactic.Linarith
import Mathlib.Data.List.Nodup
import Mathlib.Data.List.Perm.Subperm
import Mathlib.Logic.Function.Basic

namespace CuckooEcho.Lib

/-! ## Counters with a time to live

A store of counters that increments create and that vanish when their time to live has passed. Every
executed increment leaves a ticket, which says in which lifetime of its counter it fell. -/

structure Counter where
  count : Nat
  expires : Option Rat
  deriving DecidableEq, Repr

def Counter.alive (now : Rat) (c : Counter) : Bool := c.expires.all (now < ·)

/-- An executed increment; `lifetime` is the number of times the counter had expired before. -/
structure Ticket (κ ι : Type*) where
  key : κ
  holder : ι
  time : Rat
  lifetime : Nat
  count : Nat
  deriving DecidableEq, Repr

structure Counters (κ ι : Type*) where
  now : Rat
  counter : κ → Option Counter
  expirations : κ → Nat
  tickets : List (Ticket κ ι)

namespace Counters
variable {κ ι : Type*} [DecidableEq κ]

def empty (now : Rat) : Counters κ ι := ⟨now, fun _ => none, fun _ => 0, []⟩

def next (s : Counters κ ι) (key : κ) : Nat := (s.counter key).elim 1 (·.count + 1)

def incr (s : Counters κ ι) (key : κ) (holder : ι) : Counters κ ι :=
  { s with
    counter := Function.update s.counter key
      (some { count := s.next key, expires := (s.counter key).bind (·.expires) })
    tickets := ⟨key, holder, s.now, s.expirations key, s.next key⟩ :: s.tickets }

def expire (s : Counters κ ι) (key : κ) (ttl : Rat) : Counters κ ι :=
  { s with
    counter := Function.update s.counter key
      ((s.counter key).map fun c => { c with expires := some (s.now + ttl) }) }

def elapse (s : Counters κ ι) (seconds : Rat) : Counters κ ι :=
  { s with
    now := s.now + seconds
    counter := fun key => (s.counter key).filter (·.alive (s.now + seconds))
    expirations := fun key =>
      if (s.counter key).any fun c => !c.alive (s.now + seconds) then s.expirations key + 1
      else s.expirations key }

/-- Counts are handed out once in a lifetime, and a counter that has been given a time to live ends
later than that after every increment of its earlier lifetimes. -/
structure Lawful (ttl : Rat) (s : Counters κ ι) : Prop where
  positive : ∀ t ∈ s.tickets, 1 ≤ t.count
  distinct : s.tickets.Pairwise fun t u => t.key = u.key → t.lifetime = u.lifetime → t.count ≠ u.count
  past : ∀ t ∈ s.tickets, t.time ≤ s.now
  latest : ∀ t ∈ s.tickets, t.lifetime ≤ s.expirations t.key
  counted : ∀ t ∈ s.tickets, t.lifetime = s.expirations t.key →
    ∃ c, s.counter t.key = some c ∧ t.count ≤ c.count
  started : ∀ key c, s.counter key = some c → 1 ≤ c.count
  alive : ∀ key c e, s.counter key = some c → c.expires = some e → s.now < e ∧ e ≤ s.now + ttl
  ends : ∀ t ∈ s.tickets, t.lifetime < s.expirations t.key →
    ∀ c e, s.counter t.key = some c → c.expires = some e → t.time + ttl ≤ e
  ended : ∀ t ∈ s.tickets, t.lifetime + 2 ≤ s.expirations t.key → t.time + ttl ≤ s.now
  apart : ∀ t ∈ s.tickets, ∀ u ∈ s.tickets, t.key = u.key → t.lifetime + 2 ≤ u.lifetime →
    t.time + ttl ≤ u.time

variable {ttl : Rat} {s : Counters κ ι}

omit [DecidableEq κ] in
theorem lawful_empty (ttl now : Rat) : Lawful ttl (empty now : Counters κ ι) := by
  refine ⟨?_, List.Pairwise.nil, ?_, ?_, ?_, ?_, ?_, ?_, ?_, ?_⟩ <;> simp [empty]

omit [DecidableEq κ] in
theorem next_of_eq {key : κ} {c : Counter} (found : s.counter key = some c) : s.next key = c.count + 1 := by
  rw [next, found, Option.elim_some]

theorem incr_counter (key : κ) (holder : ι) (other : κ) : (s.incr key holder).counter other =
    if other = key then some { count := s.next key, expires := (s.counter key).bind (·.expires) }
    else s.counter other :=
  Function.update_apply ..

theorem of_incr_expires {key : κ} {holder : ι} {other : κ} {c : Counter} {e : Rat}
    (found : (s.incr key holder).counter other = some c) (expires : c.expires = some e) :
    ∃ old, s.counter other = some old ∧ old.expires = some e := by
  rw [incr_counter] at found
  split at found
  · rename_i same
    subst same
    obtain rfl := Option.some.inj found
    exact Option.bind_eq_some_iff.mp expires
  · exact ⟨c, found, expires⟩

omit [DecidableEq κ] in
theorem one_le_next (s : Counters κ ι) (key : κ) : 1 ≤ s.next key := by
  cases found : s.counter key <;> simp [next, found]

theorem Lawful.incr (h : Lawful ttl s) (key : κ) (holder : ι) : Lawful ttl (s.incr key holder) where
  positive := List.forall_mem_cons.mpr ⟨one_le_next s key, h.positive⟩
  distinct := by
    refine List.pairwise_cons.mpr ⟨fun t member sameKey sameLife => ?_, h.distinct⟩
    obtain ⟨c, found, le⟩ := h.counted t member (by rw [← sameLife, ← sameKey])
    change s.next key ≠ t.count
    have here : t.key = key := sameKey.symm
    rw [next_of_eq (here ▸ found)]
    omega
  past := List.forall_mem_cons.mpr ⟨le_rfl, h.past⟩
  latest := List.forall_mem_cons.mpr ⟨le_rfl, h.latest⟩
  counted := by
    refine List.forall_mem_cons.mpr ⟨fun _ => ⟨_, (incr_counter ..).trans (if_pos rfl), le_rfl⟩,
      fun t member same => ?_⟩
    obtain ⟨c, found, le⟩ := h.counted t member same
    by_cases here : t.key = key
    · refine ⟨_, (incr_counter ..).trans (if_pos here), ?_⟩
      change t.count ≤ s.next key
      rw [next_of_eq (here ▸ found)]
      omega
    · exact ⟨c, ((incr_counter ..).trans (if_neg here)).trans found, le⟩
  started other c found := by
    rw [incr_counter] at found
    split at found
    · exact Option.some.inj found ▸ one_le_next s key
    · exact h.started other c found
  alive other c e found expires := by
    obtain ⟨old, found, expires⟩ := of_incr_expires found expires
    exact h.alive other old e found expires
  ends := by
    refine List.forall_mem_cons.mpr ⟨fun lt => absurd lt (lt_irrefl _), fun t member lt c e found expires => ?_⟩
    obtain ⟨old, found, expires⟩ := of_incr_expires found expires
    exact h.ends t member lt old e found expires
  ended := by
    refine List.forall_mem_cons.mpr ⟨fun le => ?_, h.ended⟩
    exact absurd le (by simp [Counters.incr])
  apart := by
    refine List.forall_mem_cons.mpr ⟨List.forall_mem_cons.mpr ⟨fun _ le => ?_, fun u member same le => ?_⟩,
      fun t member => List.forall_mem_cons.mpr ⟨fun same le => ?_, h.apart t member⟩⟩
    · exact absurd le (by simp)
    · have latest := h.latest u member
      rw [← same] at latest
      simp only at le latest
      omega
    · exact h.ended t member (by rw [same]; exact le)

theorem expire_counter (key : κ) (ttl : Rat) (other : κ) : (s.expire key ttl).counter other =
    if other = key then (s.counter key).map fun c => { c with expires := some (s.now + ttl) }
    else s.counter other :=
  Function.update_apply ..

theorem of_expire {key other : κ} {c : Counter} (found : (s.expire key ttl).counter other = some c) :
    ∃ old, s.counter other = some old ∧ c.count = old.count ∧
      (c = old ∨ c.expires = some (s.now + ttl)) := by
  rw [expire_counter] at found
  split at found
  · rename_i same
    subst same
    obtain ⟨old, before, rfl⟩ := Option.map_eq_some_iff.mp found
    exact ⟨old, before, rfl, Or.inr rfl⟩
  · exact ⟨c, found, rfl, Or.inl rfl⟩

theorem Lawful.expire (h : Lawful ttl s) (lasts : 0 < ttl) (key : κ) : Lawful ttl (s.expire key ttl) where
  positive := h.positive
  distinct := h.distinct
  past := h.past
  latest := h.latest
  counted t member same := by
    obtain ⟨c, found, le⟩ := h.counted t member same
    by_cases here : t.key = key
    · refine ⟨{ c with expires := some (s.now + ttl) }, ?_, le⟩
      rw [expire_counter, if_pos here, ← here, found]
      rfl
    · exact ⟨c, ((expire_counter ..).trans (if_neg here)).trans found, le⟩
  started other c found := by
    obtain ⟨old, found, count, -⟩ := of_expire found
    exact count ▸ h.started other old found
  alive other c e found expires := by
    obtain ⟨old, found, -, rfl | now⟩ := of_expire found
    · exact h.alive other c e found expires
    · obtain rfl := Option.some.inj (now.symm.trans expires)
      exact ⟨lt_add_of_pos_right _ lasts, le_rfl⟩
  ends t member lt c e found expires := by
    obtain ⟨old, found, -, rfl | now⟩ := of_expire found
    · exact h.ends t member lt c e found expires
    · obtain rfl := Option.some.inj (now.symm.trans expires)
      exact add_le_add_left (h.past t member) ttl
  ended := h.ended
  apart := h.apart

omit [DecidableEq κ] in
theorem of_elapse {seconds : Rat} {key : κ} {c : Counter}
    (found : (s.elapse seconds).counter key = some c) :
    s.counter key = some c ∧ (s.elapse seconds).expirations key = s.expirations key ∧
      ∀ e, c.expires = some e → s.now + seconds < e := by
  obtain ⟨found, alive⟩ := Option.filter_eq_some_iff.mp found
  refine ⟨found, ?_, fun e expires => ?_⟩
  · simp [elapse, found, alive]
  · simpa [Counter.alive, expires] using alive

omit [DecidableEq κ] in
theorem elapse_counter {seconds : Rat} {key : κ} {c : Counter}
    (kept : (s.elapse seconds).expirations key = s.expirations key) (found : s.counter key = some c) :
    (s.elapse seconds).counter key = some c := by
  refine Option.filter_eq_some_iff.mpr ⟨found, ?_⟩
  by_contra dead
  simp [elapse, found, dead] at kept

omit [DecidableEq κ] in
theorem elapse_expirations (seconds : Rat) (key : κ) :
    (s.elapse seconds).expirations key = s.expirations key ∨
      (s.elapse seconds).expirations key = s.expirations key + 1 ∧
        ∃ c e, s.counter key = some c ∧ c.expires = some e ∧ e ≤ s.now + seconds := by
  unfold elapse
  dsimp only
  split
  · rename_i gone
    obtain ⟨c, found, dead⟩ := (Option.any_eq_true _ _).mp gone
    cases expires : c.expires with
    | none => simp [Counter.alive, expires] at dead
    | some e => exact Or.inr ⟨rfl, c, e, found, expires, by simpa [Counter.alive, expires] using dead⟩
  · exact Or.inl rfl

omit [DecidableEq κ] in
theorem Lawful.elapse (h : Lawful ttl s) {seconds : Rat} (forward : 0 ≤ seconds) :
    Lawful ttl (s.elapse seconds) where
  positive := h.positive
  distinct := h.distinct
  past t member := (h.past t member).trans (le_add_of_nonneg_right forward)
  latest t member := by
    have latest := h.latest t member
    rcases elapse_expirations (s := s) seconds t.key with same | ⟨more, -⟩ <;> omega
  counted t member same := by
    have latest := h.latest t member
    rcases elapse_expirations (s := s) seconds t.key with kept | ⟨more, -⟩
    · obtain ⟨c, found, le⟩ := h.counted t member (same.trans kept)
      exact ⟨c, elapse_counter kept found, le⟩
    · omega
  started key c found := h.started key c (of_elapse found).1
  alive key c e found expires := by
    obtain ⟨found, -, later⟩ := of_elapse found
    refine ⟨later e expires, (h.alive key c e found expires).2.trans ?_⟩
    change s.now + ttl ≤ s.now + seconds + ttl
    linarith
  ends t member lt c e found expires := by
    obtain ⟨found, same, -⟩ := of_elapse found
    exact h.ends t member (same ▸ lt) c e found expires
  ended t member le := by
    rcases elapse_expirations (s := s) seconds t.key with same | ⟨more, c, e, found, expires, gone⟩
    · exact (h.ended t member (same ▸ le)).trans (le_add_of_nonneg_right forward)
    · exact (h.ends t member (by omega) c e found expires).trans gone
  apart := h.apart

/-! ### How many tickets there can be -/

omit [DecidableEq κ] in
/-- Of the tickets of one lifetime at most `limit` have counts up to `limit`. -/
theorem Lawful.countP_lifetime_le (h : Lawful ttl s) {p : Ticket κ ι → Bool} {key : κ} {lifetime limit : Nat}
    (bounded : ∀ t ∈ s.tickets, p t → t.key = key ∧ t.lifetime = lifetime ∧ t.count ≤ limit) :
    s.tickets.countP p ≤ limit := by
  have distinct : ((s.tickets.filter p).map (·.count)).Nodup := by
    refine List.pairwise_map.mpr ((h.distinct.filter p).imp_of_mem fun {t u} ht hu apart => ?_)
    obtain ⟨ht, chosenT⟩ := List.mem_filter.mp ht
    obtain ⟨hu, chosenU⟩ := List.mem_filter.mp hu
    obtain ⟨keyT, lifeT, -⟩ := bounded t ht chosenT
    obtain ⟨keyU, lifeU, -⟩ := bounded u hu chosenU
    exact apart (keyT.trans keyU.symm) (lifeT.trans lifeU.symm)
  have within : (s.tickets.filter p).map (·.count) ⊆ List.range' 1 limit := by
    intro count member
    obtain ⟨t, kept, rfl⟩ := List.mem_map.mp member
    obtain ⟨kept, chosen⟩ := List.mem_filter.mp kept
    have positive := h.positive t kept
    have le := (bounded t kept chosen).2.2
    exact List.mem_range'_1.mpr ⟨positive, by omega⟩
  have le := (List.subperm_of_subset distinct within).length_le
  rwa [List.length_map, List.length_range', ← List.countP_eq_length_filter] at le

omit [DecidableEq κ] in
/-- An interval as long as the time to live meets at most two lifetimes of a counter. -/
theorem Lawful.countP_interval_le (h : Lawful ttl s) {p : Ticket κ ι → Bool} {key : κ} {start : Rat}
    {limit : Nat}
    (bounded : ∀ t ∈ s.tickets, p t → t.key = key ∧ start ≤ t.time ∧ t.time < start + ttl)
    (each : ∀ lifetime, s.tickets.countP (fun t => p t && t.lifetime = lifetime) ≤ limit) :
    s.tickets.countP p ≤ 2 * limit := by
  classical
  by_cases some : ∃ lifetime, ∃ t ∈ s.tickets, p t ∧ t.lifetime = lifetime
  · obtain ⟨first, member, chosen, firstLife⟩ := Nat.find_spec some
    have earliest : ∀ t ∈ s.tickets, p t → Nat.find some ≤ t.lifetime := fun t member chosen =>
      Nat.find_min' some ⟨t, member, chosen, rfl⟩
    have latest : ∀ t ∈ s.tickets, p t → t.lifetime ≤ Nat.find some + 1 := by
      intro t memberT chosenT
      by_contra later
      obtain ⟨keyF, afterStart, -⟩ := bounded first member chosen
      obtain ⟨keyT, -, beforeEnd⟩ := bounded t memberT chosenT
      have apart := h.apart first member t memberT (keyF.trans keyT.symm) (by omega)
      linarith
    rw [List.countP_eq_countP_filter_add _ p (fun t => t.lifetime = Nat.find some), List.countP_filter,
      List.countP_filter]
    have here := each (Nat.find some)
    have next : s.tickets.countP (fun t => p t && !decide (t.lifetime = Nat.find some)) ≤ limit := by
      refine (List.countP_mono_left fun t member hp => ?_).trans (each (Nat.find some + 1))
      obtain ⟨chosen, ne⟩ := Bool.and_eq_true_iff.mp hp
      have lower := earliest t member chosen
      have upper := latest t member chosen
      have ne : t.lifetime ≠ Nat.find some := by simpa using ne
      simp only [chosen, Bool.true_and, decide_eq_true_eq]
      omega
    omega
  · have none : s.tickets.countP p = 0 :=
      List.countP_eq_zero.mpr fun t member chosen => some ⟨_, t, member, chosen, rfl⟩
    omega

/-! ### Two stores that agree on a counter -/

structure Agree (key : κ) (s t : Counters κ ι) : Prop where
  now : s.now = t.now
  counter : s.counter key = t.counter key
  expirations : s.expirations key = t.expirations key

variable {t : Counters κ ι} {key : κ}

omit [DecidableEq κ] in
theorem Agree.next (h : Agree key s t) : s.next key = t.next key := by rw [Counters.next, Counters.next, h.counter]

theorem Agree.incr (h : Agree key s t) (holder holder' : ι) : Agree key (s.incr key holder) (t.incr key holder') := by
  refine ⟨h.now, ?_, h.expirations⟩
  rw [incr_counter, incr_counter, if_pos rfl, if_pos rfl, h.next, h.counter]

theorem Agree.incr_ne (h : Agree key s t) {other : κ} (ne : key ≠ other) (holder : ι) :
    Agree key (s.incr other holder) t :=
  ⟨h.now, (incr_counter ..).trans ((if_neg ne).trans h.counter), h.expirations⟩

theorem Agree.expire (h : Agree key s t) (ttl : Rat) : Agree key (s.expire key ttl) (t.expire key ttl) := by
  refine ⟨h.now, ?_, h.expirations⟩
  rw [expire_counter, expire_counter, if_pos rfl, if_pos rfl, h.counter, h.now]

theorem Agree.expire_ne (h : Agree key s t) {other : κ} (ne : key ≠ other) (ttl : Rat) :
    Agree key (s.expire other ttl) t :=
  ⟨h.now, (expire_counter ..).trans ((if_neg ne).trans h.counter), h.expirations⟩

omit [DecidableEq κ] in
theorem Agree.elapse (h : Agree key s t) (seconds : Rat) : Agree key (s.elapse seconds) (t.elapse seconds) := by
  refine ⟨congrArg (· + seconds) h.now, ?_, ?_⟩
  · simp only [Counters.elapse, h.now, h.counter]
  · simp only [Counters.elapse, h.now, h.counter, h.expirations]

end Counters

end CuckooEcho.Lib
