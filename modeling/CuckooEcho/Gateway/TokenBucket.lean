import CuckooEcho.Gateway.RateLimit
import Mathlib.Tactic.Linarith
import Mathlib.Data.Rat.Cast.Order

namespace CuckooEcho.Gateway.TokenBucket

/-! ## What a bucket lets through -/

/-- One call after the other: the answers with their times, and the bucket that is left. -/
def calls (bucket : TokenBucket) : List Rat → List (Rat × Bool) × TokenBucket
  | [] => ([], bucket)
  | now :: times =>
      let (allowed, bucket) := bucket.allow now
      let (answers, last) := calls bucket times
      ((now, allowed) :: answers, last)

def inWindow (start length : Rat) (answer : Rat × Bool) : Bool :=
  answer.2 ∧ start ≤ answer.1 ∧ answer.1 ≤ start + length

structure Filled (c : Int) (bucket : TokenBucket) : Prop where
  capacity : bucket.capacity = c
  empty : 0 ≤ bucket.tokens
  full : bucket.tokens ≤ c

section
variable {c : Int} {bucket : TokenBucket} {now : Rat}

theorem filled_new (c : Int) (positive : 1 ≤ c) (now : Rat) : Filled c (new c now) where
  capacity := rfl
  empty := by
    have : (1 : Rat) ≤ c := by exact_mod_cast positive
    exact zero_le_one.trans this
  full := le_refl (c : Rat)

/-- What the bucket holds when it is asked. -/
def refilled (bucket : TokenBucket) (now : Rat) : Rat :=
  min (bucket.capacity : Rat) (bucket.tokens + (now - bucket.lastRefill) * bucket.capacity)

theorem allow_eq (bucket : TokenBucket) (now : Rat) :
    bucket.allow now = (decide (1 ≤ bucket.refilled now),
      { bucket with
        tokens := bucket.refilled now - if 1 ≤ bucket.refilled now then 1 else 0
        lastRefill := now }) := by
  change (if 1 ≤ bucket.refilled now then _ else _) = _
  split
  · rename_i enough
    simp only [decide_eq_true enough]
    rfl
  · rename_i short
    simp only [decide_eq_false short, sub_zero]
    rfl

@[simp] theorem allow_lastRefill (bucket : TokenBucket) (now : Rat) : (bucket.allow now).2.lastRefill = now := by
  rw [allow_eq]

theorem ordered_allow {times : List Rat} (ordered : (bucket.lastRefill :: now :: times).Pairwise (· ≤ ·)) :
    bucket.lastRefill ≤ now ∧ ((bucket.allow now).2.lastRefill :: times).Pairwise (· ≤ ·) := by
  obtain ⟨after, rest⟩ := List.pairwise_cons.mp ordered
  rw [allow_lastRefill]
  exact ⟨after now (List.mem_cons_self ..), rest⟩

theorem Filled.refilled_nonneg (h : Filled c bucket) (positive : 1 ≤ c) (later : bucket.lastRefill ≤ now) :
    0 ≤ bucket.refilled now := by
  have capacity : (0 : Rat) ≤ bucket.capacity := by
    rw [h.capacity]
    exact_mod_cast zero_le_one.trans positive
  refine le_min capacity (add_nonneg h.empty (mul_nonneg ?_ capacity))
  exact sub_nonneg.mpr later

theorem Filled.allow (h : Filled c bucket) (positive : 1 ≤ c) (later : bucket.lastRefill ≤ now) :
    Filled c (bucket.allow now).2 := by
  have nonneg := h.refilled_nonneg positive later
  have full : bucket.refilled now ≤ c := (min_le_left _ _).trans_eq (by rw [h.capacity])
  rw [allow_eq]
  refine ⟨h.capacity, ?_, ?_⟩
  · dsimp only
    split
    · rename_i enough
      exact sub_nonneg.mpr enough
    · rwa [sub_zero]
  · dsimp only
    split
    · linarith
    · rwa [sub_zero]

theorem Filled.calls (h : Filled c bucket) (positive : 1 ≤ c) {times : List Rat}
    (ordered : (bucket.lastRefill :: times).Pairwise (· ≤ ·)) : Filled c (bucket.calls times).2 := by
  induction times generalizing bucket with
  | nil => exact h
  | cons now times ih =>
      obtain ⟨later, rest⟩ := ordered_allow ordered
      exact ih (h.allow positive later) rest

theorem calls_times (bucket : TokenBucket) (times : List Rat) : (bucket.calls times).1.map Prod.fst = times := by
  induction times generalizing bucket with
  | nil => rfl
  | cons now times ih => exact congrArg (now :: ·) (ih _)

def grantedBy (stop : Rat) (answer : Rat × Bool) : Bool := answer.2 ∧ answer.1 ≤ stop

theorem granted_none {stop : Rat} {times : List Rat} (ordered : (now :: times).Pairwise (· ≤ ·))
    (late : ¬ now ≤ stop) (bucket : TokenBucket) :
    (bucket.calls (now :: times)).1.countP (grantedBy stop) = 0 := by
  refine List.countP_eq_zero.mpr fun answer member granted => ?_
  have asked : answer.1 ∈ now :: times := by
    rw [← calls_times bucket (now :: times)]
    exact List.mem_map_of_mem member
  have inTime : answer.1 ≤ stop := (of_decide_eq_true granted).2
  obtain first | later := List.mem_cons.mp asked
  · exact late (first ▸ inTime)
  · exact late (((List.pairwise_cons.mp ordered).1 _ later).trans inTime)

theorem countP_calls (p : Rat × Bool → Bool) (bucket : TokenBucket) (now : Rat) (times : List Rat) :
    (bucket.calls (now :: times)).1.countP p = ((bucket.allow now).2.calls times).1.countP p +
      if p (now, (bucket.allow now).1) then 1 else 0 := List.countP_cons

/-- A granted call takes a token. -/
theorem allow_charge (bucket : TokenBucket) (now : Rat) :
    (if (bucket.allow now).1 then 1 else 0) + (bucket.allow now).2.tokens = bucket.refilled now := by
  rw [allow_eq]
  simp

/-- The tokens for the granted calls are those in the bucket and those that time adds. -/
theorem Filled.granted_le (h : Filled c bucket) (positive : 1 ≤ c) (stop : Rat) {times : List Rat}
    (ordered : (bucket.lastRefill :: times).Pairwise (· ≤ ·)) (begun : bucket.lastRefill ≤ stop) :
    (((bucket.calls times).1.countP (grantedBy stop) : Nat) : Rat) ≤
      bucket.tokens + (stop - bucket.lastRefill) * c := by
  induction times generalizing bucket with
  | nil =>
      have capacity : (0 : Rat) ≤ c := h.empty.trans h.full
      exact add_nonneg h.empty (mul_nonneg (sub_nonneg.mpr begun) capacity)
  | cons now times ih =>
      obtain ⟨later, rest⟩ := ordered_allow ordered
      by_cases inTime : now ≤ stop
      · have here := h.allow positive later
        have more := ih here rest (by rwa [allow_lastRefill])
        have charge := allow_charge bucket now
        have refill : bucket.refilled now ≤ bucket.tokens + (now - bucket.lastRefill) * c := by
          rw [← h.capacity]
          exact min_le_right _ _
        rw [allow_lastRefill] at more
        rw [countP_calls]
        push_cast
        simp only [grantedBy, inTime, and_true, Bool.decide_eq_true]
        linarith
      · have capacity : (0 : Rat) ≤ c := h.empty.trans h.full
        rw [granted_none (List.pairwise_cons.mp ordered).2 inTime]
        exact add_nonneg h.empty (mul_nonneg (sub_nonneg.mpr begun) capacity)

theorem window_le_granted (start length : Rat) (answers : List (Rat × Bool)) :
    answers.countP (inWindow start length) ≤ answers.countP (grantedBy (start + length)) := by
  refine List.countP_mono_left fun answer _ inside => ?_
  obtain ⟨granted, -, inTime⟩ := of_decide_eq_true inside
  exact decide_eq_true ⟨granted, inTime⟩

/-- The first call in a window finds at most a full bucket. -/
theorem Filled.window_le (h : Filled c bucket) (positive : 1 ≤ c) {start length : Rat} (forward : 0 ≤ length)
    {times : List Rat} (ordered : (bucket.lastRefill :: times).Pairwise (· ≤ ·)) :
    (((bucket.calls times).1.countP (inWindow start length) : Nat) : Rat) ≤ c + c * length := by
  have capacity : (0 : Rat) ≤ c := h.empty.trans h.full
  induction times generalizing bucket with
  | nil => exact add_nonneg capacity (mul_nonneg capacity forward)
  | cons now times ih =>
      obtain ⟨later, rest⟩ := ordered_allow ordered
      have here := h.allow positive later
      by_cases before : now < start
      · have outside : inWindow start length (now, (bucket.allow now).1) = false := by
          simp [inWindow, before]
        rw [countP_calls, outside]
        exact ih here rest
      · have fewer : (((bucket.calls (now :: times)).1.countP (inWindow start length) : Nat) : Rat) ≤
            ((bucket.calls (now :: times)).1.countP (grantedBy (start + length)) : Nat) := by
          exact_mod_cast window_le_granted start length _
        refine fewer.trans ?_
        by_cases inTime : now ≤ start + length
        · have more := here.granted_le positive (start + length) rest (by rwa [allow_lastRefill])
          have charge := allow_charge bucket now
          have full : bucket.refilled now ≤ c := (min_le_left _ _).trans_eq (by rw [h.capacity])
          have waited : (start + length - now) * c ≤ length * c :=
            mul_le_mul_of_nonneg_right (by linarith) capacity
          rw [allow_lastRefill] at more
          rw [countP_calls]
          push_cast
          simp only [grantedBy, inTime, and_true, Bool.decide_eq_true]
          linarith
        · rw [granted_none (List.pairwise_cons.mp ordered).2 inTime]
          exact add_nonneg capacity (mul_nonneg capacity forward)

end

/-- For every capacity and all times of the calls, the tokens stay between none and the capacity, and in a window no
more calls are granted than a full bucket and the refill of its length allow. -/
theorem tokens_and_grants_bounded {c : Int} (positive : 1 ≤ c) (created : Rat) {times : List Rat}
    (ordered : (created :: times).Pairwise (· ≤ ·)) :
    (0 ≤ ((new c created).calls times).2.tokens ∧ ((new c created).calls times).2.tokens ≤ c) ∧
      ∀ start length : Rat, 0 ≤ length →
        ((((new c created).calls times).1.countP (inWindow start length) : Nat) : Rat) ≤ c + c * length :=
  have filled := filled_new c positive created
  ⟨⟨(filled.calls positive ordered).empty, (filled.calls positive ordered).full⟩,
    fun _ _ forward => filled.window_le positive forward ordered⟩

theorem tokens_and_grants_bounded_twice :
    (0 ≤ ((new 1 0).calls [0, 1 / 2, 1]).2.tokens ∧ ((new 1 0).calls [0, 1 / 2, 1]).2.tokens ≤ (1 : Int)) ∧
      ∀ start length : Rat, 0 ≤ length →
        ((((new 1 0).calls [0, 1 / 2, 1]).1.countP (inWindow start length) : Nat) : Rat) ≤
          (1 : Int) + (1 : Int) * length :=
  tokens_and_grants_bounded (by decide) 0 (by decide +kernel)

end CuckooEcho.Gateway.TokenBucket
