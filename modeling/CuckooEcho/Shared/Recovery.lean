import CuckooEcho.Shared.Evidence

namespace CuckooEcho.Shared
open Lib Usage

/-! ## When a breaker admits calls again -/

/-- With no call in flight and `timeout` over since the last failure, the next call is admitted. -/
def NeverWedged (b : CircuitBreaker) (m : Usage) : Prop :=
  m.inFlight = [] → m.fields.totalFailures = 0 ∨ b.timeout ≤ m.now - m.fields.lastFailureTime →
    (b.beginCall m.now m.fields).2 = none

/-- A breaker that opens allows a probe at all, and no probe is cancelled while its period lasts. -/
def ProbesEnd (b : CircuitBreaker) (m : Usage) : Act → Prop
  | .fail _ => Opens b m → 1 ≤ b.halfOpenMaxCalls
  | .cancel id => ¬ (m.fields.state = .halfOpen ∧ m.Own id)
  | _ => True

theorem CircuitBreaker.admit_closed {b : CircuitBreaker} {now : Rat} {f : Fields}
    (closed : f.state = .closed) : b.beginCall now f = (f, none) := by
  simp [beginCall, readState, closed]

theorem CircuitBreaker.admit_rested {b : CircuitBreaker} {now : Rat} {f : Fields}
    (opened : f.state = .opened) (rested : b.timeout ≤ now - f.lastFailureTime)
    (probes : 1 ≤ b.halfOpenMaxCalls) : (b.beginCall now f).2 = none := by
  have room : ¬ b.halfOpenMaxCalls ≤ 0 := by omega
  simp [beginCall, readState, opened, rested, room]

theorem CircuitBreaker.admit_halfOpen {b : CircuitBreaker} {now : Rat} {f : Fields}
    (halfOpen : f.state = .halfOpen) :
    (b.beginCall now f).2 = none ↔ (f.halfOpenCalls : Int) < b.halfOpenMaxCalls := by
  by_cases full : b.halfOpenMaxCalls ≤ f.halfOpenCalls
  · simp [beginCall, readState, halfOpen, full]
  · simp [beginCall, readState, halfOpen, full, Int.not_le.mp full]

/-- Each probe of the current period is in flight or has been counted as a success. -/
structure Recovers (b : CircuitBreaker) (m : Usage) : Prop extends Numbered m where
  probes : m.fields.state ≠ .closed → 1 ≤ b.halfOpenMaxCalls
  failures : m.fields.totalFailures = 0 → m.fields.state = .closed
  short : m.fields.successCount = 0 ∨ m.fields.successCount < b.halfOpenMaxCalls
  slots : m.fields.state = .halfOpen → m.fields.halfOpenCalls = m.current.invoked.length
  ends : m.fields.state = .halfOpen →
    ∀ call ∈ m.current.invoked, call.1 ∈ m.inFlight ∨ call.1 ∈ m.current.succeeded
  counts : m.fields.state = .halfOpen → m.current.evidence ≤ m.fields.successCount

theorem Recovers.neverWedged {b : CircuitBreaker} {m : Usage} (h : Recovers b m) : NeverWedged b m := by
  intro idle rested
  cases state : m.fields.state with
  | closed => rw [CircuitBreaker.admit_closed state]
  | opened =>
      have probes := h.probes (by simp [state])
      have rested := rested.resolve_left fun none => by simp [h.failures none] at state
      exact CircuitBreaker.admit_rested state rested probes
  | halfOpen =>
      have all : m.current.evidence = m.current.invoked.length := by
        refine List.countP_eq_length.mpr fun call member => decide_eq_true ?_
        exact (h.ends state call member).resolve_left (by simp [idle])
      have probes := h.probes (by simp [state])
      have counts := h.counts state
      have slots := h.slots state
      rw [CircuitBreaker.admit_halfOpen state]
      rcases h.short with none | short
      · omega
      · omega

section Steps
variable {b : CircuitBreaker} {m m' : Usage}

theorem Recovers.reads (h : Recovers b m) (reads : Reads b m m') : Recovers b m' := by
  have numbered := h.toNumbered.reads reads
  cases reads with
  | same => exact h
  | probing opened rested =>
      have probes := h.probes (by simp [opened])
      refine ⟨numbered, fun _ => probes, fun none => ?_, h.short, fun _ => rfl, ?_, ?_⟩
      · simp [h.failures none] at opened
      · exact fun _ call member => absurd member List.not_mem_nil
      · exact fun _ => Nat.zero_le _

theorem Recovers.enters (h : Recovers b m) (enters : Enters b m m') : Recovers b m' := by
  have numbered := h.toNumbered.enters enters
  have invoked := h.toNumbered.evidence_invoke
  cases enters with
  | closed closed =>
      have other (halfOpen : m.invoke.fields.state = .halfOpen) : False := by
        simp [Usage.invoke, closed] at halfOpen
      exact ⟨numbered, h.probes, h.failures, h.short, fun h => (other h).elim, fun h => (other h).elim,
        fun h => (other h).elim⟩
  | halfOpen halfOpen room =>
      refine ⟨numbered, h.probes, h.failures, h.short, fun _ => ?_, fun _ => ?_, fun _ => ?_⟩
      · exact congrArg (· + 1) (h.slots halfOpen)
      · refine List.forall_mem_cons.mpr ⟨Or.inl List.mem_cons_self, fun call member => ?_⟩
        exact (h.ends halfOpen call member).imp_left (List.mem_cons_of_mem _)
      · exact invoked.le.trans (h.counts halfOpen)

theorem Recovers.succeeds (h : Recovers b m) {id : Nat} (member : id ∈ m.inFlight)
    (succeeds : Succeeds b m id m') : Recovers b m' := by
  have numbered := h.toNumbered.succeeds member succeeds
  have more := h.toNumbered.evidence_succeed member
  cases succeeds with
  | other other =>
      exact ⟨numbered, h.probes, h.failures, h.short, fun h => (other h).elim, fun h => (other h).elim,
        fun h => (other h).elim⟩
  | counted halfOpen short =>
      refine ⟨numbered, h.probes, h.failures, Or.inr short, h.slots, fun _ call member => ?_, fun _ => ?_⟩
      · by_cases same : call.1 = id
        · exact Or.inr (List.mem_cons.mpr (Or.inl same))
        · rcases h.ends halfOpen call member with still | done
          · exact Or.inl (List.mem_filter.mpr ⟨still, by simpa using same⟩)
          · exact Or.inr (List.mem_cons_of_mem _ done)
      · have counts := h.counts halfOpen
        refine more.le.trans ?_
        change _ ≤ m.fields.successCount + 1
        split <;> omega
  | closes halfOpen enough =>
      refine ⟨numbered, fun other => absurd rfl other, fun _ => rfl, Or.inl rfl, ?_, ?_, ?_⟩
      all_goals exact fun halfOpen => absurd halfOpen (by simp)

theorem Recovers.fails (h : Recovers b m) {id : Nat} (probes : Opens b m → 1 ≤ b.halfOpenMaxCalls)
    (fails : Fails b m id m') : Recovers b m' := by
  have numbered := h.toNumbered.fails fails
  cases fails with
  | opens other opens =>
      refine ⟨numbered, fun _ => probes opens, fun none => ?_, h.short, ?_, ?_, ?_⟩
      · exact absurd none (Nat.succ_ne_zero _)
      all_goals exact fun halfOpen => absurd halfOpen (by simp)
  | stays other stays =>
      refine ⟨numbered, h.probes, fun none => ?_, h.short, ?_, ?_, ?_⟩
      · exact absurd none (Nat.succ_ne_zero _)
      all_goals exact fun halfOpen => absurd halfOpen other

theorem Recovers.cancels (h : Recovers b m) {id : Nat}
    (kept : ¬ (m.fields.state = .halfOpen ∧ m.Own id)) : Recovers b (m.leave id) where
  toNumbered := h.toNumbered.leave id
  probes := h.probes
  failures := h.failures
  short := h.short
  slots := h.slots
  ends halfOpen call member := by
    refine (h.ends halfOpen call member).imp_left fun still => List.mem_filter.mpr ⟨still, ?_⟩
    have other : call.1 ≠ id := fun same => kept ⟨halfOpen, List.mem_map.mpr ⟨call, member, same⟩⟩
    simpa using other
  counts := h.counts

end Steps

theorem recovers_kept (b : CircuitBreaker) : Kept b (ProbesEnd b) (Recovers b) where
  synced h := h.synced
  reads h _ _ reads := h.reads reads
  enters h enters := h.enters enters
  succeeds h member _ succeeds := h.succeeds member succeeds
  fails h _ probes fails := h.fails probes fails
  cancels h _ kept := h.cancels kept
  waits h _ := ⟨⟨h.synced, h.distinct, h.invoked, h.succeeded, h.inFlight⟩, h.probes, h.failures, h.short,
    h.slots, h.ends, h.counts⟩

/-- A breaker is never wedged as long as no probe is cancelled in its own HALF_OPEN period. -/
theorem neverWedged_of_probesEnd (b : CircuitBreaker) (now : Rat) (acts : List Act)
    (along : Along (Usage.step b) (ProbesEnd b) (initial now) acts) :
    Throughout (Usage.step b) (NeverWedged b) (initial now) acts := by
  have start : Recovers b (initial now) := by
    refine ⟨numbered_initial now, fun open_ => absurd rfl open_, fun _ => rfl, Or.inl rfl, ?_, ?_, ?_⟩
    all_goals exact fun halfOpen => absurd halfOpen (by simp [initial])
  exact ((recovers_kept b).throughout start along).mono fun _ h => h.neverWedged

instance (b : CircuitBreaker) (m : Usage) : Decidable (NeverWedged b m) :=
  inferInstanceAs (Decidable (_ → _ → _))

instance (b : CircuitBreaker) (m : Usage) : (act : Act) → Decidable (ProbesEnd b m act)
  | .fail _ => inferInstanceAs (Decidable (_ ∨ _ → _))
  | .cancel _ => inferInstanceAs (Decidable (¬ (_ ∧ _)))
  | .readState | .call | .succeed _ | .wait _ => isTrue trivial

theorem neverWedged_of_probesEnd_recovering :
    Throughout (Usage.step ⟨"milvus_search", 1, 60, 2⟩) (NeverWedged ⟨"milvus_search", 1, 60, 2⟩)
      (initial 0) [.call, .fail 0, .wait 60, .call, .call, .succeed 1, .fail 2, .wait 60, .call] :=
  neverWedged_of_probesEnd _ 0 _ (by decide +kernel)

/-! ### A slot of a cancelled probe is gone -/

structure Wedged (b : CircuitBreaker) (m : Usage) : Prop where
  synced : m.current.state = m.fields.state
  state : m.fields.state = .halfOpen
  idle : m.inFlight = []
  full : b.halfOpenMaxCalls ≤ m.fields.halfOpenCalls

theorem wedged_kept (b : CircuitBreaker) : Kept b (fun _ _ => True) (Wedged b) where
  synced h := h.synced
  reads h _ _ reads := by
    cases reads with
    | same => exact h
    | probing opened rested => simp [h.state] at opened
  enters h enters := by
    cases enters with
    | closed closed => simp [h.state] at closed
    | halfOpen halfOpen room => exact absurd h.full (Int.not_le.mpr room)
  succeeds h member := by simp [h.idle] at member
  fails h member := by simp [h.idle] at member
  cancels h member := by simp [h.idle] at member
  waits h _ := ⟨h.synced, h.state, h.idle, h.full⟩

/-- No call, read or passing of time frees a breaker whose slots are all used up. -/
theorem wedged_forever (b : CircuitBreaker) {m : Usage} (h : Wedged b m) (acts : List Act) :
    Throughout (Usage.step b) (fun m => (b.beginCall m.now m.fields).2 ≠ none) m acts := by
  refine ((wedged_kept b).throughout h (along_true m acts)).mono fun m h admitted => ?_
  exact absurd h.full (Int.not_le.mpr ((CircuitBreaker.admit_halfOpen h.state).mp admitted))

def cancelledProbes : List Act :=
  (List.range 5).flatMap (fun id => [.call, .fail id]) ++
    [.wait 60, .call, .call, .call, .cancel 5, .cancel 6, .cancel 7, .wait 3600]

theorem cancelledProbes_wedges : ¬ ∀ (b : CircuitBreaker) (now : Rat) (acts : List Act),
    Throughout (Usage.step b) (NeverWedged b) (initial now) acts := by
  intro claim
  have ended : (exec (Usage.step ⟨"milvus_search", 5, 60, 3⟩) (initial 0) cancelledProbes).any
      (fun m => !decide (NeverWedged ⟨"milvus_search", 5, 60, 3⟩ m)) = true := by decide +kernel
  obtain ⟨m, run, wedged⟩ := (Option.any_eq_true _ _).mp ended
  have free := (claim ⟨"milvus_search", 5, 60, 3⟩ 0 cancelledProbes).last run
  simp [free] at wedged

end CuckooEcho.Shared
