import Mathlib.Data.List.Nodup
import Mathlib.Data.List.Chain
import CuckooEcho.Shared.CircuitBreaker

namespace CuckooEcho.Shared
open Lib Usage

/-! ## On what evidence a breaker closes -/

/-- How many of the calls that the period admitted have completed successfully in it. -/
def Period.evidence (p : Period) : Nat := p.invoked.countP (·.1 ∈ p.succeeded)

def Usage.Own (m : Usage) (id : Nat) : Prop := id ∈ m.current.invoked.map Prod.fst

instance (m : Usage) (id : Nat) : Decidable (m.Own id) := inferInstanceAs (Decidable (_ ∈ _))

/-- Each time the breaker goes from HALF_OPEN to CLOSED, the period just ended supplied all the
successes that this takes. -/
def EvidenceBased (b : CircuitBreaker) (m : Usage) : Prop :=
  m.periods.IsChain fun later earlier =>
    later.state = .closed → earlier.state = .halfOpen → b.halfOpenMaxCalls ≤ earlier.evidence

/-- No success is left over when a HALF_OPEN period begins, and none of an older call joins it. -/
def FreshEvidence (b : CircuitBreaker) (m : Usage) : Act → Prop
  | .readState | .call =>
      m.fields.state = .opened → b.timeout ≤ m.now - m.fields.lastFailureTime → m.fields.successCount = 0
  | .succeed id => m.fields.state = .halfOpen → m.Own id
  | _ => True

instance (b : CircuitBreaker) (m : Usage) : (act : Act) → Decidable (FreshEvidence b m act)
  | .readState | .call => inferInstanceAs (Decidable (_ → _ → _))
  | .succeed _ => inferInstanceAs (Decidable (_ → _))
  | .fail _ | .cancel _ | .wait _ => isTrue trivial

/-! ### Calls are numbered once and finish once -/

structure Numbered (m : Usage) : Prop where
  synced : m.current.state = m.fields.state
  distinct : (m.current.invoked.map Prod.fst).Nodup
  invoked : ∀ call ∈ m.current.invoked, call.1 < m.calls
  succeeded : ∀ id ∈ m.current.succeeded, id < m.calls
  inFlight : ∀ id ∈ m.inFlight, id < m.calls ∧ id ∉ m.current.succeeded

theorem countP_succeeded {calls : List (Nat × Rat)} (distinct : (calls.map Prod.fst).Nodup)
    {succeeded : List Nat} {id : Nat} (fresh : id ∉ succeeded) :
    calls.countP (·.1 ∈ id :: succeeded) =
      calls.countP (·.1 ∈ succeeded) + if id ∈ calls.map Prod.fst then 1 else 0 := by
  induction calls with
  | nil => simp
  | cons call calls ih =>
      obtain ⟨new, distinct⟩ := List.nodup_cons.mp distinct
      have rest := ih distinct
      rw [List.countP_cons, List.countP_cons, rest]
      by_cases same : id = call.1
      · subst same
        simp [fresh, new]
      · have ne : call.1 ≠ id := Ne.symm same
        simp only [List.mem_cons, ne, false_or, List.map_cons, same]
        omega

section Steps
variable {b : CircuitBreaker} {m m' : Usage}

theorem Numbered.evidence_succeed (h : Numbered m) {id : Nat} (member : id ∈ m.inFlight) :
    (m.succeed id).current.evidence = m.current.evidence + if m.Own id then 1 else 0 :=
  countP_succeeded h.distinct (h.inFlight id member).2

theorem Numbered.evidence_invoke (h : Numbered m) : m.invoke.current.evidence = m.current.evidence := by
  have fresh : m.calls ∉ m.current.succeeded := fun member => (h.succeeded _ member).false
  exact List.countP_cons_of_neg fun member => fresh (of_decide_eq_true member)

theorem Numbered.leave (h : Numbered m) (id : Nat) : Numbered (m.leave id) :=
  ⟨h.synced, h.distinct, h.invoked, h.succeeded,
    fun other member => h.inFlight other (List.mem_of_mem_filter member)⟩

theorem Numbered.succeed (h : Numbered m) {id : Nat} (member : id ∈ m.inFlight) :
    Numbered (m.succeed id) where
  synced := h.synced
  distinct := h.distinct
  invoked := h.invoked
  succeeded := List.forall_mem_cons.mpr ⟨(h.inFlight id member).1, h.succeeded⟩
  inFlight other still := by
    obtain ⟨still, ne⟩ := List.mem_filter.mp still
    obtain ⟨issued, unfinished⟩ := h.inFlight other still
    refine ⟨issued, fun done => ?_⟩
    rcases List.mem_cons.mp done with same | done
    · exact absurd same (by simpa using ne)
    · exact unfinished done

theorem Numbered.invoke (h : Numbered m) : Numbered m.invoke where
  synced := h.synced
  distinct := by
    refine List.nodup_cons.mpr ⟨fun member => ?_, h.distinct⟩
    obtain ⟨call, member, same⟩ := List.mem_map.mp member
    exact absurd (h.invoked call member) (by simp [same])
  invoked := List.forall_mem_cons.mpr
    ⟨Nat.lt_succ_self _, fun call member => (h.invoked call member).trans (Nat.lt_succ_self _)⟩
  succeeded id member := (h.succeeded id member).trans (Nat.lt_succ_self _)
  inFlight := by
    refine List.forall_mem_cons.mpr ⟨⟨Nat.lt_succ_self _, fun member => ?_⟩, fun id member => ?_⟩
    · exact (h.succeeded _ member).false
    · obtain ⟨issued, unfinished⟩ := h.inFlight id member
      exact ⟨issued.trans (Nat.lt_succ_self _), unfinished⟩

theorem Numbered.move (h : Numbered m) (fields : Fields) : Numbered { m with
    fields, current := { state := fields.state, since := m.now }, past := m.current :: m.past } where
  synced := rfl
  distinct := List.nodup_nil
  invoked _ member := absurd member List.not_mem_nil
  succeeded _ member := absurd member List.not_mem_nil
  inFlight id member := ⟨(h.inFlight id member).1, List.not_mem_nil⟩

theorem Numbered.assign (h : Numbered m) {fields : Fields} (same : fields.state = m.fields.state) :
    Numbered { m with fields } :=
  ⟨h.synced.trans same.symm, h.distinct, h.invoked, h.succeeded, h.inFlight⟩

theorem numbered_initial (now : Rat) : Numbered (initial now) := by
  refine ⟨rfl, ?_, ?_, ?_, ?_⟩ <;> simp [initial]

theorem Numbered.reads (h : Numbered m) (reads : Reads b m m') : Numbered m' := by
  cases reads with
  | same => exact h
  | probing opened rested => exact h.move _

theorem Numbered.enters (h : Numbered m) (enters : Enters b m m') : Numbered m' := by
  cases enters with
  | closed closed => exact h.invoke
  | halfOpen halfOpen room =>
      have counted : Numbered { m with
        fields := { m.fields with halfOpenCalls := m.fields.halfOpenCalls + 1 } } := h.assign rfl
      exact counted.invoke

theorem Numbered.succeeds (h : Numbered m) {id : Nat} (member : id ∈ m.inFlight)
    (succeeds : Succeeds b m id m') : Numbered m' := by
  cases succeeds with
  | other other => exact (h.succeed member).assign rfl
  | counted halfOpen short => exact (h.succeed member).assign rfl
  | closes halfOpen enough => exact (h.succeed member).move _

theorem Numbered.fails (h : Numbered m) {id : Nat} (fails : Fails b m id m') : Numbered m' := by
  cases fails with
  | opens other opens => exact (h.leave id).move _
  | stays other stays => exact (h.leave id).assign rfl

end Steps

/-! ### The invariant -/

structure Evident (b : CircuitBreaker) (m : Usage) : Prop extends Numbered m where
  based : EvidenceBased b m
  counts : m.fields.state = .halfOpen → m.fields.successCount ≤ m.current.evidence

section Steps
variable {b : CircuitBreaker} {m m' : Usage}

instance : Decidable (EvidenceBased b m) := inferInstanceAs (Decidable (List.IsChain _ _))

theorem EvidenceBased.current (h : EvidenceBased b m) {current : Period}
    (same : current.state = m.current.state) : EvidenceBased b { m with current } := by
  obtain ⟨first, rest⟩ := List.isChain_cons.mp h
  exact List.isChain_cons.mpr ⟨fun p member closed => first p member (same ▸ closed), rest⟩

theorem EvidenceBased.move (h : EvidenceBased b m) {fields : Fields}
    (enough : fields.state = .closed → m.current.state = .halfOpen →
      b.halfOpenMaxCalls ≤ m.current.evidence) : EvidenceBased b { m with
        fields, current := { state := fields.state, since := m.now }, past := m.current :: m.past } :=
  List.isChain_cons_cons.mpr ⟨enough, h⟩

theorem Evident.reads (h : Evident b m)
    (fresh : m.fields.state = .opened → b.timeout ≤ m.now - m.fields.lastFailureTime →
      m.fields.successCount = 0) (reads : Reads b m m') : Evident b m' := by
  have numbered := h.toNumbered.reads reads
  cases reads with
  | same => exact h
  | probing opened rested =>
      refine ⟨numbered, h.based.move fun closed => absurd closed (by simp), fun _ => ?_⟩
      simp [fresh opened rested]

theorem Evident.enters (h : Evident b m) (enters : Enters b m m') : Evident b m' := by
  have numbered := h.toNumbered.enters enters
  have invoked := h.toNumbered.evidence_invoke
  cases enters with
  | closed closed =>
      exact ⟨numbered, h.based.current rfl, fun halfOpen => (h.counts halfOpen).trans invoked.ge⟩
  | halfOpen halfOpen room =>
      exact ⟨numbered, h.based.current rfl, fun halfOpen => (h.counts halfOpen).trans invoked.ge⟩

theorem Evident.succeeds (h : Evident b m) {id : Nat} (member : id ∈ m.inFlight)
    (own : m.fields.state = .halfOpen → m.Own id) (succeeds : Succeeds b m id m') : Evident b m' := by
  have numbered := h.toNumbered.succeeds member succeeds
  have more := h.toNumbered.evidence_succeed member
  have based : EvidenceBased b (m.succeed id) := h.based.current rfl
  cases succeeds with
  | other other => exact ⟨numbered, based, fun halfOpen => absurd halfOpen other⟩
  | counted halfOpen short =>
      refine ⟨numbered, based, fun _ => ?_⟩
      rw [if_pos (own halfOpen)] at more
      exact (Nat.add_le_add_right (h.counts halfOpen) 1).trans more.ge
  | closes halfOpen enough =>
      refine ⟨numbered, based.move fun _ _ => ?_, fun halfOpen => absurd halfOpen (by simp)⟩
      rw [if_pos (own halfOpen)] at more
      have counts := h.counts halfOpen
      omega

theorem Evident.fails (h : Evident b m) {id : Nat} (fails : Fails b m id m') : Evident b m' := by
  have numbered := h.toNumbered.fails fails
  have based : EvidenceBased b (m.leave id) := h.based
  cases fails with
  | opens other opens =>
      exact ⟨numbered, based.move fun closed => absurd closed (by simp),
        fun halfOpen => absurd halfOpen (by simp)⟩
  | stays other stays => exact ⟨numbered, h.based, h.counts⟩

end Steps

theorem evident_kept (b : CircuitBreaker) : Kept b (FreshEvidence b) (Evident b) where
  synced h := h.synced
  reads h reading fresh reads := by
    rcases reading with rfl | rfl <;> exact h.reads fresh reads
  enters h enters := h.enters enters
  succeeds h member own succeeds := h.succeeds member own succeeds
  fails h _ _ fails := h.fails fails
  cancels h _ _ := ⟨h.toNumbered.leave _, h.based, h.counts⟩
  waits h _ := ⟨⟨h.synced, h.distinct, h.invoked, h.succeeded, h.inFlight⟩, h.based, h.counts⟩

/-- A breaker closes on the evidence of one HALF_OPEN period as long as no success from before that
period is counted in it. -/
theorem evidenceBased_of_fresh (b : CircuitBreaker) (now : Rat) (acts : List Act)
    (along : Along (Usage.step b) (FreshEvidence b) (initial now) acts) :
    Throughout (Usage.step b) (EvidenceBased b) (initial now) acts := by
  have start : Evident b (initial now) :=
    ⟨numbered_initial now, List.isChain_singleton _, fun h => absurd h (by simp [initial])⟩
  exact ((evident_kept b).throughout start along).mono fun _ h => h.based

/-- A period of one success and one failure leaves its success to the next period. -/
def leftOver : List Act :=
  [.call, .fail 0, .wait 60, .call, .call, .succeed 1, .fail 2, .wait 60, .call, .succeed 3]

theorem leftOver_breaks : ¬ ∀ (b : CircuitBreaker) (now : Rat) (acts : List Act),
    Throughout (Usage.step b) (EvidenceBased b) (initial now) acts := by
  intro claim
  have ended : (exec (Usage.step ⟨"milvus_search", 1, 60, 2⟩) (initial 0) leftOver).any
      (fun m => !decide (EvidenceBased ⟨"milvus_search", 1, 60, 2⟩ m)) = true := by decide +kernel
  obtain ⟨m, run, inherits⟩ := (Option.any_eq_true _ _).mp ended
  have based := (claim ⟨"milvus_search", 1, 60, 2⟩ 0 leftOver).last run
  simp [based] at inherits

theorem evidenceBased_of_fresh_closing :
    Throughout (Usage.step ⟨"milvus_search", 1, 60, 2⟩) (EvidenceBased ⟨"milvus_search", 1, 60, 2⟩)
      (initial 0) [.call, .fail 0, .wait 60, .call, .call, .succeed 1, .succeed 2] :=
  evidenceBased_of_fresh _ 0 _ (by decide +kernel)

end CuckooEcho.Shared
