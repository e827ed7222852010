import Mathlib.Tactic.Linarith
import CuckooEcho.Shared.CircuitBreaker

namespace CuckooEcho.Shared
open Lib Usage

/-! ## Which calls a breaker admits -/

/-- No function is invoked while the breaker is OPEN or before `timeout` has passed since it moved
there, and no HALF_OPEN period invokes more than `half_open_max_calls`. -/
structure AdmissionSafe (b : CircuitBreaker) (m : Usage) : Prop where
  refuses : ∀ p ∈ m.periods, p.state = .opened → p.invoked = []
  waits : m.periods.Pairwise fun later earlier =>
    earlier.state = .opened → ∀ call ∈ later.invoked, earlier.since + b.timeout ≤ call.2
  probes : ∀ p ∈ m.periods, p.state = .halfOpen → (p.invoked.length : Int) ≤ b.halfOpenMaxCalls

/-- The last failure of an OPEN period is not before its start, and HALF_OPEN counts its calls. -/
structure Admits (b : CircuitBreaker) (m : Usage) : Prop extends AdmissionSafe b m where
  synced : m.current.state = m.fields.state
  started : ∀ p ∈ m.periods, p.since ≤ m.now
  rests : ∀ p ∈ m.periods, p.state = .opened → p.since + b.timeout ≤ m.now ∨
    m.fields.state = .opened ∧ p.since ≤ m.fields.lastFailureTime
  counts : m.fields.state = .halfOpen → m.current.invoked.length = m.fields.halfOpenCalls

section Steps
variable {b : CircuitBreaker} {m m' : Usage}

theorem Admits.rested (h : Admits b m) (closed : m.fields.state ≠ .opened) :
    ∀ p ∈ m.periods, p.state = .opened → p.since + b.timeout ≤ m.now := fun p member state =>
  (h.rests p member state).resolve_right fun opened => closed opened.1

theorem Admits.move (h : Admits b m) (probes : 0 ≤ b.halfOpenMaxCalls) {fields : Fields}
    (empty : fields.state = .halfOpen → fields.halfOpenCalls = 0)
    (rested : fields.state = .opened ∧ fields.lastFailureTime = m.now ∨
      fields.state ≠ .opened ∧ ∀ p ∈ m.periods, p.state = .opened → p.since + b.timeout ≤ m.now) :
    Admits b { m with
      fields, current := { state := fields.state, since := m.now }, past := m.current :: m.past } where
  refuses := List.forall_mem_cons.mpr ⟨fun _ => rfl, h.refuses⟩
  waits := List.pairwise_cons.mpr ⟨fun p _ _ call member => absurd member List.not_mem_nil, h.waits⟩
  probes := List.forall_mem_cons.mpr ⟨fun _ => probes, h.probes⟩
  synced := rfl
  started := List.forall_mem_cons.mpr ⟨le_rfl, h.started⟩
  rests := by
    refine List.forall_mem_cons.mpr ⟨fun state => ?_, fun p member state => ?_⟩
    · rcases rested with ⟨opened, now⟩ | ⟨closed, -⟩
      · exact Or.inr ⟨opened, now.ge⟩
      · exact absurd state closed
    · rcases rested with ⟨opened, now⟩ | ⟨-, all⟩
      · exact Or.inr ⟨opened, now ▸ h.started p member⟩
      · exact Or.inl (all p member state)
  counts halfOpen := (empty halfOpen).symm

theorem Admits.assign (h : Admits b m) {fields : Fields} (state : fields.state = m.fields.state)
    (last : m.fields.state = .opened → ∀ p ∈ m.periods, p.since ≤ m.fields.lastFailureTime →
      p.since ≤ fields.lastFailureTime)
    (calls : fields.halfOpenCalls = m.fields.halfOpenCalls) : Admits b { m with fields } where
  refuses := h.refuses
  waits := h.waits
  probes := h.probes
  synced := h.synced.trans state.symm
  started := h.started
  rests p member opened := (h.rests p member opened).imp_right fun ⟨here, before⟩ =>
    ⟨state.trans here, last here p member before⟩
  counts halfOpen := (h.counts (state.symm.trans halfOpen)).trans calls.symm

theorem Admits.leave (h : Admits b m) (id : Nat) : Admits b (m.leave id) :=
  ⟨⟨h.refuses, h.waits, h.probes⟩, h.synced, h.started, h.rests, h.counts⟩

theorem Admits.succeed (h : Admits b m) (id : Nat) : Admits b (m.succeed id) where
  refuses := List.forall_mem_cons.mpr (List.forall_mem_cons.mp h.refuses)
  waits := List.pairwise_cons.mpr (List.pairwise_cons.mp h.waits)
  probes := List.forall_mem_cons.mpr (List.forall_mem_cons.mp h.probes)
  synced := h.synced
  started := List.forall_mem_cons.mpr (List.forall_mem_cons.mp h.started)
  rests := List.forall_mem_cons.mpr (List.forall_mem_cons.mp h.rests)
  counts := h.counts

theorem Admits.reads (h : Admits b m) (probes : 0 ≤ b.halfOpenMaxCalls) (reads : Reads b m m') :
    Admits b m' := by
  cases reads with
  | same => exact h
  | probing opened rested =>
      refine h.move probes (fun _ => rfl) (Or.inr ⟨by simp, fun p member state => ?_⟩)
      rcases h.rests p member state with past | ⟨-, before⟩
      · exact past
      · linarith

theorem Admits.invoke (h : Admits b m) {fields : Fields} (state : fields.state = m.fields.state)
    (closed : m.fields.state ≠ .opened)
    (room : m.fields.state = .halfOpen → fields.halfOpenCalls = m.fields.halfOpenCalls + 1 ∧
      m.fields.halfOpenCalls < b.halfOpenMaxCalls) : Admits b { m with fields }.invoke where
  refuses := by
    refine List.forall_mem_cons.mpr ⟨fun opened => ?_, (List.forall_mem_cons.mp h.refuses).2⟩
    exact absurd (h.synced.symm.trans opened) closed
  waits := by
    obtain ⟨current, past⟩ := List.pairwise_cons.mp h.waits
    refine List.pairwise_cons.mpr ⟨fun p member opened => ?_, past⟩
    refine List.forall_mem_cons.mpr ⟨?_, current p member opened⟩
    exact h.rested closed p (List.mem_cons_of_mem _ member) opened
  probes := by
    refine List.forall_mem_cons.mpr ⟨fun halfOpen => ?_, (List.forall_mem_cons.mp h.probes).2⟩
    have here := h.synced.symm.trans halfOpen
    have count := h.counts here
    have room := (room here).2
    change ((_ :: m.current.invoked).length : Int) ≤ b.halfOpenMaxCalls
    rw [List.length_cons, count]
    omega
  synced := h.synced.trans state.symm
  started := List.forall_mem_cons.mpr (List.forall_mem_cons.mp h.started)
  rests := by
    obtain ⟨current, past⟩ := List.forall_mem_cons.mp (h.rested closed)
    exact List.forall_mem_cons.mpr
      ⟨fun opened => Or.inl (current opened), fun p member opened => Or.inl (past p member opened)⟩
  counts halfOpen := by
    have here := state.symm.trans halfOpen
    have count := h.counts here
    have more := (room here).1
    change (_ :: m.current.invoked).length = fields.halfOpenCalls
    rw [List.length_cons, count, more]

theorem Admits.enters (h : Admits b m) (enters : Enters b m m') : Admits b m' := by
  cases enters with
  | closed closed => exact h.invoke rfl (by simp [closed]) (by simp [closed])
  | halfOpen halfOpen room => exact h.invoke rfl (by simp [halfOpen]) fun _ => ⟨rfl, room⟩

theorem Admits.succeeds (h : Admits b m) (probes : 0 ≤ b.halfOpenMaxCalls) {id : Nat}
    (succeeds : Succeeds b m id m') : Admits b m' := by
  cases succeeds with
  | other other => exact (h.succeed id).assign rfl (fun _ _ _ before => before) rfl
  | counted halfOpen short => exact (h.succeed id).assign rfl (fun _ _ _ before => before) rfl
  | closes halfOpen enough =>
      have closed : m.fields.state ≠ .opened := by simp [halfOpen]
      exact (h.succeed id).move probes (fun h => absurd h (by simp))
        (Or.inr ⟨by simp, (h.succeed id).rested closed⟩)

theorem Admits.fails (h : Admits b m) (probes : 0 ≤ b.halfOpenMaxCalls) {id : Nat}
    (fails : Fails b m id m') : Admits b m' := by
  cases fails with
  | opens other opens => exact (h.leave id).move probes (fun h => absurd h (by simp)) (Or.inl ⟨rfl, rfl⟩)
  | stays other stays => exact (h.leave id).assign rfl (fun _ p member _ => h.started p member) rfl

theorem Admits.wait (h : Admits b m) {seconds : Rat} (forward : 0 ≤ seconds) :
    Admits b { m with now := m.now + seconds } where
  refuses := h.refuses
  waits := h.waits
  probes := h.probes
  synced := h.synced
  started p member := (h.started p member).trans (le_add_of_nonneg_right forward)
  rests p member opened := (h.rests p member opened).imp_left fun past =>
    past.trans (le_add_of_nonneg_right forward)
  counts := h.counts

end Steps

theorem admits_kept {b : CircuitBreaker} (probes : 0 ≤ b.halfOpenMaxCalls) :
    Kept b (fun _ _ => True) (Admits b) where
  synced h := h.synced
  reads h _ _ reads := h.reads probes reads
  enters h enters := h.enters enters
  succeeds h _ _ succeeds := h.succeeds probes succeeds
  fails h _ _ fails := h.fails probes fails
  cancels h _ _ := h.leave _
  waits h forward := h.wait forward

theorem admits_initial (b : CircuitBreaker) (now : Rat) : Admits b (initial now) := by
  refine ⟨⟨?_, ?_, ?_⟩, rfl, ?_, ?_, fun h => nomatch h⟩ <;> simp [periods, initial]

/-- However the calls interleave, a breaker admits none before its timeout and no more probes than
it allows. -/
theorem admissionSafe_throughout (b : CircuitBreaker) (probes : 0 ≤ b.halfOpenMaxCalls) (now : Rat)
    (acts : List Act) : Throughout (Usage.step b) (AdmissionSafe b) (initial now) acts :=
  ((admits_kept probes).throughout (admits_initial b now) (along_true _ acts)).mono fun _ h => h.toAdmissionSafe

/-- Two calls overlap, the first one's failure opens the breaker, and after a call that is refused and the timeout a
failing probe opens it again. -/
def probing : List Act :=
  [.call, .call, .fail 0, .call, .succeed 1, .wait 60, .call, .call, .call, .succeed 2, .fail 3, .wait 30, .call,
    .wait 30, .call, .succeed 4]

theorem admissionSafe_throughout_probing :
    Throughout (Usage.step ⟨"milvus_search", 1, 60, 2⟩) (AdmissionSafe ⟨"milvus_search", 1, 60, 2⟩) (initial 0)
      probing :=
  admissionSafe_throughout _ (by decide) 0 probing

end CuckooEcho.Shared
