import Mathlib.Logic.Function.Basic
import CuckooEcho.Lib.Run

namespace CuckooEcho.Lib.ReadCommitted

/-! ## Transactions at isolation level READ COMMITTED

A statement sees the last committed rows and its own transaction's writes, a write waits for the
rows that it touches, and the writes of a transaction reach the other ones when it commits. -/

/-- What a transaction does at one point of its program. A lock statement names the row that it
takes, so that an arbitrary choice among several rows is part of the program point. -/
inductive Instr (σ ω ρ κ : Type*)
  | read (next : σ → κ)
  | lock (allowed : σ → (ρ → Bool) → Bool) (row : Option ρ) (next : κ)
  | write (w : ω) (next : κ)
  | commit
  | abort

structure System (σ ω ρ κ ι : Type*) where
  apply : σ → ω → Option σ
  touches : σ → ω → List ρ
  opening : ι → σ → κ
  instr : κ → Instr σ ω ρ κ
  elapse : σ → Nat → σ

structure Txn (ω κ : Type*) where
  point : κ
  writes : List ω

/-- `finished` lists the points at which transactions have committed, the last one first. -/
structure State (σ ω ρ κ τ : Type*) where
  committed : σ
  txns : τ → Option (Txn ω κ)
  owner : ρ → Option τ
  finished : List κ

inductive Act (ι τ : Type*)
  | start (t : τ) (input : ι)
  | run (t : τ)
  | rollback (t : τ)
  | elapse (seconds : Nat)

variable {σ ω ρ κ ι τ : Type*} [DecidableEq ρ] [DecidableEq τ]

namespace State

def initial (s : σ) : State σ ω ρ κ τ := ⟨s, fun _ => none, fun _ => none, []⟩

def put (m : State σ ω ρ κ τ) (t : τ) (x : Txn ω κ) : State σ ω ρ κ τ :=
  { m with txns := Function.update m.txns t (some x) }

def close (m : State σ ω ρ κ τ) (t : τ) : State σ ω ρ κ τ :=
  { m with
    txns := Function.update m.txns t none
    owner := fun r => if m.owner r = some t then none else m.owner r }

def take (m : State σ ω ρ κ τ) (t : τ) (rows : List ρ) : State σ ω ρ κ τ :=
  { m with owner := fun r => if r ∈ rows then some t else m.owner r }

def Free (m : State σ ω ρ κ τ) (t : τ) (r : ρ) : Prop := m.owner r = none ∨ m.owner r = some t

instance (m : State σ ω ρ κ τ) (t : τ) (r : ρ) : Decidable (m.Free t r) :=
  inferInstanceAs (Decidable (_ ∨ _))

def Owns (m : State σ ω ρ κ τ) (t : τ) (r : ρ) : Prop := m.owner r = some t

omit [DecidableEq ρ] in
theorem put_txns (m : State σ ω ρ κ τ) (t u : τ) (x : Txn ω κ) :
    (m.put t x).txns u = if u = t then some x else m.txns u :=
  Function.update_apply ..

omit [DecidableEq ρ] in
theorem close_txns (m : State σ ω ρ κ τ) (t u : τ) :
    (m.close t).txns u = if u = t then none else m.txns u :=
  Function.update_apply ..

omit [DecidableEq ρ] in
theorem close_owns {m : State σ ω ρ κ τ} {t u : τ} (ne : u ≠ t) {r : ρ} (h : m.Owns u r) :
    (m.close t).Owns u r := by
  rw [Owns] at h
  simp [Owns, close, h, ne]

omit [DecidableEq τ] in
theorem take_owns_of_mem (m : State σ ω ρ κ τ) (t : τ) {rows : List ρ} {r : ρ} (h : r ∈ rows) :
    (m.take t rows).Owns t r := by
  simp [Owns, take, h]

omit [DecidableEq τ] in
theorem take_owns {m : State σ ω ρ κ τ} {t u : τ} {rows : List ρ}
    (free : ∀ r ∈ rows, m.Free t r) {r : ρ} (h : m.Owns u r) : (m.take t rows).Owns u r := by
  by_cases member : r ∈ rows
  · rcases free r member with none | own
    · simp [Owns, none] at h
    · simpa [Owns, take, member, own] using h
  · simpa [Owns, take, member] using h

omit [DecidableEq ρ] [DecidableEq τ] in
theorem Owns.unique {m : State σ ω ρ κ τ} {t u : τ} {r : ρ} (ht : m.Owns t r) (hu : m.Owns u r) :
    t = u :=
  Option.some.inj (ht.symm.trans hu)

end State

section Step
variable (sys : System σ ω ρ κ ι)

def runInstr (m : State σ ω ρ κ τ) (t : τ) (x : Txn ω κ) (view : σ) :
    Instr σ ω ρ κ → Option (State σ ω ρ κ τ)
  | .read next => some (m.put t { x with point := next view })
  | .lock allowed row next =>
      if allowed view (fun r => !decide (m.Free t r)) ∧ ∀ r ∈ row.toList, m.Free t r then
        some ((m.put t { x with point := next }).take t row.toList)
      else none
  | .write w next =>
      if (sys.apply view w).isSome ∧ ∀ r ∈ sys.touches view w, m.Free t r then
        some ((m.put t ⟨next, x.writes ++ [w]⟩).take t (sys.touches view w))
      else none
  | .commit => some { m.close t with committed := view, finished := x.point :: m.finished }
  | .abort => some (m.close t)

def step (m : State σ ω ρ κ τ) : Act ι τ → Option (State σ ω ρ κ τ)
  | .start t input =>
      if (m.txns t).isNone then some (m.put t ⟨sys.opening input m.committed, []⟩) else none
  | .run t =>
      (m.txns t).bind fun x => (exec sys.apply m.committed x.writes).bind fun view =>
        runInstr sys m t x view (sys.instr x.point)
  | .rollback t => if (m.txns t).isSome then some (m.close t) else none
  | .elapse seconds => some { m with committed := sys.elapse m.committed seconds }

/-- The condition on the transactions' own steps, in the committed rows they are executed on. -/
def Guarded (ok : σ → Txn ω κ → Prop) (m : State σ ω ρ κ τ) : Act ι τ → Prop
  | .run t => ∀ x, m.txns t = some x → ok m.committed x
  | _ => True

instance (ok : σ → Txn ω κ → Prop) [∀ s x, Decidable (ok s x)] (m : State σ ω ρ κ τ) :
    (act : Act ι τ) → Decidable (Guarded ok m act)
  | .run t => inferInstanceAs (Decidable (∀ x ∈ m.txns t, ok m.committed x))
  | .start .. | .elapse _ | .rollback _ => isTrue trivial

/-- A proof outline: an invariant of the committed rows and an assertion about each open
transaction, which says what the transaction may rely on while it owns its rows. -/
structure Outline (ok : σ → Txn ω κ → Prop) where
  Global : σ → List κ → Prop
  Local : σ → (ρ → Prop) → Txn ω κ → Prop
  opening : ∀ {s f} input, Global s f → Local s (fun _ => False) ⟨sys.opening input s, []⟩
  grow : ∀ {s own own' x}, Local s own x → (∀ r, own r → own' r) → Local s own' x
  elapseGlobal : ∀ {s f} d, Global s f → Global (sys.elapse s d) f
  elapseLocal : ∀ {s own x} d, Local s own x → Local (sys.elapse s d) own x
  read : ∀ {s f own x view next}, Global s f → Local s own x → ok s x →
    exec sys.apply s x.writes = some view → sys.instr x.point = .read next →
    Local s own { x with point := next view }
  lock : ∀ {s f own x view allowed row next locked}, Global s f → Local s own x → ok s x →
    exec sys.apply s x.writes = some view → sys.instr x.point = .lock allowed row next →
    allowed view locked → (∀ r ∈ row.toList, own r) → Local s own { x with point := next }
  write : ∀ {s f own x view w next}, Global s f → Local s own x → ok s x →
    exec sys.apply s x.writes = some view → sys.instr x.point = .write w next →
    (sys.apply view w).isSome → (∀ r ∈ sys.touches view w, own r) →
    Local s own ⟨next, x.writes ++ [w]⟩
  commit : ∀ {s f own x view}, Global s f → Local s own x → ok s x →
    exec sys.apply s x.writes = some view → sys.instr x.point = .commit → Global view (x.point :: f)
  stable : ∀ {s f own own' x y view}, Global s f → Local s own x → Local s own' y → ok s y →
    exec sys.apply s y.writes = some view → sys.instr y.point = .commit →
    (∀ r, own r → ¬ own' r) → Local view own x

variable {sys} {ok : σ → Txn ω κ → Prop}

namespace Outline
variable {o : Outline sys ok}

variable (o) in
structure Holds (m : State σ ω ρ κ τ) : Prop where
  rows : o.Global m.committed m.finished
  open_ : ∀ t x, m.txns t = some x → o.Local m.committed (m.Owns t) x

omit [DecidableEq ρ] in
theorem Holds.put {m : State σ ω ρ κ τ} (h : o.Holds m) {t : τ} {x : Txn ω κ}
    (new : o.Local m.committed (m.Owns t) x) : o.Holds (m.put t x) where
  rows := h.rows
  open_ u y found := by
    rw [State.put_txns] at found
    split at found
    · rename_i same
      obtain rfl := Option.some.inj found
      exact same ▸ new
    · exact h.open_ u y found

omit [DecidableEq τ] in
theorem Holds.take {m : State σ ω ρ κ τ} (h : o.Holds m) {t : τ} {rows : List ρ}
    (free : ∀ r ∈ rows, m.Free t r) : o.Holds (m.take t rows) where
  rows := h.rows
  open_ u y found := o.grow (h.open_ u y found) fun _ own => State.take_owns free own

omit [DecidableEq ρ] in
theorem Holds.close {m : State σ ω ρ κ τ} (h : o.Holds m) (t : τ) : o.Holds (m.close t) where
  rows := h.rows
  open_ u y found := by
    rw [State.close_txns, Option.ite_none_left_eq_some] at found
    exact o.grow (h.open_ u y found.2) fun _ own => State.close_owns found.1 own

theorem Holds.runInstr {m m' : State σ ω ρ κ τ} (h : o.Holds m) {t : τ} {x : Txn ω κ} {view : σ}
    (found : m.txns t = some x) (good : ok m.committed x)
    (viewed : exec sys.apply m.committed x.writes = some view)
    (next : runInstr sys m t x view (sys.instr x.point) = some m') : o.Holds m' := by
  have here := h.open_ t x found
  cases instr : sys.instr x.point with
  | read nextPoint =>
      rw [instr] at next
      obtain rfl := Option.some.inj next
      exact h.put (o.read h.rows here good viewed instr)
  | lock allowed row point =>
      rw [instr, ReadCommitted.runInstr, Option.ite_none_right_eq_some] at next
      obtain ⟨⟨chosen, free⟩, eq⟩ := next
      obtain rfl := Option.some.inj eq
      have taken : o.Holds (m.take t row.toList) := h.take free
      exact taken.put (o.lock h.rows (taken.open_ t x found) good viewed instr chosen
        fun r member => State.take_owns_of_mem m t member)
  | write w point =>
      rw [instr, ReadCommitted.runInstr, Option.ite_none_right_eq_some] at next
      obtain ⟨⟨applied, free⟩, eq⟩ := next
      obtain rfl := Option.some.inj eq
      have taken : o.Holds (m.take t (sys.touches view w)) := h.take free
      exact taken.put (o.write h.rows (taken.open_ t x found) good viewed instr applied
        fun r member => State.take_owns_of_mem m t member)
  | commit =>
      rw [instr] at next
      obtain rfl := Option.some.inj next
      refine ⟨o.commit h.rows here good viewed instr, fun u y other => ?_⟩
      obtain ⟨ne, other⟩ := Option.ite_none_left_eq_some.mp ((State.close_txns m t u).symm.trans other)
      have apart : ∀ r, m.Owns u r → ¬ m.Owns t r := fun r hu ht => ne (hu.unique ht)
      exact o.grow (o.stable h.rows (h.open_ u y other) here good viewed instr apart)
        fun _ own => State.close_owns ne own
  | abort =>
      rw [instr] at next
      obtain rfl := Option.some.inj next
      exact h.close t

theorem Holds.step {m m' : State σ ω ρ κ τ} (h : o.Holds m) {act : Act ι τ}
    (good : Guarded ok m act) (next : step sys m act = some m') : o.Holds m' := by
  cases act with
  | start t input =>
      rw [ReadCommitted.step, Option.ite_none_right_eq_some] at next
      obtain rfl := Option.some.inj next.2
      exact h.put (o.grow (o.opening input h.rows) fun _ => False.elim)
  | run t =>
      obtain ⟨x, found, next⟩ := Option.bind_eq_some_iff.mp next
      obtain ⟨view, viewed, next⟩ := Option.bind_eq_some_iff.mp next
      exact h.runInstr found (good x found) viewed next
  | rollback t =>
      rw [ReadCommitted.step, Option.ite_none_right_eq_some] at next
      obtain rfl := Option.some.inj next.2
      exact h.close t
  | elapse seconds =>
      obtain rfl := Option.some.inj next
      exact ⟨o.elapseGlobal seconds h.rows, fun u y found => o.elapseLocal seconds (h.open_ u y found)⟩

omit [DecidableEq ρ] [DecidableEq τ] in
theorem holds_initial {s : σ} (h : o.Global s []) : o.Holds (State.initial s : State σ ω ρ κ τ) :=
  ⟨h, fun _ _ found => nomatch found⟩

variable (o) in
/-- The invariant of an outline holds throughout every run whose steps meet the condition. -/
theorem throughout {s : σ} (h : o.Global s []) {acts : List (Act ι τ)}
    (along : Along (ReadCommitted.step sys) (Guarded ok) (State.initial s : State σ ω ρ κ τ) acts) :
    Throughout (ReadCommitted.step sys)
      (fun m : State σ ω ρ κ τ => o.Global m.committed m.finished) (State.initial s) acts :=
  have keep (m : State σ ω ρ κ τ) (act : Act ι τ) (m' : State σ ω ρ κ τ) (h : o.Holds m)
      (good : Guarded ok m act) (next : ReadCommitted.step sys m act = some m') : o.Holds m' :=
    h.step good next
  (throughout_of_along keep (holds_initial h) along).mono fun _ h => h.rows

end Outline

end Step

end CuckooEcho.Lib.ReadCommitted
