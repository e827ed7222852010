import CuckooEcho.Lib.ReadCommitted

namespace CuckooEcho.Lib.ReadCommitted
variable {σ ω ρ κ ι τ : Type*} [DecidableEq ρ] [DecidableEq τ]

/-! ## One transaction at a time -/

namespace State

structure Idle (m : State σ ω ρ κ τ) : Prop where
  closed : ∀ t, m.txns t = none
  unlocked : ∀ r, m.owner r = none

structure Alone (m : State σ ω ρ κ τ) (t : τ) (x : Txn ω κ) : Prop where
  here : m.txns t = some x
  others : ∀ u, u ≠ t → m.txns u = none
  free : ∀ r, m.Free t r

variable {m : State σ ω ρ κ τ} {t : τ} {x : Txn ω κ}

omit [DecidableEq ρ] [DecidableEq τ] in
theorem initial_idle (s : σ) : (initial s : State σ ω ρ κ τ).Idle := ⟨fun _ => rfl, fun _ => rfl⟩

omit [DecidableEq ρ] in
theorem Idle.put (idle : m.Idle) (t : τ) (x : Txn ω κ) : (m.put t x).Alone t x where
  here := by simp [put_txns]
  others u ne := by rw [put_txns, if_neg ne, idle.closed]
  free r := Or.inl (idle.unlocked r)

omit [DecidableEq ρ] in
theorem Alone.put (alone : m.Alone t x) (y : Txn ω κ) : (m.put t y).Alone t y where
  here := by simp [put_txns]
  others u ne := by rw [put_txns, if_neg ne, alone.others u ne]
  free := alone.free

omit [DecidableEq τ] in
theorem Alone.take (alone : m.Alone t x) (rows : List ρ) : (m.take t rows).Alone t x where
  here := alone.here
  others := alone.others
  free r := by
    by_cases member : r ∈ rows
    · exact Or.inr (take_owns_of_mem m t member)
    · exact (alone.free r).imp (by simp [State.take, member]) (by simp [State.take, member])

omit [DecidableEq ρ] in
theorem Alone.close (alone : m.Alone t x) : (m.close t).Idle where
  closed u := by
    rw [close_txns]
    split
    · rfl
    · rename_i ne
      exact alone.others u ne
  unlocked r := by
    rcases alone.free r with none | own
    · simp [State.close, none]
    · simp [State.close, own]

end State

inductive Serial (sys : System σ ω ρ κ ι) (s : σ) : Txn ω κ → σ → Prop
  | read {x : Txn ω κ} {view s' : σ} {next : σ → κ} (viewed : exec sys.apply s x.writes = some view)
      (instr : sys.instr x.point = .read next) (rest : Serial sys s { x with point := next view } s') : Serial sys s x s'
  | lock {x : Txn ω κ} {view s' : σ} {allowed : σ → (ρ → Bool) → Bool} {row : Option ρ} {next : κ}
      (viewed : exec sys.apply s x.writes = some view) (instr : sys.instr x.point = .lock allowed row next)
      (chosen : allowed view fun _ => false) (rest : Serial sys s { x with point := next } s') : Serial sys s x s'
  | write {x : Txn ω κ} {view s' : σ} {w : ω} {next : κ} (viewed : exec sys.apply s x.writes = some view)
      (instr : sys.instr x.point = .write w next) (applied : (sys.apply view w).isSome)
      (rest : Serial sys s ⟨next, x.writes ++ [w]⟩ s') : Serial sys s x s'
  | commit {x : Txn ω κ} {s' : σ} (viewed : exec sys.apply s x.writes = some s')
      (instr : sys.instr x.point = .commit) : Serial sys s x s'
  | abort {x : Txn ω κ} {view : σ} (viewed : exec sys.apply s x.writes = some view)
      (instr : sys.instr x.point = .abort) : Serial sys s x s
  | rollback {x : Txn ω κ} : Serial sys s x s

variable {sys : System σ ω ρ κ ι} {s s' : σ}

def Leaves (sys : System σ ω ρ κ ι) (m : State σ ω ρ κ τ) (s : σ) : Prop :=
  ∃ acts m', exec (step sys) m acts = some m' ∧ m'.Idle ∧ m'.committed = s

theorem Leaves.after {m m' : State σ ω ρ κ τ} {act : Act ι τ} (next : step sys m act = some m')
    (later : Leaves sys m' s) : Leaves sys m s := by
  obtain ⟨acts, last, run, idle, committed⟩ := later
  exact ⟨act :: acts, last, by rw [exec_cons, next]; exact run, idle, committed⟩

theorem step_run {m : State σ ω ρ κ τ} {t : τ} {x : Txn ω κ} {view : σ} (found : m.txns t = some x)
    (viewed : exec sys.apply m.committed x.writes = some view) :
    step sys m (.run t) = runInstr sys m t x view (sys.instr x.point) := by
  simp [step, found, viewed]

theorem Serial.leaves {x : Txn ω κ} (serial : Serial sys s x s') {m : State σ ω ρ κ τ} {t : τ} (alone : m.Alone t x)
    (committed : m.committed = s) : Leaves sys m s' := by
  induction serial generalizing m with
  | @read x view s' next viewed instr rest ih =>
      rw [← committed] at viewed
      refine .after ((step_run alone.here viewed).trans (by rw [instr]; rfl)) ?_
      exact ih (alone.put _) committed
  | @lock x view s' allowed row next viewed instr chosen rest ih =>
      rw [← committed] at viewed
      have free : (fun r => !decide (m.Free t r)) = fun _ => false := funext fun r => by simp [alone.free r]
      have taken : step sys m (.run t) = some ((m.put t { x with point := next }).take t row.toList) := by
        rw [step_run alone.here viewed, instr, runInstr, if_pos]
        exact ⟨free ▸ chosen, fun r _ => alone.free r⟩
      exact .after taken (ih ((alone.put _).take _) committed)
  | @write x view s' w next viewed instr applied rest ih =>
      rw [← committed] at viewed
      have written : step sys m (.run t) =
          some ((m.put t ⟨next, x.writes ++ [w]⟩).take t (sys.touches view w)) := by
        rw [step_run alone.here viewed, instr, runInstr, if_pos]
        exact ⟨applied, fun r _ => alone.free r⟩
      exact .after written (ih ((alone.put _).take _) committed)
  | @commit x s' viewed instr =>
      rw [← committed] at viewed
      have closed := alone.close
      refine .after ((step_run alone.here viewed).trans (by rw [instr]; rfl)) ?_
      exact ⟨[], _, rfl, ⟨closed.closed, closed.unlocked⟩, rfl⟩
  | abort viewed instr =>
      rw [← committed] at viewed
      refine .after ((step_run alone.here viewed).trans (by rw [instr]; rfl)) ?_
      exact ⟨[], _, rfl, alone.close, committed⟩
  | rollback =>
      have rolled : step sys m (.rollback t) = some (m.close t) := by simp [step, alone.here]
      exact .after rolled ⟨[], _, rfl, alone.close, committed⟩

/-- A transaction that runs alone from an idle state leaves an idle state. -/
theorem Serial.leaves_idle (input : ι) {m : State σ ω ρ κ τ} (idle : m.Idle) (t : τ)
    (serial : Serial sys m.committed ⟨sys.opening input m.committed, []⟩ s') : Leaves sys m s' := by
  have opened : step sys m (.start t input) = some (m.put t ⟨sys.opening input m.committed, []⟩) := by
    simp [step, idle.closed t]
  exact .after opened (serial.leaves (idle.put t _) rfl)

end CuckooEcho.Lib.ReadCommitted
