import CuckooEcho.Lib.Run

namespace CuckooEcho.Lib
variable {σ α : Type*}

/-! ## Removing actions from a run -/

/-- A relation between states that visible actions keep on both sides, and hidden ones on the left alone. -/
structure Unwinding (step : σ → α → Option σ) (visible : α → Bool) (ok : σ → α → Prop) (R : σ → σ → Prop) :
    Prop where
  mirror : ∀ s t a s', R s t → visible a = true → ok s a → step s a = some s' →
    ∃ t', step t a = some t' ∧ R s' t'
  hide : ∀ s t a s', R s t → visible a = false → ok s a → step s a = some s' → R s' t

variable {step : σ → α → Option σ} {visible : α → Bool} {ok : σ → α → Prop} {R : σ → σ → Prop}

/-- The run without its hidden actions goes through and ends in a related state. -/
theorem Unwinding.purge (unwinding : Unwinding step visible ok R) {s t s' : σ} {as : List α} (start : R s t)
    (along : Along step ok s as) (run : exec step s as = some s') :
    ∃ t', exec step t (as.filter visible) = some t' ∧ R s' t' := by
  induction as generalizing s t with
  | nil => exact ⟨t, rfl, Option.some.inj run ▸ start⟩
  | cons a as ih =>
      obtain ⟨u, next, run⟩ := Option.bind_eq_some_iff.mp run
      obtain ⟨good, rest⟩ := along u next
      cases seen : visible a with
      | true =>
          obtain ⟨v, mirrored, related⟩ := unwinding.mirror s t a u start seen good next
          obtain ⟨t', run', related'⟩ := ih related rest run
          refine ⟨t', ?_, related'⟩
          rw [List.filter_cons_of_pos seen, exec_cons, mirrored]
          exact run'
      | false =>
          rw [List.filter_cons_of_neg (by simp [seen])]
          exact ih (unwinding.hide s t a u start seen good next) rest run

/-! ## Removing and renaming actions -/

section
variable {σ' β τ : Type*} (rename : τ → α → τ × Option β)

/-- What a transducer makes of the actions; it removes some of them. -/
def project : τ → List α → List β
  | _, [] => []
  | x, a :: as => (rename x a).2.toList ++ project (rename x a).1 as

def projected (x : τ) (as : List α) : τ := as.foldl (fun x a => (rename x a).1) x

variable {rename} {step' : σ' → β → Option σ'} {Q : τ → σ → σ' → Prop}

/-- The projected run goes through and ends in a related state. -/
theorem exec_project
    (follow : ∀ x s t a s', Q x s t → ok s a → step s a = some s' →
      ∃ t', exec step' t (rename x a).2.toList = some t' ∧ Q (rename x a).1 s' t')
    {x : τ} {s s' : σ} {t : σ'} {as : List α} (start : Q x s t) (along : Along step ok s as)
    (run : exec step s as = some s') :
    ∃ t', exec step' t (project rename x as) = some t' ∧ Q (projected rename x as) s' t' := by
  induction as generalizing x s t with
  | nil => exact ⟨t, rfl, Option.some.inj run ▸ start⟩
  | cons a as ih =>
      obtain ⟨u, next, run⟩ := Option.bind_eq_some_iff.mp run
      obtain ⟨good, rest⟩ := along u next
      obtain ⟨v, here, related⟩ := follow x s t a u start good next
      obtain ⟨t', there, related'⟩ := ih related rest run
      refine ⟨t', ?_, related'⟩
      rw [project, exec_append, here]
      exact there

end

/-! ## Two runs side by side -/

/-- Runs of paired actions keep a relation between their states that paired steps keep. -/
theorem exec_paired {paired : α → α → Prop} (keep : ∀ s t a b s' t', R s t → paired a b → ok s a → ok t b →
      step s a = some s' → step t b = some t' → R s' t')
    {s t s' t' : σ} {as bs : List α} (pairs : List.Forall₂ paired as bs) (start : R s t)
    (along : Along step ok s as) (along' : Along step ok t bs)
    (run : exec step s as = some s') (run' : exec step t bs = some t') : R s' t' := by
  induction pairs generalizing s t with
  | nil => exact Option.some.inj run ▸ Option.some.inj run' ▸ start
  | cons pair pairs ih =>
      obtain ⟨u, next, run⟩ := Option.bind_eq_some_iff.mp run
      obtain ⟨u', next', run'⟩ := Option.bind_eq_some_iff.mp run'
      obtain ⟨good, rest⟩ := along u next
      obtain ⟨good', rest'⟩ := along' u' next'
      exact ih (keep _ _ _ _ u u' start pair good good' next next') rest rest' run run'

end CuckooEcho.Lib
