import Mathlib.Data.List.Basic

namespace CuckooEcho.Lib
variable {σ α : Type*} (step : σ → α → Option σ)

/-! ## Runs of a partial step function -/

def exec : σ → List α → Option σ
  | s, [] => some s
  | s, a :: as => (step s a).bind fun t => exec t as

@[simp] theorem exec_nil (s : σ) : exec step s [] = some s := rfl

@[simp] theorem exec_cons (s : σ) (a : α) (as : List α) :
    exec step s (a :: as) = (step s a).bind fun t => exec step t as := rfl

theorem exec_append (s : σ) (as bs : List α) :
    exec step s (as ++ bs) = (exec step s as).bind fun t => exec step t bs := by
  induction as generalizing s with
  | nil => rfl
  | cons a as ih => simp only [List.cons_append, exec_cons, ih, Option.bind_assoc]

/-- Every action that the run executes meets the condition in the state it is executed in. -/
def Along (ok : σ → α → Prop) : σ → List α → Prop
  | _, [] => True
  | s, a :: as => ∀ t, step s a = some t → ok s a ∧ Along ok t as

instance decidableAlong (ok : σ → α → Prop) [∀ s a, Decidable (ok s a)] :
    ∀ s as, Decidable (Along step ok s as)
  | _, [] => isTrue trivial
  | s, a :: as =>
      match next : step s a with
      | none => isTrue fun t here => absurd (next.symm.trans here) (by simp)
      | some t =>
          have := decidableAlong ok t as
          decidable_of_iff (ok s a ∧ Along step ok t as)
            ⟨fun h _ here => Option.some.inj (next.symm.trans here) ▸ h, fun h => h t next⟩

def Throughout (P : σ → Prop) : σ → List α → Prop
  | s, [] => P s
  | s, a :: as => P s ∧ ∀ t, step s a = some t → Throughout P t as

variable {step} {ok : σ → α → Prop} {P Q : σ → Prop}

theorem Throughout.start {s : σ} {as : List α} (h : Throughout step P s as) : P s := by
  cases as with
  | nil => exact h
  | cons a as => exact h.1

theorem Throughout.last {s t : σ} {as : List α} (h : Throughout step P s as)
    (run : exec step s as = some t) : P t := by
  induction as generalizing s with
  | nil => exact Option.some.inj run ▸ h
  | cons a as ih =>
      obtain ⟨u, hu, run⟩ := Option.bind_eq_some_iff.mp run
      exact ih (h.2 u hu) run

theorem Throughout.mono (imp : ∀ s, P s → Q s) {s : σ} {as : List α}
    (h : Throughout step P s as) : Throughout step Q s as := by
  induction as generalizing s with
  | nil => exact imp s h
  | cons a as ih => exact ⟨imp s h.1, fun t ht => ih (h.2 t ht)⟩

theorem Throughout.and {s : σ} {as : List α} (h : Throughout step P s as) (h' : Throughout step Q s as) :
    Throughout step (fun s => P s ∧ Q s) s as := by
  induction as generalizing s with
  | nil => exact ⟨h, h'⟩
  | cons a as ih => exact ⟨⟨h.1, h'.1⟩, fun t ht => ih (h.2 t ht) (h'.2 t ht)⟩

/-- An invariant that every step meeting the condition keeps holds throughout such a run. -/
theorem throughout_of_along (keep : ∀ s a t, P s → ok s a → step s a = some t → P t)
    {s : σ} {as : List α} (start : P s) (along : Along step ok s as) : Throughout step P s as := by
  induction as generalizing s with
  | nil => exact start
  | cons a as ih =>
      refine ⟨start, fun t ht => ?_⟩
      obtain ⟨good, rest⟩ := along t ht
      exact ih (keep s a t start good ht) rest

theorem throughout_of_step (keep : ∀ s a t, P s → step s a = some t → P t)
    {s : σ} {as : List α} (start : P s) : Throughout step P s as := by
  induction as generalizing s with
  | nil => exact start
  | cons a as ih => exact ⟨start, fun t ht => ih (keep s a t start ht)⟩

/-- Among the runs whose steps meet a side condition, the property holds throughout exactly those
whose steps meet `ok`, if a step that meets it keeps the invariant and a step that does not loses
the property at once. -/
theorem throughout_iff_along (I : σ → Prop) {side : σ → α → Prop} (property : ∀ s, I s → P s)
    (keep : ∀ s a t, I s → side s a → ok s a → step s a = some t → I t)
    (lose : ∀ s a t, I s → side s a → step s a = some t → P t → ok s a)
    {s : σ} {as : List α} (start : I s) (sides : Along step side s as) :
    Throughout step P s as ↔ Along step ok s as := by
  induction as generalizing s with
  | nil => exact ⟨fun _ => trivial, fun _ => property s start⟩
  | cons a as ih =>
      constructor
      · intro h t ht
        obtain ⟨here, later⟩ := sides t ht
        have good := lose s a t start here ht (h.2 t ht).start
        exact ⟨good, (ih (keep s a t start here good ht) later).mp (h.2 t ht)⟩
      · intro h
        refine ⟨property s start, fun t ht => ?_⟩
        obtain ⟨here, later⟩ := sides t ht
        obtain ⟨good, rest⟩ := h t ht
        exact (ih (keep s a t start here good ht) later).mpr rest

theorem along_true (s : σ) (as : List α) : Along step (fun _ _ => True) s as := by
  induction as generalizing s with
  | nil => trivial
  | cons a as ih => exact fun t _ => ⟨trivial, ih t⟩

/-- The same among all runs. -/
theorem throughout_iff_along_any (I : σ → Prop) (property : ∀ s, I s → P s)
    (keep : ∀ s a t, I s → ok s a → step s a = some t → I t)
    (lose : ∀ s a t, I s → step s a = some t → P t → ok s a) {s : σ} {as : List α} (start : I s) :
    Throughout step P s as ↔ Along step ok s as :=
  throughout_iff_along I property (fun s a t h _ => keep s a t h) (fun s a t h _ => lose s a t h) start
    (along_true s as)

/-- A condition that implies another at the steps from where an invariant holds does so along every run, if a step
that meets it keeps the invariant. -/
theorem along_of_along {ok' : σ → α → Prop} (I : σ → Prop)
    (imp : ∀ s a t, I s → ok s a → step s a = some t → ok' s a)
    (keep : ∀ s a t, I s → ok s a → step s a = some t → I t) {s : σ} {as : List α} (start : I s)
    (along : Along step ok s as) : Along step ok' s as := by
  induction as generalizing s with
  | nil => trivial
  | cons a as ih =>
      intro t ht
      obtain ⟨good, rest⟩ := along t ht
      exact ⟨imp s a t start good ht, ih (keep s a t start good ht) rest⟩

theorem along_iff_along {ok' : σ → α → Prop} (I : σ → Prop) (agree : ∀ s a, I s → (ok s a ↔ ok' s a))
    (keep : ∀ s a t, I s → ok s a → step s a = some t → I t) {s : σ} {as : List α} (start : I s) :
    Along step ok s as ↔ Along step ok' s as :=
  ⟨along_of_along I (fun s a _ h good _ => (agree s a h).mp good) keep start,
    along_of_along I (fun s a _ h good _ => (agree s a h).mpr good)
      (fun s a t h good next => keep s a t h ((agree s a h).mpr good) next) start⟩

theorem Along.after {s t : σ} {as bs : List α} (h : Along step ok s (as ++ bs)) (run : exec step s as = some t) :
    Along step ok t bs := by
  induction as generalizing s with
  | nil => exact Option.some.inj run ▸ h
  | cons a as ih =>
      obtain ⟨u, next, run⟩ := Option.bind_eq_some_iff.mp run
      exact ih (h u next).2 run

theorem Along.front {s : σ} {as bs : List α} (h : Along step ok s (as ++ bs)) : Along step ok s as := by
  induction as generalizing s with
  | nil => trivial
  | cons a as ih => exact fun t next => ⟨(h t next).1, ih (h t next).2⟩

theorem along_cons {s t : σ} {a : α} {as : List α} (next : step s a = some t) (good : ok s a)
    (rest : Along step ok t as) : Along step ok s (a :: as) := fun _ hu =>
  ⟨good, Option.some.inj (next.symm.trans hu) ▸ rest⟩

theorem along_total_cons {next : σ → α → σ} {s : σ} {a : α} {as : List α} :
    Along (fun s a => some (next s a)) ok s (a :: as) ↔ ok s a ∧ Along (fun s a => some (next s a)) ok (next s a) as :=
  ⟨fun h => h _ rfl, fun h => along_cons rfl h.1 h.2⟩

/-- Actions whose condition holds in every state meet it along every run. -/
theorem along_of_mem {as : List α} (every : ∀ a ∈ as, ∀ s, ok s a) (s : σ) : Along step ok s as := by
  induction as generalizing s with
  | nil => trivial
  | cons a as ih =>
      obtain ⟨here, later⟩ := List.forall_mem_cons.mp every
      exact fun t _ => ⟨here s, ih later t⟩

theorem Along.and {ok' : σ → α → Prop} {s : σ} {as : List α} (h : Along step ok s as)
    (h' : Along step ok' s as) : Along step (fun s a => ok s a ∧ ok' s a) s as := by
  induction as generalizing s with
  | nil => trivial
  | cons a as ih => exact fun t ht => ⟨⟨(h t ht).1, (h' t ht).1⟩, ih (h t ht).2 (h' t ht).2⟩

/-- If a step that misses the condition loses the property for good, a run that ends with the property has
met the condition at every step. -/
theorem along_of_last (I J : σ → Prop) (keep : ∀ s a t, I s → ok s a → step s a = some t → I t)
    (lose : ∀ s a t, I s → ¬ ok s a → step s a = some t → J t)
    (lost : ∀ s a t, J s → step s a = some t → J t) {s t : σ} {as : List α} (start : I s)
    (run : exec step s as = some t) (last : ¬ J t) : Along step ok s as := by
  induction as generalizing s with
  | nil => trivial
  | cons a as ih =>
      intro u hu
      rw [exec_cons, hu] at run
      by_cases good : ok s a
      · exact ⟨good, ih (keep s a u start good hu) run⟩
      · have ever : Throughout step J u as := throughout_of_step lost (lose s a u start good hu)
        exact absurd (ever.last run) last

variable (step) in
/-- How many of the actions that the run executes are counted. -/
def countAlong (counted : σ → α → Bool) : σ → List α → Nat
  | _, [] => 0
  | s, a :: as => (step s a).elim 0 fun t => (counted s a).toNat + countAlong counted t as

/-- A measure that grows by the counted steps stays under a bound as long as their number allows. -/
theorem throughout_iff_countAlong {counted : σ → α → Bool} (measure : σ → Nat) (bound : Nat → Prop)
    (grows : ∀ s a t, step s a = some t → measure t = measure s + (counted s a).toNat)
    (lower : ∀ m n, m ≤ n → bound n → bound m) (s : σ) (as : List α) :
    Throughout step (fun s => bound (measure s)) s as ↔ bound (measure s + countAlong step counted s as) := by
  induction as generalizing s with
  | nil => exact Iff.rfl
  | cons a as ih =>
      simp only [Throughout, countAlong]
      cases next : step s a with
      | none => simp
      | some t =>
          simp only [Option.some.injEq, forall_eq', Option.elim_some, ih, grows s a t next, Nat.add_assoc]
          exact and_iff_right_of_imp (lower _ _ (Nat.le_add_right ..))

/-- If each step is simulated by a run of another system, so is each run. -/
theorem exec_simulated {τ β : Type*} {step' : τ → β → Option τ} (R : σ → τ → Prop)
    (simulated : ∀ s a s' t, R s t → step s a = some s' → ∃ bs t', exec step' t bs = some t' ∧ R s' t')
    {s s' : σ} {as : List α} {t : τ} (related : R s t) (run : exec step s as = some s') :
    ∃ bs t', exec step' t bs = some t' ∧ R s' t' := by
  induction as generalizing s t with
  | nil => exact ⟨[], t, rfl, Option.some.inj run ▸ related⟩
  | cons a as ih =>
      obtain ⟨u, next, rest⟩ := Option.bind_eq_some_iff.mp run
      obtain ⟨bs, mid, first, here⟩ := simulated s a u t related next
      obtain ⟨more, last, second, there⟩ := ih here rest
      refine ⟨bs ++ more, last, ?_, there⟩
      rw [exec_append, first]
      exact second

/-- What is seen of the state follows the actions alone, if it does so in every step from where the invariant holds. -/
theorem foldl_of_run {τ : Type*} (view : σ → τ) {after : τ → α → τ} (I : σ → Prop)
    (keep : ∀ s a t, I s → step s a = some t → I t)
    (follow : ∀ s a t, I s → step s a = some t → view t = after (view s) a) {s t : σ} {as : List α} (start : I s)
    (run : exec step s as = some t) : view t = as.foldl after (view s) := by
  induction as generalizing s with
  | nil => exact congrArg view (Option.some.inj run).symm
  | cons a as ih =>
      obtain ⟨u, next, rest⟩ := Option.bind_eq_some_iff.mp run
      rw [List.foldl_cons, ← follow s a u start next]
      exact ih (keep s a u start next) rest

/-! ## What has happened and what has held since -/

/-- One of the actions is an event, and all later ones keep it. -/
def Since (event keeps : α → Prop) (as : List α) : Prop :=
  ∃ before a after, as = before ++ a :: after ∧ event a ∧ ∀ later ∈ after, keeps later

variable {event keeps : α → Prop}

theorem not_since_nil : ¬ Since event keeps [] := by
  rintro ⟨before, a, after, eq, -⟩
  simp at eq

theorem since_concat {as : List α} {last : α} :
    Since event keeps (as ++ [last]) ↔ (Since event keeps as ∧ keeps last) ∨ event last := by
  constructor
  · rintro ⟨before, a, after, eq, happened, kept⟩
    rcases List.eq_nil_or_concat after with rfl | ⟨after, final, rfl⟩
    · obtain rfl := List.singleton_inj.mp (List.append_inj' eq rfl).2
      exact Or.inr happened
    · rw [List.concat_eq_append] at eq kept
      rw [← List.cons_append, ← List.append_assoc] at eq
      obtain ⟨front, final⟩ := List.append_inj' eq rfl
      obtain rfl := List.singleton_inj.mp final
      obtain ⟨earlier, now⟩ := List.forall_mem_append.mp kept
      exact Or.inl ⟨⟨before, a, after, front, happened, earlier⟩, now _ List.mem_cons_self⟩
  · rintro (⟨⟨before, a, after, rfl, happened, kept⟩, now⟩ | happened)
    · refine ⟨before, a, after ++ [last], by simp, happened, ?_⟩
      exact List.forall_mem_append.mpr ⟨kept, List.forall_mem_singleton.mpr now⟩
    · exact ⟨as, last, [], rfl, happened, fun _ none => absurd none List.not_mem_nil⟩

end CuckooEcho.Lib
