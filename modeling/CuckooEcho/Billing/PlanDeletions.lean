import CuckooEcho.Billing.Plans

namespace CuckooEcho.Billing
open Lib Interleaving

/-! ## Requests that raise -/

/-- The request of a known tenant is about to put it on the plan. -/
def CallPoint.LooksUp (s : Store) (planId : Uuid) : CallPoint → Prop
  | .request tenant _ (.account (.insert found)) => tenant ∈ s.tenants ∧ found = some planId
  | _ => False

/-- The request of a known tenant has raised, or will: the plan that it has found is gone. -/
def CallPoint.Doomed (s : Store) : CallPoint → Prop
  | .request tenant _ (.account (.insert found)) =>
      tenant ∈ s.tenants ∧ ∃ planId < s.nextId, found = some planId ∧ ∀ plan ∈ s.plans, plan.id ≠ planId
  | .request tenant _ .raised => tenant ∈ s.tenants
  | _ => False

/-- No plan is deleted that a request has found and has yet to put its tenant on. -/
def KeepsFound (m : Calls) : Act Call Choice → Prop
  | .run i _ => ∀ planId, m.calls[i]? = some (.deleting planId) → ¬ m.shared.Referenced planId →
      ∀ p ∈ m.calls, ¬ p.LooksUp m.shared planId
  | .call _ => True

def CallPoint.Over : CallPoint → Prop
  | .request _ _ p => match p with
      | .checked _ _ | .recorded | .raised => True
      | _ => False
  | .returned _ | .raised => True
  | _ => False

section
variable {s s' : Store} {p q : CallPoint} {m m' : Calls} {act : Act Call Choice}

theorem doomed_kept (doomed : p.Doomed s) (kept : s.KeptBy s') : p.Doomed s' := by
  unfold CallPoint.Doomed at doomed ⊢
  split at doomed
  · obtain ⟨known, planId, old, found, gone⟩ := doomed
    exact ⟨kept.tenants ▸ known, planId, old.trans_le kept.nextId, found, kept.gone planId old gone⟩
  · exact kept.tenants ▸ doomed
  · exact doomed

theorem plan_kept (step : CallStep s p s' q) {plan : Plan} (stored : plan ∈ s.plans) :
    (∃ plan' ∈ s'.plans, plan'.id = plan.id) ∨ p = .deleting plan.id ∧ ¬ s.Referenced plan.id := by
  cases step with
  | creates fresh free => exact Or.inl ⟨plan, List.mem_append_left _ stored, rfl⟩
  | updates unique => exact Or.inl ⟨_, List.mem_map_of_mem stored, id_updated ..⟩
  | @deletes planId unreferenced =>
      by_cases same : plan.id = planId
      · exact Or.inr ⟨same ▸ rfl, same ▸ unreferenced⟩
      · exact Or.inl ⟨plan, List.mem_filter.mpr ⟨stored, decide_eq_true same⟩, rfl⟩
  | request _ | keeps | seeded | finds | misses | raises => exact Or.inl ⟨plan, stored, rfl⟩

/-- The plan that a request has found is only lost by a deletion. -/
theorem doomed_of_step {r : CallPoint} (agrees : r.Agrees s) (step : CallStep s p s' q)
    (keeps : ∀ planId, p = .deleting planId → ¬ s.Referenced planId → ¬ r.LooksUp s planId)
    (doomed : r.Doomed s') : r.Doomed s := by
  have tenants := (Store.KeptBy.step step).tenants
  unfold CallPoint.Doomed at doomed ⊢
  split at doomed
  · obtain ⟨known, planId, -, rfl, gone⟩ := doomed
    refine ⟨tenants ▸ known, planId, agrees planId rfl, rfl, fun plan stored => ?_⟩
    rintro rfl
    rcases plan_kept step stored with ⟨plan', there, same⟩ | ⟨deleting, unreferenced⟩
    · exact gone plan' there same
    · exact keeps plan.id deleting unreferenced ⟨tenants ▸ known, rfl⟩
  · exact tenants ▸ doomed
  · exact doomed

theorem not_doomed_ofAccount {tenant period : String} {account : BillingAccount} :
    ¬ (CallPoint.request tenant period (.ofAccount (.returned account))).Doomed s := by
  simp only [Request.ofAccount]
  split <;> exact id

theorem refused_of_doomed {tenant period : String} {found : Option Uuid}
    (doomed : (CallPoint.request tenant period (.account (.insert found))).Doomed s) :
    ¬ s.db.Accepts (newAccount tenant found) := by
  obtain ⟨-, planId, -, rfl, gone⟩ := doomed
  intro accepts
  obtain ⟨row, member, same⟩ := List.mem_map.mp (accepts.2 planId rfl)
  obtain ⟨plan, stored, rfl⟩ := List.mem_map.mp member
  exact gone plan stored same

theorem doomed_of_refused {tenant period : String} {found : Option Uuid}
    (agrees : (CallPoint.request tenant period (.account (.insert found))).Agrees s) (known : tenant ∈ s.tenants)
    (refuses : ¬ s.db.Accepts (newAccount tenant found)) :
    (CallPoint.request tenant period (.account (.insert found))).Doomed s := by
  cases found with
  | none => exact absurd ⟨known, fun _ => nofun⟩ refuses
  | some planId =>
      refine ⟨known, planId, agrees planId rfl, rfl, fun plan stored same => refuses ⟨known, fun id eq => ?_⟩⟩
      obtain rfl := Option.some.inj eq
      exact same ▸ List.mem_map_of_mem (List.mem_map_of_mem stored)

/-- A request is not doomed by a step of its own. -/
theorem doomed_of_own (agrees : p.Agrees s) (step : CallStep s p s' q) (doomed : q.Doomed s') : p.Doomed s := by
  cases step with
  | request does =>
      cases does with
      | account called =>
          cases called with
          | found row => exact absurd doomed not_doomed_ofAccount
          | missing none => cases doomed
          | plan =>
              obtain ⟨-, planId, -, free, gone⟩ := doomed
              obtain ⟨row, found, rfl⟩ := Option.map_eq_some_iff.mp free
              obtain ⟨plan, stored, rfl⟩ := List.mem_map.mp (Db.freePlan_mem found)
              exact absurd rfl (gone plan stored)
          | created accepts => exact absurd doomed not_doomed_ofAccount
          | refused refuses => exact doomed_of_refused agrees doomed refuses
      | usage | plan | record => cases doomed
  | creates | keeps | updates | deletes | seeded | finds | misses | raises => cases doomed

theorem doomed_step (step : CallStep s p s' q) (doomed : p.Doomed s) : q.Doomed s' := by
  cases step with
  | request does =>
      cases does with
      | account called =>
          cases called with
          | created accepts => exact absurd accepts (refused_of_doomed doomed)
          | refused _ => exact doomed.1
          | found _ | missing _ | plan => cases doomed
      | usage | plan | record => cases doomed
  | raises route =>
      unfold CallPoint.Doomed at doomed
      split at doomed
      · exact absurd rfl (route _ _ _)
      · exact absurd rfl (route _ _ _)
      · cases doomed
  | creates | keeps | updates | deletes | seeded | finds | misses => cases doomed

/-! ### Along a run -/

def Unharmed (m : Calls) : Prop := Sound m ∧ ∀ p ∈ m.calls, ¬ p.Doomed m.shared

def Harmed (m : Calls) : Prop := Sound m ∧ ∃ p ∈ m.calls, p.Doomed m.shared

theorem Unharmed.step (h : Unharmed m) (keeps : KeepsFound m act) (next : Calls.step m act = some m') :
    Unharmed m' := by
  refine ⟨(h.1.step next).1, ?_⟩
  cases act with
  | call call =>
      obtain rfl := Option.some.inj next
      refine List.forall_mem_append.mpr ⟨h.2, List.forall_mem_singleton.mpr ?_⟩
      cases call <;> exact id
  | run i choice =>
      obtain ⟨p, s, q, here, does, rfl⟩ := step_run next
      have step := callStep_of_statement does
      have own := List.mem_of_getElem? here
      intro r member
      rcases List.mem_or_eq_of_mem_set member with old | rfl
      · refine mt (doomed_of_step (h.1.calls r old) step fun planId deleting unreferenced => ?_) (h.2 r old)
        exact keeps planId (deleting ▸ here) unreferenced r old
      · exact mt (doomed_of_own (h.1.calls p own) step) (h.2 p own)

theorem mem_set_of_ne {calls : List CallPoint} {i : Nat} {own other : CallPoint} (here : calls[i]? = some own)
    (member : other ∈ calls) (different : other ≠ own) (new : CallPoint) : other ∈ calls.set i new := by
  obtain ⟨j, there⟩ := List.mem_iff_getElem?.mp member
  have apart : i ≠ j := by
    rintro rfl
    exact different (Option.some.inj (there.symm.trans here))
  exact List.mem_of_getElem? ((List.getElem?_set_ne apart).trans there)

theorem Unharmed.harm (h : Unharmed m) (loses : ¬ KeepsFound m act) (next : Calls.step m act = some m') :
    Harmed m' := by
  refine ⟨(h.1.step next).1, ?_⟩
  cases act with
  | call call => exact absurd trivial loses
  | run i choice =>
      simp only [KeepsFound, not_forall, not_not] at loses
      obtain ⟨planId, here, unreferenced, r, member, looksUp⟩ := loses
      obtain ⟨p, s, q, found, does, rfl⟩ := step_run next
      obtain rfl := Option.some.inj (here.symm.trans found)
      have deleted : m.shared.deletePlan planId =
          some { m.shared with plans := m.shared.plans.filter (·.id ≠ planId) } := if_neg unreferenced
      simp only [CallPoint.step, deleted] at does
      obtain ⟨rfl, rfl⟩ := Prod.mk.inj (Option.some.inj does)
      have agrees := h.1.calls r member
      have other : r ≠ .deleting planId := by
        rintro rfl
        exact looksUp
      refine ⟨r, mem_set_of_ne here member other _, ?_⟩
      unfold CallPoint.LooksUp at looksUp
      split at looksUp
      · obtain ⟨known, rfl⟩ := looksUp
        refine ⟨known, planId, agrees planId rfl, rfl, fun plan left => ?_⟩
        exact of_decide_eq_true (List.mem_filter.mp left).2
      · cases looksUp

theorem Harmed.step (h : Harmed m) (next : Calls.step m act = some m') : Harmed m' := by
  obtain ⟨sound, r, member, doomed⟩ := h
  obtain ⟨later, kept⟩ := sound.step next
  refine ⟨later, ?_⟩
  cases act with
  | call call =>
      obtain rfl := Option.some.inj next
      exact ⟨r, List.mem_append_left _ member, doomed⟩
  | run i choice =>
      obtain ⟨p, s, q, here, does, rfl⟩ := step_run next
      by_cases own : r = p
      · obtain ⟨inside, -⟩ := List.getElem?_eq_some_iff.mp here
        refine ⟨q, List.mem_set inside q, doomed_step (callStep_of_statement does) (own ▸ doomed)⟩
      · exact ⟨r, mem_set_of_ne here member own q, doomed_kept doomed kept⟩

end

/-- Once the requests are over, none of a known tenant has raised exactly if no plan was deleted between being
found by such a request and being given to its tenant. -/
theorem answered_iff_keepsFound (s : Store) (integral : s.Integral) (acts : List (Act Call Choice)) (m : Calls)
    (run : exec Calls.step ⟨s, []⟩ acts = some m) (finished : ∀ p ∈ m.calls, p.Over) :
    (∀ tenant period, tenant ∈ s.tenants → .request tenant period .raised ∉ m.calls) ↔
      Along Calls.step KeepsFound ⟨s, []⟩ acts := by
  have start : Unharmed ⟨s, []⟩ := ⟨sound_start integral, fun _ member => nomatch member⟩
  have tenants := (start.1.run run).2.tenants
  constructor
  · intro answered
    refine along_of_last Unharmed Harmed (fun _ _ _ h keeps next => h.step keeps next)
      (fun _ _ _ h loses next => h.harm loses next) (fun _ _ _ h next => h.step next) start run ?_
    rintro ⟨-, p, member, doomed⟩
    have ended := finished p member
    unfold CallPoint.Doomed at doomed
    split at doomed
    · exact ended
    · exact answered _ _ (tenants ▸ doomed) member
    · exact doomed
  · intro keeps tenant period known raised
    have unharmed := (throughout_of_along (fun _ _ _ h ok next => Unharmed.step h ok next) start keeps).last run
    have doomed : (CallPoint.request tenant period .raised).Doomed m.shared := show tenant ∈ _ from tenants.symm ▸ known
    exact unharmed.2 _ raised doomed

theorem answered_iff_keepsFound_freeDeleted : ∃ m, exec Calls.step ⟨migrated, []⟩ freeDeleted = some m ∧
    ((∀ tenant period, tenant ∈ migrated.tenants → .request tenant period .raised ∉ m.calls) ↔
      Along Calls.step KeepsFound ⟨migrated, []⟩ freeDeleted) := by
  have ends : (exec Calls.step ⟨migrated, []⟩ freeDeleted).map (·.calls) =
      some [.request "shop" "2026-05" .raised, .returned .deleted] := by decide
  obtain ⟨m, run, calls⟩ := Option.map_eq_some_iff.mp ends
  refine ⟨m, run, answered_iff_keepsFound migrated migrated_integral freeDeleted m run ?_⟩
  rw [calls]
  intro p member
  simp only [List.mem_cons, List.not_mem_nil, or_false] at member
  rcases member with rfl | rfl <;> trivial

end CuckooEcho.Billing
