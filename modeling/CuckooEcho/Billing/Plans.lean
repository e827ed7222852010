import CuckooEcho.Billing.Limit
import Mathlib.Algebra.Ring.Int.Defs
import Mathlib.Data.List.Nodup

namespace CuckooEcho.Billing
open Lib Interleaving

/-! ## The plans and their routes -/

/-- An object's entries, each value as JSON text. -/
abbrev Features := List (String × String)

/-- What is in the column of a plan: the `[]` of the migration, or the object of a body. -/
inductive StoredFeatures
  | emptyArray
  | object (features : Features)
  deriving DecidableEq, Repr

structure Plan extends PlanRow where
  price : Int
  features : StoredFeatures
  deriving DecidableEq, Repr

structure PlanCreate where
  name : String
  price : Int
  messageLimit : Int
  tokenLimit : Int
  features : Option Features := none
  deriving DecidableEq, Repr

structure PlanUpdate where
  name : Option String := none
  price : Option Int := none
  messageLimit : Option Int := none
  tokenLimit : Option Int := none
  features : Option Features := none
  deriving DecidableEq, Repr

def PlanUpdate.apply (body : PlanUpdate) (plan : Plan) : Plan where
  id := plan.id
  name := body.name.getD plan.name
  messageLimit := body.messageLimit.getD plan.messageLimit
  tokenLimit := body.tokenLimit.getD plan.tokenLimit
  price := body.price.getD plan.price
  features := (body.features.map .object).getD plan.features

structure PlanConfig where
  name : String
  price : Int
  messageLimit : Int
  tokenLimit : Int
  deriving DecidableEq, Repr

def DEFAULT_PLANS : List PlanConfig :=
  [⟨"Free", 0, 100, 10000⟩, ⟨"Starter", 49, 1000, 100000⟩, ⟨"Pro", 199, 5000, 500000⟩, ⟨"Enterprise", 0, -1, -1⟩]

/-- A value of a column of type `INTEGER`. -/
def Fits (n : Int) : Prop := -2 ^ 31 ≤ n ∧ n < 2 ^ 31

instance (n : Int) : Decidable (Fits n) := inferInstanceAs (Decidable (_ ∧ _))

/-- `nextId` is the next value of `gen_random_uuid()`. -/
structure Store where
  tenants : List String
  plans : List Plan
  accounts : List BillingAccount
  usage : List UsageRow
  nextId : Uuid
  deriving DecidableEq, Repr

namespace Store
variable (s : Store)

def db : Db := ⟨s.tenants, s.plans.map (·.toPlanRow), s.accounts, s.usage⟩

/-- `name` is unique, and no column may be null. -/
def insertPlan (config : PlanConfig) (features : Option Features) : Option (Store × Uuid) :=
  match features with
  | none => none
  | some features =>
      if config.name ∉ s.plans.map (·.name) ∧ Fits config.messageLimit ∧ Fits config.tokenLimit then
        let plan : Plan :=
          ⟨⟨s.nextId, config.name, config.messageLimit, config.tokenLimit⟩, config.price, .object features⟩
        some ({ s with plans := s.plans ++ [plan], nextId := s.nextId + 1 }, s.nextId)
      else none

/-- `orjson.dumps(body.features).decode() if body.features else None` -/
def createPlan (body : PlanCreate) : Option (Store × Uuid) :=
  s.insertPlan ⟨body.name, body.price, body.messageLimit, body.tokenLimit⟩ (body.features.filter (· ≠ []))

def updatePlan (planId : Uuid) (body : PlanUpdate) : Option (Store × Bool) :=
  if body = {} then some (s, false)
  else if (∀ n ∈ body.messageLimit, Fits n) ∧ (∀ n ∈ body.tokenLimit, Fits n) ∧
      ∀ plan ∈ s.plans, plan.id = planId → ∀ other ∈ s.plans, other.id ≠ planId →
        other.name ≠ (body.apply plan).name then
    some ({ s with plans := s.plans.map fun plan => if plan.id = planId then body.apply plan else plan }, true)
  else none

/-- Whether a row of `billing_accounts` refers to the plan. -/
def Referenced (planId : Uuid) : Prop := ∃ account ∈ s.accounts, account.planId = some planId

instance (planId : Uuid) : Decidable (s.Referenced planId) := inferInstanceAs (Decidable (∃ _ ∈ _, _))

def deletePlan (planId : Uuid) : Option Store :=
  if s.Referenced planId then none else some { s with plans := s.plans.filter (·.id ≠ planId) }

end Store

/-! ## Requests and routes, each of their statements a transaction of its own -/

inductive Call
  | request (tenant period : String)
  | createPlan (body : PlanCreate)
  | updatePlan (planId : Uuid) (body : PlanUpdate)
  | deletePlan (planId : Uuid)
  | seedPlans
  deriving DecidableEq, Repr

inductive Answer
  | created (planId : Uuid)
  | updated (changed : Bool)
  | deleted
  | seeded (created : Nat)
  deriving DecidableEq, Repr

/-- `seeding` before the check for the first plan that is left, `inserting` after one that has not found it. -/
inductive CallPoint
  | request (tenant period : String) (p : Request)
  | creating (body : PlanCreate)
  | updating (planId : Uuid) (body : PlanUpdate)
  | deleting (planId : Uuid)
  | seeding (left : List PlanConfig) (created : Nat)
  | inserting (config : PlanConfig) (left : List PlanConfig) (created : Nat)
  | returned (answer : Answer)
  | raised
  deriving DecidableEq, Repr

def Call.enter : Call → CallPoint
  | .request tenant period => .request tenant period (.account .select)
  | .createPlan body => .creating body
  | .updatePlan planId body => .updating planId body
  | .deletePlan planId => .deleting planId
  | .seedPlans => .seeding DEFAULT_PLANS 0

def CallPoint.step (s : Store) : CallPoint → Choice → Option (Store × CallPoint)
  | .request tenant period p, choice =>
      (Request.step tenant period s.db p choice).map fun (db, q) =>
        ({ s with accounts := db.accounts, usage := db.usage }, .request tenant period q)
  | .creating body, _ =>
      match s.createPlan body with
      | some (s', planId) => some (s', .returned (.created planId))
      | none => some (s, .raised)
  | .updating planId body, _ =>
      match s.updatePlan planId body with
      | some (s', changed) => some (s', .returned (.updated changed))
      | none => some (s, .raised)
  | .deleting planId, _ =>
      match s.deletePlan planId with
      | some s' => some (s', .returned .deleted)
      | none => some (s, .raised)
  | .seeding [] created, _ => some (s, .returned (.seeded created))
  | .seeding (config :: left) created, _ =>
      some (s, if config.name ∈ s.plans.map (·.name) then .seeding left created else .inserting config left created)
  | .inserting config left created, _ =>
      match s.insertPlan config none with
      | some (s', _) => some (s', .seeding left (created + 1))
      | none => some (s, .raised)
  | .returned _, _ | .raised, _ => none

abbrev Calls := State Store CallPoint

abbrev Calls.step : Calls → Act Call Choice → Option Calls := Interleaving.step Call.enter CallPoint.step

/-! ## What a statement can do -/

inductive CallStep (s : Store) : CallPoint → Store → CallPoint → Prop
  | request {tenant period : String} {p q : Request} {db : Db} (does : RequestStep tenant s.db p db q) :
      CallStep s (.request tenant period p) { s with accounts := db.accounts, usage := db.usage }
        (.request tenant period q)
  | creates {body : PlanCreate} {plan : Plan} (fresh : plan.id = s.nextId)
      (free : plan.name ∉ s.plans.map (·.name)) :
      CallStep s (.creating body) { s with plans := s.plans ++ [plan], nextId := s.nextId + 1 }
        (.returned (.created plan.id))
  | keeps {planId : Uuid} {body : PlanUpdate} : CallStep s (.updating planId body) s (.returned (.updated false))
  | updates {planId : Uuid} {body : PlanUpdate}
      (unique : ∀ plan ∈ s.plans, plan.id = planId → ∀ other ∈ s.plans, other.id ≠ planId →
        other.name ≠ (body.apply plan).name) :
      CallStep s (.updating planId body)
        { s with plans := s.plans.map fun plan => if plan.id = planId then body.apply plan else plan }
        (.returned (.updated true))
  | deletes {planId : Uuid} (unreferenced : ¬ s.Referenced planId) :
      CallStep s (.deleting planId) { s with plans := s.plans.filter (·.id ≠ planId) } (.returned .deleted)
  | seeded {created : Nat} : CallStep s (.seeding [] created) s (.returned (.seeded created))
  | finds {config : PlanConfig} {left : List PlanConfig} {created : Nat} :
      CallStep s (.seeding (config :: left) created) s (.seeding left created)
  | misses {config : PlanConfig} {left : List PlanConfig} {created : Nat} :
      CallStep s (.seeding (config :: left) created) s (.inserting config left created)
  | raises {p : CallPoint} (route : ∀ tenant period r, p ≠ .request tenant period r) : CallStep s p s .raised

theorem callStep_of_statement {s s' : Store} {p q : CallPoint} {choice : Choice}
    (does : p.step s choice = some (s', q)) : CallStep s p s' q := by
  cases p with
  | request tenant period p =>
      obtain ⟨⟨db, r⟩, called, eq⟩ := Option.map_eq_some_iff.mp does
      obtain ⟨rfl, rfl⟩ := Prod.mk.inj eq
      exact .request (requestStep_of_statement called)
  | creating body =>
      simp only [CallPoint.step] at does
      split at does
      · rename_i created
        obtain ⟨rfl, rfl⟩ := Prod.mk.inj (Option.some.inj does)
        unfold Store.createPlan Store.insertPlan at created
        split at created
        · cases created
        · obtain ⟨⟨free, -⟩, eq⟩ := Option.ite_none_right_eq_some.mp created
          obtain ⟨rfl, rfl⟩ := Prod.mk.inj (Option.some.inj eq)
          exact .creates rfl free
      · obtain ⟨rfl, rfl⟩ := Prod.mk.inj (Option.some.inj does)
        exact .raises fun _ _ _ => nofun
  | updating planId body =>
      simp only [CallPoint.step] at does
      split at does
      · rename_i updated
        obtain ⟨rfl, rfl⟩ := Prod.mk.inj (Option.some.inj does)
        unfold Store.updatePlan at updated
        split at updated
        · obtain ⟨rfl, rfl⟩ := Prod.mk.inj (Option.some.inj updated)
          exact .keeps
        · obtain ⟨⟨-, -, unique⟩, eq⟩ := Option.ite_none_right_eq_some.mp updated
          obtain ⟨rfl, rfl⟩ := Prod.mk.inj (Option.some.inj eq)
          exact .updates unique
      · obtain ⟨rfl, rfl⟩ := Prod.mk.inj (Option.some.inj does)
        exact .raises fun _ _ _ => nofun
  | deleting planId =>
      simp only [CallPoint.step] at does
      split at does
      · rename_i deleted
        obtain ⟨rfl, rfl⟩ := Prod.mk.inj (Option.some.inj does)
        obtain ⟨unreferenced, eq⟩ := Option.ite_none_left_eq_some.mp deleted
        obtain rfl := Option.some.inj eq
        exact .deletes unreferenced
      · obtain ⟨rfl, rfl⟩ := Prod.mk.inj (Option.some.inj does)
        exact .raises fun _ _ _ => nofun
  | seeding left created =>
      cases left with
      | nil =>
          obtain ⟨rfl, rfl⟩ := Prod.mk.inj (Option.some.inj does)
          exact .seeded
      | cons config left =>
          obtain ⟨rfl, rfl⟩ := Prod.mk.inj (Option.some.inj does)
          split
          · exact .finds
          · exact .misses
  | inserting config left created =>
      obtain ⟨rfl, rfl⟩ := Prod.mk.inj (Option.some.inj does)
      exact .raises fun _ _ _ => nofun
  | returned answer => cases does
  | raised => cases does

/-! ## The rows that hang together -/

structure Store.Integral (s : Store) : Prop where
  ids : (s.plans.map (·.id)).Nodup
  names : (s.plans.map (·.name)).Nodup
  issued : ∀ plan ∈ s.plans, plan.id < s.nextId
  onPlan : ∀ account ∈ s.accounts, ∀ planId ∈ account.planId, ∃ plan ∈ s.plans, plan.id = planId

/-- What a later state has kept of an earlier one. -/
structure Store.KeptBy (s s' : Store) : Prop where
  tenants : s'.tenants = s.tenants
  nextId : s.nextId ≤ s'.nextId
  accounts : ∀ account ∈ s.accounts, account ∈ s'.accounts
  gone : ∀ planId < s.nextId, (∀ plan ∈ s.plans, plan.id ≠ planId) → ∀ plan ∈ s'.plans, plan.id ≠ planId

section
variable {s s' s'' : Store} {p q : CallPoint}

theorem Store.KeptBy.refl (s : Store) : s.KeptBy s := ⟨rfl, le_rfl, fun _ member => member, fun _ _ gone => gone⟩

theorem Store.KeptBy.trans (first : s.KeptBy s') (second : s'.KeptBy s'') : s.KeptBy s'' where
  tenants := second.tenants.trans first.tenants
  nextId := first.nextId.trans second.nextId
  accounts account member := second.accounts account (first.accounts account member)
  gone planId old missing := second.gone planId (old.trans_le first.nextId) (first.gone planId old missing)

theorem Store.Integral.withUsage (h : s.Integral) (usage : List UsageRow) : Store.Integral { s with usage } :=
  ⟨h.ids, h.names, h.issued, h.onPlan⟩

theorem Store.Integral.account (h : s.Integral) {account : BillingAccount} (accepts : s.db.Accepts account) :
    Store.Integral { s with accounts := s.accounts ++ [account] } := by
  refine ⟨h.ids, h.names, h.issued, List.forall_mem_append.mpr ⟨h.onPlan, List.forall_mem_singleton.mpr ?_⟩⟩
  intro planId onPlan
  obtain ⟨row, member, rfl⟩ := List.mem_map.mp (accepts.2 planId onPlan)
  obtain ⟨plan, stored, rfl⟩ := List.mem_map.mp member
  exact ⟨plan, stored, rfl⟩

theorem Store.Integral.create (h : s.Integral) {plan : Plan} (fresh : plan.id = s.nextId)
    (free : plan.name ∉ s.plans.map (·.name)) :
    Store.Integral { s with plans := s.plans ++ [plan], nextId := s.nextId + 1 } := by
  refine ⟨?_, ?_, ?_, fun account member planId onPlan => ?_⟩
  · rw [List.map_append, List.nodup_append]
    refine ⟨h.ids, List.nodup_singleton _, fun old member new here => ?_⟩
    obtain ⟨other, stored, rfl⟩ := List.mem_map.mp member
    obtain rfl := List.mem_singleton.mp here
    exact fun same => absurd (same.trans fresh) (h.issued other stored).ne
  · rw [List.map_append, List.nodup_append]
    refine ⟨h.names, List.nodup_singleton _, fun old member new here => ?_⟩
    obtain rfl := List.mem_singleton.mp here
    rintro rfl
    exact free member
  · refine List.forall_mem_append.mpr ⟨fun other stored => (h.issued other stored).trans (Nat.lt_succ_self _), ?_⟩
    exact List.forall_mem_singleton.mpr (fresh ▸ Nat.lt_succ_self _)
  · obtain ⟨other, stored, same⟩ := h.onPlan account member planId onPlan
    exact ⟨other, List.mem_append_left _ stored, same⟩

theorem id_updated (planId : Uuid) (body : PlanUpdate) (plan : Plan) :
    (if plan.id = planId then body.apply plan else plan).id = plan.id := by
  split <;> rfl

theorem Store.Integral.update (h : s.Integral) {planId : Uuid} {body : PlanUpdate}
    (unique : ∀ plan ∈ s.plans, plan.id = planId → ∀ other ∈ s.plans, other.id ≠ planId →
      other.name ≠ (body.apply plan).name) :
    Store.Integral
      { s with plans := s.plans.map fun plan => if plan.id = planId then body.apply plan else plan } := by
  refine ⟨?_, ?_, fun plan member => ?_, fun account member planId' onPlan => ?_⟩
  · rw [List.map_map]
    exact (List.map_congr_left fun plan _ => id_updated planId body plan) ▸ h.ids
  · have apart := List.Nodup.of_map _ h.ids
    rw [List.map_map]
    refine (List.nodup_map_iff_inj_on apart).mpr fun first one second two same => ?_
    simp only [Function.comp_apply] at same
    split at same
    · rename_i own
      split at same
      · rename_i too
        exact List.inj_on_of_nodup_map h.ids one two (own.trans too.symm)
      · rename_i other
        exact absurd same.symm (unique first one own second two other)
    · rename_i other
      split at same
      · rename_i own
        exact absurd same (unique second two own first one other)
      · exact List.inj_on_of_nodup_map h.names one two same
  · obtain ⟨old, stored, rfl⟩ := List.mem_map.mp member
    rw [id_updated]
    exact h.issued old stored
  · obtain ⟨plan, stored, rfl⟩ := h.onPlan account member planId' onPlan
    exact ⟨_, List.mem_map_of_mem stored, id_updated planId body plan⟩

theorem Store.Integral.delete (h : s.Integral) {planId : Uuid} (unreferenced : ¬ s.Referenced planId) :
    Store.Integral { s with plans := s.plans.filter (·.id ≠ planId) } := by
  have part : (s.plans.filter (·.id ≠ planId)).Sublist s.plans := List.filter_sublist
  refine ⟨h.ids.sublist (part.map _), h.names.sublist (part.map _),
    fun plan member => h.issued plan (part.subset member), fun account member planId' onPlan => ?_⟩
  obtain ⟨plan, stored, rfl⟩ := h.onPlan account member planId' onPlan
  refine ⟨plan, List.mem_filter.mpr ⟨stored, decide_eq_true ?_⟩, rfl⟩
  rintro rfl
  exact unreferenced ⟨account, member, onPlan⟩

theorem Store.Integral.step (h : s.Integral) (step : CallStep s p s' q) : s'.Integral := by
  cases step with
  | request does =>
      cases does with
      | account called =>
          cases called with
          | created accepts => exact (h.account accepts).withUsage _
          | found _ | missing _ | plan | refused _ => exact h.withUsage _
      | usage | plan | record => exact h.withUsage _
  | creates fresh free => exact h.create fresh free
  | updates unique => exact h.update unique
  | deletes unreferenced => exact h.delete unreferenced
  | keeps | seeded | finds | misses | raises => exact h

theorem Store.KeptBy.same {accounts : List BillingAccount} {usage : List UsageRow}
    (kept : ∀ account ∈ s.accounts, account ∈ accounts) : s.KeptBy { s with accounts, usage } :=
  ⟨rfl, le_rfl, kept, fun _ _ gone => gone⟩

theorem Store.KeptBy.step (step : CallStep s p s' q) : s.KeptBy s' := by
  cases step with
  | request does =>
      cases does with
      | account called =>
          cases called with
          | created accepts => exact .same fun account member => List.mem_append_left _ member
          | found _ | missing _ | plan | refused _ => exact .same fun _ member => member
      | usage | plan | record => exact .same fun _ member => member
  | creates fresh free =>
      refine ⟨rfl, Nat.le_succ _, fun _ member => member, fun planId old gone => ?_⟩
      refine List.forall_mem_append.mpr ⟨gone, List.forall_mem_singleton.mpr ?_⟩
      rw [fresh]
      exact old.ne'
  | updates unique =>
      refine ⟨rfl, le_rfl, fun _ member => member, fun planId _ gone plan member => ?_⟩
      obtain ⟨old, stored, rfl⟩ := List.mem_map.mp member
      rw [id_updated]
      exact gone old stored
  | deletes unreferenced =>
      refine ⟨rfl, le_rfl, fun _ member => member, fun planId _ gone plan member => ?_⟩
      exact gone plan (List.mem_of_mem_filter member)
  | keeps | seeded | finds | misses | raises => exact .refl s

/-! ## The calls -/

/-- What is known of a call at each of its points. -/
def CallPoint.Agrees (s : Store) : CallPoint → Prop
  | .request _ _ (.account (.insert planId)) => ∀ id ∈ planId, id < s.nextId
  | .request _ _ (.usage account) | .request _ _ (.plan account _) => account ∈ s.accounts
  | .seeding _ created | .inserting _ _ created | .returned (.seeded created) => created = 0
  | _ => True

theorem agrees_kept (agrees : p.Agrees s) (kept : s.KeptBy s') : p.Agrees s' := by
  unfold CallPoint.Agrees at agrees ⊢
  split at agrees
  · exact fun id member => (agrees id member).trans_le kept.nextId
  · exact kept.accounts _ agrees
  · exact kept.accounts _ agrees
  · exact agrees
  · exact agrees
  · exact agrees
  · trivial

theorem agrees_ofAccount {tenant period : String} {account : BillingAccount} (member : account ∈ s.accounts) :
    (CallPoint.request tenant period (.ofAccount (.returned account))).Agrees s := by
  simp only [Request.ofAccount]
  split
  · trivial
  · exact member

theorem agrees_step (h : s.Integral) (agrees : p.Agrees s) (step : CallStep s p s' q) : q.Agrees s' := by
  cases step with
  | request does =>
      cases does with
      | account called =>
          cases called with
          | found row => exact agrees_ofAccount (List.mem_of_mem_filter row)
          | missing _ => trivial
          | plan =>
              intro id free
              obtain ⟨row, found, rfl⟩ := Option.map_eq_some_iff.mp free
              obtain ⟨plan, stored, rfl⟩ := List.mem_map.mp (Db.freePlan_mem found)
              exact h.issued plan stored
          | created accepts => exact agrees_ofAccount (List.mem_append_right _ (List.mem_singleton_self _))
          | refused _ => trivial
      | usage => exact agrees
      | plan | record => trivial
  | creates fresh free => trivial
  | keeps | updates unique | deletes unreferenced => trivial
  | seeded => exact agrees
  | finds => exact agrees
  | misses => exact agrees
  | raises => trivial

/-! ## Any interleaving -/

structure Sound (m : Calls) : Prop where
  rows : m.shared.Integral
  calls : ∀ p ∈ m.calls, p.Agrees m.shared

variable {m m' : Calls} {act : Act Call Choice}

theorem agrees_enter (s : Store) (call : Call) : call.enter.Agrees s := by
  cases call with
  | seedPlans => exact rfl
  | request _ _ | createPlan _ | updatePlan _ _ | deletePlan _ => trivial

theorem Sound.step (h : Sound m) (next : Calls.step m act = some m') : Sound m' ∧ m.shared.KeptBy m'.shared := by
  cases act with
  | call call =>
      obtain rfl := Option.some.inj next
      refine ⟨⟨h.rows, List.forall_mem_append.mpr ⟨h.calls, List.forall_mem_singleton.mpr ?_⟩⟩, .refl _⟩
      exact agrees_enter m.shared call
  | run i choice =>
      obtain ⟨p, s, q, here, does, rfl⟩ := step_run next
      have step := callStep_of_statement does
      have kept := Store.KeptBy.step step
      have agrees := agrees_step h.rows (h.calls p (List.mem_of_getElem? here)) step
      exact ⟨⟨h.rows.step step, forall_set h.calls (fun _ old => agrees_kept old kept) agrees i⟩, kept⟩

theorem Sound.run (h : Sound m) {acts : List (Act Call Choice)} (run : exec Calls.step m acts = some m') :
    Sound m' ∧ m.shared.KeptBy m'.shared := by
  induction acts generalizing m with
  | nil =>
      obtain rfl := Option.some.inj run
      exact ⟨h, .refl _⟩
  | cons act acts ih =>
      obtain ⟨mid, next, rest⟩ := Option.bind_eq_some_iff.mp run
      obtain ⟨sound, first⟩ := h.step next
      obtain ⟨last, second⟩ := ih sound rest
      exact ⟨last, first.trans second⟩

theorem planOf_eq_none (h : s.Integral) {account : BillingAccount} (member : account ∈ s.accounts) :
    s.db.planOf account = none ↔ account.planId = none := by
  constructor
  · intro missing
    refine Option.eq_none_iff_forall_not_mem.mpr fun planId onPlan => ?_
    obtain ⟨plan, stored, rfl⟩ := h.onPlan account member planId onPlan
    have other := List.find?_eq_none.mp missing plan.toPlanRow (List.mem_map_of_mem stored)
    exact other (by simpa [eq_comm] using onPlan)
  · intro none
    refine List.find?_eq_none.mpr fun row _ => ?_
    simp [none]

/-- What holds of the plans however requests and the routes of the administrators interleave. -/
structure PlansHold (m : Calls) : Prop where
  ids : (m.shared.plans.map (·.id)).Nodup
  names : (m.shared.plans.map (·.name)).Nodup
  unlimited : ∀ tenant period account used, .request tenant period (.plan account used) ∈ m.calls →
    (m.shared.db.planOf account = none ↔ account.planId = none)
  seeded : ∀ created, .returned (.seeded created) ∈ m.calls → created = 0
  lasting : ∀ acts m', exec Calls.step m acts = some m' → ∀ account ∈ m.shared.accounts,
    account ∈ m'.shared.accounts ∧ ∀ planId ∈ account.planId, ∃ plan ∈ m'.shared.plans, plan.id = planId

theorem Sound.plansHold (h : Sound m) : PlansHold m := by
  refine ⟨h.rows.ids, h.rows.names, fun tenant period account used here => ?_, fun created here => ?_,
    fun acts m' run account member => ?_⟩
  · exact planOf_eq_none h.rows (h.calls _ here)
  · exact h.calls _ here
  · obtain ⟨later, kept⟩ := h.run run
    have still := kept.accounts account member
    exact ⟨still, later.rows.onPlan account still⟩

end

theorem sound_start {s : Store} (integral : s.Integral) : Sound ⟨s, []⟩ := ⟨integral, fun _ member => nomatch member⟩

theorem plansHold_throughout (s : Store) (integral : s.Integral) (acts : List (Act Call Choice)) :
    Throughout Calls.step PlansHold ⟨s, []⟩ acts :=
  (throughout_of_step (fun _ _ _ h next => (Sound.step h next).1) (sound_start integral)).mono fun _ h => h.plansHold

/-- What the migration has inserted. -/
def migrated : Store where
  tenants := ["shop"]
  plans := [⟨⟨1, "Free", 100, 10000⟩, 0, .emptyArray⟩, ⟨⟨2, "Starter", 1000, 100000⟩, 49, .emptyArray⟩,
    ⟨⟨3, "Pro", 5000, 500000⟩, 199, .emptyArray⟩, ⟨⟨4, "Enterprise", -1, -1⟩, 0, .emptyArray⟩]
  accounts := []
  usage := []
  nextId := 5

theorem migrated_integral : migrated.Integral :=
  ⟨by decide, by decide, by decide, fun _ member => nomatch member⟩

/-- The free plan is deleted after the request has found it. -/
def freeDeleted : List (Act Call Choice) :=
  [.call (.request "shop" "2026-05"), .call (.deletePlan 1), .run 0 (.row none), .run 0 (.row none),
    .run 1 (.row none), .run 0 (.row none)]

theorem plansHold_throughout_freeDeleted : Throughout Calls.step PlansHold ⟨migrated, []⟩ freeDeleted :=
  plansHold_throughout migrated migrated_integral freeDeleted

end CuckooEcho.Billing
