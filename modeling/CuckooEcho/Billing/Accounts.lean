import CuckooEcho.Lib.Interleaving
import Mathlib.Data.Rat.Defs

namespace CuckooEcho.Billing
open Lib Interleaving

/-! ## Billing accounts -/

abbrev Uuid := Nat

inductive AccountStatus
  | active | suspended | overdue
  deriving DecidableEq, Repr

def AccountStatus.text : AccountStatus → String
  | .active => "active"
  | .suspended => "suspended"
  | .overdue => "overdue"

structure PlanRow where
  id : Uuid
  name : String
  messageLimit : Int
  tokenLimit : Int
  deriving DecidableEq, Repr

structure BillingAccount where
  tenantId : String
  planId : Option Uuid
  balance : ℚ
  creditLimit : ℚ
  status : AccountStatus
  deriving DecidableEq, Repr

structure UsageRow where
  tenantId : String
  period : String
  messagesUsed : Nat
  tokensUsed : Nat
  toolsUsed : Nat
  storageMb : Nat
  deriving DecidableEq, Repr

structure Db where
  tenants : List String
  plans : List PlanRow
  accounts : List BillingAccount
  usage : List UsageRow
  deriving DecidableEq, Repr

namespace Db
variable (db : Db) (tenant : String)

def accountsOf : List BillingAccount := db.accounts.filter fun account => account.tenantId = tenant

/-- A row that `WHERE tenant_id = $1` without an order can return first, or that it returns none. -/
def SelectsAccount : Option BillingAccount → Prop
  | some account => account ∈ db.accountsOf tenant
  | none => db.accountsOf tenant = []

instance : ∀ row, Decidable (db.SelectsAccount tenant row)
  | some account => inferInstanceAs (Decidable (account ∈ db.accountsOf tenant))
  | none => inferInstanceAs (Decidable (db.accountsOf tenant = []))

def freePlan : Option PlanRow := db.plans.find? fun plan => plan.name = "Free"

/-- `tenant_id` and `plan_id` are foreign keys. -/
def Accepts (account : BillingAccount) : Prop :=
  account.tenantId ∈ db.tenants ∧ ∀ id ∈ account.planId, id ∈ db.plans.map (·.id)

instance (account : BillingAccount) : Decidable (db.Accepts account) := inferInstanceAs (Decidable (_ ∧ _))

def insertAccount (account : BillingAccount) : Option Db :=
  if db.Accepts account then some { db with accounts := db.accounts ++ [account] } else none

variable {db tenant}

theorem insertAccount_eq_some {account : BillingAccount} {db' : Db} :
    db.insertAccount account = some db' ↔
      db.Accepts account ∧ db' = { db with accounts := db.accounts ++ [account] } := by
  rw [insertAccount, Option.ite_none_right_eq_some, Option.some.injEq, eq_comm (a := db')]

theorem freePlan_mem {plan : PlanRow} (free : db.freePlan = some plan) : plan ∈ db.plans :=
  List.mem_of_find?_eq_some free

end Db

/-! ## `get_or_create_account`, each of its statements a transaction of its own -/

inductive AccountPoint
  | select
  | selectPlan
  | insert (planId : Option Uuid)
  | returned (account : BillingAccount)
  | raised
  deriving DecidableEq, Repr

def newAccount (tenant : String) (planId : Option Uuid) : BillingAccount := ⟨tenant, planId, 0, 0, .active⟩

theorem accountsOf_create (db : Db) (tenant : String) (planId : Option Uuid) :
    { db with accounts := db.accounts ++ [newAccount tenant planId] }.accountsOf tenant =
      db.accountsOf tenant ++ [newAccount tenant planId] := by
  simp [Db.accountsOf, newAccount]

def getOrCreateAccount (tenant : String) (db : Db) :
    AccountPoint → Option BillingAccount → Option (Db × AccountPoint)
  | .select, row =>
      if db.SelectsAccount tenant row then some (db, row.elim .selectPlan .returned) else none
  | .selectPlan, _ => some (db, .insert (db.freePlan.map (·.id)))
  | .insert planId, _ =>
      match db.insertAccount (newAccount tenant planId) with
      | some db' => some (db', .returned (newAccount tenant planId))
      | none => some (db, .raised)
  | .returned _, _ | .raised, _ => none

/-- What a statement of the call can do. -/
inductive AccountStep (tenant : String) (db : Db) : AccountPoint → Db → AccountPoint → Prop
  | found {account : BillingAccount} (row : account ∈ db.accountsOf tenant) :
      AccountStep tenant db .select db (.returned account)
  | missing (none : db.accountsOf tenant = []) : AccountStep tenant db .select db .selectPlan
  | plan : AccountStep tenant db .selectPlan db (.insert (db.freePlan.map (·.id)))
  | created {planId : Option Uuid} (accepts : db.Accepts (newAccount tenant planId)) :
      AccountStep tenant db (.insert planId) { db with accounts := db.accounts ++ [newAccount tenant planId] }
        (.returned (newAccount tenant planId))
  | refused {planId : Option Uuid} (refuses : ¬ db.Accepts (newAccount tenant planId)) :
      AccountStep tenant db (.insert planId) db .raised

theorem accountStep_of_statement {tenant : String} {db db' : Db} {p q : AccountPoint}
    {row : Option BillingAccount} (does : getOrCreateAccount tenant db p row = some (db', q)) :
    AccountStep tenant db p db' q := by
  cases p with
  | select =>
      obtain ⟨selects, eq⟩ := Option.ite_none_right_eq_some.mp does
      obtain ⟨rfl, rfl⟩ := Prod.mk.inj (Option.some.inj eq)
      cases row with
      | none => exact .missing selects
      | some account => exact .found selects
  | selectPlan =>
      obtain ⟨rfl, rfl⟩ := Prod.mk.inj (Option.some.inj does)
      exact .plan
  | insert planId =>
      simp only [getOrCreateAccount] at does
      split at does
      · rename_i inserted
        obtain ⟨rfl, rfl⟩ := Prod.mk.inj (Option.some.inj does)
        obtain ⟨accepts, rfl⟩ := Db.insertAccount_eq_some.mp inserted
        exact .created accepts
      · rename_i refused
        obtain ⟨rfl, rfl⟩ := Prod.mk.inj (Option.some.inj does)
        exact .refused fun accepts => by simp [Db.insertAccount, accepts] at refused
  | returned account => cases does
  | raised => cases does

abbrev Accounts := State Db AccountPoint

abbrev Accounts.step (tenant : String) : Accounts → Act Unit (Option BillingAccount) → Option Accounts :=
  Interleaving.step (fun _ => .select) (getOrCreateAccount tenant)

/-! ## One account per tenant -/

def AccountPoint.ended : AccountPoint → Bool
  | .returned _ | .raised => true
  | _ => false

/-- The call has found no row and has yet to insert one. -/
def AccountPoint.creating : AccountPoint → Bool
  | .selectPlan | .insert _ => true
  | _ => false

def Ended (m : Accounts) : Prop := m.calls ≠ [] ∧ ∀ p ∈ m.calls, p.ended

def OneAccount (tenant : String) (m : Accounts) : Prop :=
  ∃ account, m.shared.accountsOf tenant = [account] ∧
    ∀ p ∈ m.calls, ∃ answer, p = .returned answer ∧ answer.planId = account.planId

def FindsNone (tenant : String) (m : Accounts) : Act Unit (Option BillingAccount) → Prop
  | .run i _ => m.calls[i]? = some .select ∧ m.shared.accountsOf tenant = []
  | .call _ => False

instance (tenant : String) (m : Accounts) : ∀ act, Decidable (FindsNone tenant m act)
  | .run .. => inferInstanceAs (Decidable (_ ∧ _))
  | .call _ => inferInstanceAs (Decidable False)

/-- No call finds the tenant without a row while another one is creating it. -/
def CreatesAlone (tenant : String) (m : Accounts) (act : Act Unit (Option BillingAccount)) : Prop :=
  FindsNone tenant m act → m.calls.countP (·.creating) = 0

instance (tenant : String) (m : Accounts) (act : Act Unit (Option BillingAccount)) :
    Decidable (CreatesAlone tenant m act) :=
  inferInstanceAs (Decidable (_ → _))

/-- The rows of the tenant with those that the calls are about to insert. -/
def due (tenant : String) (m : Accounts) : Nat :=
  (m.shared.accountsOf tenant).length + m.calls.countP (·.creating)

def AccountPoint.Agrees (tenant : String) (db : Db) : AccountPoint → Prop
  | .select | .selectPlan => True
  | .insert planId => planId = db.freePlan.map (·.id)
  | .returned answer => ∃ account ∈ db.accountsOf tenant, answer.planId = account.planId
  | .raised => False

structure Consistent (tenant : String) (m : Accounts) : Prop where
  registered : tenant ∈ m.shared.tenants
  calls : ∀ p ∈ m.calls, p.Agrees tenant m.shared

section
variable {tenant : String} {m m' : Accounts} {act : Act Unit (Option BillingAccount)}

theorem newAccount_accepted {db : Db} (registered : tenant ∈ db.tenants) :
    db.Accepts (newAccount tenant (db.freePlan.map (·.id))) := by
  refine ⟨registered, fun id found => ?_⟩
  obtain ⟨plan, free, rfl⟩ := Option.map_eq_some_iff.mp found
  exact List.mem_map_of_mem (Db.freePlan_mem free)

theorem AccountPoint.Agrees.append {db : Db} {p : AccountPoint} (h : p.Agrees tenant db) (planId : Option Uuid) :
    p.Agrees tenant { db with accounts := db.accounts ++ [newAccount tenant planId] } := by
  cases p with
  | returned answer =>
      obtain ⟨account, row, same⟩ := h
      refine ⟨account, ?_, same⟩
      rw [accountsOf_create]
      exact List.mem_append_left _ row
  | _ => exact h

theorem Consistent.step (h : Consistent tenant m) (next : Accounts.step tenant m act = some m') :
    Consistent tenant m' := by
  cases act with
  | call input =>
      obtain rfl := Option.some.inj next
      refine ⟨h.registered, fun p member => ?_⟩
      rcases List.mem_append.mp member with old | new
      · exact h.calls p old
      · obtain rfl := List.mem_singleton.mp new
        trivial
  | run i row =>
      obtain ⟨p, db, q, here, does, rfl⟩ := step_run next
      have agrees := h.calls p (List.mem_of_getElem? here)
      cases accountStep_of_statement does with
      | found account =>
          refine ⟨h.registered, forall_set h.calls (fun _ old => old) ?_ i⟩
          exact ⟨_, account, rfl⟩
      | missing none =>
          refine ⟨h.registered, forall_set h.calls (fun _ old => old) ?_ i⟩
          trivial
      | plan =>
          refine ⟨h.registered, forall_set h.calls (fun _ old => old) ?_ i⟩
          rfl
      | @created planId accepts =>
          refine ⟨h.registered, forall_set h.calls (fun _ old => old.append planId) ?_ i⟩
          refine ⟨newAccount tenant planId, ?_, rfl⟩
          rw [accountsOf_create]
          exact List.mem_append_right _ (List.mem_singleton_self _)
      | refused refuses =>
          obtain rfl := agrees
          exact absurd (newAccount_accepted h.registered) refuses

theorem due_step (h : Consistent tenant m) (next : Accounts.step tenant m act = some m') :
    due tenant m' = due tenant m + if FindsNone tenant m act then 1 else 0 := by
  cases act with
  | call input =>
      obtain rfl := Option.some.inj next
      simp [due, FindsNone, AccountPoint.creating]
  | run i row =>
      obtain ⟨p, db, q, here, does, rfl⟩ := step_run next
      have agrees := h.calls p (List.mem_of_getElem? here)
      cases accountStep_of_statement does with
      | @found account row =>
          have count : (m.calls.set i (.returned account)).countP (·.creating) + 0 = m.calls.countP (·.creating) + 0 :=
            countP_set here ..
          have some : m.shared.accountsOf tenant ≠ [] := List.ne_nil_of_mem row
          simp only [due, FindsNone, some, and_false, ↓reduceIte]
          omega
      | missing none =>
          have count : (m.calls.set i .selectPlan).countP (·.creating) + 0 = m.calls.countP (·.creating) + 1 :=
            countP_set here ..
          simp only [due, FindsNone, here, none, and_self, ↓reduceIte]
          omega
      | plan =>
          have count : (m.calls.set i (.insert (m.shared.freePlan.map (·.id)))).countP (·.creating) + 1 =
              m.calls.countP (·.creating) + 1 := countP_set here ..
          simp only [due, FindsNone, here, Option.some.injEq, reduceCtorEq, false_and, ↓reduceIte]
          omega
      | @created planId accepts =>
          have count : (m.calls.set i (.returned (newAccount tenant planId))).countP (·.creating) + 1 =
              m.calls.countP (·.creating) + 0 := countP_set here ..
          simp only [due, FindsNone, here, Option.some.injEq, reduceCtorEq, false_and, ↓reduceIte,
            accountsOf_create, List.length_append, List.length_singleton]
          omega
      | refused refuses =>
          obtain rfl := agrees
          exact absurd (newAccount_accepted h.registered) refuses

theorem rows_of_findsNone (finds : FindsNone tenant m act) : m.shared.accountsOf tenant = [] := by
  cases act with
  | run i row => exact finds.2
  | call input => cases finds

theorem due_of_ended (ended : Ended m) : due tenant m = (m.shared.accountsOf tenant).length := by
  have none : m.calls.countP (·.creating) = 0 := by
    refine List.countP_eq_zero.mpr fun p member creating => ?_
    have done := ended.2 p member
    cases p <;> simp [AccountPoint.ended, AccountPoint.creating] at done creating
  simp [due, none]

theorem Consistent.oneAccount (h : Consistent tenant m) (ended : Ended m) (one : due tenant m ≤ 1) :
    OneAccount tenant m := by
  rw [due_of_ended ended] at one
  have answered (p : AccountPoint) (member : p ∈ m.calls) : ∃ answer, p = .returned answer ∧
      ∃ account ∈ m.shared.accountsOf tenant, answer.planId = account.planId := by
    have done := ended.2 p member
    have agrees := h.calls p member
    cases p with
    | returned answer => exact ⟨answer, rfl, agrees⟩
    | raised => cases agrees
    | _ => cases done
  obtain ⟨first, member⟩ := List.exists_mem_of_ne_nil m.calls ended.1
  obtain ⟨-, -, account, row, -⟩ := answered first member
  have rows : m.shared.accountsOf tenant = [account] := by
    match list : m.shared.accountsOf tenant with
    | [] => simp [list] at row
    | [only] => simpa [list, eq_comm] using row
    | _ :: _ :: _ => simp [list] at one
  refine ⟨account, rows, fun p member => ?_⟩
  obtain ⟨answer, same, other, row', plan⟩ := answered p member
  obtain rfl : other = account := by simpa [rows] using row'
  exact ⟨answer, same, plan⟩

end

/-- After the calls have ended, they have left the tenant one account and returned its plan exactly if none of
them found the tenant without a row while another one was creating it. -/
theorem oneAccount_iff_createsAlone (tenant : String) (db : Db) (registered : tenant ∈ db.tenants)
    (single : (db.accountsOf tenant).length ≤ 1) (acts : List (Act Unit (Option BillingAccount))) (m : Accounts)
    (run : exec (Accounts.step tenant) ⟨db, []⟩ acts = some m) (ended : Ended m) :
    OneAccount tenant m ↔ Along (Accounts.step tenant) (CreatesAlone tenant) ⟨db, []⟩ acts := by
  have start : Consistent tenant ⟨db, []⟩ := ⟨registered, fun _ member => nomatch member⟩
  have initially : due tenant ⟨db, []⟩ ≤ 1 := single
  have keep (m : Accounts) (act : Act Unit (Option BillingAccount)) (m' : Accounts)
      (h : Consistent tenant m ∧ due tenant m ≤ 1) (alone : CreatesAlone tenant m act)
      (next : Accounts.step tenant m act = some m') : Consistent tenant m' ∧ due tenant m' ≤ 1 := by
    refine ⟨h.1.step next, ?_⟩
    rw [due_step h.1 next]
    split
    · rename_i finds
      simp [due, rows_of_findsNone finds, alone finds]
    · exact h.2
  have lose (m : Accounts) (act : Act Unit (Option BillingAccount)) (m' : Accounts)
      (h : Consistent tenant m ∧ due tenant m ≤ 1) (other : ¬ CreatesAlone tenant m act)
      (next : Accounts.step tenant m act = some m') : Consistent tenant m' ∧ 2 ≤ due tenant m' := by
    obtain ⟨finds, creating⟩ := Classical.not_imp.mp other
    refine ⟨h.1.step next, ?_⟩
    rw [due_step h.1 next, if_pos finds, due]
    omega
  have lost (m : Accounts) (act : Act Unit (Option BillingAccount)) (m' : Accounts)
      (h : Consistent tenant m ∧ 2 ≤ due tenant m) (next : Accounts.step tenant m act = some m') :
      Consistent tenant m' ∧ 2 ≤ due tenant m' := by
    refine ⟨h.1.step next, ?_⟩
    rw [due_step h.1 next]
    exact Nat.le_add_right_of_le h.2
  constructor
  · rintro ⟨account, rows, -⟩
    refine along_of_last _ _ keep lose lost ⟨start, initially⟩ run fun h => ?_
    have two : 2 ≤ (m.shared.accountsOf tenant).length := due_of_ended ended ▸ h.2
    simp [rows] at two
  · intro along
    have last := (throughout_of_along keep ⟨start, initially⟩ along).last run
    exact last.1.oneAccount ended last.2

def signedUp : Db := ⟨["shop"], [⟨1, "Free", 100, 10000⟩], [], []⟩

/-- Both calls find the new tenant without an account. -/
def bothCreate : List (Act Unit (Option BillingAccount)) :=
  [.call (), .call (), .run 0 none, .run 1 none, .run 0 none, .run 0 none, .run 1 none, .run 1 none]

def freeAccount : BillingAccount := newAccount "shop" (some 1)

def afterBothCreate : Accounts :=
  ⟨{ signedUp with accounts := [freeAccount, freeAccount] }, [.returned freeAccount, .returned freeAccount]⟩

theorem bothCreate_twoAccounts :
    ¬ ∀ (tenant : String) (db : Db), tenant ∈ db.tenants → (db.accountsOf tenant).length ≤ 1 →
      ∀ (acts : List (Act Unit (Option BillingAccount))) (m : Accounts),
        exec (Accounts.step tenant) ⟨db, []⟩ acts = some m → Ended m → OneAccount tenant m := by
  intro claim
  obtain ⟨account, rows, -⟩ :=
    claim "shop" signedUp (by decide) (by decide) bothCreate afterBothCreate rfl ⟨by decide, by decide⟩
  have two : (afterBothCreate.shared.accountsOf "shop").length = 2 := rfl
  simp [rows] at two

theorem oneAccount_iff_createsAlone_twice :
    OneAccount "shop" ⟨{ signedUp with accounts := [freeAccount] }, [.returned freeAccount, .returned freeAccount]⟩ ↔
      Along (Accounts.step "shop") (CreatesAlone "shop") ⟨signedUp, []⟩
        [.call (), .call (), .run 0 none, .run 0 none, .run 0 none, .run 1 (some freeAccount)] :=
  oneAccount_iff_createsAlone "shop" signedUp (by decide) (by decide) _ _ rfl ⟨by decide, by decide⟩

end CuckooEcho.Billing
