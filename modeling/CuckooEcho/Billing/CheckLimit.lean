import CuckooEcho.Billing.Limit
import CuckooEcho.Lib.Run

namespace CuckooEcho.Billing
open Lib

/-! ## A call of `check_limit` with nothing in between its statements -/

/-- `get_or_create_account`; `row` is what its query returns first. -/
def accountAlone (tenant : String) (db : Db) (row : Option BillingAccount) : Option (Db × BillingAccount) :=
  if db.SelectsAccount tenant row then
    match row with
    | some account => some (db, account)
    | none =>
        let created := newAccount tenant (db.freePlan.map (·.id))
        (db.insertAccount created).map (·, created)
  else none

def checkLimit (tenant period : String) (db : Db) (row : Option BillingAccount) (resource : String) (amount : Int) :
    Option (Db × Bool × String) :=
  (accountAlone tenant db row).map fun (db, account) =>
    (db, if account.status ≠ .active then (false, "Account status: " ++ account.status.text)
      else verdict resource amount (db.usageOf tenant period) (db.planOf account))

/-- The statements of one request, from the query for its account on. -/
abbrev Request.alone (tenant period : String) (s : Db × Request) (choice : Choice) : Option (Db × Request) :=
  Request.step tenant period s.1 s.2 choice

section
variable {tenant : String} {db db' : Db} {row : Option BillingAccount}

theorem exec_accountAlone (period : String) {account : BillingAccount} (called : accountAlone tenant db row = some (db', account)) :
    ∃ choices, exec (Request.alone tenant period) (db, .account .select) choices =
      some (db', Request.ofAccount (.returned account)) := by
  unfold accountAlone at called
  split at called
  · rename_i selects
    cases row with
    | some found =>
        obtain ⟨rfl, rfl⟩ := Prod.mk.inj (Option.some.inj called)
        exact ⟨[.row (some found)], by simp [Request.alone, Request.step, getOrCreateAccount, selects]⟩
    | none =>
        obtain ⟨after, inserted, eq⟩ := Option.map_eq_some_iff.mp called
        obtain ⟨rfl, rfl⟩ := Prod.mk.inj eq
        refine ⟨[.row none, .row none, .row none], ?_⟩
        simp [Request.alone, Request.step, getOrCreateAccount, selects, Request.ofAccount, inserted]
  · cases called

/-- What a chat request is told before its turn is what `check_limit` returns. -/
theorem exec_checkLimit {period : String} {allowed : Bool} {reason : String}
    (checked : checkLimit tenant period db row "messages" 1 = some (db', allowed, reason)) :
    ∃ choices, exec (Request.alone tenant period) (db, .account .select) choices =
      some (db', .checked allowed reason) := by
  obtain ⟨⟨mid, account⟩, called, eq⟩ := Option.map_eq_some_iff.mp checked
  obtain ⟨rfl, answer⟩ := Prod.mk.inj eq
  obtain ⟨choices, run⟩ := exec_accountAlone period called
  by_cases active : account.status = .active
  · have next : Request.ofAccount (.returned account) = .usage account := by simp [Request.ofAccount, active]
    refine ⟨choices ++ [.row none, .row none], ?_⟩
    rw [exec_append, run, Option.bind_some, next]
    simp only [active, ne_eq, not_true_eq_false, ↓reduceIte] at answer
    simp [Request.alone, Request.step, answer]
  · rw [if_pos active] at answer
    obtain ⟨rfl, rfl⟩ := Prod.mk.inj answer
    refine ⟨choices, ?_⟩
    rw [run]
    simp [Request.ofAccount, active]

end

/-! ## The limits of a plan -/

inductive Resource
  | messages | tokens
  deriving DecidableEq, Repr

namespace Resource

def name : Resource → String
  | .messages => "messages"
  | .tokens => "tokens"

def used : Resource → UsageRow → Nat
  | .messages, row => row.messagesUsed
  | .tokens, row => row.tokensUsed

def limit : Resource → PlanRow → Int
  | .messages, plan => plan.messageLimit
  | .tokens, plan => plan.tokenLimit

variable (resource : Resource)

def Within (plan : PlanRow) (usage : Option UsageRow) (amount : Int) : Prop :=
  resource.limit plan = -1 ∨ ((usage.elim 0 resource.used : Nat) : Int) + amount ≤ resource.limit plan

instance (plan : PlanRow) (usage : Option UsageRow) (amount : Int) : Decidable (resource.Within plan usage amount) :=
  inferInstanceAs (Decidable (_ ∨ _))

/-- The columns of a plan have the resource in the singular. -/
theorem column_limit (plan : PlanRow) : column plan.columns (resource.name ++ "_limit") (-1) = -1 := by
  cases resource with
  | messages => exact messages_limit_missing plan
  | tokens => simp [name, column, PlanRow.columns, List.lookup_cons]

theorem verdict_eq (plan : PlanRow) (usage : Option UsageRow) (amount : Int) :
    verdict resource.name amount usage (some plan) = (true, "Unlimited") := by
  simp only [verdict, resource.column_limit, ↓reduceIte]

end Resource

def Allows (tenant period : String) (db : Db) (row : Option BillingAccount) (resource : String) (amount : Int) : Prop :=
  ∃ db' reason, checkLimit tenant period db row resource amount = some (db', true, reason)

theorem allows_of_active {tenant : String} (period : String) {db : Db} {account : BillingAccount} {plan : PlanRow}
    (row : account ∈ db.accountsOf tenant) (active : account.status = .active) (onPlan : db.planOf account = some plan)
    (resource : Resource) (amount : Int) : Allows tenant period db (some account) resource.name amount := by
  have selects : db.SelectsAccount tenant (some account) := row
  refine ⟨db, "Unlimited", ?_⟩
  simp only [checkLimit, accountAlone, selects, ↓reduceIte, Option.map_some, active, ne_eq, not_true_eq_false, onPlan,
    resource.verdict_eq]

theorem allows_iff_within_iff {tenant period : String} {db : Db} {account : BillingAccount} {plan : PlanRow}
    (row : account ∈ db.accountsOf tenant) (active : account.status = .active) (onPlan : db.planOf account = some plan)
    (resource : Resource) (amount : Int) :
    (Allows tenant period db (some account) resource.name amount ↔
        resource.Within plan (db.usageOf tenant period) amount) ↔
      resource.Within plan (db.usageOf tenant period) amount := by
  have allowed := allows_of_active period row active onPlan resource amount
  constructor
  · exact fun agree => agree.mp allowed
  · exact fun within => ⟨fun _ => within, fun _ => allowed⟩

def usedUp : Db := { onTrial with usage := [⟨"shop", "2026-05", 1, 400, 0, 0⟩] }

/-- The plan has one message, and it has been used. -/
theorem usedUp_allows :
    ¬ ∀ (tenant period : String) (db : Db) (account : BillingAccount) (plan : PlanRow),
      account ∈ db.accountsOf tenant → account.status = .active → db.planOf account = some plan →
      ∀ (resource : Resource) (amount : Int), 1 ≤ amount →
        (Allows tenant period db (some account) resource.name amount ↔
          resource.Within plan (db.usageOf tenant period) amount) := by
  intro claim
  have onPlan : usedUp.planOf trialAccount = some trial := by decide
  have allowed : Allows "shop" "2026-05" usedUp (some trialAccount) Resource.messages.name 1 :=
    allows_of_active "2026-05" (by decide) rfl onPlan .messages 1
  have within := (claim "shop" "2026-05" usedUp trialAccount trial (by decide) rfl onPlan .messages 1
    (by decide)).mp allowed
  exact absurd within (by decide)

theorem allows_iff_within_iff_usedUp :
    (Allows "shop" "2026-05" usedUp (some trialAccount) Resource.tokens.name 500 ↔
        Resource.tokens.Within trial (usedUp.usageOf "shop" "2026-05") 500) ↔
      Resource.tokens.Within trial (usedUp.usageOf "shop" "2026-05") 500 :=
  allows_iff_within_iff (by decide) rfl (by decide) .tokens 500

end CuckooEcho.Billing
