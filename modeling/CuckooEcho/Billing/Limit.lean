import CuckooEcho.Billing.Accounts

namespace CuckooEcho.Billing
open Lib Interleaving

/-! ## `check_limit` and `record_usage_to_db` -/

/-- `get` of a row that a query has returned, by column name. -/
def column (row : List (String × Int)) (name : String) (default : Int) : Int := (row.lookup name).getD default

def UsageRow.columns (usage : UsageRow) : List (String × Int) :=
  [("messages_used", usage.messagesUsed), ("tokens_used", usage.tokensUsed), ("tools_used", usage.toolsUsed)]

def PlanRow.columns (plan : PlanRow) : List (String × Int) :=
  [("message_limit", plan.messageLimit), ("token_limit", plan.tokenLimit)]

def verdict (resource : String) (amount : Int) (usage : Option UsageRow) : Option PlanRow → Bool × String
  | none => (true, "No plan limit")
  | some plan =>
      let currentUsage := usage.elim 0 fun row => column row.columns (resource ++ "_used") 0
      let limit := column plan.columns (resource ++ "_limit") (-1)
      if limit = -1 then (true, "Unlimited")
      else if currentUsage + amount > limit then
        (false, resource ++ " limit exceeded: " ++ toString currentUsage ++ "/" ++ toString limit)
      else (true, "OK")

def UsageRow.add (row : UsageRow) (messages tokens tools storageMb : Nat) : UsageRow :=
  { row with
    messagesUsed := row.messagesUsed + messages
    tokensUsed := row.tokensUsed + tokens
    toolsUsed := row.toolsUsed + tools
    storageMb := row.storageMb + storageMb }

namespace Db
variable (db : Db) (tenant : String) (period : String)

def usageOf : Option UsageRow := db.usage.find? fun row => row.tenantId = tenant ∧ row.period = period

def planOf (account : BillingAccount) : Option PlanRow := db.plans.find? fun plan => some plan.id = account.planId

def recordUsage (messages tokens tools storageMb : Nat) : Option Db :=
  if tenant ∈ db.tenants then
    match db.usageOf tenant period with
    | none => some { db with usage := db.usage ++ [⟨tenant, period, messages, tokens, tools, storageMb⟩] }
    | some _ => some { db with
        usage := db.usage.map fun row =>
          if row.tenantId = tenant ∧ row.period = period then row.add messages tokens tools storageMb else row }
  else none

end Db

/-! ## The requests of a tenant

A request is checked before its turn. The turn may record usage when it ends, and a write that fails is logged. -/

inductive Request
  | account (p : AccountPoint)
  | usage (account : BillingAccount)
  | plan (account : BillingAccount) (usage : Option UsageRow)
  | checked (allowed : Bool) (reason : String)
  | recorded
  | raised
  deriving DecidableEq, Repr

inductive Choice
  | row (account : Option BillingAccount)
  | tokensUsed (tokens : Nat)

def Request.ofAccount : AccountPoint → Request
  | .returned found =>
      if found.status ≠ .active then .checked false ("Account status: " ++ found.status.text)
      else .usage found
  | .raised => .raised
  | p => .account p

def Request.step (tenant : String) (period : String) (db : Db) : Request → Choice → Option (Db × Request)
  | .account p, .row row => (getOrCreateAccount tenant db p row).map fun (db', q) => (db', .ofAccount q)
  | .usage found, _ => some (db, .plan found (db.usageOf tenant period))
  | .plan found used, _ =>
      let (allowed, reason) := verdict "messages" 1 used (db.planOf found)
      some (db, .checked allowed reason)
  | .checked true _, .tokensUsed tokens =>
      if 0 < tokens then some ((db.recordUsage tenant period 1 tokens 0 0).getD db, .recorded) else none
  | _, _ => none

abbrev Requests := State Db Request

abbrev Requests.step (tenant : String) (period : String) : Requests → Act Unit Choice → Option Requests :=
  Interleaving.step (fun _ => .account .select) (Request.step tenant period)

def Request.passed : Request → Bool
  | .checked allowed _ => allowed
  | .recorded => true
  | _ => false

/-! ## The limit that the check looks up -/

/-- The columns are `message_limit` and `token_limit`. -/
theorem messages_limit_missing (plan : PlanRow) : column plan.columns ("messages" ++ "_limit") (-1) = -1 := by
  simp [column, PlanRow.columns, List.lookup_cons]

theorem verdict_messages (amount : Int) (usage : Option UsageRow) (plan : Option PlanRow) :
    (verdict "messages" amount usage plan).1 = true := by
  cases plan with
  | none => rfl
  | some plan => simp only [verdict, messages_limit_missing, ↓reduceIte]

def Db.HasPlan (db : Db) (tenant : String) (plan : PlanRow) : Prop :=
  plan ∈ db.plans ∧ (∀ account ∈ db.accountsOf tenant, account.planId = some plan.id) ∧
    (db.accountsOf tenant = [] → db.freePlan.map (·.id) = some plan.id)

def WithinLimit (tenant : String) (plan : PlanRow) (m : Requests) : Prop :=
  m.shared.HasPlan tenant plan → (m.calls.countP (·.passed) : Int) ≤ plan.messageLimit

/-- A request whose account is active comes to its plan. -/
def reachesPlan (m : Requests) : Act Unit Choice → Bool
  | .run i _ => match m.calls[i]? with
      | some (.plan _ _) => true
      | _ => false
  | .call _ => false

/-- What a statement of a request can do. -/
inductive RequestStep (tenant : String) (db : Db) : Request → Db → Request → Prop
  | account {p q : AccountPoint} {db' : Db} (does : AccountStep tenant db p db' q) :
      RequestStep tenant db (.account p) db' (.ofAccount q)
  | usage {account : BillingAccount} {used : Option UsageRow} :
      RequestStep tenant db (.usage account) db (.plan account used)
  | plan {account : BillingAccount} {used : Option UsageRow} {reason : String} :
      RequestStep tenant db (.plan account used) db (.checked true reason)
  | record {reason : String} {usage : List UsageRow} :
      RequestStep tenant db (.checked true reason) { db with usage } .recorded

theorem recordUsage_usage (db : Db) (tenant : String) (period : String) (messages tokens tools storageMb : Nat) :
    ∃ usage, (db.recordUsage tenant period messages tokens tools storageMb).getD db = { db with usage } := by
  unfold Db.recordUsage
  split
  · split <;> exact ⟨_, rfl⟩
  · exact ⟨db.usage, rfl⟩

section
variable {tenant : String} {period : String} {plan : PlanRow}

theorem requestStep_of_statement {db db' : Db} {p q : Request} {choice : Choice}
    (does : Request.step tenant period db p choice = some (db', q)) : RequestStep tenant db p db' q := by
  cases p with
  | account p =>
      cases choice with
      | row found =>
          obtain ⟨⟨db'', r⟩, called, eq⟩ := Option.map_eq_some_iff.mp does
          obtain ⟨rfl, rfl⟩ := Prod.mk.inj eq
          exact .account (accountStep_of_statement called)
      | tokensUsed tokens => cases does
  | usage account =>
      obtain ⟨rfl, rfl⟩ := Prod.mk.inj (Option.some.inj does)
      exact .usage
  | plan account used =>
      let answer := verdict "messages" 1 used (db.planOf account)
      have said : some (db, Request.checked answer.1 answer.2) = some (db', q) := does
      rw [verdict_messages] at said
      obtain ⟨rfl, rfl⟩ := Prod.mk.inj (Option.some.inj said)
      exact .plan
  | checked allowed reason =>
      cases allowed with
      | true =>
          cases choice with
          | row found => cases does
          | tokensUsed tokens =>
              obtain ⟨-, eq⟩ := Option.ite_none_right_eq_some.mp does
              obtain ⟨rfl, rfl⟩ := Prod.mk.inj (Option.some.inj eq)
              obtain ⟨usage, eq⟩ := recordUsage_usage db tenant period 1 tokens 0 0
              rw [eq]
              exact .record
      | false => cases does
  | recorded => cases does
  | raised => cases does

theorem passed_ofAccount (p : AccountPoint) : (Request.ofAccount p).passed = false := by
  unfold Request.ofAccount
  split
  · split <;> rfl
  · rfl
  · rfl

theorem passed_step {m m' : Requests} {act : Act Unit Choice} (next : Requests.step tenant period m act = some m') :
    m'.calls.countP (·.passed) = m.calls.countP (·.passed) + (reachesPlan m act).toNat := by
  cases act with
  | call input =>
      obtain rfl := Option.some.inj next
      simp [reachesPlan, Request.passed]
  | run i choice =>
      obtain ⟨p, db, q, here, does, rfl⟩ := step_run next
      have count := countP_set here q (·.passed)
      simp only [reachesPlan, here]
      cases requestStep_of_statement does with
      | account does =>
          rw [passed_ofAccount] at count
          exact count
      | usage => exact count
      | plan => exact count
      | record => exact Nat.succ.inj count

/-- A call that is creating the account gives it the plan. -/
def Request.Plans (plan : PlanRow) (db : Db) : Request → Prop
  | .account .selectPlan => db.freePlan.map (·.id) = some plan.id
  | .account (.insert planId) => planId = some plan.id
  | _ => True

structure Subscribed (tenant : String) (plan : PlanRow) (m : Requests) : Prop where
  hasPlan : m.shared.HasPlan tenant plan
  calls : ∀ p ∈ m.calls, p.Plans plan m.shared

theorem plans_ofAccount {db : Db} {p : AccountPoint} (ended : p.ended) :
    (Request.ofAccount p).Plans plan db := by
  cases p with
  | returned account =>
      simp only [Request.ofAccount]
      split <;> trivial
  | raised => trivial
  | _ => cases ended

theorem Subscribed.step {m m' : Requests} {act : Act Unit Choice} (h : Subscribed tenant plan m)
    (next : Requests.step tenant period m act = some m') : Subscribed tenant plan m' := by
  cases act with
  | call input =>
      obtain rfl := Option.some.inj next
      refine ⟨h.hasPlan, fun p member => ?_⟩
      rcases List.mem_append.mp member with old | new
      · exact h.calls p old
      · obtain rfl := List.mem_singleton.mp new
        trivial
  | run i choice =>
      obtain ⟨p, db, q, here, does, rfl⟩ := step_run next
      have plans := h.calls p (List.mem_of_getElem? here)
      obtain ⟨known, each, free⟩ := h.hasPlan
      cases requestStep_of_statement does with
      | account called =>
          cases called with
          | found row =>
              exact ⟨h.hasPlan, forall_set h.calls (fun _ old => old) (plans_ofAccount rfl) i⟩
          | missing none =>
              refine ⟨h.hasPlan, forall_set h.calls (fun _ old => old) ?_ i⟩
              exact free none
          | plan =>
              refine ⟨h.hasPlan, forall_set h.calls (fun _ old => old) ?_ i⟩
              exact plans
          | @created planId accepts =>
              obtain rfl : planId = some plan.id := plans
              refine ⟨⟨known, ?_, ?_⟩, forall_set h.calls (fun p old => ?_) (plans_ofAccount rfl) i⟩
              · rw [accountsOf_create]
                exact List.forall_mem_append.mpr ⟨each, by simp [newAccount]⟩
              · rw [accountsOf_create]
                exact fun none => absurd none (by simp)
              · unfold Request.Plans at old ⊢
                exact old
          | refused refuses =>
              exact ⟨h.hasPlan, forall_set h.calls (fun _ old => old) (plans_ofAccount rfl) i⟩
      | usage =>
          refine ⟨h.hasPlan, forall_set h.calls (fun _ old => old) ?_ i⟩
          trivial
      | plan =>
          refine ⟨h.hasPlan, forall_set h.calls (fun _ old => old) ?_ i⟩
          trivial
      | record =>
          refine ⟨h.hasPlan, forall_set h.calls (fun _ old => old) ?_ i⟩
          trivial

/-- The requests that pass the check stay within the plan's limit exactly if no more requests than that come
to it: the check refuses no request of an active account. -/
theorem withinLimit_iff_countAlong (tenant : String) (period : String) (db : Db) (plan : PlanRow)
    (hasPlan : db.HasPlan tenant plan) (acts : List (Act Unit Choice)) :
    Throughout (Requests.step tenant period) (WithinLimit tenant plan) ⟨db, []⟩ acts ↔
      (countAlong (Requests.step tenant period) reachesPlan ⟨db, []⟩ acts : Int) ≤ plan.messageLimit := by
  have start : Subscribed tenant plan ⟨db, []⟩ := ⟨hasPlan, fun _ member => nomatch member⟩
  have subscribed : Throughout (Requests.step tenant period) (Subscribed tenant plan) ⟨db, []⟩ acts :=
    throughout_of_step (fun _ _ _ h next => h.step next) start
  have grows (m : Requests) (act : Act Unit Choice) (m' : Requests)
      (next : Requests.step tenant period m act = some m') :
      m'.calls.countP (·.passed) = m.calls.countP (·.passed) + (reachesPlan m act).toNat := passed_step next
  have counted := throughout_iff_countAlong (fun m : Requests => m.calls.countP (·.passed))
    (fun n => (n : Int) ≤ plan.messageLimit) grows (fun _ _ le bound => Int.le_trans (Int.ofNat_le.mpr le) bound)
    ⟨db, []⟩ acts
  simp only [List.countP_nil, Nat.zero_add] at counted
  rw [← counted]
  constructor
  · exact fun within => (within.and subscribed).mono fun m h => h.1 h.2.hasPlan
  · exact fun within => within.mono fun m h (_ : m.shared.HasPlan tenant plan) => h

end

def trial : PlanRow := ⟨2, "Trial", 1, 1000⟩

def trialAccount : BillingAccount := ⟨"shop", some 2, 0, 0, .active⟩

def onTrial : Db := ⟨["shop"], [⟨1, "Free", 100, 10000⟩, trial], [trialAccount], []⟩

/-- The second request is made after the first one has been recorded. -/
def twoRequests : List (Act Unit Choice) :=
  [.call (), .run 0 (.row (some trialAccount)), .run 0 (.row none), .run 0 (.row none), .run 0 (.tokensUsed 30),
    .call (), .run 1 (.row (some trialAccount)), .run 1 (.row none), .run 1 (.row none)]

theorem onTrial_hasPlan : onTrial.HasPlan "shop" trial := ⟨by decide, by decide, by decide⟩

theorem twoRequests_pass :
    ¬ ∀ (tenant : String) (period : String) (db : Db) (plan : PlanRow), db.HasPlan tenant plan →
      ∀ acts : List (Act Unit Choice),
        Throughout (Requests.step tenant period) (WithinLimit tenant plan) ⟨db, []⟩ acts := by
  intro claim
  have reached := (claim "shop" "2026-05" onTrial trial onTrial_hasPlan twoRequests).last rfl
  exact absurd (reached onTrial_hasPlan) (by decide)

theorem withinLimit_iff_countAlong_twoRequests :
    Throughout (Requests.step "shop" "2026-05") (WithinLimit "shop" trial) ⟨onTrial, []⟩ twoRequests ↔
      (countAlong (Requests.step "shop" "2026-05") reachesPlan ⟨onTrial, []⟩ twoRequests : Int) ≤ trial.messageLimit :=
  withinLimit_iff_countAlong "shop" "2026-05" onTrial trial onTrial_hasPlan twoRequests

end CuckooEcho.Billing
