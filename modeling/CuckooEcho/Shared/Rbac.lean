import Mathlib.Data.Nat.Basic
import Mathlib.Order.Lattice
import Mathlib.Data.List.Dedup

namespace CuckooEcho.Shared.Rbac

/-! ## Resources, actions, scopes and roles -/

inductive Resource
  | conversations | knowledge | reports | settings | agents | tenants | billing
  deriving DecidableEq, Repr

def Resource.list : List Resource :=
  [.conversations, .knowledge, .reports, .settings, .agents, .tenants, .billing]

inductive Action
  | view | create | edit | delete | export | manage
  deriving DecidableEq, Repr

def Action.list : List Action := [.view, .create, .edit, .delete, .export, .manage]

inductive Scope
  | all | department | own
  deriving DecidableEq, Repr

inductive Role
  | superAdmin | admin | teamLead | agent | viewer | custom
  deriving DecidableEq, Repr

structure Grant where
  resource : Resource
  action : Action
  scope : Scope
  deriving DecidableEq, Repr

def permissions : Role → List Grant
  | .superAdmin => Resource.list.flatMap fun resource => Action.list.map fun action => ⟨resource, action, .all⟩
  | .admin =>
      [⟨.conversations, .manage, .all⟩, ⟨.knowledge, .manage, .department⟩, ⟨.reports, .view, .all⟩,
        ⟨.settings, .manage, .department⟩]
  | .teamLead =>
      [⟨.conversations, .view, .department⟩, ⟨.conversations, .edit, .department⟩,
        ⟨.knowledge, .view, .department⟩, ⟨.knowledge, .create, .department⟩, ⟨.reports, .view, .department⟩]
  | .agent => [⟨.conversations, .view, .own⟩, ⟨.conversations, .edit, .own⟩, ⟨.knowledge, .view, .all⟩]
  | .viewer => [⟨.conversations, .view, .own⟩, ⟨.reports, .view, .own⟩]
  | .custom => []

/-! ## `RBACContext` -/

structure RBACContext where
  role : Role
  departmentId : Option String
  customPermissions : List Grant
  deriving DecidableEq, Repr

namespace RBACContext
variable (rbac : RBACContext) (resource : Resource) (action : Action) (scope : Scope)

def inDepartment : Bool := rbac.departmentId.getD "" ≠ ""

def perms : List Grant := if rbac.role = .custom then rbac.customPermissions else permissions rbac.role

def answers (granted : Scope) : Bool :=
  granted = .all || granted = scope || (granted = .department && rbac.inDepartment)

def hasPermission : Bool :=
  rbac.role = .superAdmin ||
    rbac.perms.any fun grant =>
      grant.resource = resource && grant.action = action && rbac.answers scope grant.scope

/-- The order of the list is that of a Python set, on which nothing here depends. -/
def getAllowedResources : List Resource :=
  if rbac.role = .superAdmin then Resource.list
  else (((permissions rbac.role ++ rbac.customPermissions).filter fun grant => grant.action = action).map
    (·.resource)).dedup

end RBACContext

/-! ## What a grant is worth -/

def Scope.width : Scope → Nat
  | .own => 0
  | .department => 1
  | .all => 2

theorem Scope.width_injective : Function.Injective Scope.width := by
  intro a b same
  cases a <;> cases b <;> first | rfl | cases same

instance : LinearOrder Scope := LinearOrder.lift' Scope.width Scope.width_injective

theorem Scope.le_all (scope : Scope) : scope ≤ .all := by
  cases scope <;> decide

/-- Among the grants for a resource and an action, those of at least the given scope that count. -/
def Grants (counts : Scope → Prop) (grants : List Grant) (resource : Resource) (action : Action) (scope : Scope) :
    Prop :=
  ∃ granted, ⟨resource, action, granted⟩ ∈ grants ∧ scope ≤ granted ∧ counts granted

namespace RBACContext
variable (rbac : RBACContext) (resource : Resource) (action : Action) (scope : Scope)

def Counts (granted : Scope) : Prop := granted = .department → rbac.inDepartment = true

def Permits : Prop := rbac.role = .superAdmin ∨ Grants rbac.Counts rbac.perms resource action scope

/-- A department grant is taken for a wider one, or for one of a user without a department. -/
def Misread : Prop :=
  (scope = .all ∧ rbac.inDepartment = true) ∨ (scope = .department ∧ rbac.inDepartment = false)

theorem answers_iff (granted : Scope) :
    rbac.answers scope granted = true ↔
      (scope ≤ granted ∧ rbac.Counts granted) ∨ (granted = .department ∧ rbac.Misread scope) := by
  unfold answers Counts Misread
  cases rbac.inDepartment <;> cases granted <;> cases scope <;> decide

theorem hasPermission_iff :
    rbac.hasPermission resource action scope = true ↔
      rbac.role = .superAdmin ∨
        ∃ granted, ⟨resource, action, granted⟩ ∈ rbac.perms ∧ rbac.answers scope granted = true := by
  simp only [hasPermission, Bool.or_eq_true, decide_eq_true_eq, List.any_eq_true, Bool.and_eq_true]
  apply or_congr_right
  constructor
  · rintro ⟨⟨r, a, granted⟩, member, ⟨rfl, rfl⟩, answered⟩
    exact ⟨granted, member, answered⟩
  · rintro ⟨granted, member, answered⟩
    exact ⟨_, member, ⟨rfl, rfl⟩, answered⟩

theorem hasPermission_of_permits (h : rbac.Permits resource action scope) :
    rbac.hasPermission resource action scope = true := by
  rw [hasPermission_iff]
  apply h.imp_right
  rintro ⟨granted, member, enough, counts⟩
  exact ⟨granted, member, (rbac.answers_iff scope granted).mpr (Or.inl ⟨enough, counts⟩)⟩

theorem not_grants_of_misread (misread : rbac.Misread scope) (noAll : ⟨resource, action, .all⟩ ∉ rbac.perms) :
    ¬ Grants rbac.Counts rbac.perms resource action scope := by
  rintro ⟨granted, member, enough, counts⟩
  cases granted with
  | all => exact noAll member
  | department =>
      rcases misread with ⟨rfl, -⟩ | ⟨rfl, none⟩
      · exact absurd enough (by decide)
      · exact absurd ((counts rfl).symm.trans none) (by decide)
  | own =>
      rcases misread with ⟨rfl, -⟩ | ⟨rfl, -⟩
      · exact absurd enough (by decide)
      · exact absurd enough (by decide)

/-- Nothing but a department grant that is misread decides the request. -/
def RestsOnMisread : Prop :=
  rbac.role ≠ .superAdmin ∧ ⟨resource, action, .department⟩ ∈ rbac.perms ∧
    ⟨resource, action, .all⟩ ∉ rbac.perms ∧ rbac.Misread scope

theorem hasPermission_iff_permits_iff :
    (rbac.hasPermission resource action scope = true ↔ rbac.Permits resource action scope) ↔
      ¬ rbac.RestsOnMisread resource action scope := by
  constructor
  · rintro agree ⟨notSuper, department, noAll, misread⟩
    have granted : rbac.hasPermission resource action scope = true :=
      (rbac.hasPermission_iff resource action scope).mpr
        (Or.inr ⟨.department, department, (rbac.answers_iff scope .department).mpr (Or.inr ⟨rfl, misread⟩)⟩)
    rcases agree.mp granted with isSuper | grants
    · exact notSuper isSuper
    · exact rbac.not_grants_of_misread resource action scope misread noAll grants
  · intro sound
    refine ⟨fun permitted => ?_, rbac.hasPermission_of_permits resource action scope⟩
    rcases (rbac.hasPermission_iff resource action scope).mp permitted with isSuper | ⟨granted, member, answered⟩
    · exact Or.inl isSuper
    · rcases (rbac.answers_iff scope granted).mp answered with ⟨enough, counts⟩ | ⟨rfl, misread⟩
      · exact Or.inr ⟨granted, member, enough, counts⟩
      · by_cases isSuper : rbac.role = .superAdmin
        · exact Or.inl isSuper
        · by_cases full : ⟨resource, action, .all⟩ ∈ rbac.perms
          · exact Or.inr ⟨.all, full, scope.le_all, fun narrow => by cases narrow⟩
          · exact absurd ⟨isSuper, member, full, misread⟩ sound

end RBACContext

def salesAdmin : RBACContext := ⟨.admin, some "sales", []⟩

/-- The admin of one department may manage the knowledge of all. -/
theorem departmentAdmin_manages_all :
    ¬ ∀ (rbac : RBACContext) (resource : Resource) (action : Action) (scope : Scope),
      rbac.hasPermission resource action scope = true ↔ rbac.Permits resource action scope := by
  intro claim
  have agrees := (salesAdmin.hasPermission_iff_permits_iff .knowledge .manage .all).mp (claim ..)
  exact agrees ⟨by decide, by decide, by decide, Or.inl ⟨rfl, by decide⟩⟩

/-! ## The two views -/

namespace RBACContext
variable (rbac : RBACContext) (action : Action)

structure ViewsAgree : Prop where
  once : (rbac.getAllowedResources action).Nodup
  same : ∀ resource, resource ∈ rbac.getAllowedResources action ↔
    ∃ scope, rbac.hasPermission resource action scope = true

theorem mem_getAllowedResources (resource : Resource) :
    resource ∈ rbac.getAllowedResources action ↔ rbac.role = .superAdmin ∨
      ∃ scope, ⟨resource, action, scope⟩ ∈ permissions rbac.role ++ rbac.customPermissions := by
  unfold getAllowedResources
  split
  · rename_i isSuper
    refine iff_of_true ?_ (Or.inl isSuper)
    cases resource <;> decide
  · rename_i notSuper
    rw [or_iff_right notSuper, List.mem_dedup, List.mem_map]
    constructor
    · rintro ⟨⟨r, a, scope⟩, member, rfl⟩
      obtain ⟨listed, acts⟩ := List.mem_filter.mp member
      obtain rfl : a = action := of_decide_eq_true acts
      exact ⟨scope, listed⟩
    · rintro ⟨scope, listed⟩
      exact ⟨_, List.mem_filter.mpr ⟨listed, decide_eq_true rfl⟩, rfl⟩

theorem nodup_getAllowedResources : (rbac.getAllowedResources action).Nodup := by
  unfold getAllowedResources
  split
  · decide
  · exact List.nodup_dedup _

/-- A grant of any scope answers at least the request for that scope. -/
theorem exists_hasPermission_iff (resource : Resource) :
    (∃ scope, rbac.hasPermission resource action scope = true) ↔
      rbac.role = .superAdmin ∨ ∃ scope, ⟨resource, action, scope⟩ ∈ rbac.perms := by
  constructor
  · rintro ⟨scope, permitted⟩
    apply ((rbac.hasPermission_iff resource action scope).mp permitted).imp_right
    rintro ⟨granted, member, -⟩
    exact ⟨granted, member⟩
  · rintro (isSuper | ⟨granted, member⟩)
    · exact ⟨.own, (rbac.hasPermission_iff ..).mpr (Or.inl isSuper)⟩
    · have answered : rbac.answers granted granted = true := by simp [answers]
      exact ⟨granted, (rbac.hasPermission_iff ..).mpr (Or.inr ⟨granted, member, answered⟩)⟩

/-- Custom permissions are for the custom role; elsewhere they must add no resource to those of the role. -/
def CustomAddsNothing : Prop :=
  rbac.role = .superAdmin ∨ rbac.role = .custom ∨
    ∀ grant ∈ rbac.customPermissions, grant.action = action →
      ∃ scope, ⟨grant.resource, action, scope⟩ ∈ permissions rbac.role

theorem viewsAgree_iff_customAddsNothing : rbac.ViewsAgree action ↔ rbac.CustomAddsNothing action := by
  constructor
  · rintro ⟨-, same⟩
    by_cases isSuper : rbac.role = .superAdmin
    · exact Or.inl isSuper
    · by_cases isCustom : rbac.role = .custom
      · exact Or.inr (Or.inl isCustom)
      · refine Or.inr (Or.inr ?_)
        rintro ⟨resource, a, scope⟩ member rfl
        have allowed : resource ∈ rbac.getAllowedResources a :=
          (rbac.mem_getAllowedResources a resource).mpr (Or.inr ⟨scope, List.mem_append_right _ member⟩)
        have permitted := (rbac.exists_hasPermission_iff a resource).mp ((same resource).mp allowed)
        rw [perms, if_neg isCustom, or_iff_right isSuper] at permitted
        exact permitted
  · intro adds
    refine ⟨rbac.nodup_getAllowedResources action, fun resource => ?_⟩
    rw [mem_getAllowedResources, exists_hasPermission_iff, perms]
    apply or_congr_right'
    intro notSuper
    split
    · rename_i isCustom
      rw [isCustom]
      rfl
    · rename_i notCustom
      have covered := (adds.resolve_left notSuper).resolve_left notCustom
      constructor
      · rintro ⟨scope, listed⟩
        rcases List.mem_append.mp listed with own | extra
        · exact ⟨scope, own⟩
        · exact covered _ extra rfl
      · rintro ⟨scope, own⟩
        exact ⟨scope, List.mem_append_left _ own⟩

end RBACContext

def extendedViewer : RBACContext := ⟨.viewer, none, [⟨.billing, .view, .all⟩]⟩

/-- A viewer with a custom permission is shown a resource that no check lets through. -/
theorem extendedViewer_disagrees : ¬ ∀ (rbac : RBACContext) (action : Action), rbac.ViewsAgree action := by
  intro claim
  have shown : Resource.billing ∈ extendedViewer.getAllowedResources .view := by decide
  obtain ⟨scope, permitted⟩ := ((claim extendedViewer .view).same .billing).mp shown
  cases scope <;> exact absurd permitted (by decide)

end CuckooEcho.Shared.Rbac
