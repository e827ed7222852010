import Mathlib.Data.List.Nodup

namespace CuckooEcho.Feedback

/-! ## The `feedback` table -/

abbrev Uuid := Nat

inductive FeedbackType
  | thumbsUp | thumbsDown
  deriving DecidableEq, Repr

structure FeedbackKey where
  threadId : Uuid
  messageId : Uuid
  userId : Uuid
  tenantId : Uuid
  deriving DecidableEq, Repr

structure FeedbackRow where
  id : Uuid
  key : FeedbackKey
  feedbackType : FeedbackType
  deriving DecidableEq, Repr

/-- `nextId` is what `gen_random_uuid()` returns next, an id that no row has had. -/
structure Db where
  tenants : List Uuid
  rows : List FeedbackRow
  nextId : Uuid
  deriving DecidableEq, Repr

namespace Db

def select (db : Db) (key : FeedbackKey) : Option FeedbackRow := db.rows.find? fun row => row.key = key

/-- `tenant_id` references `tenants`, and the unique index refuses a second row of one key. -/
def Accepts (db : Db) (key : FeedbackKey) : Prop := key.tenantId ∈ db.tenants ∧ ∀ row ∈ db.rows, row.key ≠ key

instance (db : Db) (key : FeedbackKey) : Decidable (db.Accepts key) := inferInstanceAs (Decidable (_ ∧ _))

def insert (db : Db) (key : FeedbackKey) (feedbackType : FeedbackType) : Option Db :=
  if db.Accepts key then
    some { db with rows := db.rows ++ [⟨db.nextId, key, feedbackType⟩], nextId := db.nextId + 1 }
  else none

def update (db : Db) (id : Uuid) (feedbackType : FeedbackType) : Db :=
  { db with rows := db.rows.map fun row => if row.id = id then { row with feedbackType } else row }

def delete (db : Db) (id : Uuid) : Db := { db with rows := db.rows.filter fun row => row.id ≠ id }

/-! ### The rows of one key -/

def of (db : Db) (key : FeedbackKey) : List FeedbackRow := db.rows.filter fun row => row.key = key

def Single (db : Db) (key : FeedbackKey) : Prop := (db.of key).length ≤ 1

instance (db : Db) (key : FeedbackKey) : Decidable (db.Single key) := inferInstanceAs (Decidable (_ ≤ _))

theorem select_eq_head? (db : Db) (key : FeedbackKey) : db.select key = (db.of key).head? :=
  (List.head?_filter ..).symm

theorem of_eq_nil {db : Db} {key : FeedbackKey} : db.of key = [] ↔ ∀ row ∈ db.rows, row.key ≠ key := by
  simp [of]

theorem select_eq_none {db : Db} {key : FeedbackKey} : db.select key = none ↔ db.of key = [] := by
  rw [select_eq_head?, List.head?_eq_none_iff]

theorem of_eq_singleton {db : Db} {key : FeedbackKey} {row : FeedbackRow} (single : db.Single key)
    (selected : db.select key = some row) : db.of key = [row] := by
  rw [select_eq_head?] at selected
  unfold Single at single
  match rows : db.of key with
  | [] => simp [rows] at selected
  | [only] => simpa [rows] using selected
  | _ :: _ :: _ => simp [rows] at single

theorem insert_eq_some {db db' : Db} {key : FeedbackKey} {feedbackType : FeedbackType} :
    db.insert key feedbackType = some db' ↔ db.Accepts key ∧
      db' = { db with rows := db.rows ++ [⟨db.nextId, key, feedbackType⟩], nextId := db.nextId + 1 } := by
  rw [insert, Option.ite_none_right_eq_some, Option.some.injEq, eq_comm (a := db')]

theorem of_insert {db db' : Db} {key : FeedbackKey} {feedbackType : FeedbackType}
    (inserted : db.insert key feedbackType = some db') : db'.of key = [⟨db.nextId, key, feedbackType⟩] := by
  obtain ⟨⟨-, free⟩, rfl⟩ := insert_eq_some.mp inserted
  have none : db.rows.filter (fun row => decide (row.key = key)) = [] := of_eq_nil.mpr free
  simp [of, none]

theorem of_update (db : Db) (id : Uuid) (feedbackType : FeedbackType) (key : FeedbackKey) :
    (db.update id feedbackType).of key =
      (db.of key).map fun row => if row.id = id then { row with feedbackType } else row := by
  unfold of update
  rw [List.filter_map]
  congr 1
  refine List.filter_congr fun row _ => ?_
  simp only [Function.comp_apply]
  split <;> rfl

theorem of_delete (db : Db) (id : Uuid) (key : FeedbackKey) :
    (db.delete id).of key = (db.of key).filter fun row => row.id ≠ id := by
  simp only [of, delete, List.filter_filter, Bool.and_comm]

/-- `id` is the primary key. -/
structure Keyed (db : Db) : Prop where
  ids : (db.rows.map (·.id)).Nodup
  fresh : ∀ row ∈ db.rows, row.id < db.nextId

theorem Keyed.insert {db db' : Db} (h : db.Keyed) {key : FeedbackKey} {feedbackType : FeedbackType}
    (inserted : db.insert key feedbackType = some db') : db'.Keyed := by
  obtain ⟨-, rfl⟩ := insert_eq_some.mp inserted
  constructor
  · rw [List.map_append, List.nodup_append]
    refine ⟨h.ids, List.nodup_singleton _, fun old member new here => ?_⟩
    obtain ⟨row, found, rfl⟩ := List.mem_map.mp member
    obtain rfl := List.mem_singleton.mp here
    exact Nat.ne_of_lt (h.fresh row found)
  · intro row member
    rcases List.mem_append.mp member with old | new
    · exact Nat.lt_succ_of_lt (h.fresh row old)
    · obtain rfl := List.mem_singleton.mp new
      exact Nat.lt_succ_self _

theorem Keyed.update {db : Db} (h : db.Keyed) (id : Uuid) (feedbackType : FeedbackType) :
    (db.update id feedbackType).Keyed := by
  have sameId (row : FeedbackRow) : (if row.id = id then { row with feedbackType } else row).id = row.id := by
    split <;> rfl
  constructor
  · have ids : (db.update id feedbackType).rows.map (·.id) = db.rows.map (·.id) := by
      simp [Db.update, Function.comp_def, sameId]
    exact ids ▸ h.ids
  · intro row member
    obtain ⟨old, found, rfl⟩ := List.mem_map.mp member
    exact (sameId old).symm ▸ h.fresh old found

theorem Keyed.delete {db : Db} (h : db.Keyed) (id : Uuid) : (db.delete id).Keyed where
  ids := h.ids.sublist (List.filter_sublist.map _)
  fresh row member := h.fresh row (List.mem_of_mem_filter member)

theorem Keyed.unique {db : Db} (h : db.Keyed) {row row' : FeedbackRow} (member : row ∈ db.rows)
    (member' : row' ∈ db.rows) (same : row.id = row'.id) : row = row' :=
  List.inj_on_of_nodup_map h.ids member member' same

end Db

end CuckooEcho.Feedback
