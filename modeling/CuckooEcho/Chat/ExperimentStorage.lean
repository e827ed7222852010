import CuckooEcho.Chat.Experiments

namespace CuckooEcho.Chat.Experiments
open Lib

/-! ## Experiments in the database -/

abbrev Uuid := Nat

def EXPERIMENT_STATUSES : List String := ["draft", "running", "paused", "completed"]

inductive PyError
  | valueError (message : String)
  | typeError
  | keyError
  deriving DecidableEq, Repr

structure Experiment where
  id : Uuid
  name : String
  experimentType : String
  variants : List ExperimentVariant
  metric : String
  status : String := "draft"
  tenantId : Option Uuid := none
  deriving DecidableEq, Repr

/-- A dictionary that `ExperimentVariant(v["id"], v["weight"])` is made from. -/
structure VariantDict where
  dict : Dict String PyValue
  id : String
  weight : Int
  hasId : dict.get "id" = some (.str id)
  hasWeight : dict.get "weight" = some (.int weight)

def VariantDict.variant (v : VariantDict) : ExperimentVariant := ⟨v.id, v.weight⟩

structure ExperimentRow where
  id : Uuid
  name : String
  type : String
  variants : String
  metric : String
  status : String
  tenantId : Uuid
  deriving DecidableEq, Repr

/-- The rows in the order of `created_at`. -/
abbrev Db := List ExperimentRow

def createExperiment (db : Db) (experimentId : Uuid) (name experimentType : String) (variants : List VariantDict)
    (metric : String) (tenantId : Uuid) : Experiment × Db :=
  ({ id := experimentId, name, experimentType, variants := variants.map (·.variant), metric,
     tenantId := some tenantId },
    db ++ [⟨experimentId, name, experimentType, Json.dumpsText (.list (variants.map fun v => .dict v.dict.items)), metric,
      "draft", tenantId⟩])

/-- What a `for` loop goes through: the characters of a text, the items of a list, the keys of a dictionary. -/
def iterate : PyValue → Except PyError (List PyValue)
  | .str s => .ok (s.toList.map fun c => .str (String.singleton c))
  | .list items => .ok items
  | .dict items => .ok (items.map fun item => .str item.1)
  | _ => .error .typeError

def getItem (key : String) : PyValue → Except PyError PyValue
  | .dict items => match items.lookup key with
      | some v => .ok v
      | none => .error .keyError
  | _ => .error .typeError

def readVariant (v : PyValue) : Except PyError ExperimentVariant := do
  match ← getItem "id" v, ← getItem "weight" v with
  | .str id, .int weight => .ok ⟨id, weight⟩
  | _, _ => .error .typeError

def readVariants (column : PyValue) : Except PyError (List ExperimentVariant) := do
  (← iterate column).mapM readVariant

section
variable (column : String → String)

/-- `column` is the text that the driver returns for a stored JSON text. -/
def experimentOf (row : ExperimentRow) : Except PyError Experiment := do
  let variants ← readVariants (.str (column row.variants))
  return { id := row.id, name := row.name, experimentType := row.type, variants, metric := row.metric,
           status := row.status }

def getExperiment (db : Db) (experimentId tenantId : Uuid) : Except PyError (Option Experiment) :=
  match db.find? fun row => row.id = experimentId ∧ row.tenantId = tenantId with
  | some row => (experimentOf column row).map some
  | none => .ok none

def listExperiments (db : Db) (tenantId : Uuid) (status : Option String) : Except PyError (List Experiment) :=
  let rows := db.reverse.filter fun row =>
    row.tenantId = tenantId ∧ ∀ s ∈ status.filter (· ≠ ""), row.status = s
  rows.mapM (experimentOf column)

def updateExperimentStatus (db : Db) (experimentId : Uuid) (status : String) (tenantId : Uuid) :
    Except PyError (Option Experiment) × Db :=
  if status ∈ EXPERIMENT_STATUSES then
    let db := db.map fun row => if row.id = experimentId ∧ row.tenantId = tenantId then { row with status } else row
    (getExperiment column db experimentId tenantId, db)
  else (.error (.valueError ("Invalid status: " ++ status)), db)

def deleteExperiment (db : Db) (experimentId tenantId : Uuid) : Bool × Db :=
  let rest := db.filter fun row => ¬ (row.id = experimentId ∧ row.tenantId = tenantId)
  (db.length = rest.length + 1, rest)

inductive Call
  | create (experimentId : Uuid) (name experimentType : String) (variants : List VariantDict) (metric : String)
      (tenantId : Uuid)
  | updateStatus (experimentId : Uuid) (status : String) (tenantId : Uuid)
  | delete (experimentId tenantId : Uuid)

def step (db : Db) : Call → Db
  | .create experimentId name experimentType variants metric tenantId =>
      (createExperiment db experimentId name experimentType variants metric tenantId).2
  | .updateStatus experimentId status tenantId => (updateExperimentStatus column db experimentId status tenantId).2
  | .delete experimentId tenantId => (deleteExperiment db experimentId tenantId).2

def ReturnedByGet (db : Db) (tenantId : Uuid) (e : Experiment) : Prop :=
  getExperiment column db e.id tenantId = .ok (some e)

def ReturnedByList (db : Db) (tenantId : Uuid) (e : Experiment) : Prop :=
  ∃ all, listExperiments column db tenantId none = .ok all ∧ e ∈ all

/-! ### The characters of a text are no dictionaries -/

theorem readVariants_text {text : String} (nonempty : text ≠ "") : readVariants (.str text) = .error .typeError := by
  obtain ⟨c, rest, chars⟩ := List.exists_cons_of_ne_nil (mt String.toList_eq_nil_iff.mp nonempty)
  simp [readVariants, iterate, chars, readVariant, getItem, bind, Except.bind]

def Dumped (db : Db) : Prop := ∀ row ∈ db, row.variants ≠ ""

theorem Dumped.step {db : Db} (h : Dumped db) (call : Call) : Dumped (step column db call) := by
  cases call with
  | create experimentId name experimentType variants metric tenantId =>
      intro row member
      rcases List.mem_append.mp member with old | new
      · exact h row old
      · obtain rfl := List.mem_singleton.mp new
        exact Json.dumpsText_list_ne_empty _
  | updateStatus experimentId status tenantId =>
      simp only [Experiments.step, updateExperimentStatus]
      split
      · intro row member
        obtain ⟨old, found, rfl⟩ := List.mem_map.mp member
        have kept := h old found
        split
        · exact kept
        · exact kept
      · exact h
  | delete experimentId tenantId => exact fun row member => h row (List.mem_of_mem_filter member)

theorem dumped_run (calls : List Call) {db : Db} (h : Dumped db) : Dumped (calls.foldl (step column) db) := by
  induction calls generalizing db with
  | nil => exact h
  | cons call calls ih => exact ih (h.step column call)

variable {column} (kept : ∀ text, text ≠ "" → column text ≠ "")
include kept

theorem experimentOf_dumped {db : Db} (h : Dumped db) {row : ExperimentRow} (member : row ∈ db) :
    experimentOf column row = .error .typeError := by
  simp [experimentOf, readVariants_text (kept _ (h row member)), bind, Except.bind]

theorem getExperiment_dumped {db : Db} (h : Dumped db) (experimentId tenantId : Uuid) :
    getExperiment column db experimentId tenantId = .ok none ∨
      getExperiment column db experimentId tenantId = .error .typeError := by
  unfold getExperiment
  split
  · rename_i row found
    right
    rw [experimentOf_dumped kept h (List.mem_of_find?_eq_some found)]
    rfl
  · exact .inl rfl

theorem listExperiments_dumped {db : Db} (h : Dumped db) (tenantId : Uuid) (status : Option String) :
    listExperiments column db tenantId status = .ok [] ∨
      listExperiments column db tenantId status = .error .typeError := by
  simp only [listExperiments]
  generalize selected : db.reverse.filter _ = rows
  cases rows with
  | nil => exact .inl rfl
  | cons row rows =>
      have here : row ∈ db := by
        have member : row ∈ db.reverse.filter _ := selected ▸ List.mem_cons_self
        exact List.mem_reverse.mp (List.mem_of_mem_filter member)
      right
      simp [List.mapM_cons, experimentOf_dumped kept h here, bind, Except.bind]

end

/-- Whatever has been stored before and since, neither way of reading returns a created experiment, with the status
`draft` or another. -/
theorem never_returned (column : String → String) (kept : ∀ text, text ≠ "" → column text ≠ "")
    (before after : List Call) (experimentId : Uuid) (name experimentType : String) (variants : List VariantDict)
    (metric : String) (tenantId : Uuid) (status : String) :
    let stored := createExperiment (before.foldl (step column) []) experimentId name experimentType variants metric
      tenantId
    let later := after.foldl (step column) stored.2
    ¬ ReturnedByGet column later tenantId { stored.1 with status } ∧
      ¬ ReturnedByList column later tenantId { stored.1 with status } := by
  intro stored later
  have dumped : Dumped later := by
    have start : Dumped (before.foldl (step column) []) :=
      dumped_run column before fun row member => absurd member List.not_mem_nil
    exact dumped_run column after (start.step column
      (.create experimentId name experimentType variants metric tenantId))
  constructor
  · intro returned
    rcases getExperiment_dumped kept dumped stored.1.id tenantId with none | raised
    · simp [ReturnedByGet, none] at returned
    · simp [ReturnedByGet, raised] at returned
  · rintro ⟨all, listed, member⟩
    rcases listExperiments_dumped kept dumped tenantId none with none | raised
    · obtain rfl : [] = all := by simpa [none] using listed
      exact absurd member List.not_mem_nil
    · simp [raised] at listed

def half (id : String) : VariantDict where
  dict := ⟨[("id", .str id), ("weight", .int 50)], by simp⟩
  id := id
  weight := 50
  hasId := rfl
  hasWeight := rfl

theorem never_returned_greeting :
    let stored := createExperiment (([] : List Call).foldl (step id) []) 1 "greeting" "prompt"
      [half "control", half "variant_a"] "conversion_rate" 10
    let later := [Call.updateStatus 1 "running" 10].foldl (step id) stored.2
    ¬ ReturnedByGet id later 10 { stored.1 with status := "running" } ∧
      ¬ ReturnedByList id later 10 { stored.1 with status := "running" } :=
  never_returned id (fun _ nonempty => nonempty) [] [.updateStatus 1 "running" 10] 1 "greeting" "prompt"
    [half "control", half "variant_a"] "conversion_rate" 10 "running"

theorem created_not_returned :
    ¬ ∀ (experimentId : Uuid) (name experimentType : String) (variants : List VariantDict) (metric : String)
      (tenantId : Uuid),
      let stored := createExperiment [] experimentId name experimentType variants metric tenantId
      ReturnedByGet id stored.2 tenantId stored.1 ∧ ReturnedByList id stored.2 tenantId stored.1 := by
  intro claim
  have returned := (claim 1 "greeting" "prompt" [half "control", half "variant_a"] "conversion_rate" 10).1
  have raised : getExperiment id (createExperiment [] 1 "greeting" "prompt" [half "control", half "variant_a"]
      "conversion_rate" 10).2 1 10 = .error .typeError := by decide +kernel
  have answer : Except.error PyError.typeError = Except.ok (some (createExperiment [] 1 "greeting" "prompt"
      [half "control", half "variant_a"] "conversion_rate" 10).1) := raised.symm.trans returned
  cases answer

end CuckooEcho.Chat.Experiments
