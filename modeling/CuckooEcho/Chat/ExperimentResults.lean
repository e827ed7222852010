import CuckooEcho.Chat.ExperimentStorage
import Mathlib.Algebra.Field.Rat
import Mathlib.Algebra.Order.Ring.Rat
import Mathlib.Data.Finset.Card
import Mathlib.Data.List.Dedup

namespace CuckooEcho.Chat.Experiments
open Lib

/-! ## `get_experiment_results` -/

structure MetricRow (F : Type*) where
  experimentId : Uuid
  variantId : String
  metric : String
  value : F
  deriving DecidableEq, Repr

structure Stats (F : Type*) where
  count : Nat
  avg : F
  deriving DecidableEq, Repr

structure Group (F : Type*) where
  variantId : String
  metric : String
  stats : Stats F
  deriving DecidableEq, Repr

/-- What is computed in the database and in `math`. As of the other operations of the numbers, no law is used of it, so
that every result may be rounded. -/
structure Arithmetic (F : Type*) where
  avg : List F → F
  sqrt : F → F
  abs : F → F

section
variable {F : Type*} (op : Arithmetic F)

def valuesOf (rows : List (MetricRow F)) (variantId metric : String) : List F :=
  (rows.filter fun row => row.variantId = variantId ∧ row.metric = metric).map (·.value)

/-- `COUNT(*)` and `AVG(value)` -/
def statsOf (values : List F) : Stats F := ⟨values.length, op.avg values⟩

/-- The groups of `GROUP BY variant_id, metric`; the database returns them in any order. -/
def groupBy (rows : List (MetricRow F)) : List (Group F) :=
  (rows.map fun row => (row.variantId, row.metric)).dedup.map fun key =>
    ⟨key.1, key.2, statsOf op (valuesOf rows key.1 key.2)⟩

def rowsOf (table : List (MetricRow F)) (experimentId : Uuid) : List (MetricRow F) :=
  table.filter (·.experimentId = experimentId)

structure Collected (F : Type*) [Zero F] where
  variantStats : Dict String (Stats F) := .empty
  controlCount : Nat := 0
  controlAvg : F := 0

variable [Zero F]

def collect (groups : List (Group F)) : Collected F :=
  groups.foldl (fun c g =>
    { variantStats := c.variantStats.set g.variantId g.stats
      controlCount := if g.variantId = "control" then g.stats.count else c.controlCount
      controlAvg := if g.variantId = "control" then g.stats.avg else c.controlAvg }) {}

variable [One F] [Add F] [Sub F] [Div F] [NatCast F] [OfNat F 2] [OfScientific F]
variable [DecidableEq F] [LT F] [DecidableLT F]

/-- The Z-test of one treatment against the control. -/
def zTest (controlCount : Nat) (controlAvg : F) (treatment : Option (Stats F)) : F :=
  if controlCount < 30 then 0
  else match treatment with
    | none => 0
    | some treatment =>
        if treatment.count < 30 then 0
        else
          let pooledSe := op.sqrt (1 / (controlCount : F) + 1 / (treatment.count : F))
          if pooledSe = 0 then 0
          else
            let z := op.abs (controlAvg - treatment.avg) / pooledSe
            if 2.576 < z then 0.99
            else if 1.96 < z then 0.95
            else if 1.645 < z then 0.90
            else if z / 2 < 0.85 then z / 2 else 0.85

def calculateSignificance (controlCount : Nat) (controlAvg : F) (variantStats : Dict String (Stats F)) : F :=
  zTest op controlCount controlAvg ((variantStats.items.find? (·.1 ≠ "control")).map (·.2))

def significance (groups : List (Group F)) : F :=
  let c := collect groups
  if 2 ≤ c.variantStats.items.length then calculateSignificance op c.controlCount c.controlAvg c.variantStats else 0

structure Results (F : Type*) where
  experimentId : Uuid
  status : String
  results : Dict String (Stats F)
  significance : F

def report (experiment : Experiment) (groups : List (Group F)) : Results F where
  experimentId := experiment.id
  status := experiment.status
  results := (collect groups).variantStats
  significance := significance op groups

def getExperimentResults (column : String → String) (db : Db) (groups : List (Group F))
    (experimentId tenantId : Uuid) : Except PyError (Option (Results F)) :=
  match getExperiment column db experimentId tenantId with
  | .error error => .error error
  | .ok none => .ok none
  | .ok (some experiment) => .ok (some (report op experiment groups))

/-- What `get_experiment` returns is reported on, and nothing else. -/
theorem getExperimentResults_eq_ok {column : String → String} {db : Db} {groups : List (Group F)}
    {experimentId tenantId : Uuid} {results : Results F} :
    getExperimentResults op column db groups experimentId tenantId = .ok (some results) ↔
      ∃ experiment, getExperiment column db experimentId tenantId = .ok (some experiment) ∧
        report op experiment groups = results := by
  unfold getExperimentResults
  cases found : getExperiment column db experimentId tenantId with
  | error error => simp
  | ok experiment =>
      cases experiment with
      | none => simp
      | some experiment => simp

end

section
variable {F : Type*} {op : Arithmetic F} {rows : List (MetricRow F)} {groups : List (Group F)} {v metric : String}

/-! ### The rows of one metric -/

/-- The count and the average of the variant's rows of the metric, nothing where it has none. -/
def ownStats (op : Arithmetic F) (metric : String) (rows : List (MetricRow F)) (v : String) : Option (Stats F) :=
  if valuesOf rows v metric = [] then none else some (statsOf op (valuesOf rows v metric))

theorem valuesOf_eq_nil : valuesOf rows v metric = [] ↔ ∀ row ∈ rows, ¬ (row.variantId = v ∧ row.metric = metric) := by
  simp [valuesOf, List.filter_eq_nil_iff]

theorem mem_groupBy {g : Group F} : g ∈ groupBy op rows ↔
    (∃ row ∈ rows, row.variantId = g.variantId ∧ row.metric = g.metric) ∧
      g.stats = statsOf op (valuesOf rows g.variantId g.metric) := by
  rw [groupBy, List.mem_map]
  constructor
  · rintro ⟨key, member, rfl⟩
    obtain ⟨row, here, rfl⟩ := List.mem_map.mp (List.mem_dedup.mp member)
    exact ⟨⟨row, here, rfl, rfl⟩, rfl⟩
  · rintro ⟨⟨row, here, variantId, metric⟩, stats⟩
    refine ⟨(g.variantId, g.metric), List.mem_dedup.mpr (List.mem_map.mpr ⟨row, here, ?_⟩), ?_⟩
    · rw [variantId, metric]
    · rw [← stats]

def groupOf (op : Arithmetic F) (rows : List (MetricRow F)) (row : MetricRow F) : Group F :=
  ⟨row.variantId, row.metric, statsOf op (valuesOf rows row.variantId row.metric)⟩

theorem group_of_row (op : Arithmetic F) {row : MetricRow F} (member : row ∈ rows) :
    groupOf op rows row ∈ groupBy op rows :=
  mem_groupBy.mpr ⟨⟨row, member, rfl, rfl⟩, rfl⟩

theorem valuesOf_own (rows : List (MetricRow F)) (v metric : String) :
    valuesOf (rows.filter (·.metric = metric)) v metric = valuesOf rows v metric := by
  rw [valuesOf, valuesOf, List.filter_filter]
  congr 1
  refine List.filter_congr fun row _ => ?_
  by_cases own : row.metric = metric
  · simp [own]
  · simp [own]

/-- Rows that change nothing: a variant with rows of another metric has as many of the own one, with the same
average. -/
def Unmixed (op : Arithmetic F) (metric : String) (rows : List (MetricRow F)) : Prop :=
  ∀ row ∈ rows, row.metric ≠ metric →
    ownStats op metric rows row.variantId = some (groupOf op rows row).stats

theorem unmixed_own (op : Arithmetic F) (metric : String) (rows : List (MetricRow F)) :
    Unmixed op metric (rows.filter (·.metric = metric)) := by
  intro row member other
  exact absurd (by simpa using (List.mem_filter.mp member).2) other

/-! ### What the loop over the groups leaves -/

variable [Zero F]

def reported (groups : List (Group F)) (v : String) : Option (Stats F) := (collect groups).variantStats.get v

theorem collect_concat (groups : List (Group F)) (g : Group F) : collect (groups ++ [g]) =
    { variantStats := (collect groups).variantStats.set g.variantId g.stats
      controlCount := if g.variantId = "control" then g.stats.count else (collect groups).controlCount
      controlAvg := if g.variantId = "control" then g.stats.avg else (collect groups).controlAvg } := by
  simp [collect, List.foldl_append]

theorem variantStats_eq (groups : List (Group F)) :
    (collect groups).variantStats = Dict.empty.setAll (groups.map fun g => (g.variantId, g.stats)) := by
  induction groups using List.reverseRecOn with
  | nil => rfl
  | append_singleton groups g ih =>
      simp only [collect_concat, ih, List.map_append, List.map_singleton, Dict.setAll_concat]

theorem reported_concat (groups : List (Group F)) (g : Group F) (v : String) :
    reported (groups ++ [g]) v = if v = g.variantId then some g.stats else reported groups v := by
  simp [reported, collect_concat]

/-- The control's numbers are those reported for it, and 0 without a group of it. -/
theorem control_eq (groups : List (Group F)) :
    (collect groups).controlCount = ((reported groups "control").map (·.count)).getD 0 ∧
      (collect groups).controlAvg = ((reported groups "control").map (·.avg)).getD 0 := by
  induction groups using List.reverseRecOn with
  | nil => exact ⟨rfl, rfl⟩
  | append_singleton groups g ih =>
      rw [reported_concat, collect_concat]
      by_cases control : g.variantId = "control"
      · simp [control]
      · simpa [control, Ne.symm control] using ih

theorem mem_of_reported {s : Stats F} (found : reported groups v = some s) :
    ∃ g ∈ groups, g.variantId = v ∧ g.stats = s := by
  rw [reported, variantStats_eq] at found
  obtain ⟨g, member, same⟩ := List.mem_map.mp (Dict.mem_of_get_setAll found)
  exact ⟨g, member, congrArg Prod.fst same, congrArg Prod.snd same⟩

theorem reported_eq_none : reported groups v = none ↔ ∀ g ∈ groups, g.variantId ≠ v := by
  constructor
  · intro missing g member same
    rw [reported, variantStats_eq] at missing
    exact Dict.get_setAll_ne_none (List.mem_map.mpr ⟨g, member, by rw [same]⟩) missing
  · intro others
    cases found : reported groups v with
    | none => rfl
    | some s =>
        obtain ⟨g, member, same, -⟩ := mem_of_reported found
        exact absurd same (others g member)

/-- The variant that the test is made with is the one whose group came first. -/
theorem treatment_eq (groups : List (Group F)) :
    ((collect groups).variantStats.items.find? (·.1 ≠ "control")).map (·.2) =
      ((groups.map (·.variantId)).find? (· ≠ "control")).bind (reported groups) := by
  have keys := Dict.find?_keys_setAll (groups.map fun g => (g.variantId, g.stats)) (fun k => decide (k ≠ "control"))
  rw [List.map_map, ← variantStats_eq] at keys
  have first := Dict.find?_items (collect groups).variantStats (fun k => decide (k ≠ "control"))
  rw [keys] at first
  exact first

def Several (groups : List (Group F)) : Prop := ∃ g ∈ groups, ∃ g' ∈ groups, g.variantId ≠ g'.variantId

theorem two_le_iff_several (groups : List (Group F)) :
    2 ≤ (collect groups).variantStats.items.length ↔ Several groups := by
  have length : (collect groups).variantStats.items.length = (collect groups).variantStats.keys.toFinset.card := by
    have nodup : (collect groups).variantStats.keys.Nodup := (collect groups).variantStats.nodup
    rw [List.toFinset_card_of_nodup nodup, Dict.keys, List.length_map]
  have keys (k : String) : k ∈ (collect groups).variantStats.keys ↔ ∃ g ∈ groups, g.variantId = k := by
    rw [variantStats_eq, Dict.mem_keys_setAll]
    simp
  rw [length, Nat.succ_le_iff, Finset.one_lt_card]
  simp only [List.mem_toFinset, keys, Several]
  constructor
  · rintro ⟨_, ⟨g, member, rfl⟩, _, ⟨g', member', rfl⟩, different⟩
    exact ⟨g, member, g', member', different⟩
  · rintro ⟨g, member, g', member', different⟩
    exact ⟨_, ⟨g, member, rfl⟩, _, ⟨g', member', rfl⟩, different⟩

theorem exists_treatment (several : Several groups) :
    ∃ v, (groups.map (·.variantId)).find? (· ≠ "control") = some v ∧ v ≠ "control" ∧ reported groups v ≠ none := by
  obtain ⟨g, member, g', member', different⟩ := several
  have some : ((groups.map (·.variantId)).find? (· ≠ "control")).isSome := by
    rw [List.find?_isSome]
    by_cases control : g.variantId = "control"
    · exact ⟨_, List.mem_map_of_mem member', by simpa [control] using different.symm⟩
    · exact ⟨_, List.mem_map_of_mem member, by simpa using control⟩
  obtain ⟨v, found⟩ := Option.isSome_iff_exists.mp some
  obtain ⟨h, here, rfl⟩ := List.mem_map.mp (List.mem_of_find?_eq_some found)
  refine ⟨_, found, by simpa using List.find?_some found, fun missing => ?_⟩
  exact reported_eq_none.mp missing h here rfl

theorem several_congr {groups' : List (Group F)} (same : ∀ v, reported groups v = reported groups' v)
    (several : Several groups) : Several groups' := by
  obtain ⟨g, member, g', member', different⟩ := several
  have kept {h : Group F} (here : h ∈ groups) : ∃ h' ∈ groups', h'.variantId = h.variantId := by
    have found : reported groups h.variantId ≠ none := fun missing => reported_eq_none.mp missing h here rfl
    obtain ⟨s, found'⟩ := Option.ne_none_iff_exists'.mp (same h.variantId ▸ found)
    obtain ⟨h', here', variantId, -⟩ := mem_of_reported found'
    exact ⟨h', here', variantId⟩
  obtain ⟨h, here, eq⟩ := kept member
  obtain ⟨h', here', eq'⟩ := kept member'
  exact ⟨h, here, h', here', by rwa [eq, eq']⟩

theorem reported_of_perm (unmixed : Unmixed op metric rows) (perm : groups.Perm (groupBy op rows)) (v : String) :
    reported groups v = ownStats op metric rows v := by
  cases found : reported groups v with
  | none =>
      have nothing : valuesOf rows v metric = [] := by
        rw [valuesOf_eq_nil]
        rintro row member ⟨rfl, -⟩
        exact reported_eq_none.mp found _ (perm.mem_iff.mpr (group_of_row op member)) rfl
      rw [ownStats, if_pos nothing]
  | some s =>
      obtain ⟨g, member, rfl, rfl⟩ := mem_of_reported found
      obtain ⟨⟨row, here, variantId, rowMetric⟩, stats⟩ := mem_groupBy.mp (perm.mem_iff.mp member)
      by_cases own : row.metric = metric
      · have some : valuesOf rows g.variantId metric ≠ [] := fun nothing =>
          valuesOf_eq_nil.mp nothing row here ⟨variantId, own⟩
        rw [ownStats, if_neg some, stats, ← rowMetric, own]
      · have same := unmixed row here own
        rw [groupOf, variantId, rowMetric] at same
        rw [same, stats]

theorem reported_own (perm : groups.Perm (groupBy op (rows.filter (·.metric = metric)))) (v : String) :
    reported groups v = ownStats op metric rows v := by
  rw [reported_of_perm (unmixed_own op metric rows) perm, ownStats, ownStats, valuesOf_own]

/-! ### The outcome of the test -/

variable [One F] [Add F] [Sub F] [Div F] [NatCast F] [OfNat F 2] [OfScientific F]
variable [DecidableEq F] [LT F] [DecidableLT F]

/-- The outcome of the test for the numbers of the control and of a treatment. -/
def outcome (op : Arithmetic F) (control treatment : Option (Stats F)) : F :=
  zTest op ((control.map (·.count)).getD 0) ((control.map (·.avg)).getD 0) treatment

theorem significance_of_several (op : Arithmetic F) (several : Several groups)
    (first : (groups.map (·.variantId)).find? (· ≠ "control") = some v) :
    significance op groups = outcome op (reported groups "control") (reported groups v) := by
  have count := (control_eq groups).1
  have avg := (control_eq groups).2
  simp only [significance, if_pos ((two_le_iff_several groups).mpr several), calculateSignificance, treatment_eq,
    first, Option.bind_some, outcome, count, avg]

theorem significance_of_few (op : Arithmetic F) (few : ¬ Several groups) : significance op groups = 0 := by
  simp only [significance, if_neg (mt (two_le_iff_several groups).mp few)]

/-- All variants other than the control come out alike against it. -/
def SameOutcome (op : Arithmetic F) (metric : String) (rows : List (MetricRow F)) : Prop :=
  ∀ v w, v ≠ "control" → w ≠ "control" → ownStats op metric rows v ≠ none → ownStats op metric rows w ≠ none →
    outcome op (ownStats op metric rows "control") (ownStats op metric rows v) =
      outcome op (ownStats op metric rows "control") (ownStats op metric rows w)

theorem significance_congr {op : Arithmetic F} {groups' : List (Group F)} (same : SameOutcome op metric rows)
    (stats : ∀ v, reported groups v = ownStats op metric rows v)
    (stats' : ∀ v, reported groups' v = ownStats op metric rows v) :
    significance op groups = significance op groups' := by
  by_cases several : Several groups
  · have several' : Several groups' := several_congr (fun v => (stats v).trans (stats' v).symm) several
    obtain ⟨v, first, treatment, known⟩ := exists_treatment several
    obtain ⟨w, first', treatment', known'⟩ := exists_treatment several'
    rw [significance_of_several op several first, significance_of_several op several' first', stats, stats, stats',
      stats']
    exact same v w treatment treatment' (stats v ▸ known) (stats' w ▸ known')
  · have few : ¬ Several groups' := fun several' =>
      several (several_congr (fun v => (stats' v).trans (stats v).symm) several')
    rw [significance_of_few op several, significance_of_few op few]

/-- In every order of the groups, the results are those of the experiment's own metric, and neither they nor the
significance change with the order or when the rows of other metrics are left out. -/
def ConcernsMetric (op : Arithmetic F) (e : Experiment) (rows : List (MetricRow F)) : Prop :=
  ∀ groups, groups.Perm (groupBy op rows) →
    (∀ v, (report op e groups).results.get v = ownStats op e.metric rows v) ∧
    ∀ own, own.Perm (groupBy op (rows.filter (·.metric = e.metric))) →
      (∀ v, (report op e groups).results.get v = (report op e own).results.get v) ∧
        (report op e groups).significance = (report op e own).significance

theorem ConcernsMetric.unmixed {op : Arithmetic F} {e : Experiment} (h : ConcernsMetric op e rows) :
    Unmixed op e.metric rows := by
  intro row member _
  -- the group of the other metric comes last
  have here := group_of_row op member
  have perm := (List.perm_append_singleton _ _).trans (List.perm_cons_erase here).symm
  have last : reported ((groupBy op rows).erase (groupOf op rows row) ++ [groupOf op rows row]) row.variantId =
      some (groupOf op rows row).stats := by
    rw [reported_concat]
    exact if_pos rfl
  exact ((h _ perm).1 row.variantId).symm.trans last

theorem ConcernsMetric.sameOutcome {op : Arithmetic F} {e : Experiment} (h : ConcernsMetric op e rows) :
    SameOutcome op e.metric rows := by
  intro v w treatment treatment' known known'
  by_cases same : v = w
  · rw [same]
  · -- the group of `v` comes first
    have outcomeOf {v w : String} (treatment : v ≠ "control") (different : v ≠ w)
        (known : ownStats op e.metric rows v ≠ none) (known' : ownStats op e.metric rows w ≠ none) :
        significance op (groupBy op rows) =
          outcome op (ownStats op e.metric rows "control") (ownStats op e.metric rows v) := by
      have groupOf {v : String} (known : ownStats op e.metric rows v ≠ none) :
          ∃ g ∈ groupBy op (rows.filter (·.metric = e.metric)), g.variantId = v := by
        obtain ⟨s, found⟩ := Option.ne_none_iff_exists'.mp known
        rw [← reported_own (.refl _)] at found
        obtain ⟨g, member, variantId, -⟩ := mem_of_reported found
        exact ⟨g, member, variantId⟩
      obtain ⟨g, member, rfl⟩ := groupOf known
      obtain ⟨g', member', rfl⟩ := groupOf known'
      have perm := (List.perm_cons_erase member).symm
      have several : Several (g :: (groupBy op (rows.filter (·.metric = e.metric))).erase g) :=
        ⟨g, List.mem_cons_self, g', perm.mem_iff.mpr member', different⟩
      have first : ((g :: (groupBy op (rows.filter (·.metric = e.metric))).erase g).map (·.variantId)).find?
          (· ≠ "control") = some g.variantId := by
        simp [treatment]
      have alike : significance op (groupBy op rows) = significance op _ := ((h _ (.refl _)).2 _ perm).2
      rw [alike, significance_of_several op several first, reported_own perm, reported_own perm]
    rw [← outcomeOf treatment same known known', outcomeOf treatment' (Ne.symm same) known' known]

theorem concernsMetric_iff (op : Arithmetic F) (e : Experiment) (table : List (MetricRow F)) :
    ConcernsMetric op e (rowsOf table e.id) ↔
      Unmixed op e.metric (rowsOf table e.id) ∧ SameOutcome op e.metric (rowsOf table e.id) := by
  constructor
  · intro h
    exact ⟨h.unmixed, h.sameOutcome⟩
  · rintro ⟨unmixed, same⟩ groups perm
    have stats := reported_of_perm unmixed perm
    refine ⟨stats, fun own ownPerm => ⟨fun v => ?_, ?_⟩⟩
    · exact (stats v).trans (reported_own ownPerm v).symm
    · exact significance_congr same stats (reported_own ownPerm)

end

/-- Averages that are not rounded. -/
def exactly : Arithmetic Rat where
  avg := fun values => values.sum / values.length
  sqrt := id
  abs := fun x => if x < 0 then -x else x

/-- The latencies of two requests count as conversions of the control. -/
def withLatencies : List (MetricRow Rat) :=
  [⟨1, "control", "conversion_rate", 1⟩, ⟨1, "variant_a", "conversion_rate", 0⟩, ⟨1, "control", "latency", 120⟩,
    ⟨1, "control", "latency", 80⟩]

theorem results_of_other_metric :
    ¬ ∀ (op : Arithmetic Rat) (e : Experiment) (table : List (MetricRow Rat)),
      ConcernsMetric op e (rowsOf table e.id) := by
  intro claim
  have concerns := claim exactly ⟨1, "greeting", "prompt", [⟨"control", 50⟩, ⟨"variant_a", 50⟩], "conversion_rate",
    "running", none⟩ withLatencies
  have own := (concerns _ (.refl _)).1 "control"
  exact absurd own (by decide +kernel)

end CuckooEcho.Chat.Experiments
