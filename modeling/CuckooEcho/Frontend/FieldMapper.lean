import CuckooEcho.Lib.Dict

namespace CuckooEcho.Frontend.FieldMapper
open Lib

/-! ## `transformResponse` -/

/-- The values in the responses modelled here have nothing nested in them. -/
inductive Value
  | null
  | number (n : Int)
  | text (s : String)
  deriving DecidableEq, Repr

abbrev Object := Dict String Value

inductive Response
  | object (o : Object)
  | array (os : List Object)

def EXPLICIT_BACKEND_TO_FRONTEND : List (String × List (String × String)) :=
  [("/admin/v1/knowledge/docs/*", [("doc_id", "id")]),
    ("/admin/v1/metrics/overview", [("human_transfer_rate", "humanEscalationRate")]),
    ("/admin/v1/metrics/missed-queries", [("query_prefix", "query")]),
    ("/admin/v1/auth/login", [("admin_user_id", "id")])]

def applyExplicitRenames (obj : Object) (renames : List (String × String)) : Object :=
  Dict.empty.setAll (obj.items.map fun (key, value) => ((renames.lookup key).getD key, value))

/-- The endpoint without its query. -/
def pathOf (endpoint : String) : List Char := endpoint.toList.takeWhile (· ≠ '?')

def wildcard (path pattern : List Char) : Bool := ['/', '*'].isSuffixOf pattern && pattern.dropLast.isPrefixOf path

def findMatchingRules {T : Type} (endpoint : String) (ruleTable : List (String × T)) : Option T :=
  let path := pathOf endpoint
  (ruleTable.lookup (String.ofList path)).or
    ((ruleTable.find? fun (pattern, _) => wildcard path pattern.toList).map Prod.snd)

/-- `const { docId, ...rest } = d; return { id: docId, ...rest };` -/
def docsAdapter (d : Object) : Object :=
  match d.get "docId", d.get "id" with
  | some docId, none => (Dict.empty.set "id" docId).setAll (d.erase "docId").items
  | _, _ => d

def adaptersFor {O : Type} (overview missedQueries docs : O → O) : List (String × (O → O)) :=
  [("/admin/v1/metrics/overview", overview), ("/admin/v1/metrics/missed-queries", missedQueries),
    ("/admin/v1/knowledge/docs/*", docs)]

/-- The three steps for an object. -/
def transformWith {O : Type} (rename : List (String × String) → O → O) (camel : O → O)
    (adapters : List (String × (O → O))) (data : O) (endpoint : String) : O :=
  let renamed := match findMatchingRules endpoint EXPLICIT_BACKEND_TO_FRONTEND with
    | some explicitRules => rename explicitRules data
    | none => data
  let result := camel renamed
  match findMatchingRules endpoint adapters with
  | some adapter => adapter result
  | none => result

section
variable (camelCase : String → String) (overview missedQueries : Object → Object)

/-- The adapters of the two metrics endpoints are left open. -/
def STRUCTURE_ADAPTERS : List (String × (Object → Object)) := adaptersFor overview missedQueries docsAdapter

def toCamelCase (obj : Object) : Object := Dict.empty.setAll (obj.items.map fun (key, value) => (camelCase key, value))

def transformObject (data : Object) (endpoint : String) : Object :=
  transformWith (fun renames obj => applyExplicitRenames obj renames) (toCamelCase camelCase)
    (STRUCTURE_ADAPTERS overview missedQueries) data endpoint

def transformResponse (data : Response) (endpoint : String) : Response :=
  match data with
  | .object o => .object (transformObject camelCase overview missedQueries o endpoint)
  | .array os => .array (os.map (transformObject camelCase overview missedQueries · endpoint))

end

/-! ### Names in camel case -/

/-- Words of lower-case letters with single underscores between them. -/
def isSnake (key : String) : Bool :=
  key.toList.all (fun c => c.isLower || c = '_') && key.toList.head? ≠ some '_' && key.toList.getLast? ≠ some '_' &&
    (key.toList.zip key.toList.tail).all fun (c, d) => c ≠ '_' || d ≠ '_'

def camelChars : List Char → List Char
  | '_' :: c :: rest => c.toUpper :: camelChars rest
  | c :: rest => c :: camelChars rest
  | [] => []

def ofSnake (key : String) : String := String.ofList (camelChars key.toList)

/-- What is relied on of the conversion. -/
def ConvertsSnake (camelCase : String → String) : Prop := ∀ key, isSnake key → camelCase key = ofSnake key

/-! ### Which rules an endpoint meets -/

section
variable {T : Type} {endpoint : String} {ruleTable : List (String × T)} {t : T}

def Matches (endpoint pattern : String) : Prop :=
  pattern = String.ofList (pathOf endpoint) ∨ wildcard (pathOf endpoint) pattern.toList

theorem not_matches_of_front {pattern : String} {front : List Char} (below : front <+: pathOf endpoint)
    (elsewhere : ¬ front <+: pattern.toList) (apart : ¬ pattern.toList.dropLast <+: front) :
    ¬ Matches endpoint pattern := by
  rintro (same | matched)
  · apply elsewhere
    rw [same, String.toList_ofList]
    exact below
  · obtain ⟨-, covers⟩ := Bool.and_eq_true_iff.mp matched
    rcases List.prefix_or_prefix_of_prefix (List.isPrefixOf_iff_prefix.mp covers) below with shorter | longer
    · exact apart shorter
    · exact elsewhere (longer.trans (List.dropLast_prefix _))

theorem findMatchingRules_eq_none (unmatched : ∀ rule ∈ ruleTable, ¬ Matches endpoint rule.1) :
    findMatchingRules endpoint ruleTable = none := by
  have noExact : ruleTable.lookup (String.ofList (pathOf endpoint)) = none := by
    rw [List.lookup_eq_none_iff]
    intro rule member
    simpa using fun same => unmatched rule member (.inl same.symm)
  have noWildcard : ruleTable.find? (fun rule => wildcard (pathOf endpoint) rule.1.toList) = none := by
    rw [List.find?_eq_none]
    exact fun rule member found => unmatched rule member (.inr found)
  rw [findMatchingRules, noExact, noWildcard]
  rfl

/-- An endpoint that no rule and no adapter is for: the keys are camel-cased and nothing else happens. -/
theorem transformWith_of_unmatched {O : Type} {rename : List (String × String) → O → O} {camel : O → O}
    {overview missedQueries docs : O → O} (data : O) (unmatched : ∀ pattern ∈ ["/admin/v1/knowledge/docs/*",
      "/admin/v1/metrics/overview", "/admin/v1/metrics/missed-queries", "/admin/v1/auth/login"],
      ¬ Matches endpoint pattern) :
    transformWith rename camel (adaptersFor overview missedQueries docs) data endpoint = camel data := by
  have noRules : findMatchingRules endpoint EXPLICIT_BACKEND_TO_FRONTEND = none := by
    apply findMatchingRules_eq_none
    intro rule member
    apply unmatched
    exact List.mem_map_of_mem (f := Prod.fst) member
  have noAdapter : findMatchingRules endpoint (adaptersFor overview missedQueries docs) = none := by
    apply findMatchingRules_eq_none
    intro rule member
    apply unmatched
    simp only [adaptersFor, List.mem_cons, List.not_mem_nil, or_false] at member
    rcases member with rfl | rfl | rfl
    · simp
    · simp
    · simp
  rw [transformWith, noRules, noAdapter]

theorem not_matches_of_start {start : String} (free : ∀ c ∈ start.toList, decide (c ≠ '?')) (rest pattern : String)
    (elsewhere : ¬ start.toList <+: pattern.toList) (apart : ¬ pattern.toList.dropLast <+: start.toList) :
    ¬ Matches (start ++ rest) pattern := by
  refine not_matches_of_front ?_ elsewhere apart
  rw [pathOf, String.toList_append, List.takeWhile_append_of_pos free]
  exact List.prefix_append _ _

theorem findMatchingRules_eq_some (only : ∀ rule ∈ ruleTable, Matches endpoint rule.1 → rule.2 = t)
    (found : ∃ rule ∈ ruleTable, wildcard (pathOf endpoint) rule.1.toList) :
    findMatchingRules endpoint ruleTable = some t := by
  rw [findMatchingRules]
  cases exact : ruleTable.lookup (String.ofList (pathOf endpoint)) with
  | some rules =>
      obtain ⟨front, back, split, -⟩ := List.lookup_eq_some_iff.mp exact
      have member : (String.ofList (pathOf endpoint), rules) ∈ ruleTable := by simp [split]
      exact congrArg some (only (String.ofList (pathOf endpoint), rules) member (.inl rfl))
  | none =>
      obtain ⟨rule, member, matched⟩ := found
      cases first : ruleTable.find? (fun rule => wildcard (pathOf endpoint) rule.1.toList) with
      | none => exact absurd matched (List.find?_eq_none.mp first rule member)
      | some rule' =>
          have matched' :=
            List.find?_some (p := fun rule : String × T => wildcard (pathOf endpoint) rule.1.toList) first
          rw [Option.none_or, Option.map_some, only rule' (List.mem_of_find?_eq_some first) (.inr matched')]

end

end CuckooEcho.Frontend.FieldMapper
