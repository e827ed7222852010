import CuckooEcho.Chat.HistoryRoute
import CuckooEcho.Frontend.FieldMapper

namespace CuckooEcho.Frontend.FieldMapper
open Lib Json Chat

/-! ## `transformResponse` where values are nested -/

section
variable (camelCase : List CodeUnit → List CodeUnit)

mutual
/-- `camelcaseKeys` with `deep`: of members whose keys become the same, the last one counts. -/
def camelValue : Json.Value → Json.Value
  | .arr vs => .arr (camelItems vs)
  | .obj ms => .obj (Dict.empty.setAll (camelMembers ms)).items
  | v => v

def camelItems : List Json.Value → List Json.Value
  | [] => []
  | v :: vs => camelValue v :: camelItems vs

def camelMembers : List (List CodeUnit × Json.Value) → List (List CodeUnit × Json.Value)
  | [] => []
  | m :: ms => (camelCase m.1, camelValue m.2) :: camelMembers ms
end

def camelObject (data : JsonObject) : JsonObject := Dict.empty.setAll (camelMembers camelCase data.items)

def renameMembers (renames : List (String × String)) (data : JsonObject) : JsonObject :=
  Dict.empty.setAll (data.items.map fun (key, value) =>
    (((renames.find? fun rename => ascii rename.1 = key).map fun rename => ascii rename.2).getD key, value))

/-- All adapters are left open. -/
def transformNested (overview missedQueries docs : JsonObject → JsonObject) (data : JsonObject) (endpoint : String) :
    JsonObject :=
  transformWith renameMembers (camelObject camelCase) (adaptersFor overview missedQueries docs) data endpoint

/-- What is relied on of the conversion. -/
def ConvertsKeys : Prop := ∀ key, isSnake key → camelCase (ascii key) = ascii (ofSnake key)

end

/-! ### Members of a converted object -/

variable {camelCase : List CodeUnit → List CodeUnit}

theorem camelItems_eq_map (vs : List Json.Value) : camelItems camelCase vs = vs.map (camelValue camelCase) := by
  induction vs with
  | nil => rfl
  | cons v vs ih => rw [camelItems, ih, List.map_cons]

theorem camelMembers_eq_map (ms : List (List CodeUnit × Json.Value)) :
    camelMembers camelCase ms = ms.map fun m => (camelCase m.1, camelValue camelCase m.2) := by
  induction ms with
  | nil => rfl
  | cons m ms ih => rw [camelMembers, ih, List.map_cons]

theorem camelValue_obj (data : JsonObject) :
    camelValue camelCase (.obj data.items) = .obj (camelObject camelCase data).items := by
  rw [camelValue, camelObject]

/-- Only the members whose keys become the key decide on it. -/
theorem get_camelObject (data : JsonObject) (key : List CodeUnit) :
    (camelObject camelCase data).get key =
      ((data.items.filter fun m => camelCase m.1 = key).getLast?.map Prod.snd).map (camelValue camelCase) := by
  rw [camelObject, camelMembers_eq_map, Dict.get_empty_setAll, List.filter_map, List.getLast?_map, Option.map_map,
    Option.map_map]
  rfl

/-! ### A conversion of plain names -/

/-- What `camelcase` makes of a name of lower-case letters and underscores. -/
def plainCamel (key : List CodeUnit) : List CodeUnit := ascii (ofSnake (String.ofList (key.map Char.ofNat)))

theorem map_ofNat_units {text : List Char} (plain : ∀ c ∈ text, c.isLower || c = '_') :
    (units text).map Char.ofNat = text := by
  induction text with
  | nil => rfl
  | cons c text ih =>
      have small : c.toNat < 0x10000 := by
        have here := plain c List.mem_cons_self
        rw [Bool.or_eq_true, decide_eq_true_eq] at here
        rcases here with lower | rfl
        · have bounds : (decide (c.val ≥ 97) && decide (c.val ≤ 122)) = true := lower
          have bound : c.val.toNat ≤ 122 := of_decide_eq_true (Bool.and_eq_true_iff.mp bounds).2
          exact Nat.lt_of_le_of_lt bound (by decide)
        · decide
      have rest := ih fun d member => plain d (List.mem_cons_of_mem _ member)
      rw [units_cons, charUnits, if_pos small, List.map_append, rest]
      show Char.ofNat c.toNat :: text = c :: text
      rw [Char.ofNat_toNat]

theorem convertsKeys_plainCamel : ConvertsKeys plainCamel := by
  intro key snake
  rw [isSnake] at snake
  have plain : ∀ c ∈ key.toList, c.isLower || c = '_' := by
    simp only [Bool.and_eq_true, List.all_eq_true] at snake
    exact snake.1.1.1
  have read : String.ofList ((ascii key).map Char.ofNat) = key := by
    rw [ascii, map_ofNat_units plain, String.ofList_toList]
  rw [plainCamel, read]

end CuckooEcho.Frontend.FieldMapper
