import RoadAtlas.Json.Basic
import RoadAtlas.SortedMap

/-!
Typed reading of JSON values: records with named fields, maps from names, and words of a closed
list. A reading gives `none` for a value of another form; there is no partial success.

* `Json.record?` takes the fields of a record from an object, or from an array in their order;
* `Fields.required`, `Fields.optional` read one field each;
* `Json.map?` and `Json.word?` read maps and words.
-/

namespace RoadAtlas

namespace Json

/-- The fields of a record that were given, each name once. -/
abbrev Fields := List (String × Json)

/-- The fields of a record. An object may hold other members, which are ignored, but no field twice;
an array gives the fields in order and may end early. -/
def record? (names : List String) : Json → Option Fields
  | array items => if items.length ≤ names.length then some (names.zip items) else none
  | j => do
    let members ← j.object?
    let known := members.filter fun member => names.contains member.1
    if (known.map Prod.fst).Nodup then some known else none

namespace Fields

variable {α : Type}

/-- A field that must be given. -/
def required (fields : Fields) (name : String) (read : Json → Option α) : Option α :=
  (fields.lookup name).bind read

/-- A field with a value for its absence. -/
def optional (fields : Fields) (name : String) (absent : α) (read : Json → Option α) : Option α :=
  match fields.lookup name with
  | none => some absent
  | some j => read j

end Fields

/-- A map from names; of several members with one name the last counts. -/
def map? {α : Type} (value : Json → Option α) (j : Json) : Option (SortedMap String α) := do
  let members ← j.object?
  let entries ← members.mapM fun member => (value member.2).map (member.1, ·)
  return .ofList entries

/-- A word, or an object with the word as its only name and nothing in it. -/
def word? : Json → Option String
  | string text => text
  | object [(name, null)] => name
  | _ => none

/-- What `read` gives, and nothing for `null`. -/
def nullable? {α : Type} (read : Json → Option α) : Json → Option (Option α)
  | null => some none
  | j => (read j).map some

end Json

end RoadAtlas
