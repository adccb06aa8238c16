import RoadAtlas.Json.Record
import RoadAtlas.Profile.Basic

/-!
Configuration documents: profiles as they are written, with operands, guards and comparison signs
still as texts. Reading a document settles its form, so what comes out of `Document.parse?` has all
required fields, no unknown words and no repeated ones; what the texts mean is not looked at here.

* `TagTest`, `NumberTest`, `ExpressionText`, `ProfileText` and `Document` are the parts;
* `Document.ofJson?` and `Document.parse?` read a whole document.
-/

namespace RoadAtlas

/-! ### Parts -/

/-- A tag that must be there, or must not be; no value stands for any value. -/
structure TagTest where
  tag : String
  value : String := ""
  negated : Bool := false
  deriving DecidableEq, Repr

/-- A comparison of two operands. -/
structure NumberTest where
  sign : String
  left : String
  right : String
  quantity : Quantity := .number
  deriving DecidableEq, Repr

/-- An expression of a ruleset. -/
structure ExpressionText where
  tags : List TagTest := []
  /-- Names of parameters, behind a minus when they must not be set. -/
  parameters : List String := []
  comparisons : List NumberTest := []
  result : String
  quantity : Quantity := .number
  deriving DecidableEq, Repr

/-- A profile; its rulesets stand under the words that name them. -/
structure ProfileText where
  name : String
  attributes : SortedMap String String := ∅
  parameters : List Parameter := []
  rulesets : SortedMap String (List ExpressionText) := ∅

/-- A configuration. -/
structure Document where
  attributes : SortedMap String String := ∅
  defaultProfile : Option String := none
  profiles : List ProfileText := []

/-! ### Reading -/

/-- The quantity that a word names. -/
def Quantity.ofJson? (j : Json) : Option Quantity := do
  let word ← j.word?
  if word.isEmpty then none else ofLabel? word

def TagTest.ofJson? (j : Json) : Option TagTest := do
  let fields ← j.record? ["tag", "value", "not"]
  return {
    tag := ← fields.required "tag" Json.string?
    value := ← fields.optional "value" "" Json.string?
    negated := ← fields.optional "not" false Json.bool? }

def NumberTest.ofJson? (j : Json) : Option NumberTest := do
  let fields ← j.record? ["op", "left", "right", "type"]
  return {
    sign := ← fields.required "op" Json.string?
    left := ← fields.required "left" Json.string?
    right := ← fields.required "right" Json.string?
    quantity := ← fields.optional "type" .number Quantity.ofJson? }

def ExpressionText.ofJson? (j : Json) : Option ExpressionText := do
  let fields ← j.record? ["tags", "params", "conditions", "value", "type"]
  return {
    tags := ← fields.optional "tags" [] (Json.array? TagTest.ofJson?)
    parameters := ← fields.optional "params" [] (Json.array? Json.string?)
    comparisons := ← fields.optional "conditions" [] (Json.array? NumberTest.ofJson?)
    result := ← fields.required "value" Json.string?
    quantity := ← fields.optional "type" .number Quantity.ofJson? }

/-- A parameter; the values offered for a truth value are read and left out. -/
def Parameter.ofJson? (j : Json) : Option Parameter := do
  let fields ← j.record?
    ["id", "type", "name", "description", "values", "valueDescriptions", "default"]
  let values ← fields.optional "values" [] (Json.array? Json.float?)
  let descriptions ← fields.optional "valueDescriptions" [] (Json.array? Json.string?)
  let kind ← match ← fields.required "type" Json.word? with
    | "boolean" => some .boolean
    | "numeric" => some (.numeric values descriptions)
    | _ => none
  return {
    id := ← fields.required "id" Json.string?
    name := ← fields.optional "name" "" Json.string?
    description := ← fields.optional "description" "" Json.string?
    kind
    default := ← fields.optional "default" none (Json.nullable? Json.string?) }

def ProfileText.ofJson? (j : Json) : Option ProfileText := do
  let fields ← j.record? ["name", "attributes", "parameters", "rulesets"]
  return {
    name := ← fields.required "name" Json.string?
    attributes := ← fields.optional "attributes" ∅ (Json.map? Json.string?)
    parameters := ← fields.optional "parameters" [] (Json.array? Parameter.ofJson?)
    rulesets := ← fields.optional "rulesets" ∅ (Json.map? (Json.array? ExpressionText.ofJson?)) }

namespace Document

def ofJson? (j : Json) : Option Document := do
  let fields ← j.record? ["attributes", "defaultProfile", "profiles"]
  return {
    attributes := ← fields.optional "attributes" ∅ (Json.map? Json.string?)
    defaultProfile := ← fields.optional "defaultProfile" none (Json.nullable? Json.string?)
    profiles := ← fields.optional "profiles" [] (Json.array? ProfileText.ofJson?) }

/-- The document that a JSON text holds. -/
def parse? (text : String) : Option Document := (Json.parse? text).bind ofJson?

end Document

end RoadAtlas
