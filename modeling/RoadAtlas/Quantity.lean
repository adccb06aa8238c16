import RoadAtlas.Quantity.Numeral

/-!
The physical quantities that tag values and parameters denote, read into fixed units.

* `speed?` gives metres per second: kilometres per hour unless the text mentions `mph`, and
  `unlimited` for `none`;
* `length?` gives metres, also from feet (`ft`) and from feet and inches (`6'6"`);
* `weight?` gives metric tons, also from pounds (`lbs`);
* `number?`, `integer?` and `truth?` read plain values;
* `Quantity` names the four readings that an expression may choose from, `Quantity.parse` applies
  one.
-/

namespace RoadAtlas

/-- Kilometres per hour in one metre per second. -/
def kmhPerMps : Float := 3.6

/-- The speed that stands for no limit, in metres per second. -/
def unlimitedSpeed : Float := 40.0

/-- The factor from kilometres to miles. -/
def kilometresPerMile : Float := 1.6

/-- Metres in a foot. -/
def metresPerFoot : Float := 0.3048

/-- Metres in an inch. -/
def metresPerInch : Float := 0.0254

/-- Metric tons in a pound. -/
def tonsPerPound : Float := 0.4535 / 1000.0

/-- How a text is read as a number. -/
inductive Quantity where
  | number
  | speed
  | weight
  | length
  deriving DecidableEq, Repr, Inhabited

/-- Why an operand of an expression has no value. -/
inductive OperandError where
  | notANumber (text : String) (expected : Quantity)
  | unknownParameter (name : String)
  | missingTag (tag : String)
  deriving DecidableEq, Repr

namespace Quantity

/-! ### Readings -/

/-- The magnitude that `text` starts with. -/
def magnitude? (text : String) : Option Float :=
  (Numeral.leading .magnitude text).map Numeral.toFloat

/-- The signed decimal number that `text` starts with. -/
def number? (text : String) : Option Float :=
  (Numeral.leading .decimal text).map Numeral.toFloat

/-- The 32-bit integer that `text` starts with. -/
def integer? (text : String) : Option Int32 :=
  (Numeral.leading .integer text).bind Numeral.toInt32?

/-- `true` in any case is true, any other text but the empty one is false. -/
def truth? (text : String) : Option Bool :=
  if text.isEmpty then none else some (Text.equalsIgnoringCase text "true")

/-- Metres per second. -/
def speed? (text : String) : Option Float :=
  if text = "none" then some unlimitedSpeed
  else do
    let kmh ← magnitude? text
    let mps := kmh / kmhPerMps
    return if Text.occursIn "mph".toList text.toList then mps * kilometresPerMile else mps

/-- What follows the first foot mark, if there is one. -/
def afterFootMark? (text : String) : Option String :=
  match text.toList.dropWhile (· != '\'') with
  | [] => none
  | _ :: inches => some (String.ofList inches)

/-- Metres. -/
def length? (text : String) : Option Float := do
  let size ← magnitude? text
  match afterFootMark? text with
  | some rest =>
    return size * metresPerFoot + (magnitude? rest).getD 0.0 * metresPerInch
  | none =>
    return if Text.occursIn "ft".toList text.toList then size * metresPerFoot else size

/-- Metric tons. -/
def weight? (text : String) : Option Float := do
  let tons ← magnitude? text
  return if Text.occursIn "lbs".toList text.toList then tons * tonsPerPound else tons

/-! ### The readings by name -/

/-- The word for a reading. -/
def label : Quantity → String
  | number => "number"
  | speed => "speed"
  | weight => "weight"
  | length => "length"

/-- The reading a word names; no word is a plain number. -/
def ofLabel? (word : String) : Option Quantity :=
  match word with
  | "number" | "" => some number
  | "speed" => some speed
  | "weight" => some weight
  | "length" => some length
  | _ => none

theorem ofLabel?_label (q : Quantity) : ofLabel? q.label = some q := by
  cases q <;> rfl

/-- The number that `text` denotes under a reading. -/
def value? (q : Quantity) (text : String) : Option Float :=
  match q with
  | number => number? text
  | speed => speed? text
  | weight => weight? text
  | length => length? text

/-- The number that `text` denotes under a reading, or why there is none. -/
def parse (q : Quantity) (text : String) : Except OperandError Float :=
  match q.value? text with
  | some value => .ok value
  | none => .error (.notANumber text q)

end Quantity

/-- The wording of an operand's failure. -/
def OperandError.message : OperandError → String
  | .notANumber text expected => s!"cannot parse '{text}' as " ++ expected.label
  | .unknownParameter name => s!"unknown parameter '{name}'"
  | .missingTag tag => s!"tag '{tag}' not present on road"

end RoadAtlas
