/-!
Numbers of a JSON text and the doubles they are read as.

The digits are collected into a significand below 2⁶⁴, and the power of ten that is left over is
applied to its nearest double by a single multiplication or division, so the result may differ from
the nearest double of the decimal in its last place. A number beyond the largest double has none.
-/

namespace RoadAtlas

/-- A JSON number as written: digits before the point, digits after it, and the exponent's sign and
digits. -/
structure JsonNumber where
  negative : Bool
  whole : List Char
  fraction : List Char
  exponent : Option (Bool × List Char)
  deriving DecidableEq, Repr

namespace JsonNumber

/-- The value of a decimal digit. -/
def digitValue (c : Char) : Nat := c.toNat - '0'.toNat

/-- The number that a run of digits denotes. -/
def digitsValue (digits : List Char) : Nat := digits.foldl (fun n c => 10 * n + digitValue c) 0

/-- Puts digits behind a significand as long as it stays below 2⁶⁴; gives the digits left over. -/
def absorb (significand : Nat) : List Char → Nat × List Char
  | [] => (significand, [])
  | c :: rest =>
    let longer := 10 * significand + digitValue c
    if longer < 0x10000000000000000 then absorb longer rest else (significand, c :: rest)

/-- The exponent as written. -/
def writtenExponent (n : JsonNumber) : Int :=
  match n.exponent with
  | none => 0
  | some (negative, digits) => if negative then -(digitsValue digits : Int) else digitsValue digits

/-- The significand, and the power of ten that goes with it. Digits before the point that do not fit
count as powers; digits after it that do not fit are dropped. -/
def parts (n : JsonNumber) : Nat × Int :=
  let (whole, overlong) := absorb 0 n.whole
  let (significand, dropped) := absorb whole n.fraction
  let places := n.fraction.length - dropped.length
  (significand, n.writtenExponent + overlong.length - places)

/-- The largest power of ten below the largest double. -/
def maxPower : Nat := 308

/-- The double nearest to a power of ten. -/
def powerOfTen (exponent : Nat) : Float := Float.ofScientific 1 false exponent

/-- A double times a power of ten; `none` beyond the largest double. -/
def scale (f : Float) (exponent : Int) : Option Float :=
  if exponent.natAbs ≤ maxPower then
    if 0 ≤ exponent then
      let scaled := f * powerOfTen exponent.natAbs
      if scaled.isInf then none else some scaled
    else some (f / powerOfTen exponent.natAbs)
  else if f == 0.0 then some f
  else if 0 ≤ exponent then none
  else scale (f / powerOfTen maxPower) (exponent + maxPower)
termination_by (-exponent).toNat
decreasing_by
  simp only [maxPower] at *
  omega

/-- The double that a number is read as. -/
def toFloat? (n : JsonNumber) : Option Float :=
  let (significand, exponent) := n.parts
  (scale significand.toUInt64.toFloat exponent).map fun f => if n.negative then -f else f

end JsonNumber

end RoadAtlas
