import RoadAtlas.Text

/-!
The decimal numeral a text starts with. Tag values carry units and remarks after their number
(`50 mph`, `3.5 t`), so a reader takes the longest numeral at the front and looks at the rest
separately.

* `NumeralForm` says which numerals count: whether a minus sign and whether a decimal point may
  occur;
* `leading` takes the longest such numeral after the blanks;
* `toFloat` and `toInt32?` give its value, the nearest double and the exact 32-bit integer.
-/

namespace RoadAtlas

/-- Which numerals are accepted. -/
structure NumeralForm where
  /-- A `-` may precede the digits. -/
  signed : Bool
  /-- A point and more digits may follow the digits. -/
  fractional : Bool
  deriving DecidableEq, Repr

namespace NumeralForm

/-- Digits only. -/
def natural : NumeralForm := ⟨false, false⟩

/-- Digits with an optional sign. -/
def integer : NumeralForm := ⟨true, false⟩

/-- Digits with an optional fraction. -/
def magnitude : NumeralForm := ⟨false, true⟩

/-- Digits with an optional sign and an optional fraction. -/
def decimal : NumeralForm := ⟨true, true⟩

end NumeralForm

/-- A decimal numeral: sign, digits, and the digits after the point if there is one. The digits are
characters `0` to `9`; a numeral has at least one before the point, and after it if there is one. -/
structure Numeral where
  negative : Bool
  whole : List Char
  fraction : List Char
  deriving DecidableEq, Repr

namespace Numeral

/-! ### Reading -/

/-- The point and the digits after it, when a digit does follow the point. -/
def takeFraction : List Char → List Char
  | '.' :: rest => rest.takeWhile Char.isDigit
  | _ => []

/-- The longest unsigned numeral at the front of `text`. -/
def takeUnsigned (fractional negative : Bool) (text : List Char) : Option Numeral :=
  let whole := text.takeWhile Char.isDigit
  if whole.isEmpty then none
  else
    let fraction := if fractional then takeFraction (text.dropWhile Char.isDigit) else []
    some ⟨negative, whole, fraction⟩

/-- The longest numeral of the given form at the front of `text`. -/
def take (form : NumeralForm) (text : List Char) : Option Numeral :=
  match form.signed, text with
  | true, '-' :: rest => takeUnsigned form.fractional true rest
  | _, text => takeUnsigned form.fractional false text

/-- The numeral that `text` starts with after its leading blanks. -/
def leading (form : NumeralForm) (text : String) : Option Numeral :=
  take form (Text.trim text.toList)

/-! ### Writing and value -/

/-- The numeral as it is written. -/
def chars (n : Numeral) : List Char :=
  (if n.negative then ['-'] else []) ++ n.whole ++
    (if n.fraction.isEmpty then [] else '.' :: n.fraction)

/-- The numeral as text. -/
def text (n : Numeral) : String := String.ofList n.chars

/-- The number that a run of decimal digits denotes. -/
def ofDigits (digits : List Char) : Nat :=
  digits.foldl (fun n d => 10 * n + (d.toNat - '0'.toNat)) 0

/-- The double nearest to the numeral's value, a tie to the even neighbour; infinite beyond the
largest double. -/
def toFloat (n : Numeral) : Float :=
  let size := Float.ofScientific (ofDigits (n.whole ++ n.fraction)) true n.fraction.length
  if n.negative then -size else size

/-- The integer before the point. -/
def toInt (n : Numeral) : Int :=
  if n.negative then -(ofDigits n.whole : Int) else ofDigits n.whole

/-- The integer before the point, when it fits 32 bits. -/
def toInt32? (n : Numeral) : Option Int32 :=
  if -0x80000000 ≤ n.toInt ∧ n.toInt < 0x80000000 then some (Int32.ofInt n.toInt) else none

end Numeral

end RoadAtlas
