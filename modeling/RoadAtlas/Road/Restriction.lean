/-!
Turn restrictions from one road onto another, and the directions in which a road may be travelled.
-/

namespace RoadAtlas

/-- What a turn restriction says. -/
inductive Restriction where
  | noRightTurn
  | noLeftTurn
  | noUTurn
  | noStraightOn
  | onlyRightTurn
  | onlyLeftTurn
  | onlyStraightOn
  /-- A restriction of an unknown number. -/
  | other (code : UInt32)
  deriving DecidableEq, Repr

namespace Restriction

/-- The restriction of a number. -/
def ofCode (code : UInt32) : Restriction :=
  match code with
  | 1 => noRightTurn
  | 2 => noLeftTurn
  | 3 => noUTurn
  | 4 => noStraightOn
  | 5 => onlyRightTurn
  | 6 => onlyLeftTurn
  | 7 => onlyStraightOn
  | code => other code

/-- The number of a restriction. -/
def code : Restriction → UInt32
  | noRightTurn => 1
  | noLeftTurn => 2
  | noUTurn => 3
  | noStraightOn => 4
  | onlyRightTurn => 5
  | onlyLeftTurn => 6
  | onlyStraightOn => 7
  | other code => code

/-- The restriction forbids every turn but one. -/
def isOnly : Restriction → Bool
  | onlyRightTurn | onlyLeftTurn | onlyStraightOn => true
  | _ => false

theorem code_ofCode (code : UInt32) : (ofCode code).code = code := by
  unfold ofCode
  split <;> rfl

end Restriction

/-- How a road may be travelled, seen along its points. -/
inductive Direction where
  | forward
  | bothWays
  | reverse
  deriving DecidableEq, Repr

namespace Direction

/-- A positive sign is forward, a negative one reverse. -/
def ofSign (sign : Float) : Direction :=
  if 0.0 < sign then forward else if sign < 0.0 then reverse else bothWays

end Direction

end RoadAtlas
