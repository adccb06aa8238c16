import RoadAtlas.Network.Border
import RoadAtlas.Road.Bearing
import RoadAtlas.Session.Evaluation

/-!
The questions that a search asks of a session.

* `direction`, `accepts`, `acceptsBorder`, `priority` and `speed` are about a whole road;
* `obstacle` is about one of its points. Signs that face the other way do not count for a traveller
  (`facing`);
* `turnTime` is about the change from one road onto the next.
-/

namespace RoadAtlas

/-! ### Extremes -/

/-- The lower of two numbers, the first when neither is lower. -/
def lower (a b : Float) : Float := if b < a then b else a

/-- The higher of two numbers, the first when neither is higher. -/
def higher (a b : Float) : Float := if a < b then b else a

namespace Session

/-! ### Roads -/

/-- The directions in which a road may be travelled; a roundabout runs along its points. -/
def direction (road : Road) : StateM Session Direction := do
  let _ ← bind road
  if ((← get).rulesOf road.sectionId).hasKind road.types .roundabout then return .forward
  else
    match ← evaluate .oneway road with
    | some sign => return .ofSign sign
    | none => return .bothWays

/-- An access result lets a road pass; no opinion does too. -/
def permits (result : Option Float) : Bool := 0.0 ≤ result.getD 0.0

/-- The road may be travelled. -/
def accepts (road : Road) : StateM Session Bool := do
  if (← get).avoids road.id then return false
  else if ← bind road then
    return permits (← evaluateTypes .access road.sectionId road.types)
  else return false

/-- The roads that meet at a border point may be travelled, by the rules of the point's section. -/
def acceptsBorder (rules : RuleTable) (point : BorderPoint) : StateM Session Bool := do
  modify fun s => s.attach point.sectionId rules
  return permits (← evaluateTypes .access point.sectionId point.types)

/-- How much a road is preferred; 1 without an opinion. -/
def priority (road : Road) : StateM Session Float := do
  return (← evaluate .priority road).getD 1.0

/-- Metres per second within the limits of the profile, the lower limit without an opinion. -/
def speed (road : Road) : StateM Session Float := do
  let profile := (← get).profile
  let wished := (← evaluate .speed road).getD profile.minSpeed
  return higher (lower wished profile.maxSpeed) profile.minSpeed

/-! ### Points -/

/-- The travel direction that a sign's value names: true is along the points of the road. -/
def signDirection (value : String) : Option Bool :=
  match value with
  | "forward" => some true
  | "backward" => some false
  | _ => none

/-- What the last of some types with a tag says about direction; `none` when nothing usable. -/
def lastDirection (rules : RuleTable) (tag : String) (types : Array UInt32) : Option Bool :=
  ((types.filterMap rules.get?).findRev? fun rule => rule.tag == tag).bind
    fun rule => signDirection rule.value

/-- The types of a point that count for a traveller. A stop or give-way sign goes by the point's
`direction`, a traffic light by its `traffic_signals:direction`, and all else always counts. -/
def facing (rules : RuleTable) (types : Array UInt32) (forward : Bool) : Array UInt32 :=
  let signs := lastDirection rules "direction" types
  let lights := lastDirection rules "traffic_signals:direction" types
  types.filter fun type =>
    match rules.get? type with
    | some rule =>
      if rule.tag = "highway" then
        match rule.value with
        | "stop" | "give_way" => signs != some !forward
        | "traffic_signals" => lights != some !forward
        | _ => true
      else true
    | none => true

/-- The result of a ruleset for a point of a road, 0 without an opinion; for a traveller in one
direction only what faces that way counts. -/
def obstacle (kind : RulesetKind) (road : Road) (point : UInt32) (forward : Option Bool) :
    StateM Session Float := do
  let types := road.typesAt point
  if types.isEmpty then return 0.0
  else if ← bind road then
    let rules := (← get).rulesOf road.sectionId
    let counted := match forward with
      | some forward => facing rules types forward
      | none => types
    return (← evaluateTypes kind road.sectionId counted).getD 0.0
  else return 0.0

/-! ### Turns -/

/-- The part of a road that a route takes, from one of its points to another. -/
structure Leg where
  road : Road
  start : Nat
  stop : Nat

/-- The angle by which the way bends between two legs, without sign; `none` when one of them does
not start or end at a point of its road. -/
def bend (before after : Leg) : Option Float := do
  let outgoing ← after.road.bearing after.start (after.start < after.stop) Road.smoothingMetres
  let incoming ← before.road.bearing before.stop (before.stop < before.start) Road.smoothingMetres
  return (alignAngle (outgoing - incoming - pi)).abs

/-- Seconds lost by a bend: a sharp one costs the profile's left turn, a slight one its right
turn. -/
def bendTime (profile : Profile) (angle : Float) : Float :=
  if angle > 2.0 * pi / 3.0 then profile.leftTurn
  else if angle > pi / 3.0 then profile.rightTurn
  else 0.0

/-- Seconds lost between two legs. Entering a roundabout costs its own time; otherwise the bend
decides. -/
def turnTime (before after : Leg) : StateM Session Float := do
  let _ ← bind before.road
  let _ ← bind after.road
  let s ← get
  let isRoundabout (road : Road) := road.isRoundabout (s.rulesOf road.sectionId)
  let profile := s.profile
  if isRoundabout after.road && !isRoundabout before.road then
    return higher 0.0 profile.roundaboutTurn
  else if profile.leftTurn ≤ 0.0 && profile.rightTurn ≤ 0.0 then return 0.0
  else
    match bend before after with
    | some angle => return bendTime profile angle
    | none => return 0.0

end Session

end RoadAtlas
