import RoadAtlas.Profile.Expression
import RoadAtlas.SortedMap

/-!
Routing profiles: six rulesets, one for each question about a road, with attributes and parameters.

* `RulesetKind` names the six questions;
* `Profile.addAttribute` stores an attribute, and the recognised ones also set a number or a switch;
* `Profile.addParameter` and `Profile.addExpression` fill the profile.
-/

namespace RoadAtlas

/-! ### Questions -/

/-- What a ruleset decides about a road. -/
inductive RulesetKind where
  | priority
  | speed
  | access
  | obstacleTime
  | obstacleCost
  | oneway
  deriving DecidableEq, Repr

namespace RulesetKind

/-- Every kind, in order. -/
def all : List RulesetKind := [priority, speed, access, obstacleTime, obstacleCost, oneway]

/-- The word for a kind in a configuration. -/
def label : RulesetKind → String
  | priority => "road_priorities"
  | speed => "road_speed"
  | access => "access"
  | obstacleTime => "obstacle_time"
  | obstacleCost => "obstacle"
  | oneway => "oneway"

/-- The kind that a word names. -/
def ofLabel? (word : String) : Option RulesetKind := all.find? fun kind => kind.label == word

/-- The place of a kind among all. -/
def index : RulesetKind → Nat
  | priority => 0
  | speed => 1
  | access => 2
  | obstacleTime => 3
  | obstacleCost => 4
  | oneway => 5

theorem mem_all (kind : RulesetKind) : kind ∈ all := by
  cases kind <;> simp [all]

theorem all_index (kind : RulesetKind) : all[kind.index]? = some kind := by
  cases kind <;> rfl

theorem ofLabel?_label (kind : RulesetKind) : ofLabel? kind.label = some kind := by
  cases kind <;> rfl

end RulesetKind

/-! ### Parameters -/

/-- The values a parameter may take. -/
inductive ParameterKind where
  | boolean
  /-- Numbers offered for choice, with their descriptions. -/
  | numeric (values : List Float) (descriptions : List String)
  deriving DecidableEq

/-- A knob that expressions of a profile refer to. -/
structure Parameter where
  id : String
  name : String := ""
  description : String := ""
  kind : ParameterKind
  default : Option String := none
  deriving DecidableEq

/-! ### Profiles -/

/-- A way of travelling, with everything that decides about roads for it. -/
structure Profile where
  name : String
  attributes : SortedMap String String := ∅
  parameters : SortedMap String Parameter := ∅
  /-- The expressions of all rulesets, each with the ruleset it belongs to. -/
  expressions : List (RulesetKind × Expression) := []
  restrictionsAware : Bool := true
  /-- Seconds for a sharp turn. -/
  leftTurn : Float := 0.0
  /-- Seconds for a slight turn. -/
  rightTurn : Float := 0.0
  /-- Seconds for entering a roundabout. -/
  roundaboutTurn : Float := 0.0
  /-- Metres per second. -/
  minSpeed : Float := 10.0 / kmhPerMps
  /-- Metres per second. -/
  maxSpeed : Float := 130.0 / kmhPerMps

namespace Profile

/-- What a recognised attribute sets; one whose value cannot be read sets nothing. -/
def recognise (p : Profile) (key value : String) : Profile :=
  let number := Quantity.number? value
  match key with
  | "restrictionsAware" =>
    { p with restrictionsAware := (Quantity.truth? value).getD p.restrictionsAware }
  | "leftTurn" => { p with leftTurn := number.getD p.leftTurn }
  | "rightTurn" => { p with rightTurn := number.getD p.rightTurn }
  | "roundaboutTurn" => { p with roundaboutTurn := number.getD p.roundaboutTurn }
  | "minDefaultSpeed" => { p with minSpeed := (number.map (· / kmhPerMps)).getD p.minSpeed }
  | "maxDefaultSpeed" => { p with maxSpeed := (number.map (· / kmhPerMps)).getD p.maxSpeed }
  | _ => p

/-- Stores an attribute as it is written, and sets what it is recognised to set. -/
def addAttribute (p : Profile) (key value : String) : Profile :=
  { p.recognise key value with attributes := p.attributes.insert key value }

/-- Adds a parameter, over one with the same id. -/
def addParameter (p : Profile) (parameter : Parameter) : Profile :=
  { p with parameters := p.parameters.insert parameter.id parameter }

/-- Puts an expression behind those of its ruleset. -/
def addExpression (p : Profile) (kind : RulesetKind) (e : Expression) : Profile :=
  { p with expressions := p.expressions ++ [(kind, e)] }

/-- The expressions of a ruleset, in order. -/
def ruleset (p : Profile) (kind : RulesetKind) : Ruleset :=
  (p.expressions.filter fun e => e.1 = kind).map Prod.snd

theorem ruleset_addExpression (p : Profile) (kind k : RulesetKind) (e : Expression) :
    (p.addExpression kind e).ruleset k =
      if kind = k then p.ruleset k ++ [e] else p.ruleset k := by
  by_cases h : kind = k <;> simp [ruleset, addExpression, h]

/-- The value a parameter has unless a session sets it. -/
def defaultOf? (p : Profile) (name : String) : Option String :=
  (p.parameters.get? name).bind Parameter.default

end Profile

end RoadAtlas
