import RoadAtlas.Quantity

/-!
Encoding rules: the `(tag, value)` pairs that a routing section lists once, and to which its roads
refer by their place in the list.

* `Rule.ofPair` normalizes a pair and classifies it;
* `RuleTable` is the list, with `get?` by place and `firstOfKind` along the types of a road;
* `RuleTable.ofPairs` and `push` number rules by their place.
-/

namespace RoadAtlas

/-- What a rule is about. -/
inductive RuleKind where
  | oneWay
  | roundabout
  | lanes
  | highway
  | access
  | maxSpeed
  | trafficSignals
  | railwayCrossing
  | other
  deriving DecidableEq, Repr

/-- The number a rule's value stands for, if its kind has one. -/
inductive RuleValue where
  /-- Lanes, or the sign of a direction. -/
  | integer (n : Int32)
  /-- Metres per second. -/
  | speed (mps : Float32)
  | text
  deriving DecidableEq

/-- A classified `(tag, value)` pair. -/
structure Rule where
  tag : String
  value : String
  kind : RuleKind
  parsed : RuleValue
  deriving DecidableEq

namespace Rule

/-- The words for truth in any case become `yes` and `no`, other values stay as they are. -/
def normalize (value : String) : String :=
  if Text.equalsIgnoringCase value "true" then "yes"
  else if Text.equalsIgnoringCase value "false" then "no"
  else value

/-- The sign of the direction that a `oneway` value allows. -/
def onewaySign (value : String) : Int32 :=
  match value with
  | "-1" | "reverse" => -1
  | "1" | "yes" => 1
  | _ => 0

/-- The tag is `access` in any case, or goes on after it. -/
def isAccessTag (tag : String) : Bool :=
  "access".toList.isPrefixOf (tag.toList.map Char.toLower)

/-- The speed of a `maxspeed` value, minus one when it has none. -/
def postedSpeed (value : String) : Float32 :=
  match Quantity.speed? value with
  | some mps => mps.toFloat32
  | none => -1.0

/-- The lane count of a `lanes` value, minus one when it has none. -/
def laneCount (value : String) : Int32 := (Quantity.integer? value).getD (-1)

/-- What a pair with a normalized value is about: of the descriptions that fit, the first counts. -/
def classify (tag value : String) : RuleKind × RuleValue :=
  let tagIs := Text.equalsIgnoringCase tag
  let named := !value.isEmpty
  if tagIs "oneway" then (.oneWay, .integer (onewaySign value))
  else if tagIs "highway" && value == "traffic_signals" then (.trafficSignals, .text)
  else if tagIs "railway" && (value == "crossing" || value == "level_crossing") then
    (.railwayCrossing, .text)
  else if (tagIs "roundabout" && named) || (tagIs "junction" && value == "roundabout") then
    (.roundabout, .text)
  else if tagIs "highway" && named then (.highway, .text)
  else if isAccessTag tag && named then (.access, .text)
  else if tagIs "maxspeed" && named then (.maxSpeed, .speed (postedSpeed value))
  else if tagIs "lanes" && named then (.lanes, .integer (laneCount value))
  else (.other, .text)

/-- The rule of a pair as a section lists it. -/
def ofPair (tag value : String) : Rule :=
  let value := normalize value
  let (kind, parsed) := classify tag value
  ⟨tag, value, kind, parsed⟩

@[simp] theorem tag_ofPair (tag value : String) : (ofPair tag value).tag = tag := rfl

@[simp] theorem value_ofPair (tag value : String) :
    (ofPair tag value).value = normalize value := rfl

/-- The integer a rule stands for. -/
def integer? (r : Rule) : Option Int32 :=
  match r.parsed with
  | .integer n => some n
  | _ => none

/-- The speed a rule stands for. -/
def speed? (r : Rule) : Option Float32 :=
  match r.parsed with
  | .speed mps => some mps
  | _ => none

end Rule

/-! ### Tables -/

/-- The rules of a section; roads refer to them by their place, from 0. -/
structure RuleTable where
  rules : Array Rule := #[]
  deriving DecidableEq

namespace RuleTable

/-- The table with the rule of a pair at its end. -/
def push (t : RuleTable) (tag value : String) : RuleTable := ⟨t.rules.push (.ofPair tag value)⟩

/-- The table of a list of pairs. -/
def ofPairs (pairs : List (String × String)) : RuleTable :=
  pairs.foldl (fun t (tag, value) => t.push tag value) {}

def size (t : RuleTable) : Nat := t.rules.size

/-- The rule that a road's type refers to. -/
def get? (t : RuleTable) (type : UInt32) : Option Rule := t.rules[type.toNat]?

/-- The type refers to a rule of the kind. -/
def isOfKind (t : RuleTable) (kind : RuleKind) (type : UInt32) : Bool :=
  (t.get? type).any fun rule => rule.kind = kind

/-- The first of some types that refers to a rule of a kind. -/
def firstOfKind (t : RuleTable) (types : Array UInt32) (kind : RuleKind) : Option UInt32 :=
  types.find? (t.isOfKind kind)

/-- The rule to which the first type of a kind refers. -/
def firstRule (t : RuleTable) (types : Array UInt32) (kind : RuleKind) : Option Rule :=
  (t.firstOfKind types kind).bind t.get?

/-- One of some types refers to a rule of a kind. -/
def hasKind (t : RuleTable) (types : Array UInt32) (kind : RuleKind) : Bool :=
  (t.firstOfKind types kind).isSome

/-- The place of the first rule with a tag and a value. -/
def find? (t : RuleTable) (tag value : String) : Option Nat :=
  t.rules.findIdx? fun rule => rule.tag == tag && rule.value == value

theorem get?_push (t : RuleTable) (tag value : String) (type : UInt32) :
    (t.push tag value).get? type =
      if type.toNat = t.size then some (.ofPair tag value) else t.get? type := by
  simp only [get?, push, size, Array.getElem?_push]
  rfl

end RuleTable

end RoadAtlas
