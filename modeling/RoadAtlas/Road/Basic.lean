import RoadAtlas.Road.Polyline
import RoadAtlas.Road.Restriction
import RoadAtlas.Road.Rule
import RoadAtlas.SortedMap

/-!
Roads: the records of a routing section with every reference resolved. What a road says about
itself is read off its types through a rule table; `insertPoint?` splits a segment and keeps what is
attached to single points where it was.
-/

namespace RoadAtlas

/-- A tag, by its place in a rule table, and the name it carries. -/
abbrev TagName := UInt32 × String

/-- A road of a section. -/
structure Road where
  id : Int64
  /-- The number of the section the road belongs to. -/
  sectionId : Nat
  points : Polyline := {}
  /-- Places in the section's rule table that describe the whole road. -/
  types : Array UInt32 := #[]
  extraTypes : Array UInt32 := #[]
  /-- Places in the rule table that describe a single point, by its index. -/
  pointTypes : SortedMap UInt32 (Array UInt32) := ∅
  /-- Turn restrictions, by the id of the road they lead onto. -/
  restrictions : SortedMap Int64 Restriction := ∅
  /-- Names of the road, by the tag they belong to. -/
  names : SortedMap UInt32 String := ∅
  /-- Names of single points, by their index. -/
  pointNames : SortedMap UInt32 (Array TagName) := ∅
  /-- The rule table of the section, when the road was read from one. -/
  rules : Option RuleTable := none

namespace Road

/-- Agreement in every field, point sequences compared as sequences. -/
instance : BEq Road where
  beq r s := r.id == s.id && r.sectionId == s.sectionId && r.points == s.points &&
    r.types == s.types && r.extraTypes == s.extraTypes && r.pointTypes == s.pointTypes &&
    r.restrictions == s.restrictions && r.names == s.names && r.pointNames == s.pointNames &&
    r.rules == s.rules

/-- The types of one point, none when nothing is attached to it. -/
def typesAt (r : Road) (index : UInt32) : Array UInt32 := (r.pointTypes.get? index).getD #[]

/-- The names of one point, none when nothing is attached to it. -/
def namesAt (r : Road) (index : UInt32) : Array TagName := (r.pointNames.get? index).getD #[]

/-! ### What the types of a road say -/

/-- The road ends where it starts. -/
def isLoop (r : Road) : Bool :=
  match r.points.first?, r.points.last? with
  | some first, some last => 1 < r.points.size && first == last
  | _, _ => false

/-- The direction that the road's own `oneway` rule allows. -/
def oneway (r : Road) (table : RuleTable) : Direction :=
  match (table.firstRule r.types .oneWay).bind Rule.integer? with
  | some sign => .ofSign sign.toFloat
  | none => .bothWays

/-- The road carries a roundabout rule, or is a closed one-way ring. -/
def isRoundabout (r : Road) (table : RuleTable) : Bool :=
  table.hasKind r.types .roundabout || (r.oneway table != .bothWays && r.isLoop)

/-- The number of lanes. -/
def lanes (r : Road) (table : RuleTable) : Option Int32 :=
  ((table.firstRule r.types .lanes).bind Rule.integer?).filter fun n => 0 ≤ n

/-- The class of highway. -/
def highway (r : Road) (table : RuleTable) : Option String :=
  (table.firstRule r.types .highway).map Rule.value

/-- The posted speed limit, in metres per second. -/
def maxSpeed (r : Road) (table : RuleTable) : Option Float32 :=
  ((table.firstRule r.types .maxSpeed).bind Rule.speed?).filter fun mps => 0.0 < mps

/-! ### Splitting -/

/-- The index of a point after another one was put before `index`. -/
def shiftIndex (index : Nat) (i : UInt32) : UInt32 := if index ≤ i.toNat then i + 1 else i

/-- The road with a point before an index; `none` past the end. What was attached to a point stays
attached to it, and the new point carries nothing. -/
def insertPoint? (r : Road) (index : Nat) (point : Point) : Option Road := do
  let points ← r.points.insert? index point
  return { r with
    points
    pointTypes := r.pointTypes.mapKeys (shiftIndex index)
    pointNames := r.pointNames.mapKeys (shiftIndex index) }

end Road

end RoadAtlas
