import RoadAtlas.Road.Basic

/-!
The bearing of a road at one of its points. A single short segment would make it jump, so it is
taken towards a point some metres away (`smoothingTarget`).

* `pathFrom` is the way along the road from a point, in either direction;
* `reach` walks along a way, adding up a length for each point, until enough is covered;
* `bearing` is the angle of the offset between the two points.
-/

namespace RoadAtlas

/-- The last point of a way, or the first at which the lengths added up so far are enough. -/
def reach {length : Type} [Add length] (cost : Point → length) (enough : length → Bool)
    (covered : length) (here : Point) : List Point → Point
  | [] => here
  | next :: rest =>
    let covered := covered + cost next
    if enough covered then next else reach cost enough covered next rest

namespace Road

/-- The metres over which a bearing is smoothed unless said otherwise. -/
def smoothingMetres : Float := 5.0

/-- The points behind `index` in a direction of travel, nearest first. -/
def pathFrom (r : Road) (index : Nat) (forward : Bool) : List Point :=
  if forward then r.points.toList.drop (index + 1) else (r.points.toList.take index).reverse

/-- The point towards which the bearing at `origin` is taken, for lengths that are added up from
`nothing` until they are enough. -/
def smoothingTarget {length : Type} [Add length] (metres : Point → Point → length)
    (nothing : length) (enough : length → Bool) (origin : Point) (way : List Point) : Point :=
  reach (metres origin) enough nothing origin way

/-- The angle of the way from `p` to `q`, in radians. -/
def angleTo (p q : Point) : Float :=
  let dx := p.x.toFloat - q.x.toFloat
  let dy := p.y.toFloat - q.y.toFloat
  Float.neg (Float.atan2 dx dy)

/-- The bearing of the road at a point in a direction of travel, taken over a distance in metres;
`none` when there is no such point. -/
def bearing (r : Road) (index : Nat) (forward : Bool) (distance : Float) : Option Float := do
  let origin ← r.points.get? index
  let way := r.pathFrom index forward
  return angleTo origin
    (smoothingTarget Point.manhattanMetres 0.0 (fun covered => distance ≤ covered) origin way)

end Road

end RoadAtlas
