/-!
Positions on the 2³¹ × 2³¹ grid that covers the Mercator plane, axis-aligned areas of it, and the
two measures taken on it: the Manhattan length in metres and the difference of two angles.

* `Area.contains` and `Area.intersects` count the edges of an area as part of it;
* `manhattanMetres` scales both coordinate differences by their metres per unit near the equator;
* `alignAngle` brings an angle difference into the half-open turn above `-π`.
-/

namespace RoadAtlas

/-! ### Points -/

/-- Metres per unit of the horizontal coordinate. -/
def metresPerX : Float := 0.011

/-- Metres per unit of the vertical coordinate. -/
def metresPerY : Float := 0.01863

/-- A position on the grid. -/
structure Point where
  x : UInt32
  y : UInt32
  deriving DecidableEq, Repr, Inhabited

namespace Point

/-- The signed offset from `p` to `q`. -/
def offsetTo (p q : Point) : Int × Int :=
  ((q.x.toNat : Int) - p.x.toNat, (q.y.toNat : Int) - p.y.toNat)

/-- By the first coordinate, then by the second. -/
instance : Ord Point where
  compare p q := (compare p.x q.x).then (compare p.y q.y)

/-- The point without the low bits that coarse storage drops. -/
def onGrid (shift : UInt32) (p : Point) : Point :=
  ⟨(p.x >>> shift) <<< shift, (p.y >>> shift) <<< shift⟩

end Point

/-- The length of a horizontal distance. -/
def xMetres (units : Nat) : Float := units.toFloat * metresPerX

/-- The length of a vertical distance. -/
def yMetres (units : Nat) : Float := units.toFloat * metresPerY

/-- The Manhattan length between two points, for given lengths of the two coordinate differences. -/
def Point.manhattan {length : Type} [Add length] (alongX alongY : Nat → length) (p q : Point) :
    length :=
  let (dx, dy) := p.offsetTo q
  alongX dx.natAbs + alongY dy.natAbs

/-- The Manhattan length between two points in metres. -/
def Point.manhattanMetres : Point → Point → Float := Point.manhattan xMetres yMetres

/-! ### Areas -/

/-- An axis-aligned box, its edges included. -/
structure Area where
  left : UInt32
  top : UInt32
  right : UInt32
  bottom : UInt32
  deriving DecidableEq, Repr, Inhabited

namespace Area

/-- The whole grid. -/
def world : Area := ⟨0, 0, 0x7fffffff, 0x7fffffff⟩

def contains (a : Area) (p : Point) : Bool :=
  a.left ≤ p.x && p.x ≤ a.right && a.top ≤ p.y && p.y ≤ a.bottom

def intersects (a b : Area) : Bool :=
  a.left ≤ b.right && b.left ≤ a.right && a.top ≤ b.bottom && b.top ≤ a.bottom

/-- The corner that coordinates inside the area are measured from. -/
def topLeft (a : Area) : Point := ⟨a.left, a.top⟩

theorem intersects_comm (a b : Area) : a.intersects b = b.intersects a := by
  simp only [intersects, Bool.and_comm (decide (a.left ≤ b.right)), Bool.and_assoc]
  cases decide (b.left ≤ a.right) <;> cases decide (a.left ≤ b.right) <;>
    simp [Bool.and_comm]

end Area

/-! ### Angles -/

/-- Half a turn, in radians. -/
def pi : Float := 3.141592653589793

/-- Full turns subtracted while the difference exceeds half a turn, at most `turns` of them. -/
def turnDown : Nat → Float → Float
  | 0, diff => diff
  | turns + 1, diff => if diff > pi then turnDown turns (diff - 2.0 * pi) else diff

/-- Full turns added while the difference is at most minus half a turn, at most `turns` of them. -/
def turnUp : Nat → Float → Float
  | 0, diff => diff
  | turns + 1, diff => if diff ≤ -pi then turnUp turns (diff + 2.0 * pi) else diff

/-- More full turns than separate `diff` from half a turn. -/
def turnBound (diff : Float) : Nat := (diff.abs / (2.0 * pi)).toUInt64.toNat + 2

/-- An angle difference, moved by full turns into the turn above `-π` and up to `π`. -/
def alignAngle (diff : Float) : Float :=
  let turns := turnBound diff
  turnUp turns (turnDown turns diff)

end RoadAtlas
