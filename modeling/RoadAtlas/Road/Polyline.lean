import RoadAtlas.Geometry

/-!
The point sequence of a road as a rope: runs of points taken from stored arrays, and single points
put between them. Putting a point into a sequence cuts at most one run and copies no points.

* `toList` is the sequence that a rope stands for;
* `size`, `get?` and `insert?` are its length, its elements and the insertion of a point.
-/

namespace RoadAtlas

/-- A stretch of a point sequence. -/
inductive PointRun where
  /-- The points of a stored array from `start` up to and without `stop`. -/
  | stored (points : Array Point) (start stop : Nat)
  /-- A point of its own. -/
  | single (point : Point)
  deriving DecidableEq, Repr

namespace PointRun

/-- The points of a run. -/
def toList : PointRun → List Point
  | stored points start stop => (points.extract start stop).toList
  | single point => [point]

def size : PointRun → Nat
  | stored _ start stop => stop - start
  | single _ => 1

/-- The point at an index of a run. -/
def get? (r : PointRun) (index : Nat) : Option Point :=
  match r with
  | stored points start stop => if start + index < stop then points[start + index]? else none
  | single point => if index = 0 then some point else none

/-- The runs that take the place of `r` when a point is put before its index `index`. -/
def split (r : PointRun) (index : Nat) (point : Point) : List PointRun :=
  match r with
  | stored points start stop =>
    let cut := start + index
    (if start < cut then [stored points start cut] else []) ++
      [single point, stored points cut stop]
  | single _ => [single point, r]

end PointRun

/-- A point sequence, run by run. -/
structure Polyline where
  runs : List PointRun := []
  /-- The number of points. -/
  size : Nat := 0
  deriving Repr

namespace Polyline

/-- The sequence that a rope stands for. -/
def toList (p : Polyline) : List Point := p.runs.flatMap PointRun.toList

/-- The sequence of a stored array. -/
def ofArray (points : Array Point) : Polyline :=
  if points.isEmpty then {} else ⟨[.stored points 0 points.size], points.size⟩

def isEmpty (p : Polyline) : Bool := p.size == 0

/-- The point at an index of some runs. -/
def getFrom? : List PointRun → Nat → Option Point
  | [], _ => none
  | r :: rest, index => if index < r.size then r.get? index else getFrom? rest (index - r.size)

/-- The point at an index. -/
def get? (p : Polyline) (index : Nat) : Option Point := getFrom? p.runs index

def first? (p : Polyline) : Option Point := p.get? 0

def last? (p : Polyline) : Option Point := if p.size = 0 then none else p.get? (p.size - 1)

/-- Puts a point before an index of some runs, behind them when the index is past their end. -/
def insertFrom (point : Point) : List PointRun → Nat → List PointRun
  | [], _ => [.single point]
  | r :: rest, index =>
    if index < r.size then r.split index point ++ rest
    else r :: insertFrom point rest (index - r.size)

/-- The sequence with a point before an index; `none` past the end. -/
def insert? (p : Polyline) (index : Nat) (point : Point) : Option Polyline :=
  if p.size < index then none else some ⟨insertFrom point p.runs index, p.size + 1⟩

/-- Ropes are compared by their size and as sequences, however they are cut into runs. -/
instance : BEq Polyline where
  beq p q := p.size == q.size && p.toList == q.toList

end Polyline

end RoadAtlas
