import RoadAtlas.Network.Section

/-!
Border points: where the roads of a routing section meet those of its neighbours. They lie on
border lines, whose headers come first and say where the points of each line are.

* `BorderLine.decoder` and `BorderPoint.decoder` read a header and the points of a line;
* `RoutingSection.readBorder` reads the points of the lines that concern a query area, in file
  order.
-/

namespace RoadAtlas

open Decoder

/-! ### Lines -/

/-- The header of a border line. -/
structure BorderLine where
  x : UInt32 := 0
  y : UInt32 := 0
  toX : Option UInt32 := none
  toY : Option UInt32 := none
  /-- Where the points of the line are. -/
  pointsOffset : Nat := 0
  deriving DecidableEq, Repr

namespace BorderLine

/-- Reads a field of a header that starts at `start`, its length prefix included. -/
def step (start : Nat) (t : Tag) (line : BorderLine) : Decoder BorderLine := do
  match t.field with
  | Format.BorderLine.x =>
    let x ← varint32
    return { line with x }
  | Format.BorderLine.y =>
    let y ← varint32
    return { line with y }
  | Format.BorderLine.toX =>
    let x ← varint32
    return { line with toX := some x }
  | Format.BorderLine.toY =>
    let y ← varint32
    return { line with toY := some y }
  | Format.BorderLine.shift =>
    let shift ← be32
    return { line with pointsOffset := start + shift.toNat }
  | _ =>
    skipField t
    return line

/-- Reads a header. -/
def decoder : Decoder BorderLine := do
  let start ← position
  sized (fields {} (step start))

/-- Reads a field of a border box: a header or something to pass over. -/
def boxStep (t : Tag) (lines : Array BorderLine) : Decoder (Array BorderLine) := do
  match t.field with
  | Format.Border.line =>
    let line ← decoder
    return lines.push line
  | _ =>
    skipField t
    return lines

/-- Reads the headers of a border box, which end where the points begin. -/
def readAll : Decoder (Array BorderLine) :=
  Prod.fst <$> fieldsUntil (fun t => t.field == Format.Border.block) #[] boxStep

/-- The stretch of a horizontal line. -/
def span? (line : BorderLine) : Option Area :=
  line.toX.map fun toX => ⟨min line.x toX, line.y, max line.x toX, line.y⟩

/-- The line concerns a query area; only horizontal lines can. -/
def concerns (line : BorderLine) (query : Area) : Bool :=
  line.span?.any fun span => query.intersects span

end BorderLine

/-! ### Points -/

/-- A point at which a road crosses a border line, with the types of the road there. -/
structure BorderPoint where
  sectionId : Nat
  roadId : Int64
  location : Point
  direction : Bool
  types : Array UInt32
  deriving DecidableEq, Repr

/-- A border point as it is stored, relative to the one before it. -/
structure BorderRecord where
  dx : Int32 := 0
  dy : Int32 := 0
  idDelta : Int64 := 0
  direction : Bool := false
  types : Array UInt32 := #[]
  deriving DecidableEq, Repr

namespace BorderRecord

/-- Reads a field of a stored point. -/
def step (t : Tag) (r : BorderRecord) : Decoder BorderRecord := do
  match t.field with
  | Format.BorderPoint.dx =>
    let dx ← sint32
    return { r with dx }
  | Format.BorderPoint.dy =>
    let dy ← sint32
    return { r with dy }
  | Format.BorderPoint.idDelta =>
    let delta ← varint
    return { r with idDelta := delta.toInt64 }
  | Format.BorderPoint.direction =>
    let direction ← bool
    return { r with direction }
  | Format.BorderPoint.types =>
    let types ← packed
    return { r with types }
  | _ =>
    skipField t
    return r

/-- Reads a stored point. -/
def decoder : Decoder BorderRecord := sized (fields {} step)

end BorderRecord

/-- The sums up to the current point of a line, and the points so far. -/
structure BorderTrail where
  x : Int := 0
  y : Int := 0
  roadId : Int64 := 0
  points : Array BorderPoint := #[]
  deriving DecidableEq, Repr

namespace BorderTrail

/-- A border point's coordinate. -/
def coordinate (n : Int) : Except DecodeError UInt32 :=
  match toCoordinate? n with
  | some value => .ok value
  | none => .error (.dangling (.borderPoint n))

/-- Goes on to the next point and keeps it if it lies in the query area. -/
def advance (sectionId : Nat) (query : Option Area) (trail : BorderTrail) (r : BorderRecord) :
    Except DecodeError BorderTrail := do
  let x := trail.x + r.dx.toInt
  let y := trail.y + r.dy.toInt
  let roadId := trail.roadId + r.idDelta
  let location : Point := ⟨← coordinate x, ← coordinate y⟩
  let kept := query.all fun area => area.contains location
  let point : BorderPoint := ⟨sectionId, roadId, location, r.direction, r.types⟩
  return ⟨x, y, roadId, if kept then trail.points.push point else trail.points⟩

/-- Reads a field of the points of a line. -/
def step (sectionId : Nat) (query : Option Area) (t : Tag) (trail : BorderTrail) :
    Decoder BorderTrail := do
  match t.field with
  | Format.BorderBlock.x =>
    let x ← varint32
    return { trail with x := x.toNat }
  | Format.BorderBlock.y =>
    let y ← varint32
    return { trail with y := y.toNat }
  | Format.BorderBlock.baseId =>
    let id ← varint
    return { trail with roadId := id.toInt64 }
  | Format.BorderBlock.point =>
    let record ← BorderRecord.decoder
    ofExcept (trail.advance sectionId query record)
  | _ =>
    skipField t
    return trail

/-- Reads the points of a line. -/
def decoder (sectionId : Nat) (query : Option Area) : Decoder (Array BorderPoint) :=
  points <$> sized (fields {} (step sectionId query))

end BorderTrail

namespace RoutingSection

/-- The headers of the section's border lines. -/
def borderLines (s : RoutingSection) (region : Region) (data : ByteArray) :
    Except DecodeError (Array BorderLine) := do
  let c ← s.cursor data
  let c ← c.seek data region.offset
  (within region.length BorderLine.readAll).eval data c

/-- Where the points of the lines that concern a query area are, in file order. -/
def borderOffsets (lines : List BorderLine) (query : Option Area) : List Nat :=
  ((lines.filter fun line => query.all line.concerns).map BorderLine.pointsOffset).mergeSort

/-- The points of the section's border lines in a query area, all of them without one. -/
def readBorder (s : RoutingSection) (query : Option Area) (data : ByteArray) :
    Except ContainerError (List BorderPoint) :=
  match s.border with
  | none => .ok []
  | some region =>
    s.decode do
      let lines ← s.borderLines region data
      let blocks ← (borderOffsets lines.toList query).mapM fun offset => do
        let c ← s.cursor data
        let c ← c.seek data offset
        (BorderTrail.decoder s.id query).eval data c
      return (blocks.map Array.toList).flatten

end RoutingSection

end RoadAtlas
