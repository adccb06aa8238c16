import RoadAtlas.Format
import RoadAtlas.Network.Draft
import RoadAtlas.Wire.Writing

/-!
The written form of a routing section: its name, its rules, its box forests and its border box, and
then the data blocks that the boxes point at.

A box stores the distance to its data block in four bytes, whatever the distance is. So the length
of everything before the blocks does not depend on where they are: it is measured first with no
places given, which fixes the places, and then written with them (`SectionDraft.write`).

* `RoadDraft.write` and `BlockDraft.write` write a record and a block;
* `BoxDraft.write` writes a box, taking the places of its blocks off a list;
* `SectionDraft.roadOffsets` says where each record landed.
-/

namespace RoadAtlas

/-- The difference of two coordinates, modulo 2³². -/
def coordinateDelta (value base : UInt32) : Int32 :=
  Int32.ofInt ((value.toNat : Int) - base.toNat)

/-! ### Records and blocks -/

namespace RoadDraft

/-- A point on the coarse grid. -/
def gridPoint (p : Point) : UInt32 × UInt32 :=
  (p.x >>> Format.coordinateShift, p.y >>> Format.coordinateShift)

/-- Points as differences on the coarse grid, from a base on. -/
def writePoints (base : UInt32 × UInt32) : List Point → List UInt8
  | [] => []
  | p :: rest =>
    let here := gridPoint p
    Wire.varint32 (Zigzag.encode32 (coordinateDelta here.1 base.1)) ++
      Wire.varint32 (Zigzag.encode32 (coordinateDelta here.2 base.2)) ++ writePoints here rest

/-- The types of single points. -/
def writePointTypes (entries : List (UInt32 × List UInt32)) : List UInt8 :=
  entries.flatMap fun (index, types) => Wire.varint32 index ++ Wire.sized (Wire.packed types)

/-- The number of a string in a string table. -/
def stringNumber (table : List String) (text : String) : List UInt8 :=
  Wire.length (table.idxOf text)

/-- The names of single points. -/
def writePointNames (table : List String) (entries : List (UInt32 × List TagName)) : List UInt8 :=
  entries.flatMap fun (index, names) => names.flatMap fun (tag, text) =>
    Wire.varint32 index ++ Wire.varint32 tag ++ stringNumber table text

/-- The names of the road. -/
def writeNames (table : List String) (names : List TagName) : List UInt8 :=
  names.flatMap fun (tag, text) => Wire.varint32 tag ++ stringNumber table text

/-- A field that is left out when there is nothing to write. -/
def unlessEmpty {α : Type} (items : List α) (field : List UInt8) : List UInt8 :=
  if items.isEmpty then [] else field

/-- The record of a road, under a number, in a box that starts at `corner`. -/
def write (r : RoadDraft) (number : Nat) (corner : Point) (table : List String) : List UInt8 :=
  Wire.bytesField Format.Road.points (writePoints (gridPoint corner) r.points) ++
    Wire.packedField Format.Road.types r.types ++
    unlessEmpty r.extraTypes (Wire.packedField Format.Road.extraTypes r.extraTypes) ++
    unlessEmpty r.pointTypes.toList
      (Wire.bytesField Format.Road.pointTypes (writePointTypes r.pointTypes.toList)) ++
    Wire.varintField Format.Road.number (UInt64.ofNat number) ++
    unlessEmpty r.pointNames.toList
      (Wire.bytesField Format.Road.pointNames (writePointNames table r.pointNames.toList)) ++
    unlessEmpty r.names (Wire.bytesField Format.Road.names (writeNames table r.names))

end RoadDraft

namespace BlockDraft

/-- Ids as differences, from an id on. -/
def writeIds (base : Int64) : List Int64 → List UInt8
  | [] => []
  | id :: rest => Wire.sint64Field Format.IdTable.delta (id - base) ++ writeIds id rest

/-- A restriction between two records. -/
def writeRestriction (source target : Nat) (kind : Restriction) : List UInt8 :=
  Wire.messageField Format.Block.restriction
    (Wire.varint32Field Format.Restriction.kind kind.code ++
      Wire.varintField Format.Restriction.source (UInt64.ofNat source) ++
      Wire.varintField Format.Restriction.target (UInt64.ofNat target))

/-- The number under which a restriction names its target: its first place in the id table, and 0
when it has none. -/
def targetNumber (ids : List Int64) (target : Int64) : Nat := (ids.idxOf? target).getD 0

/-- The restrictions of some roads, the first of which has the number `source`. -/
def writeRestrictions (ids : List Int64) (source : Nat) : List RoadDraft → List UInt8
  | [] => []
  | r :: rest =>
    (r.restrictions.flatMap fun (target, kind) =>
      writeRestriction source (targetNumber ids target) kind) ++
      writeRestrictions ids (source + 1) rest

/-- The fields of some records, the first of which has the number `number`. -/
def writeRecords (corner : Point) (table : List String) (number : Nat) :
    List RoadDraft → List (List UInt8)
  | [] => []
  | r :: rest =>
    Wire.bytesField Format.Block.road (r.write number corner table) ::
      writeRecords corner table (number + 1) rest

/-- The id table. -/
def writeIdTable (b : BlockDraft) : List UInt8 :=
  Wire.messageField Format.Block.idTable (writeIds 0 b.ids)

/-- The fields of the records of a block. -/
def recordFields (b : BlockDraft) (corner : Point) : List (List UInt8) :=
  writeRecords corner b.strings 0 b.roads

/-- The data block of a box that starts at `corner`. -/
def write (b : BlockDraft) (corner : Point) : List UInt8 :=
  b.writeIdTable ++ (b.recordFields corner).flatten ++ writeRestrictions b.ids 0 b.roads ++
    RoadDraft.unlessEmpty b.strings
      (Wire.tag Format.Block.stringTable .lengthDelimited ++ Wire.stringTable b.strings)

/-- Where the payloads of some fields start, the first field at `start`. -/
def payloadOffsets (tagLength start : Nat) : List (List UInt8) → List Nat
  | [] => []
  | field :: rest => (start + tagLength) :: payloadOffsets tagLength (start + field.length) rest

/-- The id and the offset of each record of the block. -/
def roadOffsets (b : BlockDraft) (corner : Point) : List (Int64 × Nat) :=
  let tagLength := (Wire.tag Format.Block.road .lengthDelimited).length
  (b.roads.map RoadDraft.id).zip
    (payloadOffsets tagLength b.writeIdTable.length (b.recordFields corner))

end BlockDraft

/-! ### Boxes -/

namespace BoxDraft

/-- The edges of an area, as distances from those of the enclosing one. -/
def writeEdges (base area : Area) : List UInt8 :=
  Wire.sint32Field Format.Box.left (coordinateDelta area.left base.left) ++
    Wire.sint32Field Format.Box.right (coordinateDelta area.right base.right) ++
    Wire.sint32Field Format.Box.top (coordinateDelta area.top base.top) ++
    Wire.sint32Field Format.Box.bottom (coordinateDelta area.bottom base.bottom)

/-- The distance from a box at `start` to its data block, which takes the first of `places`. -/
def writeShift (start : Nat) (places : List Nat) (block : Option BlockDraft) : List UInt8 :=
  match block with
  | none => []
  | some _ =>
    Wire.tag Format.Box.shift .fixed32 ++ Wire.be32 (UInt32.ofNat (places.headD 0 - start))

/-- The places that are left behind a box's own data block. -/
def laterPlaces (places : List Nat) (block : Option BlockDraft) : List Nat :=
  if block.isSome then places.tail else places

mutual

/-- The message of a box that starts at `start`; its data blocks and those of its descendants take
the first of `places`, and the rest is given back. -/
def write (base : Area) (start : Nat) (places : List Nat) : BoxDraft → List UInt8 × List Nat
  | ⟨area, block, children⟩ =>
    let own := writeEdges base area ++ writeShift start places block
    let (nested, places) :=
      writeAll Format.Box.child area (start + own.length) (laterPlaces places block) children
    (own ++ nested, places)

/-- The blocks of some boxes that start at `start`. -/
def writeAll (field : Nat) (base : Area) (start : Nat) (places : List Nat) :
    List BoxDraft → List UInt8 × List Nat
  | [] => ([], places)
  | b :: rest =>
    let headerLength := (Wire.blockHeader field 0).length
    let (body, places) := write base (start + headerLength) places b
    let block := Wire.blockField field body
    let (more, places) := writeAll field base (start + block.length) places rest
    (block ++ more, places)

end

end BoxDraft

/-! ### Borders -/

namespace BorderLineDraft

/-- A header with a given distance to the points of the line. -/
def writeHeader (line : BorderLineDraft) (shift : Nat) : List UInt8 :=
  Wire.sized
    (Wire.varint32Field Format.BorderLine.x line.x ++
      Wire.varint32Field Format.BorderLine.y line.y ++
      (match line.toX with
        | some x => Wire.varint32Field Format.BorderLine.toX x
        | none => []) ++
      (match line.toY with
        | some y => Wire.varint32Field Format.BorderLine.toY y
        | none => []) ++
      Wire.tag Format.BorderLine.shift .fixed32 ++ Wire.be32 (UInt32.ofNat shift))

/-- What the first point of a line is relative to: itself. -/
def base (line : BorderLineDraft) : Point × Int64 :=
  match line.points with
  | [] => (⟨line.x, line.y⟩, 0)
  | first :: _ => (first.location, first.roadId)

/-- Points as differences, from a base on. -/
def writePointsFrom (base : Point × Int64) : List BorderPointDraft → List UInt8
  | [] => []
  | p :: rest =>
    Wire.messageField Format.BorderBlock.point
      (Wire.sint32Field Format.BorderPoint.dx (coordinateDelta p.location.x base.1.x) ++
        Wire.sint32Field Format.BorderPoint.dy (coordinateDelta p.location.y base.1.y) ++
        Wire.varintField Format.BorderPoint.idDelta (p.roadId - base.2).toUInt64 ++
        Wire.boolField Format.BorderPoint.direction p.direction ++
        Wire.packedField Format.BorderPoint.types p.types) ++
      writePointsFrom (p.location, p.roadId) rest

/-- The points of a line. -/
def writePoints (line : BorderLineDraft) : List UInt8 :=
  let (location, roadId) := line.base
  Wire.sized
    (Wire.varint32Field Format.BorderBlock.x location.x ++
      Wire.varint32Field Format.BorderBlock.y location.y ++
      Wire.varintField Format.BorderBlock.baseId roadId.toUInt64 ++
      writePointsFrom line.base line.points)

/-- The headers of some lines, the first at `start`; their points take the places in turn. -/
def writeHeaders (start : Nat) (places : List Nat) : List BorderLineDraft → List UInt8
  | [] => []
  | line :: rest =>
    let tag := Wire.tag Format.Border.line .lengthDelimited
    let header := line.writeHeader (places.headD 0 - (start + tag.length))
    tag ++ header ++ writeHeaders (start + tag.length + header.length) places.tail rest

end BorderLineDraft

/-- Where some stretches of bytes lie that follow each other from `start` on. -/
def placesFrom (start : Nat) : List (List UInt8) → List Nat
  | [] => []
  | stretch :: rest => start :: placesFrom (start + stretch.length) rest

/-- A border box: the headers of its lines, a tag that ends them, and the points of the lines. -/
def writeBorder (lines : List BorderLineDraft) : List UInt8 :=
  let points := lines.map BorderLineDraft.writePoints
  let ending := Wire.tag Format.Border.block .lengthDelimited
  let start := (BorderLineDraft.writeHeaders 0 [] lines).length + ending.length
  BorderLineDraft.writeHeaders 0 (placesFrom start points) lines ++ ending ++ points.flatten

/-! ### Sections -/

namespace SectionDraft

/-- The rules of a section, the first of which has the place `place`. -/
def writeRules (place : Nat) : List (String × String) → List UInt8
  | [] => []
  | (tag, value) :: rest =>
    Wire.messageField Format.Section.rule
      (Wire.stringField Format.Rule.tag tag ++ Wire.stringField Format.Rule.value value ++
        Wire.varintField Format.Rule.id (UInt64.ofNat place)) ++
      writeRules (place + 1) rest

/-- The name and the rules. -/
def writeHead (d : SectionDraft) : List UInt8 :=
  Wire.stringField Format.Section.name d.name ++ writeRules 0 d.rules

/-- The box forests, which start at `start`. -/
def writeBoxes (d : SectionDraft) (start : Nat) (places : List Nat) : List UInt8 :=
  let (boxes, places) := BoxDraft.writeAll Format.Section.box default start places d.boxes
  let (basemap, _) :=
    BoxDraft.writeAll Format.Section.basemapBox default (start + boxes.length) places d.basemap
  boxes ++ basemap

/-- The border box, left out when there are no border lines. -/
def writeBorderField (d : SectionDraft) : List UInt8 :=
  RoadDraft.unlessEmpty d.border (Wire.blockField Format.Section.border (writeBorder d.border))

/-- Everything before the data blocks. -/
def writeFront (d : SectionDraft) (places : List Nat) : List UInt8 :=
  d.writeHead ++ d.writeBoxes d.writeHead.length places ++ d.writeBorderField

/-- The tag of a data block. -/
def blockTag : List UInt8 := Wire.tag Format.Section.block .lengthDelimited

/-- The data blocks, each a sized region. -/
def blockBodies (d : SectionDraft) : List (List UInt8) :=
  d.blocks.map fun (area, b) => Wire.sized (b.write area.topLeft)

/-- Where the data blocks lie. -/
def places (d : SectionDraft) : List Nat :=
  BlockDraft.payloadOffsets blockTag.length (d.writeFront []).length
    (d.blockBodies.map fun body => blockTag ++ body)

/-- The body of the section. -/
def write (d : SectionDraft) : List UInt8 :=
  d.writeFront d.places ++ d.blockBodies.flatMap fun body => blockTag ++ body

/-- The offsets of the records of a block in the section, given the place of the block. -/
def offsetsIn (place : Nat) (area : Area) (b : BlockDraft) : List (Int64 × Nat) :=
  let prefixLength := (Wire.length (b.write area.topLeft).length).length
  (b.roadOffsets area.topLeft).map fun (id, offset) => (id, place + prefixLength + offset)

/-- The id and the offset of each record, in file order. -/
def roadOffsets (d : SectionDraft) : List (Int64 × Nat) :=
  (d.places.zip d.blocks).flatMap fun (place, area, b) => offsetsIn place area b

/-- The offset of the first record of a road. -/
def roadOffset? (d : SectionDraft) (id : Int64) : Option Nat := d.roadOffsets.lookup id

end SectionDraft

end RoadAtlas
