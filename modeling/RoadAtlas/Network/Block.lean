import RoadAtlas.Network.Record
import RoadAtlas.Network.Section
import RoadAtlas.Pool

/-!
Roads of a routing section, by box or by place.

* `loadBlock` reads every road of one box's data block;
* `loadRoads` does so for every detailed box that concerns a query area, by a pool of workers;
* `readRoad` reads the single record at an offset, with the tables of the block it lies in.
-/

namespace RoadAtlas

open Decoder

/-- A data block: its tables and its records, in file order. -/
structure Block where
  tables : BlockTables := {}
  records : Array RoadRecord := #[]

namespace Block

/-- Reads a field of a block whose points are relative to `base`. -/
def step (base : Point) (t : Tag) (b : Block) : Decoder Block := do
  match t.field with
  | Format.Block.road =>
    let record ← RoadRecord.decoder base
    return { b with records := b.records.push record }
  | _ =>
    let tables ← BlockTables.step t b.tables
    return { b with tables }

/-- Reads a block. -/
def decoder (base : Point) : Decoder Block := fields {} (step base)

/-- The roads of a block. -/
def resolve (b : Block) (s : RoutingSection) : Except DecodeError (List Road) :=
  b.records.toList.mapM fun r => r.resolve b.tables s.id s.rules

end Block

namespace RoutingSection

/-! ### By box -/

/-- A cursor at the data block of a box, with the limit of the section. -/
def blockCursor (s : RoutingSection) (b : Box) (data : ByteArray) : Except DecodeError Cursor := do
  match b.dataPosition? with
  | none => throw (.dangling (.dataBlock b.offset))
  | some position =>
    let c ← s.cursor data
    c.seek data position

/-- Decodes the data block of a box. -/
def decodeBlock {α : Type} (s : RoutingSection) (b : Box) (x : Decoder α) (data : ByteArray) :
    Except DecodeError α := do
  let c ← s.blockCursor b data
  (sized x).eval data c

/-- The roads of a box, in record order. -/
def loadBlock (s : RoutingSection) (b : Box) (data : ByteArray) :
    Except ContainerError (List Road) :=
  s.decode do
    let block ← s.decodeBlock b (Block.decoder b.area.topLeft) data
    block.resolve s

/-- The detailed boxes that intersect an area, each of them a task. Once loading was called off, no
box is read any more. -/
def areaTasks (s : RoutingSection) (query : Area) (calledOff : Bool) (data : ByteArray) :
    List (Except ContainerError (List Road)) :=
  (Box.intersectingAll query s.boxes.toList).map fun b =>
    if calledOff then .ok [] else s.loadBlock b data

/-- The roads of every detailed box that intersects an area, box after box. -/
def loadRoads (s : RoutingSection) (query : Area) (calledOff : Bool) (data : ByteArray)
    (pool : Pool ContainerError := .single) : Except ContainerError (List Road) :=
  List.flatten <$> pool.collect (s.areaTasks query calledOff data)

/-! ### By place -/

/-- Where the data block of a box starts and how long it is, its length prefix not counted. -/
def blockExtent (s : RoutingSection) (b : Box) (data : ByteArray) : Except DecodeError Region := do
  let c ← s.blockCursor b data
  Decoder.eval (do
    let length ← varint32
    let offset ← position
    return ⟨offset, length.toNat⟩) data c

/-- The first box in whose data block an offset lies. -/
def ownerOf (s : RoutingSection) (offset : Nat) (data : ByteArray) :
    Except DecodeError (Option Box) :=
  s.dataBoxes.findM? fun b => do
    let extent ← s.blockExtent b data
    return extent.offset ≤ offset && offset < extent.offset + extent.length

/-- The road of the record at an offset. A record in no data block has no tables: its number is its
id, and its points are absolute. -/
def readRoad (s : RoutingSection) (offset : Nat) (data : ByteArray) : Except ContainerError Road :=
  s.decode do
    let owner ← s.ownerOf offset data
    let (tables, base) ← match owner with
      | some b => do
        let tables ← s.decodeBlock b BlockTables.decoder data
        pure (tables, b.area.topLeft)
      | none => pure ({}, default)
    let c ← s.cursor data
    let c ← c.seek data offset
    let record ← (RoadRecord.decoder base).eval data c
    record.resolve tables s.id s.rules

end RoutingSection

end RoadAtlas
