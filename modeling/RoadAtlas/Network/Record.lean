import RoadAtlas.Network.Box
import RoadAtlas.Road.Basic

/-!
What a data block holds: road records, and the three tables that the records refer to by number.

* `RoadRecord.decoder` reads a record; its points are running sums on a coarse grid, from a base
  point on;
* `BlockTables.step` reads the tables;
* `RoadRecord.resolve` turns a record into a road and fails on the first number that a table does
  not hold.
-/

namespace RoadAtlas

open Decoder

/-! ### Records -/

/-- A road whose id and names are still numbers. -/
structure RoadRecord where
  number : UInt64 := 0
  points : Array Point := #[]
  types : Array UInt32 := #[]
  extraTypes : Array UInt32 := #[]
  pointTypes : SortedMap UInt32 (Array UInt32) := ∅
  /-- Tags and string numbers. -/
  names : Array (UInt32 × UInt32) := #[]
  /-- Point indices, tags and string numbers. -/
  pointNames : Array (UInt32 × UInt32 × UInt32) := #[]

namespace RoadRecord

/-- A coordinate of the coarse grid as one of the full grid. -/
def fromGrid (n : Int) : Except DecodeError UInt32 :=
  match toCoordinate? (n <<< Format.coordinateShift.toNat) with
  | some value => .ok value
  | none => .error (.dangling (.roadPoint n))

/-- The point at coordinates of the coarse grid. -/
def pointFromGrid (x y : Int) : Except DecodeError Point := do
  let px ← fromGrid x
  let py ← fromGrid y
  return ⟨px, py⟩

/-- Where the sums of a point list start. -/
def gridOf (p : Point) : Int × Int :=
  ((p.x >>> Format.coordinateShift).toNat, (p.y >>> Format.coordinateShift).toNat)

/-- Reads a point, given the number of its horizontal difference. -/
def pointStep (lead : UInt32) (state : (Int × Int) × Array Point) :
    Decoder ((Int × Int) × Array Point) := do
  let ((x, y), points) := state
  let x := x + (Zigzag.decode32 lead).toInt
  let dy ← sint32
  let y := y + dy.toInt
  let point ← ofExcept (pointFromGrid x y)
  return ((x, y), points.push point)

/-- Reads a point list and puts its points behind those there are. -/
def readPoints (base : Point) (points : Array Point) : Decoder (Array Point) :=
  sized (Prod.snd <$> entries (gridOf base, points) pointStep)

/-- Reads the types of the point with a given index, behind those it has. -/
def pointTypesStep (index : UInt32) (types : SortedMap UInt32 (Array UInt32)) :
    Decoder (SortedMap UInt32 (Array UInt32)) := do
  let more ← packed
  return types.alter index fun found => found.getD #[] ++ more

/-- Reads a field of a record whose points are relative to `base`. -/
def step (base : Point) (t : Tag) (r : RoadRecord) : Decoder RoadRecord := do
  match t.field with
  | Format.Road.points =>
    let points ← readPoints base r.points
    return { r with points }
  | Format.Road.pointTypes =>
    let pointTypes ← sized (entries r.pointTypes pointTypesStep)
    return { r with pointTypes }
  | Format.Road.types =>
    let types ← packed
    return { r with types }
  | Format.Road.extraTypes =>
    let extraTypes ← packed
    return { r with extraTypes }
  | Format.Road.number =>
    let number ← varint
    return { r with number }
  | Format.Road.pointNames =>
    let pointNames ← sized (entries r.pointNames fun index names => do
      let tag ← varint32
      let text ← varint32
      return names.push (index, tag, text))
    return { r with pointNames }
  | Format.Road.names =>
    let names ← sized (entries r.names fun tag names => do
      let text ← varint32
      return names.push (tag, text))
    return { r with names }
  | _ =>
    skipField t
    return r

/-- Reads a record. -/
def decoder (base : Point) : Decoder RoadRecord := sized (fields {} (step base))

end RoadRecord

/-! ### Tables -/

/-- A restriction between two records of a block, by their numbers. -/
structure RestrictionRecord where
  code : UInt32 := 0
  source : UInt32 := 0
  target : UInt32 := 0
  deriving DecidableEq, Repr

namespace RestrictionRecord

/-- Reads a field of a restriction. -/
def step (t : Tag) (r : RestrictionRecord) : Decoder RestrictionRecord := do
  match t.field with
  | Format.Restriction.kind =>
    let code ← varint32
    return { r with code }
  | Format.Restriction.source =>
    let source ← varint32
    return { r with source }
  | Format.Restriction.target =>
    let target ← varint32
    return { r with target }
  | _ =>
    skipField t
    return r

/-- Reads a restriction. -/
def decoder : Decoder RestrictionRecord := sized (fields {} step)

end RestrictionRecord

/-- The tables of a block. Without an id table the number of a record is its road's id. -/
structure BlockTables where
  ids : Option (Array Int64) := none
  strings : Array String := #[]
  restrictions : Array RestrictionRecord := #[]
  deriving DecidableEq, Repr

namespace BlockTables

/-- Reads a field of an id table: each id is the sum of the differences up to it. -/
def idStep (t : Tag) (state : Int64 × Array Int64) : Decoder (Int64 × Array Int64) := do
  match t.field with
  | Format.IdTable.delta =>
    let delta ← sint64
    let id := state.1 + delta
    return (id, state.2.push id)
  | _ =>
    skipField t
    return state

/-- Reads an id table. -/
def readIds : Decoder (Array Int64) := sized (Prod.snd <$> fields (0, #[]) idStep)

/-- Reads a field of a block, passing over all but tables. -/
def step (t : Tag) (tables : BlockTables) : Decoder BlockTables := do
  match t.field with
  | Format.Block.idTable =>
    let ids ← readIds
    return { tables with ids := some ids }
  | Format.Block.restriction =>
    let restriction ← RestrictionRecord.decoder
    return { tables with restrictions := tables.restrictions.push restriction }
  | Format.Block.stringTable =>
    let strings ← stringTable
    return { tables with strings }
  | _ =>
    skipField t
    return tables

/-- Reads the tables of a block. -/
def decoder : Decoder BlockTables := fields {} step

/-- The road id of a record. -/
def roadId (tables : BlockTables) (number : UInt64) : Except DecodeError Int64 :=
  match tables.ids with
  | some ids =>
    match ids[number.toNat]? with
    | some id => .ok id
    | none => .error (.dangling (.recordNumber number ids.size))
  | none =>
    if number ≤ 0x7fffffffffffffff then .ok number.toInt64 else .error (.dangling (.roadId number))

/-- The string of a number. -/
def string (tables : BlockTables) (number : UInt32) : Except DecodeError String :=
  match tables.strings[number.toNat]? with
  | some text => .ok text
  | none => .error (.dangling (.string number))

end BlockTables

/-! ### Resolution -/

namespace RoadRecord

/-- The names of a road: of several for one tag the last counts. -/
def resolveNames (tables : BlockTables) (names : List (UInt32 × UInt32)) :
    Except DecodeError (SortedMap UInt32 String) :=
  names.foldlM (fun found (tag, number) => do
    let text ← tables.string number
    return found.insert tag text) ∅

/-- The names of single points, in record order at each point. -/
def resolvePointNames (tables : BlockTables) (names : List (UInt32 × UInt32 × UInt32)) :
    Except DecodeError (SortedMap UInt32 (Array TagName)) :=
  names.foldlM (fun found (index, tag, number) => do
    let text ← tables.string number
    return found.alter index fun names => (names.getD #[]).push (tag, text)) ∅

/-- The restrictions that start at the record of a number: of several onto one road the last
counts. -/
def resolveRestrictions (tables : BlockTables) (number : UInt64) :
    Except DecodeError (SortedMap Int64 Restriction) :=
  let own := tables.restrictions.toList.filter fun r => r.source.toUInt64 = number
  own.foldlM (fun found r => do
    let target ← tables.roadId r.target.toUInt64
    return found.insert target (.ofCode r.code)) ∅

/-- The road of a record. -/
def resolve (r : RoadRecord) (tables : BlockTables) (sectionId : Nat) (rules : RuleTable) :
    Except DecodeError Road := do
  let names ← resolveNames tables r.names.toList
  let pointNames ← resolvePointNames tables r.pointNames.toList
  let restrictions ← resolveRestrictions tables r.number
  let id ← tables.roadId r.number
  return {
    id, sectionId, restrictions, names, pointNames
    points := .ofArray r.points
    types := r.types
    extraTypes := r.extraTypes
    pointTypes := r.pointTypes
    rules := some rules }

end RoadRecord

end RoadAtlas
