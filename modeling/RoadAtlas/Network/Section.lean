import RoadAtlas.Container.Section
import RoadAtlas.Network.Box
import RoadAtlas.Road.Rule

/-!
Routing sections: a rule table, a forest of boxes for detailed roads and one for the basemap, and
the places of the border boxes. The data blocks that the boxes point at are decoded later, box by
box.

* `RoutingSection.read` reads a section;
* `RuleTable.read` reads its rule table alone, and passes over everything else;
* `RoutingSection.dataBoxes` lists the boxes that have a data block.

A failure inside a section names the section and concerns no other one.
-/

namespace RoadAtlas

open Decoder

/-- A range of bytes of the data. -/
structure Region where
  offset : Nat
  length : Nat
  deriving DecidableEq, Repr

/-- A routing section without its data blocks. -/
structure RoutingSection where
  /-- Tells sections apart; roads refer to it. -/
  id : Nat
  name : String
  offset : Nat
  length : Nat
  rules : RuleTable := {}
  boxes : Array Box := #[]
  basemap : Array Box := #[]
  border : Option Region := none
  basemapBorder : Option Region := none

namespace SectionEntry

/-- Decodes the body of a routing section; failures name the section. -/
def decode {α : Type} (s : SectionEntry) (x : Decoder α) (data : ByteArray) :
    Except ContainerError α :=
  if s.kind ≠ .routing then .error (.notRouting s.name)
  else
    match (do let c ← s.cursor data; x.eval data c) with
    | .ok value => .ok value
    | .error cause => .error (.corruptSection s.name s.offset cause)

end SectionEntry

/-! ### Rules -/

namespace Rule

/-- Reads a field of a rule; its id is passed over, since the place in the table counts. -/
def step (t : Tag) (pair : String × String) : Decoder (String × String) := do
  match t.field with
  | Format.Rule.tag =>
    let text ← string
    return (text, pair.2)
  | Format.Rule.value =>
    let text ← string
    return (pair.1, text)
  | Format.Rule.id =>
    let _ ← varint32
    return pair
  | _ =>
    skipField t
    return pair

/-- Reads a rule as the pair it was written from. -/
def decoder : Decoder (String × String) := sized (fields ("", "") step)

end Rule

namespace RuleTable

/-- Reads a field at section level, passing over all but rules. -/
def step (t : Tag) (table : RuleTable) : Decoder RuleTable := do
  match t.field with
  | Format.Section.rule =>
    let (tag, value) ← Rule.decoder
    return table.push tag value
  | Format.Section.box | Format.Section.basemapBox | Format.Section.border
  | Format.Section.basemapBorder =>
    skipBlock
    return table
  | _ =>
    skipField t
    return table

/-- Reads the rules before the first data block. -/
def decoder : Decoder RuleTable :=
  Prod.fst <$> fieldsUntil (fun t => t.field == Format.Section.block) {} step

/-- The rule table of a routing section. -/
def read (s : SectionEntry) (data : ByteArray) : Except ContainerError RuleTable :=
  s.decode decoder data

end RuleTable

/-! ### Sections -/

namespace RoutingSection

/-- Reads a block as a range of bytes and passes over it. -/
def readRegion : Decoder Region := do
  let length ← be32
  let offset ← position
  skip length.toNat
  return ⟨offset, length.toNat⟩

/-- Reads a field at section level. What follows the first data block is not looked at. -/
def step (t : Tag) (s : RoutingSection) : Decoder RoutingSection := do
  match t.field with
  | Format.Section.name =>
    let name ← string
    return { s with name }
  | Format.Section.rule =>
    let (tag, value) ← Rule.decoder
    return { s with rules := s.rules.push tag value }
  | Format.Section.box =>
    let box ← Box.readRoot
    return { s with boxes := s.boxes.push box }
  | Format.Section.basemapBox =>
    let box ← Box.readRoot
    return { s with basemap := s.basemap.push box }
  | Format.Section.border =>
    let region ← readRegion
    return { s with border := some region }
  | Format.Section.basemapBorder =>
    let region ← readRegion
    return { s with basemapBorder := some region }
  | Format.Section.block =>
    let rest ← remaining
    skip rest
    return s
  | _ =>
    skipField t
    return s

/-- Reads the body of a section; the name in it takes the place of the one given. -/
def decoder (s : RoutingSection) : Decoder RoutingSection := fields s step

/-- The routing section of an index entry, under a number of the caller's choice. -/
def read (id : Nat) (s : SectionEntry) (data : ByteArray) : Except ContainerError RoutingSection :=
  s.decode (decoder { id, name := s.name, offset := s.offset, length := s.length }) data

/-- The boxes with a data block, detailed roads first. -/
def dataBoxes (s : RoutingSection) : List Box :=
  (Box.preorderAll (s.boxes.toList ++ s.basemap.toList)).filter Box.hasData

/-- A cursor over the section. -/
def cursor (s : RoutingSection) (data : ByteArray) : Except DecodeError Cursor :=
  Cursor.region data s.offset s.length

/-- Decodes inside the section; failures name it. -/
def decode {α : Type} (s : RoutingSection) (result : Except DecodeError α) :
    Except ContainerError α :=
  match result with
  | .ok value => .ok value
  | .error cause => .error (.corruptSection s.name s.offset cause)

end RoutingSection

end RoadAtlas
