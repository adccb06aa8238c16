import RoadAtlas.Road.Basic

/-!
What a routing section is written from: rules, box forests with the roads of their data blocks, and
border lines. Roads refer to rules by their place and to each other by id; numbers of records and
strings are chosen when a block is written (`BlockDraft.ids`, `BlockDraft.strings`).
-/

namespace RoadAtlas

/-- Some elements followed by those of a second list that are new, each once. -/
def appendNew {α : Type} [DecidableEq α] (known : List α) (more : List α) : List α :=
  more.foldl (fun known a => if a ∈ known then known else known ++ [a]) known

/-- A road to be written. -/
structure RoadDraft where
  id : Int64
  points : List Point := []
  types : List UInt32 := []
  extraTypes : List UInt32 := []
  /-- Types of single points, by index. -/
  pointTypes : SortedMap UInt32 (List UInt32) := ∅
  names : List TagName := []
  /-- Names of single points, by index. -/
  pointNames : SortedMap UInt32 (List TagName) := ∅
  /-- Roads onto which a restriction leads, and which. -/
  restrictions : List (Int64 × Restriction) := []

namespace RoadDraft

/-- The strings of a road, in the order in which its record refers to them. -/
def strings (r : RoadDraft) : List String :=
  (r.pointNames.values.flatten ++ r.names).map Prod.snd

end RoadDraft

/-- The roads of one box. -/
structure BlockDraft where
  roads : List RoadDraft := []
  /-- An id table to write instead of the one that the roads need. -/
  givenIds : Option (List Int64) := none

namespace BlockDraft

/-- The id table: the roads in order, then the other roads that restrictions lead onto. -/
def ids (b : BlockDraft) : List Int64 :=
  match b.givenIds with
  | some ids => ids
  | none =>
    appendNew (b.roads.map RoadDraft.id) (b.roads.flatMap fun r => r.restrictions.map Prod.fst)

/-- The string table: every string once, in order of first use. -/
def strings (b : BlockDraft) : List String := appendNew [] (b.roads.flatMap RoadDraft.strings)

end BlockDraft

/-- A box to be written. -/
structure BoxDraft where
  area : Area
  block : Option BlockDraft := none
  children : List BoxDraft := []

namespace BoxDraft

mutual

/-- The data blocks of a box and its descendants, each box before its children. -/
def blocks : BoxDraft → List (Area × BlockDraft)
  | ⟨area, block, children⟩ => (block.map fun b => (area, b)).toList ++ blocksAll children

/-- The data blocks of some boxes and their descendants. -/
def blocksAll : List BoxDraft → List (Area × BlockDraft)
  | [] => []
  | b :: rest => b.blocks ++ blocksAll rest

end

end BoxDraft

/-- A border point to be written. -/
structure BorderPointDraft where
  roadId : Int64
  location : Point
  direction : Bool
  types : List UInt32 := []
  deriving DecidableEq, Repr

/-- A border line to be written. -/
structure BorderLineDraft where
  x : UInt32
  y : UInt32
  toX : Option UInt32 := none
  toY : Option UInt32 := none
  points : List BorderPointDraft := []
  deriving DecidableEq, Repr

/-- A routing section to be written. -/
structure SectionDraft where
  name : String
  rules : List (String × String) := []
  boxes : List BoxDraft := []
  basemap : List BoxDraft := []
  border : List BorderLineDraft := []

namespace SectionDraft

/-- The data blocks of the section, in file order. -/
def blocks (d : SectionDraft) : List (Area × BlockDraft) :=
  BoxDraft.blocksAll d.boxes ++ BoxDraft.blocksAll d.basemap

end SectionDraft

end RoadAtlas
