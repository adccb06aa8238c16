import RoadAtlas.Container.Catalog
import RoadAtlas.Network.Block
import RoadAtlas.Network.Border

/-!
Atlases: everything that the routing sections of a container hold. Sections are numbered in file
order, from 0, and their roads and border points follow one another in the same order.

* `RoutingSection.readAll` reads every section and says for each whether it could be read;
* `Atlas.read` reads every section with its roads and border points, or nothing at all.
-/

namespace RoadAtlas

/-- The routing sections of a container, or why one cannot be read. Sections that can be read are
numbered from `next` on. -/
def RoutingSection.readAll (next : Nat) (data : ByteArray) :
    List SectionEntry → List (Except ContainerError RoutingSection)
  | [] => []
  | entry :: rest =>
    let result := read next entry data
    result :: readAll (if result.isOk then next + 1 else next) data rest

/-- The routing sections of a container with all that is in them. -/
structure Atlas where
  sections : Array RoutingSection := #[]
  roads : Array Road := #[]
  border : Array BorderPoint := #[]

namespace Atlas

/-- Puts a section behind the others, with its roads and border points. -/
def addSection (data : ByteArray) (a : Atlas) (entry : SectionEntry) :
    Except ContainerError Atlas := do
  let s ← RoutingSection.read a.sections.size entry data
  let roads ← s.loadRoads .world false data
  let border ← s.readBorder none data
  return ⟨a.sections.push s, a.roads ++ roads, a.border ++ border⟩

/-- The atlas of a container. -/
def read (data : ByteArray) : Except ContainerError Atlas := do
  let catalog ← Catalog.read data
  (catalog.ofKind .routing).foldlM (addSection data) {}

end Atlas

end RoadAtlas
