import RoadAtlas.Container.Section
import RoadAtlas.Wire.Writing

/-!
The written form of a container: its version and creation date, its sections one after another, and
the version again as a confirmation, which may be left out or changed to make a container that
readers refuse.
-/

namespace RoadAtlas

/-- What a container is written from. -/
structure ContainerDraft where
  version : UInt32
  /-- Milliseconds since the start of 1970. -/
  created : UInt64 := 0
  /-- Kinds and bodies, in file order. -/
  sections : List (SectionKind × List UInt8) := []
  /-- The version given behind the sections, if any. -/
  confirmation : Option UInt32 := some version

namespace ContainerDraft

/-- The written sections. -/
def writeSections (sections : List (SectionKind × List UInt8)) : List UInt8 :=
  sections.flatMap fun (kind, body) => Wire.blockField kind.field body

/-- The written confirmation. -/
def writeConfirmation : Option UInt32 → List UInt8
  | some version => Wire.varint32Field Format.Index.confirmation version
  | none => []

/-- The written container. -/
def write (d : ContainerDraft) : List UInt8 :=
  Wire.varint32Field Format.Index.version d.version ++
    Wire.varintField Format.Index.created d.created ++
    writeSections d.sections ++ writeConfirmation d.confirmation

end ContainerDraft

end RoadAtlas
