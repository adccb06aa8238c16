import RoadAtlas.Format
import RoadAtlas.Wire.Decoder

/-!
Sections: what a container is made of. A section has a kind, which is also the number of the
field that holds it, a name, and a range of bytes.
-/

namespace RoadAtlas

/-- The kinds of section, in the order in which they are listed. -/
inductive SectionKind where
  | map
  | address
  | routing
  | poi
  | transport
  deriving DecidableEq, Repr

namespace SectionKind

/-- Every kind, in order. -/
def all : List SectionKind := [map, address, routing, poi, transport]

/-- The field of the container index that holds sections of a kind. -/
def field : SectionKind → Nat
  | map => Format.Index.map
  | address => Format.Index.address
  | routing => Format.Index.routing
  | poi => Format.Index.poi
  | transport => Format.Index.transport

/-- The kind of section that a field of the container index holds. -/
def ofField? (field : Nat) : Option SectionKind := all.find? fun kind => kind.field == field

theorem ofField?_field (kind : SectionKind) : ofField? kind.field = some kind := by
  cases kind <;> rfl

/-- The field of a section's own message that holds its name. -/
def nameField : SectionKind → Nat
  | map => 2
  | _ => 1

/-- The word for a kind. -/
def label : SectionKind → String
  | map => "map"
  | address => "address"
  | routing => "routing"
  | poi => "poi"
  | transport => "transport"

/-- The kind that a word names. -/
def ofLabel? (word : String) : Option SectionKind := all.find? fun kind => kind.label == word

theorem mem_all (kind : SectionKind) : kind ∈ all := by
  cases kind <;> simp [all]

end SectionKind

/-- An entry of the container index: where a section's body lies. -/
structure SectionEntry where
  kind : SectionKind
  name : String
  /-- The first byte of the body. -/
  offset : Nat
  length : Nat
  deriving DecidableEq, Repr

namespace SectionEntry

/-- The first byte after the body. -/
def stop (s : SectionEntry) : Nat := s.offset + s.length

/-- A cursor over the body. -/
def cursor (s : SectionEntry) (data : ByteArray) : Except DecodeError Cursor :=
  Cursor.region data s.offset s.length

end SectionEntry

/-! ### Failures -/

/-- Why the index of a container cannot be used. -/
inductive IndexError where
  /-- The index itself cannot be decoded. -/
  | undecodable (cause : DecodeError)
  /-- No version was given. -/
  | missingVersion
  /-- The version was not repeated behind the sections. -/
  | unconfirmed (version : UInt32)
  deriving DecidableEq, Repr

/-- Why a container or one of its sections cannot be used. -/
inductive ContainerError where
  /-- The index is unusable, and with it everything. -/
  | invalid (cause : IndexError)
  /-- The body of one section cannot be decoded. -/
  | corruptSection (name : String) (offset : Nat) (cause : DecodeError)
  /-- A section of another kind was asked for roads. -/
  | notRouting (name : String)
  deriving DecidableEq, Repr

/-- The wording of an unusable index. -/
def IndexError.message : IndexError → String
  | undecodable cause => cause.message
  | missingVersion => "missing version"
  | unconfirmed version => s!"version {version} was not confirmed at the end of the index"

namespace ContainerError

/-- The wording of a container's failure. -/
def message : ContainerError → String
  | invalid cause => "invalid OBF container: " ++ cause.message
  | corruptSection name offset cause =>
    s!"corrupt section '{name}' at offset {offset}: " ++ cause.message
  | notRouting name => s!"section '{name}' is not a routing section"

/-- The failure concerns one section only. -/
def isLocal : ContainerError → Bool
  | corruptSection .. => true
  | _ => false

end ContainerError

end RoadAtlas
