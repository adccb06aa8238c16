import RoadAtlas.Container.Section
import RoadAtlas.Wire.Field

/-!
The index of a container: its version, its creation date and its sections in file order.

Sections are blocks whose field says their kind. The index is read without decoding the sections,
except that each is searched for its name (`scanName`), and a name that cannot be read is taken to
be empty. The version must be given again behind the sections, so a container that was cut short is
refused (`Index.check`).

* `Index.step` reads one field of the index;
* `Catalog.read` reads the whole of it.
-/

namespace RoadAtlas

open Decoder

/-- The checked index of a container. -/
structure Catalog where
  version : UInt32
  /-- Milliseconds since the start of 1970. -/
  created : UInt64
  sections : Array SectionEntry
  deriving DecidableEq, Repr

/-! ### Section names -/

/-- The tag of the name in a section of some kind. -/
def SectionKind.isNameTag (kind : SectionKind) (t : Tag) : Bool :=
  t.field == kind.nameField && t.has .lengthDelimited

/-- Passes over a field at section level, where a 32-bit field is a block. -/
def skipSectionField (t : Tag) : Decoder Unit :=
  if t.has .fixed32 then skipBlock else skipField t

/-- The first name in a section of some kind. -/
def sectionName (kind : SectionKind) : Decoder (Option String) := do
  let (_, t) ← fieldsUntil kind.isNameTag () fun t _ => skipSectionField t
  if kind.isNameTag t then
    let name ← string
    return some name
  else return none

/-- The name of the section at an offset, empty when it has none or none that can be read. -/
def scanName (kind : SectionKind) (offset length : Nat) (data : ByteArray) : String :=
  match (do let c ← Cursor.region data offset length; (sectionName kind).eval data c) with
  | .ok (some name) => name
  | _ => ""

/-! ### The index -/

/-- The index as far as it has been read. -/
structure Index where
  version : Option UInt32 := none
  /-- The last confirmation agreed with the version before it. -/
  confirmed : Bool := false
  created : UInt64 := 0
  sections : Array SectionEntry := #[]
  deriving DecidableEq, Repr

namespace Index

/-- Reads a section's place and passes over its body. -/
def readSection (kind : SectionKind) : Decoder SectionEntry := do
  let length ← be32
  let offset ← position
  let size ← inspect ByteArray.size
  if size < offset + length.toNat then
    fail (.overlongSection kind.label offset length.toNat (size - offset))
  let name ← inspect (scanName kind offset length.toNat)
  skip length.toNat
  return ⟨kind, name, offset, length.toNat⟩

/-- Reads one field of the index. -/
def step (t : Tag) (index : Index) : Decoder Index := do
  match t.field with
  | Format.Index.version =>
    let version ← varint32
    return { index with version := some version }
  | Format.Index.created =>
    let created ← varint
    return { index with created := created }
  | Format.Index.confirmation =>
    let version ← varint32
    return { index with confirmed := index.version = some version }
  | field =>
    match SectionKind.ofField? field with
    | some kind =>
      let entry ← readSection kind
      return { index with sections := index.sections.push entry }
    | none =>
      skipSectionField t
      return index

/-- A complete index has a version, and a confirmation of it. -/
def check (index : Index) : Except IndexError Catalog :=
  match index.version with
  | none => .error .missingVersion
  | some version =>
    if index.confirmed then .ok ⟨version, index.created, index.sections⟩
    else .error (.unconfirmed version)

/-- Reads every field of the index. -/
def read (data : ByteArray) : Except DecodeError Index :=
  (fields {} step).eval data (.start data)

end Index

namespace Catalog

/-- The catalog of a container. -/
def read (data : ByteArray) : Except ContainerError Catalog :=
  match Index.read data with
  | .error cause => .error (.invalid (.undecodable cause))
  | .ok index =>
    match index.check with
    | .error cause => .error (.invalid cause)
    | .ok catalog => .ok catalog

/-- The sections of one kind, in file order. -/
def ofKind (c : Catalog) (kind : SectionKind) : List SectionEntry :=
  c.sections.toList.filter fun s => s.kind = kind

/-- The first section of a kind with a name. -/
def find? (c : Catalog) (kind : SectionKind) (name : String) : Option SectionEntry :=
  (c.ofKind kind).find? fun s => s.name = name

end Catalog

end RoadAtlas
