import RoadAtlas.Wire.Field

/-!
The written form of the format's scalars, fields and nested regions, as lists of bytes. Writing a
message is appending its fields; there is one function for each kind of field.

* `varintField`, `sint32Field`, `bytesField`, … write a tag and a payload;
* `messageField` nests a message, `blockField` a block with a big-endian length;
* `overwrite` puts bytes over others at a known place.
-/

namespace RoadAtlas

namespace Wire

/-! ### Scalars -/

/-- A 64-bit number as a varint. -/
def varint (n : UInt64) : List UInt8 := Varint.encode n.toNat

/-- A 32-bit number as a varint. -/
def varint32 (n : UInt32) : List UInt8 := Varint.encode n.toNat

/-- A length as a varint. -/
def length (n : Nat) : List UInt8 := varint (UInt64.ofNat n)

/-- Four bytes, highest first. -/
def be32 (n : UInt32) : List UInt8 :=
  [(n >>> 24).toUInt8, (n >>> 16).toUInt8, (n >>> 8).toUInt8, n.toUInt8]

/-- Four bytes, lowest first. -/
def le32 (n : UInt32) : List UInt8 := (be32 n).reverse

/-- Eight bytes, lowest first. -/
def le64 (n : UInt64) : List UInt8 := le32 n.toUInt32 ++ le32 (n >>> 32).toUInt32

/-- The bytes of a text in UTF-8. -/
def utf8 (text : String) : List UInt8 := text.toUTF8.toList

/-- A region behind a varint length. -/
def sized (body : List UInt8) : List UInt8 := length body.length ++ body

/-- The tag of a field. -/
def tag (field : Nat) (wire : WireType) : List UInt8 := varint32 (Tag.word field wire)

/-! ### Fields -/

/-- A number. -/
def varintField (field : Nat) (n : UInt64) : List UInt8 := tag field .varint ++ varint n

/-- A 32-bit number. -/
def varint32Field (field : Nat) (n : UInt32) : List UInt8 := varintField field n.toUInt64

/-- A truth value, as 1 or 0. -/
def boolField (field : Nat) (b : Bool) : List UInt8 := varintField field (if b then 1 else 0)

/-- A 32-bit integer in zigzag form. -/
def sint32Field (field : Nat) (n : Int32) : List UInt8 :=
  tag field .varint ++ varint32 (Zigzag.encode32 n)

/-- A 64-bit integer in zigzag form. -/
def sint64Field (field : Nat) (n : Int64) : List UInt8 :=
  tag field .varint ++ varint (Zigzag.encode64 n)

/-- Four bytes, lowest first. -/
def fixed32Field (field : Nat) (n : UInt32) : List UInt8 := tag field .fixed32 ++ le32 n

/-- Eight bytes, lowest first. -/
def fixed64Field (field : Nat) (n : UInt64) : List UInt8 := tag field .fixed64 ++ le64 n

/-- A byte string. -/
def bytesField (field : Nat) (body : List UInt8) : List UInt8 :=
  tag field .lengthDelimited ++ sized body

/-- A text in UTF-8. -/
def stringField (field : Nat) (text : String) : List UInt8 := bytesField field (utf8 text)

/-- Numbers one after another. -/
def packed (ns : List UInt32) : List UInt8 := ns.flatMap varint32

/-- Numbers that fill a field. -/
def packedField (field : Nat) (ns : List UInt32) : List UInt8 := bytesField field (packed ns)

/-- A nested message. -/
def messageField (field : Nat) (fields : List UInt8) : List UInt8 := bytesField field fields

/-- What precedes the body of a block: the tag and the big-endian length. -/
def blockHeader (field : Nat) (length : Nat) : List UInt8 :=
  tag field .fixed32 ++ be32 (UInt32.ofNat length)

/-- A block behind a big-endian length. -/
def blockField (field : Nat) (body : List UInt8) : List UInt8 :=
  blockHeader field body.length ++ body

/-- A table of strings in a sized region. -/
def stringTable (strings : List String) : List UInt8 := sized (strings.flatMap (stringField 1))

/-! ### Changing what is written -/

/-- The bytes with `new` over what stood at `offset`. -/
def overwrite (bytes : List UInt8) (offset : Nat) (new : List UInt8) : List UInt8 :=
  bytes.take offset ++ new ++ bytes.drop (offset + new.length)

theorem length_be32 (n : UInt32) : (be32 n).length = 4 := rfl

theorem length_overwrite {bytes new : List UInt8} {offset : Nat}
    (h : offset + new.length ≤ bytes.length) :
    (overwrite bytes offset new).length = bytes.length := by
  simp only [overwrite, List.length_append, List.length_take, List.length_drop]
  omega

end Wire

end RoadAtlas
