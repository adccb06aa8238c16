/-!
Why a byte string could not be decoded. The causes are the constructors of `DecodeError`, and a
dangling reference says in a `Dangling` what it pointed at; `message` gives the wording of each.
-/

namespace RoadAtlas

/-- A value inside a record that refers to something that does not exist or does not fit. -/
inductive Dangling where
  /-- A box edge outside the grid, as its distance from the enclosing box's edge. -/
  | boxEdge (base : UInt32) (delta : Int)
  /-- A road point outside the grid, on the coarse grid it is stored on. -/
  | roadPoint (coordinate : Int)
  /-- A border point outside the grid. -/
  | borderPoint (coordinate : Int)
  /-- A record number that the block's id table does not hold. -/
  | recordNumber (number : UInt64) (entries : Nat)
  /-- A record number too large to be a road id. -/
  | roadId (number : UInt64)
  /-- A string number that the block's string table does not hold. -/
  | string (number : UInt32)
  /-- A box that was asked for its data block and has none. -/
  | dataBlock (box : Nat)
  deriving DecidableEq, Repr

/-- An integer with its sign, also when it is not negative. -/
def signed (n : Int) : String :=
  if 0 ≤ n then "+" ++ toString n else toString n

namespace Dangling

/-- The wording of a dangling reference. -/
def message : Dangling → String
  | boxEdge base delta => s!"box edge {base}" ++ signed delta ++ " out of range"
  | roadPoint coordinate => s!"point coordinate {coordinate} out of range"
  | borderPoint coordinate => s!"border point coordinate {coordinate} out of range"
  | recordNumber number entries => s!"road {number} not in block id table of {entries} entries"
  | roadId number => s!"road id {number} out of range"
  | string number => s!"string {number} not in block string table"
  | dataBlock box => s!"box at {box} has no data block"

end Dangling

/-- Why decoding stopped. -/
inductive DecodeError where
  /-- A read or a region reached past the region it is in. -/
  | endOfRegion (position limit : Nat)
  /-- A read reached past the last byte. -/
  | endOfData (position : Nat)
  /-- Ten bytes of a varint all ask for another one. -/
  | malformedVarint (position : Nat)
  /-- A field of a wire type whose extent is not known. -/
  | unknownWireType (field wire position : Nat)
  /-- A string that is not UTF-8; the position is that of its length prefix. -/
  | invalidUtf8 (position : Nat)
  /-- A section of the container index that reaches past the last byte. -/
  | overlongSection (label : String) (offset length available : Nat)
  /-- A well-formed record that refers to something that does not exist. -/
  | dangling (reference : Dangling)
  deriving DecidableEq, Repr

namespace DecodeError

/-- The wording of a decoding failure. -/
def message : DecodeError → String
  | endOfRegion position limit =>
    s!"unexpected end of region at byte {position} (limit {limit})"
  | endOfData position => s!"unexpected end of data at byte {position}"
  | malformedVarint position => s!"malformed varint at byte {position}"
  | unknownWireType field wire position =>
    s!"unknown wire type {wire} for field {field} at byte {position}"
  | invalidUtf8 position => s!"invalid UTF-8 string at byte {position}"
  | overlongSection label offset length available =>
    s!"{label} section at {offset} claims {length} bytes, container has {available}"
  | dangling reference => "invalid reference: " ++ reference.message

end DecodeError

end RoadAtlas
