import RoadAtlas.Wire.Field

/-!
A reader that is driven step by step: a cursor together with the limits it narrowed and has not yet
given back. A failed step leaves the cursor where the failure found it, and the reader can go on.
-/

namespace RoadAtlas

/-- A cursor and the outstanding outer limits, the innermost first. -/
structure Reader where
  cursor : Cursor
  outer : List Nat
  deriving DecidableEq, Repr

namespace Reader

/-- A reader at the start of `data`. -/
def start (data : ByteArray) : Reader := ⟨.start data, []⟩

/-- A reader at an offset of `data`. -/
def at? (data : ByteArray) (offset : Nat) : Except DecodeError Reader := do
  let c ← (Cursor.start data).seek data offset
  return ⟨c, []⟩

/-- Decodes from the reader's cursor. -/
def read {α : Type} (x : Decoder α) (data : ByteArray) (r : Reader) :
    Except DecodeError α × Reader :=
  let o := x.run data r.cursor
  (o.toExcept, { r with cursor := o.cursor })

/-- Moves to an absolute position. -/
def seek (data : ByteArray) (position : Nat) (r : Reader) : Except DecodeError Unit × Reader :=
  match r.cursor.seek data position with
  | .ok c => (.ok (), { r with cursor := c })
  | .error cause => (.error cause, r)

/-- Narrows the region to the next `length` bytes, keeping the outer limit for later. -/
def push (length : Nat) (r : Reader) : Except DecodeError Unit × Reader :=
  match r.cursor.narrow length with
  | .ok c => (.ok (), ⟨c, r.cursor.limit :: r.outer⟩)
  | .error cause => (.error cause, r)

/-- Reads a length and narrows the region to it. -/
def pushSized (x : Decoder UInt32) (data : ByteArray) (r : Reader) :
    Except DecodeError Unit × Reader :=
  match r.read x data with
  | (.ok length, r) => r.push length.toNat
  | (.error cause, r) => (.error cause, r)

/-- Gives the innermost outstanding limit back; `none` when there is none. -/
def pop? (r : Reader) : Option Reader :=
  match r.outer with
  | [] => none
  | limit :: outer => some ⟨{ r.cursor with limit := limit }, outer⟩

end Reader

end RoadAtlas
