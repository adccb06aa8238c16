import RoadAtlas.Format
import RoadAtlas.Geometry
import RoadAtlas.Wire.Field

/-!
The box tree of a routing section. A box covers an area, may have a data block with the roads of
that area, and may be divided into children. Edges are stored as distances from the enclosing box,
and the data block as a distance from the box itself.

* `Box.decoder` reads a box with its descendants, and `Box.decoder_eq` unfolds it as a message with
  nested messages;
* `Box.preorder` lists a box and its descendants;
* `Box.intersecting` lists the boxes with data that a query area can concern, without entering boxes
  that lie outside it.
-/

namespace RoadAtlas

/-- A number as a coordinate, if it is one. -/
def toCoordinate? (n : Int) : Option UInt32 :=
  if 0 ≤ n ∧ n < 0x100000000 then some (UInt32.ofNat n.toNat) else none

/-- A node of the box tree. -/
structure Box where
  area : Area
  /-- The first byte of the box's own message. -/
  offset : Nat
  length : Nat
  /-- The distance from the box to its data block, 0 when it has none. -/
  shift : UInt32 := 0
  children : List Box := []
  deriving Repr

namespace Box

/-! ### Shape -/

/-- The position of the data block. -/
def dataPosition? (b : Box) : Option Nat :=
  if b.shift = 0 then none else some (b.offset + b.shift.toNat)

/-- The box has a data block. -/
def hasData (b : Box) : Bool := b.dataPosition?.isSome

mutual

/-- The box and its descendants, each before its children. -/
def preorder : Box → List Box
  | ⟨area, offset, length, shift, children⟩ =>
    ⟨area, offset, length, shift, children⟩ :: preorderAll children

/-- Some boxes and their descendants. -/
def preorderAll : List Box → List Box
  | [] => []
  | b :: rest => b.preorder ++ preorderAll rest

end

mutual

/-- The boxes with data at or below a box that intersect an area, found through boxes that do. -/
def intersecting (query : Area) : Box → List Box
  | ⟨area, offset, length, shift, children⟩ =>
    let b : Box := ⟨area, offset, length, shift, children⟩
    if area.intersects query then
      (if b.hasData then [b] else []) ++ intersectingAll query children
    else []

/-- The boxes with data at or below some boxes that intersect an area. -/
def intersectingAll (query : Area) : List Box → List Box
  | [] => []
  | b :: rest => b.intersecting query ++ intersectingAll query rest

end

/-! ### Decoding -/

open Decoder

/-- An edge, stored as its distance from the enclosing box's edge. -/
def edge (base : UInt32) : Decoder UInt32 := do
  let delta ← sint32
  match toCoordinate? (base.toNat + delta.toInt) with
  | some value => return value
  | none => fail (.dangling (.boxEdge base delta.toInt))

/-- Reads a field of a box other than a child. -/
def step (base : Area) (t : Tag) (b : Box) : Decoder Box := do
  match t.field with
  | Format.Box.left =>
    let value ← edge base.left
    return { b with area := { b.area with left := value } }
  | Format.Box.right =>
    let value ← edge base.right
    return { b with area := { b.area with right := value } }
  | Format.Box.top =>
    let value ← edge base.top
    return { b with area := { b.area with top := value } }
  | Format.Box.bottom =>
    let value ← edge base.bottom
    return { b with area := { b.area with bottom := value } }
  | Format.Box.shift =>
    let shift ← be32
    return { b with shift }
  | _ =>
    skipField t
    return b

/-- Reads the fields of a box from `start` on. -/
def decodeFrom (data : ByteArray) (base : Area) (b : Box) (start : Cursor) : Outcome Box start :=
  fieldRounds data start b fun t b c before =>
    if t.field = Format.Box.child then
      (be32.run data c).andThen fun length c' reach =>
        if h : c'.limit < c'.position + length.toNat then
          .failed (.endOfRegion c'.position c'.limit) c'
        else
          let child : Box := { area := b.area, offset := c'.position, length := length.toNat }
          let inner : Cursor := { c' with limit := c'.position + length.toNat }
          have : inner.remaining < start.remaining :=
            (before.trans_reaches reach).nested_remaining_lt h
          (decodeFrom data b.area child inner).leave.map fun child =>
            { b with children := b.children ++ [child] }
    else (step base t b).run data c
termination_by start.remaining
decreasing_by exact this

/-- Reads a box whose edges are stored relative to `base`. -/
def decoder (base : Area) (b : Box) : Decoder Box := ⟨fun data c => decodeFrom data base b c⟩

/-- Reads a child of `b` and puts it behind the children before it. -/
def childStep (b : Box) (readChild : Box → Decoder Box) : Decoder Box := do
  let length ← be32
  let offset ← position
  let child ← within length.toNat (readChild { area := b.area, offset, length := length.toNat })
  return { b with children := b.children ++ [child] }

/-- A box is a message whose child fields hold boxes. -/
theorem decoder_eq (base : Area) (b : Box) :
    decoder base b = fields b fun t b =>
      if t.field = Format.Box.child then childStep b (decoder b.area) else step base t b := by
  ext data c
  rw [decoder, fields]
  simp only
  rw [decodeFrom]
  congr
  funext t b' c' before
  split
  · simp only [childStep, run_bind, position, within, decoder, run_pure]
    cases be32.run data c' with
    | failed cause stopped => rfl
    | done length mid reach =>
      simp only [Outcome.andThen]
      by_cases beyond : mid.limit < mid.position + length.toNat
      · simp only [beyond, ↓reduceDIte, ↓reduceIte]
      · simp only [beyond, ↓reduceDIte, ↓reduceIte]
        generalize decodeFrom data b'.area _ _ = o
        cases o <;> rfl
  · rfl

/-- Reads the next block as a root of the box tree. -/
def readRoot : Decoder Box := do
  let length ← be32
  let offset ← position
  within length.toNat (decoder default { area := default, offset, length := length.toNat })

end Box

end RoadAtlas
