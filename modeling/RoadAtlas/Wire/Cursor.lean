import RoadAtlas.Wire.Error

/-!
The state of a reader: a position in the data and the limit of the region being read. A successful
read moves forward and keeps the limit, which is the relation `Reaches`; `Precedes` adds that at
least one byte of the region was consumed, so fewer remain (`Precedes.remaining_lt`).
-/

namespace RoadAtlas

/-- Where a reader stands, and where the region it reads ends. -/
structure Cursor where
  position : Nat
  limit : Nat
  deriving DecidableEq, Repr

namespace Cursor

/-- The bytes left in the region. -/
def remaining (c : Cursor) : Nat := c.limit - c.position

/-- Nothing is left in the region. -/
def atLimit (c : Cursor) : Bool := c.limit ≤ c.position

/-- The start of `data`, all of it ahead. -/
def start (data : ByteArray) : Cursor := ⟨0, data.size⟩

/-- `c'` lies at or after `c` in the same region. -/
structure Reaches (c c' : Cursor) : Prop where
  limit_eq : c'.limit = c.limit
  position_le : c.position ≤ c'.position

/-- `c'` lies after `c` in the same region, and `c` was not at its end. -/
structure Precedes (c c' : Cursor) : Prop where
  limit_eq : c'.limit = c.limit
  position_lt : c.position < c'.position
  position_lt_limit : c.position < c.limit

theorem Reaches.refl (c : Cursor) : c.Reaches c := ⟨rfl, Nat.le_refl _⟩

theorem Reaches.trans {a b c : Cursor} (h : a.Reaches b) (h' : b.Reaches c) : a.Reaches c :=
  ⟨h'.limit_eq.trans h.limit_eq, Nat.le_trans h.position_le h'.position_le⟩

theorem Precedes.reaches {c c' : Cursor} (h : c.Precedes c') : c.Reaches c' :=
  ⟨h.limit_eq, Nat.le_of_lt h.position_lt⟩

theorem Precedes.trans_reaches {a b c : Cursor} (h : a.Precedes b) (h' : b.Reaches c) :
    a.Precedes c :=
  ⟨h'.limit_eq.trans h.limit_eq, Nat.lt_of_lt_of_le h.position_lt h'.position_le,
    h.position_lt_limit⟩

theorem Reaches.trans_precedes {a b c : Cursor} (h : a.Reaches b) (h' : b.Precedes c) :
    a.Precedes c :=
  ⟨h'.limit_eq.trans h.limit_eq, Nat.lt_of_le_of_lt h.position_le h'.position_lt, by
    have := h'.position_lt_limit
    rw [h.limit_eq] at this
    exact Nat.lt_of_le_of_lt h.position_le this⟩

/-- Consuming part of a region leaves less of it. -/
theorem Precedes.remaining_lt {c c' : Cursor} (h : c.Precedes c') : c'.remaining < c.remaining := by
  have := h.position_lt
  have := h.position_lt_limit
  simp only [remaining, h.limit_eq]
  omega

/-- A nested region is smaller than the region in which it was announced. -/
theorem Precedes.nested_remaining_lt {c c' : Cursor} {length : Nat} (h : c.Precedes c')
    (inside : ¬c'.limit < c'.position + length) :
    remaining { c' with limit := c'.position + length } < c.remaining := by
  have := h.remaining_lt
  simp only [remaining] at this ⊢
  omega

/-- Why a read that starts at `position` cannot be made: the data ends, or only the region does. -/
def overrun (c : Cursor) (data : ByteArray) (position : Nat) : DecodeError :=
  if data.size ≤ c.limit then .endOfData position else .endOfRegion position c.limit

/-- Moves to an absolute position inside the region. -/
def seek (c : Cursor) (data : ByteArray) (position : Nat) : Except DecodeError Cursor :=
  if c.limit < position then .error (c.overrun data position)
  else .ok { c with position := position }

/-- Bounds what follows to the next `length` bytes, which must lie in the region. -/
def narrow (c : Cursor) (length : Nat) : Except DecodeError Cursor :=
  if c.limit < c.position + length then .error (.endOfRegion c.position c.limit)
  else .ok { c with limit := c.position + length }

/-- The region of `length` bytes at `offset`. -/
def region (data : ByteArray) (offset length : Nat) : Except DecodeError Cursor := do
  let c ← (start data).seek data offset
  c.narrow length

end Cursor

end RoadAtlas
