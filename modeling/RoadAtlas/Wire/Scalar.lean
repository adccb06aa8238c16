import RoadAtlas.Wire.Decoder
import RoadAtlas.Wire.Varint
import RoadAtlas.Wire.Zigzag

/-!
Decoders of the format's scalars: bytes, varints and their zigzag forms, big-endian words, byte
strings and text, and the two ways a nested region announces its length.

* `varint` reads at most ten bytes and keeps the low 64 bits of what they add up to; a narrower
  number is the low part of it;
* `varint_precedes` says that a varint consumes at least one byte;
* `sized` and `blockSized` decode a nested region behind a varint or a big-endian length.
-/

namespace RoadAtlas

/-- Positions stay below this bound. -/
def positionBound : Nat := 0x10000000000000000

namespace Decoder

variable {α : Type}

/-! ### Bytes -/

/-- The next byte. -/
def byte : Decoder UInt8 := ⟨fun data c =>
  if c.limit ≤ c.position then .failed (c.overrun data c.position) c
  else .done (data[c.position]?.getD 0) { c with position := c.position + 1 }
    ⟨rfl, Nat.le_succ _⟩⟩

/-- The next `length` bytes. -/
def take (length : Nat) : Decoder ByteArray := ⟨fun data c =>
  if positionBound ≤ c.position + length then .failed (.endOfData c.position) c
  else if c.limit < c.position + length then .failed (c.overrun data c.position) c
  else .done (data.extract c.position (c.position + length))
    { c with position := c.position + length } ⟨rfl, Nat.le_add_right _ _⟩⟩

/-- Passes over the next `length` bytes. -/
def skip (length : Nat) : Decoder Unit := do
  let _ ← take length

/-! ### Varints -/

/-- The bytes of a varint that may still take `left` of them and began at `start`. -/
def varintBytes (start : Nat) : Nat → Decoder (List UInt8)
  | 0 => fail (.malformedVarint start)
  | left + 1 => do
    let b ← byte
    if Varint.continues b then
      let rest ← varintBytes start left
      return b :: rest
    else return [b]

/-- A number modulo 2⁶⁴. -/
def varint : Decoder UInt64 := do
  let start ← position
  let bytes ← varintBytes start Varint.maxLength
  return UInt64.ofNat (Varint.value bytes)

/-- A number modulo 2³². -/
def varint32 : Decoder UInt32 := do
  let n ← varint
  return n.toUInt32

/-- A 32-bit integer in zigzag form. -/
def sint32 : Decoder Int32 := do
  let n ← varint32
  return Zigzag.decode32 n

/-- A 64-bit integer in zigzag form. -/
def sint64 : Decoder Int64 := do
  let n ← varint
  return Zigzag.decode64 n

/-- Any number but zero is true. -/
def bool : Decoder Bool := do
  let n ← varint
  return n != 0

/-- A byte that was read lies before the cursor reached. -/
theorem byte_precedes {data : ByteArray} {c next : Cursor} {b : UInt8} {reach : c.Reaches next}
    (h : byte.run data c = .done b next reach) : c.Precedes next := by
  unfold byte at h
  dsimp only at h
  split at h
  · cases h
  · next inside =>
    cases h
    exact ⟨rfl, Nat.lt_succ_self _, Nat.lt_of_not_le inside⟩

/-- What starts with a decoder that consumes does so too. -/
theorem bind_precedes {β : Type} {x : Decoder α} {f : α → Decoder β} {data : ByteArray}
    {c next : Cursor} {b : β} {reach : c.Reaches next}
    (consumes : ∀ {a mid} {r : c.Reaches mid}, x.run data c = .done a mid r → c.Precedes mid)
    (h : (x >>= f).run data c = .done b next reach) : c.Precedes next := by
  rw [run_bind] at h
  obtain ⟨a, mid, r, r', hx, -⟩ := Outcome.andThen_eq_done h
  exact (consumes hx).trans_reaches r'

theorem varintBytes_precedes {start left : Nat} {data : ByteArray} {c next : Cursor}
    {bytes : List UInt8} {reach : c.Reaches next}
    (h : (varintBytes start left).run data c = .done bytes next reach) : c.Precedes next := by
  cases left with
  | zero => simp [varintBytes, fail] at h
  | succ left => exact bind_precedes byte_precedes h

/-- A varint consumes at least one byte. -/
theorem varint_precedes {data : ByteArray} {c next : Cursor} {n : UInt64} {reach : c.Reaches next}
    (h : varint.run data c = .done n next reach) : c.Precedes next := by
  have unfolded : varint.run data c =
      (UInt64.ofNat <$> Varint.value <$> varintBytes c.position Varint.maxLength).run data c := by
    simp only [varint, run_bind, position, Outcome.andThen, run_pure, run_map]
    cases (varintBytes c.position Varint.maxLength).run data c <;> rfl
  rw [unfolded, run_map, run_map] at h
  obtain ⟨value, hvalue, -⟩ := Outcome.map_eq_done h
  obtain ⟨bytes, hbytes, -⟩ := Outcome.map_eq_done hvalue
  exact varintBytes_precedes hbytes

theorem varint32_precedes {data : ByteArray} {c next : Cursor} {n : UInt32}
    {reach : c.Reaches next} (h : varint32.run data c = .done n next reach) : c.Precedes next :=
  bind_precedes varint_precedes h

/-! ### Words and strings -/

/-- Four bytes, highest first. -/
def be32 : Decoder UInt32 := do
  let bytes ← take 4
  return bytes.foldl (fun n b => 256 * n + b.toUInt32) 0

/-- A length and that many bytes. -/
def bytes : Decoder ByteArray := do
  let length ← varint32
  take length.toNat

/-- A length and that many bytes of UTF-8. -/
def string : Decoder String := do
  let start ← position
  let encoded ← bytes
  match String.fromUTF8? encoded with
  | some text => return text
  | none => fail (.invalidUtf8 start)

/-! ### Nested regions -/

/-- A region behind a varint length. -/
def sized (x : Decoder α) : Decoder α := do
  let length ← varint32
  within length.toNat x

/-- A region behind a big-endian length. -/
def blockSized (x : Decoder α) : Decoder α := do
  let length ← be32
  within length.toNat x

end Decoder

end RoadAtlas
