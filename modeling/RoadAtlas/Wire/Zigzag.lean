/-!
The zigzag order of the integers: 0, -1, 1, -2, 2, … It gives small numbers of either sign a small
natural number. `decode_encode` and `encode_decode` say that it is a bijection; the 32- and 64-bit
forms are its restrictions to the words of that width.
-/

namespace RoadAtlas

namespace Zigzag

/-- The place of an integer in the zigzag order. -/
def encode (n : Int) : Nat := if 0 ≤ n then 2 * n.toNat else 2 * (-n).toNat - 1

/-- The integer at a place of the zigzag order. -/
def decode (place : Nat) : Int := if place % 2 = 0 then place / 2 else -((place + 1) / 2 : Nat)

theorem decode_encode (n : Int) : decode (encode n) = n := by
  unfold decode encode
  split <;> split <;> omega

theorem encode_decode (place : Nat) : encode (decode place) = place := by
  unfold decode encode
  split <;> split <;> omega

theorem encode_lt_of_bounds {n : Int} {b : Nat} (lo : -b ≤ n) (hi : n < b) :
    encode n < 2 * b := by
  unfold encode
  split <;> omega

theorem decode_bounds {p b : Nat} (h : p < 2 * b) : -b ≤ decode p ∧ decode p < b := by
  unfold decode
  split <;> omega

/-- The place of a 32-bit integer. -/
def encode32 (n : Int32) : UInt32 := UInt32.ofNat (encode n.toInt)

/-- The 32-bit integer at a place below 2³². -/
def decode32 (place : UInt32) : Int32 := Int32.ofInt (decode place.toNat)

/-- The place of a 64-bit integer. -/
def encode64 (n : Int64) : UInt64 := UInt64.ofNat (encode n.toInt)

/-- The 64-bit integer at a place below 2⁶⁴. -/
def decode64 (place : UInt64) : Int64 := Int64.ofInt (decode place.toNat)

theorem decode32_encode32 (n : Int32) : decode32 (encode32 n) = n := by
  have lo := n.le_toInt
  have hi := n.toInt_lt
  have small := encode_lt_of_bounds (n := n.toInt) (b := 2 ^ 31) (by omega) (by omega)
  rw [decode32, encode32, UInt32.toNat_ofNat_of_lt' (by simpa [UInt32.size] using small),
    decode_encode, Int32.ofInt_toInt]

theorem encode32_decode32 (place : UInt32) : encode32 (decode32 place) = place := by
  have hi := place.toNat_lt
  have bounds := decode_bounds (p := place.toNat) (b := 2 ^ 31) (by omega)
  rw [encode32, decode32, Int32.toInt_ofInt_of_le (by omega) (by omega), encode_decode,
    UInt32.ofNat_toNat]

theorem decode64_encode64 (n : Int64) : decode64 (encode64 n) = n := by
  have lo := n.le_toInt
  have hi := n.toInt_lt
  have small := encode_lt_of_bounds (n := n.toInt) (b := 2 ^ 63) (by omega) (by omega)
  rw [decode64, encode64, UInt64.toNat_ofNat_of_lt' (by simpa [UInt64.size] using small),
    decode_encode, Int64.ofInt_toInt]

theorem encode64_decode64 (place : UInt64) : encode64 (decode64 place) = place := by
  have hi := place.toNat_lt
  have bounds := decode_bounds (p := place.toNat) (b := 2 ^ 63) (by omega)
  rw [encode64, decode64, Int64.toInt_ofInt_of_le (by omega) (by omega), encode_decode,
    UInt64.ofNat_toNat]

end Zigzag

end RoadAtlas
