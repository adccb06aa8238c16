/-!
Variable-length numbers: seven bits a byte, lowest first, every byte but the last with its high bit
set. `encode` writes the shortest form, `value` adds up the payloads of a run of bytes, and
`value_encode` says that they fit.
-/

namespace RoadAtlas

namespace Varint

/-- The most bytes a number may take. -/
def maxLength : Nat := 10

/-- The byte asks for another one. -/
def continues (b : UInt8) : Bool := 128 ≤ b

/-- The shortest varint of a number. -/
def encode (n : Nat) : List UInt8 :=
  if n < 128 then [UInt8.ofNat n] else UInt8.ofNat (n % 128 + 128) :: encode (n / 128)
termination_by n
decreasing_by omega

/-- What a run of varint bytes adds up to: the low seven bits of byte `i` count `2 ^ (7 * i)`. -/
def value : List UInt8 → Nat
  | [] => 0
  | b :: rest => b.toNat % 128 + 128 * value rest

theorem value_encode (n : Nat) : value (encode n) = n := by
  induction n using Nat.strongRecOn with
  | ind n ih =>
    rw [encode]
    split
    next small =>
      have byte : (UInt8.ofNat n).toNat = n := UInt8.toNat_ofNat_of_lt' (by simp [UInt8.size]; omega)
      simp only [value, byte]
      omega
    next big =>
      have byte : (UInt8.ofNat (n % 128 + 128)).toNat = n % 128 + 128 :=
        UInt8.toNat_ofNat_of_lt' (by simp [UInt8.size]; omega)
      rw [value, byte, ih (n / 128) (by omega)]
      omega

theorem encode_ne_nil (n : Nat) : encode n ≠ [] := by
  rw [encode]
  split <;> simp

end Varint

end RoadAtlas
