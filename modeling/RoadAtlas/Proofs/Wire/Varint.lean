import Mathlib.Algebra.BigOperators.Ring.Finset
import RoadAtlas.Proofs.Wire.Reading

/-!
Numbers of any width, read at any place. A varint ends at its first byte that does not ask for
another one. It is read if that byte comes within the most bytes a number may take and before the
end of the region, and what it counts is the sum of the payloads up to it. Otherwise the failure
says which of the two ended first.

* `Varint.value_map_range` and `Varint.value_lt`: what a run of bytes adds up to;
* `Decoder.GoesOn`: some bytes ahead of a cursor all ask for another one; `goesOn_cases` says that
  they go on for good, or up to a last byte, or to the end of the region;
* `varintBytes_last`, `varintBytes_malformed`, `varintBytes_overrun`: what comes of each case;
* `varint_is_exact` puts them together, with the shortest form of each number.
-/

namespace RoadAtlas

/-! ### Payloads -/

namespace Varint

/-- The low seven bits of byte `i` count `2 ^ (7 * i)`. -/
lemma value_map_range (f : ℕ → UInt8) (n : ℕ) : value ((List.range n).map f) =
    ∑ i ∈ Finset.range n, (f i).toNat % 128 * 2 ^ (7 * i) := by
  induction n generalizing f with
  | zero => rfl
  | succ n ih =>
    have shifted (i : ℕ) : 128 * ((f (i + 1)).toNat % 128 * 2 ^ (7 * i)) =
        (f (i + 1)).toNat % 128 * 2 ^ (7 * (i + 1)) := by
      rw [Nat.mul_add, Nat.pow_add, Nat.mul_left_comm, Nat.mul_comm 128]
    have later := ih fun i => f (i + 1)
    rw [List.range_succ_eq_map, List.map_cons, List.map_map, value, Finset.sum_range_succ',
      ← Finset.sum_congr rfl fun i _ => shifted i, ← Finset.mul_sum, ← later]
    simp only [Nat.mul_zero, Nat.pow_zero, Nat.mul_one, Nat.add_comm]
    rfl

/-- Seven bits come from each byte. -/
lemma value_lt (bytes : List UInt8) : value bytes < 128 ^ bytes.length := by
  induction bytes with
  | nil => exact Nat.one_pos
  | cons b rest ih =>
    rw [value, List.length_cons, Nat.pow_succ]
    omega

/-- No run of bytes that counts a number of 64 bits is shorter than the form in which the number is
written. -/
lemma length_varint_le {bytes : List UInt8} (nonempty : bytes ≠ []) {n : UInt64}
    (counts : n.toNat = value bytes % 2 ^ 64) : (Wire.varint n).length ≤ bytes.length := by
  have positive := List.length_pos_iff.mpr nonempty
  have bounded := n.toNat_lt
  rcases Nat.lt_or_ge bytes.length maxLength with short | long
  · -- nine bytes count 63 bits, so nothing is lost
    have fits : value bytes < 2 ^ 64 := calc
      value bytes < 128 ^ bytes.length := value_lt bytes
      _ ≤ 128 ^ 9 := Nat.pow_le_pow_right (by decide) (Nat.le_of_lt_succ short)
      _ ≤ 2 ^ 64 := by decide
    refine length_encode_le ?_ positive
    rw [counts, Nat.mod_eq_of_lt fits]
    exact value_lt bytes
  · exact (length_encode_le (Nat.lt_of_lt_of_le bounded (by decide)) (by decide)).trans long

end Varint

namespace Decoder

variable {data : ByteArray} {c next : Cursor} {start left k : ℕ}

/-! ### Bytes ahead -/

/-- The byte at a distance from the position of a cursor, 0 behind the last byte. -/
def byteAhead (data : ByteArray) (c : Cursor) (i : ℕ) : UInt8 := data[c.position + i]?.getD 0

/-- The next `k` bytes are in the region, and each asks for another one. -/
def GoesOn (data : ByteArray) (c : Cursor) (k : ℕ) : Prop :=
  ∀ i < k, c.position + i < c.limit ∧ Varint.continues (byteAhead data c i) = true

lemma byteAhead_succ (data : ByteArray) (c : Cursor) (i : ℕ) :
    byteAhead data ⟨c.position + 1, c.limit⟩ i = byteAhead data c (i + 1) := by
  rw [byteAhead, byteAhead, Nat.add_assoc, Nat.add_comm 1]

lemma goesOn_succ : GoesOn data c (k + 1) ↔
    (c.position < c.limit ∧ Varint.continues (byteAhead data c 0) = true) ∧
      GoesOn data ⟨c.position + 1, c.limit⟩ k := by
  constructor
  · intro h
    refine ⟨h 0 (Nat.succ_pos k), fun i before => ?_⟩
    obtain ⟨inside, goes⟩ := h (i + 1) (Nat.succ_lt_succ before)
    rw [byteAhead_succ]
    exact ⟨by simp only; omega, goes⟩
  · rintro ⟨first, later⟩ i before
    cases i with
    | zero => exact first
    | succ i =>
      obtain ⟨inside, goes⟩ := later i (Nat.lt_of_succ_lt_succ before)
      rw [byteAhead_succ] at goes
      exact ⟨by simp only at inside; omega, goes⟩

/-- Of so many bytes, all ask for another one, or there is a first one that does not or that the
region does not have. -/
lemma goesOn_cases (data : ByteArray) (c : Cursor) (left : ℕ) : GoesOn data c left ∨
    ∃ k < left, GoesOn data c k ∧ (c.limit ≤ c.position + k ∨
      c.position + k < c.limit ∧ Varint.continues (byteAhead data c k) = false) := by
  induction left with
  | zero => exact .inl nofun
  | succ left ih =>
    rcases ih with goes | ⟨k, before, goes, ends⟩
    · rcases Nat.lt_or_ge (c.position + left) c.limit with inside | beyond
      · cases last : Varint.continues (byteAhead data c left) with
        | true =>
          refine .inl fun i before => ?_
          rcases Nat.lt_succ_iff_lt_or_eq.mp before with earlier | rfl
          · exact goes i earlier
          · exact ⟨inside, last⟩
        | false => exact .inr ⟨left, Nat.lt_succ_self left, goes, .inr ⟨inside, last⟩⟩
      · exact .inr ⟨left, Nat.lt_succ_self left, goes, .inl beyond⟩
    · exact .inr ⟨k, Nat.lt_succ_of_lt before, goes, ends⟩

/-! ### Runs of bytes -/

/-- A byte in the region is read as the first one ahead. -/
lemma byte_ends (data : ByteArray) (inside : c.position < c.limit) :
    (byte.run data c).Ends (byteAhead data c 0) ⟨c.position + 1, c.limit⟩ := by
  refine ⟨⟨rfl, Nat.le_succ _⟩, ?_⟩
  simp only [byte, Nat.not_le.mpr inside, ↓reduceIte]
  rfl

/-- A byte that asks for another one leaves the rest of the number to be read. -/
lemma run_varintBytes_succ (start left : ℕ) (inside : c.position < c.limit)
    (goes : Varint.continues (byteAhead data c 0) = true) :
    ∃ reach, (varintBytes start (left + 1)).run data c =
      (Outcome.done (byteAhead data c 0) ⟨c.position + 1, c.limit⟩ reach).andThen fun b c' _ =>
        ((b :: ·) <$> varintBytes start left).run data c' := by
  obtain ⟨reach, first⟩ := byte_ends data inside
  refine ⟨reach, ?_⟩
  rw [varintBytes, run_bind, first]
  simp only [Outcome.andThen, goes, ↓reduceIte, bind_pure_comp]

/-- Up to a byte that does not ask for another one, the bytes are those of the number. -/
lemma varintBytes_last (goes : GoesOn data c k) (inside : c.position + k < c.limit)
    (stops : Varint.continues (byteAhead data c k) = false) (short : k < left) :
    ((varintBytes start left).run data c).Ends ((List.range (k + 1)).map (byteAhead data c))
      ⟨c.position + (k + 1), c.limit⟩ := by
  induction k generalizing c left with
  | zero =>
    obtain ⟨left, rfl⟩ := Nat.exists_eq_add_one.mpr short
    rw [varintBytes, run_bind]
    refine (byte_ends data inside).andThen fun _ => ?_
    simp only [stops, Bool.false_eq_true, ↓reduceIte]
    exact ⟨.refl _, rfl⟩
  | succ k ih =>
    obtain ⟨left, rfl⟩ := Nat.exists_eq_add_one.mpr (Nat.zero_lt_of_lt short)
    obtain ⟨⟨here, first⟩, later⟩ := goesOn_succ.mp goes
    obtain ⟨reach, run⟩ := run_varintBytes_succ start left here first
    have rest := ih later (by simp only; omega) (by rwa [byteAhead_succ])
      (Nat.lt_of_succ_lt_succ short)
    have bytes : (List.range (k + 1 + 1)).map (byteAhead data c) = byteAhead data c 0 ::
        (List.range (k + 1)).map (byteAhead data ⟨c.position + 1, c.limit⟩) := by
      rw [List.range_succ_eq_map, List.map_cons, List.map_map]
      exact congrArg (_ :: ·) (List.map_congr_left fun i _ => (byteAhead_succ data c i).symm)
    have behind : c.position + (k + 1 + 1) = c.position + 1 + (k + 1) := by omega
    rw [run, bytes, behind]
    refine Outcome.Ends.andThen ⟨reach, rfl⟩ fun _ => ?_
    rw [run_map]
    exact rest.map

/-- Where a number goes on behind a byte, a failure of its rest is a failure of the number. -/
lemma run_varintBytes_failed {cause : DecodeError} {stopped : Cursor}
    (inside : c.position < c.limit) (goes : Varint.continues (byteAhead data c 0) = true)
    (fails : (varintBytes start left).run data ⟨c.position + 1, c.limit⟩ =
      .failed cause stopped) :
    (varintBytes start (left + 1)).run data c = .failed cause stopped := by
  obtain ⟨reach, run⟩ := run_varintBytes_succ start left inside goes
  rw [run, Outcome.andThen, run_map, fails]
  rfl

/-- Bytes that all ask for another one are no number. -/
lemma varintBytes_malformed (goes : GoesOn data c left) :
    (varintBytes start left).run data c =
      .failed (.malformedVarint start) ⟨c.position + left, c.limit⟩ := by
  induction left generalizing c with
  | zero => rfl
  | succ left ih =>
    obtain ⟨⟨here, first⟩, later⟩ := goesOn_succ.mp goes
    have rest := ih later
    rw [Nat.add_assoc, Nat.add_comm 1] at rest
    exact run_varintBytes_failed here first rest

/-- A region that ends while bytes ask for another one ends the number. -/
lemma varintBytes_overrun (goes : GoesOn data c k) (beyond : c.limit ≤ c.position + k)
    (short : k < left) : (varintBytes start left).run data c =
      .failed (c.overrun data (c.position + k)) ⟨c.position + k, c.limit⟩ := by
  induction k generalizing c left with
  | zero =>
    obtain ⟨left, rfl⟩ := Nat.exists_eq_add_one.mpr short
    have fails : byte.run data c = .failed (c.overrun data c.position) c := by
      simp only [byte, if_pos (show c.limit ≤ c.position from beyond)]
    rw [varintBytes, run_bind, fails]
    rfl
  | succ k ih =>
    obtain ⟨left, rfl⟩ := Nat.exists_eq_add_one.mpr (Nat.zero_lt_of_lt short)
    obtain ⟨⟨here, first⟩, later⟩ := goesOn_succ.mp goes
    have rest := ih later (by simp only; omega) (Nat.lt_of_succ_lt_succ short)
    simp only [Nat.add_assoc, Nat.add_comm 1] at rest
    exact run_varintBytes_failed here first rest

/-! ### Numbers -/

/-- A number is what its bytes add up to. -/
lemma run_varint (data : ByteArray) (c : Cursor) : varint.run data c =
    ((varintBytes c.position Varint.maxLength).run data c).map fun bytes =>
      UInt64.ofNat (Varint.value bytes) := by
  rw [← run_map]
  simp only [varint, run_bind, position, Outcome.andThen, bind_pure_comp]
  cases ((fun bytes => UInt64.ofNat (Varint.value bytes)) <$>
    varintBytes c.position Varint.maxLength).run data c <;> rfl

/-- The first byte that does not ask for another one stands at a distance of `k`, in the region and
among the bytes that a number may take. -/
structure LastAt (data : ByteArray) (c : Cursor) (k : ℕ) : Prop where
  short : k < Varint.maxLength
  goes : GoesOn data c k
  inside : c.position + k < c.limit
  stops : Varint.continues (byteAhead data c k) = false

lemma varint_last (last : LastAt data c k) : (varint.run data c).Ends
    (UInt64.ofNat (Varint.value ((List.range (k + 1)).map (byteAhead data c))))
    ⟨c.position + (k + 1), c.limit⟩ := by
  rw [run_varint]
  exact (varintBytes_last last.goes last.inside last.stops last.short).map

lemma varint_malformed (goes : GoesOn data c Varint.maxLength) : varint.run data c =
    .failed (.malformedVarint c.position) ⟨c.position + Varint.maxLength, c.limit⟩ := by
  rw [run_varint, varintBytes_malformed goes]
  rfl

lemma varint_overrun (goes : GoesOn data c k) (beyond : c.limit ≤ c.position + k)
    (short : k < Varint.maxLength) : varint.run data c =
      .failed (c.overrun data (c.position + k)) ⟨c.position + k, c.limit⟩ := by
  rw [run_varint, varintBytes_overrun goes beyond short]
  rfl

/-- What reading a number comes to: a last byte, too many bytes, or the end of the region. -/
lemma varint_cases (data : ByteArray) (inside : c.position ≤ c.limit) :
    (∃ k, LastAt data c k) ∨ GoesOn data c Varint.maxLength ∨
      c.limit < c.position + Varint.maxLength ∧ GoesOn data c c.remaining := by
  rcases goesOn_cases data c Varint.maxLength with goes | ⟨k, short, goes, beyond | ⟨here, stops⟩⟩
  · exact .inr (.inl goes)
  · -- the bytes go on in the region, so they do not go on behind its end
    have ended : c.remaining = k := by
      rw [Cursor.remaining]
      rcases Nat.eq_or_lt_of_le beyond with same | further
      · omega
      · have := (goes (c.limit - c.position) (by omega)).1
        omega
    exact .inr (.inr ⟨by omega, ended ▸ goes⟩)
  · exact .inl ⟨k, short, goes, here, stops⟩

/-- A number is read up to its first byte that does not ask for another one, and is what the bytes
up to it add up to. -/
lemma varint_ends_iff {n : UInt64} : (varint.run data c).Ends n next ↔
    ∃ k, LastAt data c k ∧ next = ⟨c.position + (k + 1), c.limit⟩ ∧
      n.toNat = Varint.value ((List.range (k + 1)).map (byteAhead data c)) % 2 ^ 64 := by
  constructor
  · intro h
    rcases goesOn_cases data c Varint.maxLength with goes | ⟨k, short, goes, beyond | ends⟩
    · obtain ⟨reach, done⟩ := h
      rw [varint_malformed goes] at done
      cases done
    · obtain ⟨reach, done⟩ := h
      rw [varint_overrun goes beyond short] at done
      cases done
    · have last : LastAt data c k := ⟨short, goes, ends.1, ends.2⟩
      obtain ⟨rfl, rfl⟩ := h.unique (varint_last last)
      exact ⟨k, last, rfl, UInt64.toNat_ofNat'⟩
  · rintro ⟨k, last, rfl, counts⟩
    have same : n = UInt64.ofNat (Varint.value ((List.range (k + 1)).map (byteAhead data c))) := by
      rw [← UInt64.toNat_inj, counts, UInt64.toNat_ofNat']
    exact same ▸ varint_last last

lemma overrun_ne_malformed {position : ℕ} : c.overrun data position ≠ .malformedVarint start := by
  rw [Cursor.overrun]
  split <;> exact nofun

/-- Bytes that the region has go on if each of them asks for another one. -/
lemma goesOn_iff (before : c.position + k ≤ c.limit) :
    GoesOn data c k ↔ ∀ i < k, Varint.continues (byteAhead data c i) = true :=
  forall₂_congr fun _ _ => and_iff_right (by omega)

/-- A number is read up to its first byte that does not ask for another one, and is the sum of the
payloads up to it. -/
lemma varint_ends_iff_sum {n : UInt64} : (varint.run data c).Ends n next ↔
    ∃ k < 10, (∀ i < k, Varint.continues (byteAhead data c i) = true) ∧
      c.position + k < c.limit ∧ Varint.continues (byteAhead data c k) = false ∧
      next = ⟨c.position + (k + 1), c.limit⟩ ∧
      n.toNat =
        (∑ i ∈ Finset.range (k + 1), (byteAhead data c i).toNat % 128 * 2 ^ (7 * i)) % 2 ^ 64 := by
  simp only [← Varint.value_map_range]
  rw [varint_ends_iff]
  constructor
  · rintro ⟨k, ⟨short, goes, inside, stops⟩, behind, counts⟩
    exact ⟨k, short, (goesOn_iff inside.le).mp goes, inside, stops, behind, counts⟩
  · rintro ⟨k, short, goes, inside, stops, behind, counts⟩
    exact ⟨k, ⟨short, (goesOn_iff inside.le).mpr goes, inside, stops⟩, behind, counts⟩

section Outcomes

variable (inside : c.position ≤ c.limit)

include inside

/-- One byte that does not ask for another one is enough for a number to be read. -/
lemma exists_varint_ends_iff : (∃ n next, (varint.run data c).Ends n next) ↔
    ∃ i < 10, c.position + i < c.limit ∧ Varint.continues (byteAhead data c i) = false := by
  constructor
  · rintro ⟨n, next, ends⟩
    obtain ⟨k, short, -, before, stops, -⟩ := varint_ends_iff_sum.mp ends
    exact ⟨k, short, before, stops⟩
  · rintro ⟨i, short, before, stops⟩
    rcases varint_cases data inside with ⟨k, last⟩ | goes | ⟨-, goes⟩
    · exact ⟨_, _, varint_last last⟩
    · exact absurd ((goes i short).2.symm.trans stops) (by decide)
    · have within : i < c.remaining := by
        rw [Cursor.remaining]
        omega
      exact absurd ((goes i within).2.symm.trans stops) (by decide)

/-- Too many bytes that ask for another one are the one way in which a number is malformed. -/
lemma eval_varint_malformed_iff :
    varint.eval data c = .error (.malformedVarint c.position) ↔
      c.position + 10 ≤ c.limit ∧ ∀ i < 10, Varint.continues (byteAhead data c i) = true := by
  have counted : GoesOn data c 10 ↔
      c.position + 10 ≤ c.limit ∧ ∀ i < 10, Varint.continues (byteAhead data c i) = true := by
    refine ⟨fun goes => ?_, fun ⟨before, goes⟩ => (goesOn_iff before).mpr goes⟩
    have before : c.position + 10 ≤ c.limit := (goes 9 (by decide)).1
    exact ⟨before, (goesOn_iff before).mp goes⟩
  rw [← counted]
  constructor
  · intro fails
    rcases varint_cases data inside with ⟨k, last⟩ | goes | ⟨short, goes⟩
    · rw [eval, (varint_last last).toExcept_eq] at fails
      cases fails
    · exact goes
    · rw [eval, varint_overrun goes (by rw [Cursor.remaining]; omega)
        (by rw [Cursor.remaining]; omega)] at fails
      exact absurd (Except.error.inj fails) overrun_ne_malformed
  · intro goes
    rw [eval, varint_malformed goes]
    rfl

/-- A region that ends while bytes ask for another one is the one way in which a number is cut. -/
lemma eval_varint_overrun_iff :
    varint.eval data c = .error (c.overrun data c.limit) ↔
      c.limit < c.position + 10 ∧
        ∀ i, c.position + i < c.limit → Varint.continues (byteAhead data c i) = true := by
  have whole : c.position + c.remaining = c.limit := by
    rw [Cursor.remaining]
    omega
  have counted : GoesOn data c c.remaining ↔
      ∀ i, c.position + i < c.limit → Varint.continues (byteAhead data c i) = true := by
    rw [goesOn_iff whole.le]
    refine forall_congr' fun i => imp_congr_left ?_
    rw [Cursor.remaining]
    omega
  rw [← counted]
  constructor
  · intro fails
    rcases varint_cases data inside with ⟨k, last⟩ | goes | short
    · rw [eval, (varint_last last).toExcept_eq] at fails
      cases fails
    · rw [eval, varint_malformed goes] at fails
      exact absurd (Except.error.inj fails).symm overrun_ne_malformed
    · exact short
  · rintro ⟨short, goes⟩
    have fits : c.remaining < Varint.maxLength := by
      rw [Varint.maxLength]
      omega
    rw [eval, varint_overrun goes whole.ge fits, whole]
    rfl

end Outcomes

/-! ### Written numbers -/

/-- Bytes of which all but the last ask for another one are, where they stand, the bytes ahead. -/
lemma ahead_of_complete {bytes : List UInt8} (complete : Varint.Complete bytes) {p limit : ℕ}
    (held : Holds data p bytes) (inside : p + bytes.length ≤ limit) :
    ∃ k, bytes = (List.range (k + 1)).map (byteAhead data ⟨p, limit⟩) ∧
      GoesOn data ⟨p, limit⟩ k ∧ Varint.continues (byteAhead data ⟨p, limit⟩ k) = false := by
  induction complete generalizing p with
  | @last b stops =>
    have here : byteAhead data ⟨p, limit⟩ 0 = b := by
      have := held 0 b rfl
      simp only [byteAhead, this, Option.getD_some]
    exact ⟨0, by simp [here], nofun, by rwa [here]⟩
  | @more b rest goes tail ih =>
    have here : byteAhead data ⟨p, limit⟩ 0 = b := by
      have := held 0 b rfl
      simp only [byteAhead, this, Option.getD_some]
    rw [List.length_cons] at inside
    obtain ⟨k, bytes, later, stops⟩ := ih (p := p + 1) (held.right (a := [b])) (by omega)
    have shifted := byteAhead_succ data ⟨p, limit⟩
    simp only at shifted
    refine ⟨k + 1, ?_, goesOn_succ.mpr ⟨⟨by simp only; omega, by rwa [here]⟩, later⟩,
      by rwa [← shifted]⟩
    rw [List.range_succ_eq_map, List.map_cons, List.map_map, here, bytes]
    exact congrArg (b :: ·) (List.map_congr_left fun i _ => shifted i)

/-- The written form of a number is read as the number, wherever it stands. -/
lemma varint_ends_of_held {n : UInt64} {p limit : ℕ} (held : Holds data p (Wire.varint n))
    (inside : p + (Wire.varint n).length ≤ limit) :
    (varint.run data ⟨p, limit⟩).Ends n ⟨p + (Wire.varint n).length, limit⟩ := by
  have spells := Varint.spells_varint n
  obtain ⟨k, bytes, goes, stops⟩ := ahead_of_complete spells.complete held inside
  have length : (Wire.varint n).length = k + 1 := by
    rw [bytes, List.length_map, List.length_range]
  have short := spells.length_le
  rw [length] at inside short
  have last : LastAt data ⟨p, limit⟩ k := ⟨short, goes, by simp only; omega, stops⟩
  have read := varint_last last
  rw [← bytes, spells.value_eq] at read
  rwa [length]

/-- No bytes fewer than those that are written are read as a number. -/
lemma length_varint_le_of_ends {n : UInt64} (h : (varint.run data c).Ends n next) :
    c.position + (Wire.varint n).length ≤ next.position := by
  obtain ⟨k, -, rfl, counts⟩ := varint_ends_iff.mp h
  have shortest := Varint.length_varint_le (by simp) counts
  rw [List.length_map, List.length_range] at shortest
  exact Nat.add_le_add_left shortest _

end Decoder

open Decoder

/-- Reading a number is decided by the next ten bytes, or by as many as the region has. It succeeds
if one of them does not ask for another one, stops behind the first of these, and gives the sum of
the payloads up to it modulo `2 ^ 64`. It fails for the form of the number, at the place where the
number began, if there are ten bytes and all of them ask for another one, and at the limit for the
end of the data or of the region if there are fewer. The written form of a number is read as that
number wherever it stands; it takes at most ten bytes, and nothing shorter is read as that number. -/
theorem varint_is_exact (data : ByteArray) (c : Cursor) (inside : c.position ≤ c.limit)
    (below : c.limit ≤ data.size) :
    ((∃ n next, (varint.run data c).Ends n next) ↔
      ∃ i < 10, c.position + i < c.limit ∧ Varint.continues (byteAhead data c i) = false) ∧
    (∀ n next, (varint.run data c).Ends n next ↔
      ∃ k < 10, (∀ i < k, Varint.continues (byteAhead data c i) = true) ∧
        c.position + k < c.limit ∧ Varint.continues (byteAhead data c k) = false ∧
        next = ⟨c.position + (k + 1), c.limit⟩ ∧
        n.toNat =
          (∑ i ∈ Finset.range (k + 1), (byteAhead data c i).toNat % 128 * 2 ^ (7 * i)) % 2 ^ 64) ∧
    (varint.eval data c = .error (.malformedVarint c.position) ↔
      c.position + 10 ≤ c.limit ∧ ∀ i < 10, Varint.continues (byteAhead data c i) = true) ∧
    (varint.eval data c =
        .error (if c.limit = data.size then .endOfData c.limit else .endOfRegion c.limit c.limit) ↔
      c.limit < c.position + 10 ∧
        ∀ i, c.position + i < c.limit → Varint.continues (byteAhead data c i) = true) ∧
    ∀ v : UInt64,
      (∀ (data : ByteArray) (p limit : ℕ), Holds data p (Wire.varint v) →
        p + (Wire.varint v).length ≤ limit →
          (varint.run data ⟨p, limit⟩).Ends v ⟨p + (Wire.varint v).length, limit⟩) ∧
      (Wire.varint v).length ≤ 10 ∧
      ∀ (data : ByteArray) (c next : Cursor), (varint.run data c).Ends v next →
        c.position + (Wire.varint v).length ≤ next.position := by
  have overrun : c.overrun data c.limit =
      if c.limit = data.size then .endOfData c.limit else .endOfRegion c.limit c.limit := by
    rw [Cursor.overrun]
    exact if_congr (by omega) rfl rfl
  refine ⟨exists_varint_ends_iff inside, fun n next => varint_ends_iff_sum,
    eval_varint_malformed_iff inside, ?_, fun v => ⟨?_, ?_, ?_⟩⟩
  · rw [← overrun]
    exact eval_varint_overrun_iff inside
  · exact fun data p limit held inside => varint_ends_of_held held inside
  · exact (Varint.spells_varint v).length_le
  · exact fun data c next ends => length_varint_le_of_ends ends

/-- Ten bytes in a region of eleven, of which the last counts one bit and loses the others. -/
theorem varint_is_exact_tenBytes :
    let data : ByteArray := [255, 128, 128, 128, 128, 128, 128, 128, 128, 3, 7, 9].toByteArray
    let c : Cursor := ⟨0, 11⟩
    c.position ≤ c.limit ∧ c.limit ≤ data.size ∧
      (varint.run data c).Ends (0x800000000000007f : UInt64) ⟨10, 11⟩ := by
  intro data c
  have inside : c.position ≤ c.limit := by decide
  have below : c.limit ≤ data.size := by decide +kernel
  obtain ⟨-, read, -⟩ := varint_is_exact data c inside below
  refine ⟨inside, below, (read _ _).mpr ⟨9, by decide, ?_, by decide, ?_, rfl, ?_⟩⟩
  · decide +kernel
  · decide +kernel
  · decide +kernel

end RoadAtlas
