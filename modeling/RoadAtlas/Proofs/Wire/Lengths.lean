import RoadAtlas.Proofs.Wire.Relocation
import RoadAtlas.Wire.Reader

/-!
Length prefixes. A length is a varint of which the low 32 bits count. Whoever reads one goes on only
where the region has that many bytes left behind it, and is given exactly these.

* `Decoder.LengthAt`: a length prefix stands at a cursor;
* `Decoder.counted_ends_iff`, `take_ends_iff`, `be32_ends_iff`, `within_ends_iff`: when a prefix is
  read, and when what follows it is;
* `lengths_are_kept` says what the six readers of a prefix make of it, `length_cut` that a prefix of
  more than 32 bits is cut.
-/

namespace RoadAtlas

namespace Decoder

variable {α β : Type} {data : ByteArray} {c next : Cursor} {length : ℕ}

/-! ### Bytes and regions -/

/-- Bytes are taken where positions reach behind them and the region holds them. -/
lemma take_ends_iff {b : ByteArray} : ((take length).run data c).Ends b next ↔
    c.position + length < positionBound ∧ c.position + length ≤ c.limit ∧
      b = data.extract c.position (c.position + length) ∧
      next = ⟨c.position + length, c.limit⟩ := by
  constructor
  · rintro ⟨reach, done⟩
    simp only [take] at done
    split at done
    · cases done
    next addressed =>
      split at done
      · cases done
      next inside =>
        cases done
        exact ⟨Nat.lt_of_not_le addressed, Nat.le_of_not_lt inside, rfl, rfl⟩
  · rintro ⟨addressed, inside, rfl, rfl⟩
    refine ⟨⟨rfl, Nat.le_add_right _ _⟩, ?_⟩
    simp only [take, Nat.not_le.mpr addressed, Nat.not_lt.mpr inside, ↓reduceIte]

lemma skip_ends_iff : ((skip length).run data c).Ends () next ↔
    c.position + length < positionBound ∧ c.position + length ≤ c.limit ∧
      next = ⟨c.position + length, c.limit⟩ := by
  rw [skip, bind_ends_iff]
  constructor
  · rintro ⟨b, mid, taken, done⟩
    obtain ⟨-, rfl⟩ := pure_ends_iff.mp done
    obtain ⟨addressed, inside, -, rfl⟩ := take_ends_iff.mp taken
    exact ⟨addressed, inside, rfl⟩
  · rintro ⟨addressed, inside, rfl⟩
    exact ⟨_, _, take_ends_iff.mpr ⟨addressed, inside, rfl, rfl⟩, pure_ends_iff.mpr ⟨rfl, rfl⟩⟩

/-- The number that four bytes add up to, highest first. -/
lemma toNat_foldl_be32 (b₃ b₂ b₁ b₀ : UInt8) :
    ([b₃, b₂, b₁, b₀].toByteArray.foldl (fun n b => 256 * n + b.toUInt32) (0 : UInt32)).toNat =
      16777216 * b₃.toNat + 65536 * b₂.toNat + 256 * b₁.toNat + b₀.toNat := by
  have added : [b₃, b₂, b₁, b₀].toByteArray.foldl (fun n b => 256 * n + b.toUInt32) 0 =
      256 * (256 * (256 * (256 * 0 + b₃.toUInt32) + b₂.toUInt32) + b₁.toUInt32) +
        b₀.toUInt32 := rfl
  have := b₃.toNat_lt
  have := b₂.toNat_lt
  have := b₁.toNat_lt
  have := b₀.toNat_lt
  rw [added]
  simp only [UInt32.toNat_add, UInt32.toNat_mul, UInt8.toNat_toUInt32, UInt32.reduceToNat]
  omega

/-- Four bytes are those of the word that they add up to. -/
lemma be32_foldl (b₃ b₂ b₁ b₀ : UInt8) :
    Wire.be32 ([b₃, b₂, b₁, b₀].toByteArray.foldl (fun n b => 256 * n + b.toUInt32) 0) =
      [b₃, b₂, b₁, b₀] := by
  have := b₃.toNat_lt
  have := b₂.toNat_lt
  have := b₁.toNat_lt
  have := b₀.toNat_lt
  simp only [Wire.be32, List.cons.injEq, and_true, ← UInt8.toNat_inj, UInt32.toNat_toUInt8,
    UInt32.toNat_shiftRight, UInt32.reduceToNat, Nat.shiftRight_eq_div_pow, Nat.reduceMod,
    Nat.reducePow, toNat_foldl_be32]
  omega

lemma exists_toByteArray_of_size {b : ByteArray} (size : b.size = 4) :
    ∃ b₃ b₂ b₁ b₀, b = [b₃, b₂, b₁, b₀].toByteArray := by
  refine ⟨b[0], b[1], b[2], b[3], ByteArray.ext_getElem size fun i hi hi' => ?_⟩
  rw [List.getElem_toByteArray]
  obtain rfl | rfl | rfl | rfl : i = 0 ∨ i = 1 ∨ i = 2 ∨ i = 3 := by omega
  all_goals rfl

/-- A big-endian word is read where its four bytes stand. -/
lemma be32_ends_iff {n : UInt32} (inside : c.limit ≤ data.size) : (be32.run data c).Ends n next ↔
    c.position + 4 < positionBound ∧ c.position + 4 ≤ c.limit ∧
      data.extract c.position (c.position + 4) = (Wire.be32 n).toByteArray ∧
      next = ⟨c.position + 4, c.limit⟩ := by
  rw [be32, bind_ends_iff]
  constructor
  · rintro ⟨b, mid, taken, done⟩
    obtain ⟨rfl, rfl⟩ := pure_ends_iff.mp done
    obtain ⟨addressed, room, rfl, rfl⟩ := take_ends_iff.mp taken
    have size : (data.extract c.position (c.position + 4)).size = 4 := by
      rw [ByteArray.size_extract]
      omega
    obtain ⟨b₃, b₂, b₁, b₀, bytes⟩ := exists_toByteArray_of_size size
    refine ⟨addressed, room, ?_, rfl⟩
    rw [bytes, be32_foldl]
  · rintro ⟨addressed, room, bytes, rfl⟩
    refine ⟨_, _, take_ends_iff.mpr ⟨addressed, room, rfl, rfl⟩, pure_ends_iff.mpr ⟨?_, rfl⟩⟩
    rw [bytes, foldl_be32]

/-- A nested region is entered where the region around it holds it. -/
lemma within_ends_iff {x : Decoder α} {a : α} : ((within length x).run data c).Ends a next ↔
    c.position + length ≤ c.limit ∧
      ∃ stopped, (x.run data ⟨c.position, c.position + length⟩).Ends a
        ⟨stopped, c.position + length⟩ ∧ next = ⟨stopped, c.limit⟩ := by
  constructor
  · rintro ⟨reach, done⟩
    obtain ⟨inside, ⟨stopped, limit⟩, reach', inner, left⟩ := within_done done
    obtain rfl : limit = c.position + length := reach'.limit_eq
    obtain rfl : next.position = stopped := left
    exact ⟨Nat.le_of_not_lt inside, next.position, ⟨reach', inner⟩, reach.limit_eq ▸ rfl⟩
  · rintro ⟨inside, stopped, inner, rfl⟩
    exact ends_within inner inside

/-! ### Prefixes -/

/-- At a cursor stands a length prefix, and behind it the position is `start`. Of the number that it
spells the low 32 bits are the length. -/
def LengthAt (data : ByteArray) (c : Cursor) (length start : ℕ) : Prop :=
  ∃ n : UInt64, (varint.run data c).Ends n ⟨start, c.limit⟩ ∧ length = n.toNat % 2 ^ 32

lemma lengthAt_iff {start : ℕ} : LengthAt data c length start ↔
    ∃ n, (varint32.run data c).Ends n ⟨start, c.limit⟩ ∧ length = n.toNat := by
  simp only [LengthAt, varint32, bind_ends_iff, pure_ends_iff]
  constructor
  · rintro ⟨n, spelled, rfl⟩
    exact ⟨_, ⟨n, _, spelled, rfl, rfl⟩, (UInt64.toNat_toUInt32 n).symm⟩
  · rintro ⟨_, ⟨n, _, spelled, rfl, rfl⟩, rfl⟩
    exact ⟨n, spelled, UInt64.toNat_toUInt32 n⟩

/-- What begins with a length goes on behind a length prefix. -/
lemma counted_ends_iff {f : ℕ → Decoder α} {a : α} :
    ((do let length ← varint32; f length.toNat : Decoder α).run data c).Ends a next ↔
      ∃ length start, LengthAt data c length start ∧
        ((f length).run data ⟨start, c.limit⟩).Ends a next := by
  simp only [bind_ends_iff, lengthAt_iff]
  constructor
  · rintro ⟨n, ⟨start, limit⟩, spelled, later⟩
    obtain rfl : limit = c.limit := spelled.choose.limit_eq
    exact ⟨_, start, ⟨n, spelled, rfl⟩, later⟩
  · rintro ⟨_, start, ⟨n, spelled, rfl⟩, later⟩
    exact ⟨n, _, spelled, later⟩

/-- A region behind its length is entered where there is room for it. -/
lemma sized_ends_iff {x : Decoder α} {a : α} : ((sized x).run data c).Ends a next ↔
    ∃ length start, LengthAt data c length start ∧ start + length ≤ c.limit ∧
      ∃ stopped, (x.run data ⟨start, start + length⟩).Ends a ⟨stopped, start + length⟩ ∧
        next = ⟨stopped, c.limit⟩ :=
  (counted_ends_iff (f := fun length => within length x)).trans <|
    exists₂_congr fun _ _ => and_congr_right fun _ => within_ends_iff

/-- A region that is entered fails as what is read in it does. -/
lemma eval_sized_error {x : Decoder α} {start : ℕ} {cause : DecodeError}
    (counted : LengthAt data c length start) (inside : start + length ≤ c.limit)
    (fails : x.eval data ⟨start, start + length⟩ = .error cause) :
    (sized x).eval data c = .error cause := by
  obtain ⟨n, ⟨reach, head⟩, rfl⟩ := lengthAt_iff.mp counted
  have entered : ¬ c.limit < start + n.toNat := Nat.not_lt_of_le inside
  rw [eval] at fails ⊢
  simp only [sized, run_bind, head, Outcome.andThen, within, entered, ↓reduceIte]
  cases inner : x.run data ⟨start, start + n.toNat⟩ with
  | done a next reach' =>
    rw [inner] at fails
    cases fails
  | failed cause' stopped =>
    rw [inner] at fails
    cases fails
    rfl

/-! ### Readers of a prefix -/

section Readers

variable (addressable : data.size < positionBound) (inside : c.limit ≤ data.size)

include addressable inside

lemma bytes_ends_iff {b : ByteArray} : (bytes.run data c).Ends b next ↔
    ∃ length start, LengthAt data c length start ∧ start + length ≤ c.limit ∧
      b = data.extract start (start + length) ∧ b.size = length ∧
      next = ⟨start + length, c.limit⟩ := by
  refine (counted_ends_iff (f := take)).trans ?_
  refine exists₂_congr fun length start => and_congr_right fun _ => ?_
  rw [take_ends_iff]
  constructor
  · rintro ⟨-, room, rfl, rfl⟩
    refine ⟨room, rfl, ?_, rfl⟩
    rw [ByteArray.size_extract, Nat.min_eq_left (room.trans inside), Nat.add_sub_cancel_left]
  · rintro ⟨room, rfl, -, rfl⟩
    exact ⟨Nat.lt_of_le_of_lt (room.trans inside) addressable, room, rfl, rfl⟩

lemma skipField_sized_ends_iff (field : ℕ) :
    ((skipField ⟨field, WireType.lengthDelimited.code⟩).run data c).Ends () next ↔
      ∃ length start, LengthAt data c length start ∧ start + length ≤ c.limit ∧
        next = ⟨start + length, c.limit⟩ := by
  refine (counted_ends_iff (f := skip)).trans ?_
  refine exists₂_congr fun length start => and_congr_right fun _ => ?_
  rw [skip_ends_iff]
  refine and_iff_right_of_imp fun ⟨room, _⟩ => ?_
  exact Nat.lt_of_le_of_lt (room.trans inside) addressable

lemma string_ends_iff {text : String} : (string.run data c).Ends text next ↔
    ∃ length start, LengthAt data c length start ∧ start + length ≤ c.limit ∧
      String.fromUTF8? (data.extract start (start + length)) = some text ∧
      next = ⟨start + length, c.limit⟩ := by
  rw [string, run_position_bind, bind_ends_iff]
  constructor
  · rintro ⟨encoded, mid, counted, decoded⟩
    obtain ⟨length, start, prefixed, room, rfl, -, rfl⟩ :=
      (bytes_ends_iff addressable inside).mp counted
    refine ⟨length, start, prefixed, room, ?_⟩
    split at decoded
    next found =>
      obtain ⟨rfl, rfl⟩ := pure_ends_iff.mp decoded
      exact ⟨found, rfl⟩
    next =>
      obtain ⟨_, ⟨⟩⟩ := decoded
  · rintro ⟨length, start, prefixed, room, found, rfl⟩
    have taken : (take length).run data ⟨start, c.limit⟩ |>.Ends
        (data.extract start (start + length)) ⟨start + length, c.limit⟩ :=
      take_ends_iff.mpr ⟨Nat.lt_of_le_of_lt (room.trans inside) addressable, room, rfl, rfl⟩
    refine ⟨_, _, (counted_ends_iff (f := take)).mpr ⟨_, _, prefixed, taken⟩, ?_⟩
    rw [found]
    exact pure_ends_iff.mpr ⟨rfl, rfl⟩

end Readers

/-- Packed numbers are read to the end of their region. -/
lemma packed_ends_iff {numbers : Array UInt32} : (packed.run data c).Ends numbers next ↔
    ∃ length start, LengthAt data c length start ∧ start + length ≤ c.limit ∧
      ((entries #[] fun n ns => pure (ns.push n)).run data ⟨start, start + length⟩).Ends numbers
        ⟨start + length, start + length⟩ ∧ next = ⟨start + length, c.limit⟩ := by
  refine sized_ends_iff.trans ?_
  refine exists₂_congr fun length start => and_congr_right fun _ => and_congr_right fun _ => ?_
  constructor
  · rintro ⟨stopped, ends, rfl⟩
    have atEnd := entries_exhausts _ _ data _ _ _ ends
    have within : stopped ≤ start + length :=
      (entries_local (fun _ _ => pure_local _) _).position_le (Nat.le_add_right _ _)
        ends.choose_spec
    obtain rfl : stopped = start + length := Nat.le_antisymm within atEnd
    exact ⟨ends, rfl⟩
  · rintro ⟨ends, rfl⟩
    exact ⟨_, ends, rfl⟩

/-- A length prefix narrows the region where there is room for as many bytes. -/
lemma pushSized_eq_ok_iff {outer : List ℕ} {r : Reader} :
    Reader.pushSized varint32 data ⟨c, outer⟩ = (.ok (), r) ↔
      ∃ length start, LengthAt data c length start ∧ start + length ≤ c.limit ∧
        r = ⟨⟨start, start + length⟩, c.limit :: outer⟩ := by
  simp only [lengthAt_iff]
  cases run : varint32.run data c with
  | failed cause stopped =>
    have fails : Reader.pushSized varint32 data ⟨c, outer⟩ = (.error cause, ⟨stopped, outer⟩) := by
      rw [Reader.pushSized, Reader.read, run]
      rfl
    rw [fails]
    constructor
    · rintro ⟨⟩
    · rintro ⟨_, _, ⟨_, ⟨_, ⟨⟩⟩, _⟩, _⟩
  | done n mid reach =>
    have goesOn : Reader.pushSized varint32 data ⟨c, outer⟩ =
        Reader.push n.toNat ⟨mid, outer⟩ := by
      rw [Reader.pushSized, Reader.read, run]
      rfl
    obtain ⟨start, limit⟩ := mid
    obtain rfl : limit = c.limit := reach.limit_eq
    rw [goesOn, Reader.push, Cursor.narrow]
    constructor
    · intro pushed
      split at pushed
      next narrowed =>
        split at narrowed
        · cases narrowed
        next room =>
          cases narrowed
          cases pushed
          exact ⟨_, _, ⟨n, ⟨reach, rfl⟩, rfl⟩, Nat.le_of_not_lt room, rfl⟩
      next => cases pushed
    · rintro ⟨_, _, ⟨_, ⟨_, ⟨⟩⟩, rfl⟩, room, rfl⟩
      rw [if_neg (Nat.not_lt.mpr room)]

end Decoder

open Decoder

/-- No reader of a length prefix takes more than there is, and none takes less than the length. Each
succeeds only where the region has as many bytes behind the prefix as the low 32 bits of the prefix
say, and what it gives is made of exactly these: a byte string or a text is them, a field that is
passed over ends with them, a region that is entered is them, and the numbers and texts of a list are
read from such a region. -/
theorem lengths_are_kept (data : ByteArray) (c : Cursor) (addressable : data.size < positionBound)
    (inside : c.limit ≤ data.size) :
    (∀ b next, (bytes.run data c).Ends b next ↔
      ∃ length start, LengthAt data c length start ∧ start + length ≤ c.limit ∧
        b = data.extract start (start + length) ∧ b.size = length ∧
        next = ⟨start + length, c.limit⟩) ∧
    (∀ text next, (string.run data c).Ends text next ↔
      ∃ length start, LengthAt data c length start ∧ start + length ≤ c.limit ∧
        String.fromUTF8? (data.extract start (start + length)) = some text ∧
        next = ⟨start + length, c.limit⟩) ∧
    (∀ outer r, Reader.pushSized varint32 data ⟨c, outer⟩ = (.ok (), r) ↔
      ∃ length start, LengthAt data c length start ∧ start + length ≤ c.limit ∧
        r = ⟨⟨start, start + length⟩, c.limit :: outer⟩) ∧
    (∀ numbers next, (packed.run data c).Ends numbers next ↔
      ∃ length start, LengthAt data c length start ∧ start + length ≤ c.limit ∧
        ((entries #[] fun n ns => pure (ns.push n)).run data ⟨start, start + length⟩).Ends numbers
          ⟨start + length, start + length⟩ ∧ next = ⟨start + length, c.limit⟩) ∧
    (∀ strings next, (stringTable.run data c).Ends strings next ↔
      ∃ length start, LengthAt data c length start ∧ start + length ≤ c.limit ∧
        ∃ stopped, (stringTableBody.run data ⟨start, start + length⟩).Ends strings
          ⟨stopped, start + length⟩ ∧ next = ⟨stopped, c.limit⟩) ∧
    ∀ field next, ((skipField ⟨field, WireType.lengthDelimited.code⟩).run data c).Ends () next ↔
      ∃ length start, LengthAt data c length start ∧ start + length ≤ c.limit ∧
        next = ⟨start + length, c.limit⟩ :=
  ⟨fun _ _ => bytes_ends_iff addressable inside, fun _ _ => string_ends_iff addressable inside,
    fun _ _ => pushSized_eq_ok_iff, fun _ _ => packed_ends_iff, fun _ _ => sized_ends_iff,
    fun field _ => skipField_sized_ends_iff addressable inside field⟩

/-- Three bytes behind their length, the fourth lies beyond the region. -/
theorem lengths_are_kept_threeBytes :
    let data : ByteArray := [3, 97, 98, 99, 100].toByteArray
    data.size < positionBound ∧ 4 ≤ data.size ∧
      ∃ length start, LengthAt data ⟨0, 4⟩ length start ∧ start + length ≤ 4 ∧
        [97, 98, 99].toByteArray = data.extract start (start + length) ∧
        [97, 98, 99].toByteArray.size = length ∧ (⟨4, 4⟩ : Cursor) = ⟨start + length, 4⟩ := by
  intro data
  have addressable : data.size < positionBound := by decide +kernel
  have inside : 4 ≤ data.size := by decide +kernel
  obtain ⟨taken, -⟩ := lengths_are_kept data ⟨0, 4⟩ addressable inside
  exact ⟨addressable, inside, (taken _ ⟨4, 4⟩).mp ⟨⟨rfl, Nat.zero_le _⟩, rfl⟩⟩

/-- A prefix that says `2 ^ 32 + 3` is read as 3: a reader succeeds although the region does not
have as many bytes as the prefix says. -/
theorem length_cut :
    ¬ ∀ (data : ByteArray) (c : Cursor) (n : UInt64) (start : ℕ) (b : ByteArray) (next : Cursor),
      data.size < positionBound → c.limit ≤ data.size →
        (varint.run data c).Ends n ⟨start, c.limit⟩ → (bytes.run data c).Ends b next →
          start + n.toNat ≤ c.limit := by
  intro kept
  let data : ByteArray := [131, 128, 128, 128, 16, 97, 98, 99].toByteArray
  have spelled : (varint.run data ⟨0, 8⟩).Ends
      (UInt64.ofNat (Varint.value [131, 128, 128, 128, 16])) ⟨5, 8⟩ :=
    ⟨⟨rfl, Nat.zero_le _⟩, rfl⟩
  have addressable : data.size < positionBound := by decide +kernel
  have inside : 8 ≤ data.size := by decide +kernel
  have prefixed : LengthAt data ⟨0, 8⟩ 3 5 := ⟨_, spelled, by decide +kernel⟩
  have taken := (bytes_ends_iff addressable inside).mpr
    ⟨3, 5, prefixed, Nat.le_refl 8, rfl, by decide +kernel, rfl⟩
  have room := kept data ⟨0, 8⟩ _ 5 _ _ addressable inside spelled taken
  exact absurd room (by decide +kernel)

end RoadAtlas
