import Mathlib.Algebra.Group.Nat.Defs
import Mathlib.Tactic.Common
import RoadAtlas.Wire.Writing

/-!
Reading back what was written. Data `Holds` some bytes from a position on, and a decoder reads them
as a value when it returns that value and stops right behind them, in whatever data and under
whatever limit they stand. The relation is stated at a position, because some decoders answer with
positions.

* `Decoder.ReadsAt`: the bytes are read as a value, and more may follow in the region;
* `Decoder.FillsAt`: the same of bytes that fill their region;
* `ReadsAt.bind`, `FillsAt.bind`: reading follows the composition of decoders, writing that of
  bytes;
* `Varint.Spells`: a number may be spelled in other forms than the shortest;
* `varint_readsAt`, `string_readsAt`, `ReadsAt.sized`, …: each scalar and each nested region is
  read as what was written.
-/

namespace RoadAtlas

/-- From a position on, the data holds some bytes. -/
def Holds (data : ByteArray) (position : Nat) (bytes : List UInt8) : Prop :=
  ∀ i b, bytes[i]? = some b → data[position + i]? = some b

namespace Holds

variable {data : ByteArray} {p : Nat} {a b : List UInt8}

lemma left (h : Holds data p (a ++ b)) : Holds data p a := by
  intro i x hx
  have hi : i < a.length := (List.getElem?_eq_some_iff.mp hx).1
  exact h i x (by rw [List.getElem?_append_left hi]; exact hx)

lemma right (h : Holds data p (a ++ b)) : Holds data (p + a.length) b := by
  intro i x hx
  rw [Nat.add_assoc]
  exact h (a.length + i) x (by
    rw [List.getElem?_append_right (Nat.le_add_right _ _), Nat.add_sub_cancel_left]
    exact hx)

/-- Bytes that are held lie inside the data. -/
lemma le_size (h : Holds data p a) (hne : a ≠ []) : p + a.length ≤ data.size := by
  have hpos : 0 < a.length := List.length_pos_iff.mpr hne
  have hlast := h (a.length - 1) a[a.length - 1] (List.getElem?_eq_getElem (by omega))
  have hlt : p + (a.length - 1) < data.size := by
    by_contra hge
    rw [getElem?_neg data _ hge] at hlast
    simp at hlast
  omega

/-- The bytes held are the stretch of the data that they cover. -/
lemma extract_eq (h : Holds data p a) (hin : p + a.length ≤ data.size) :
    data.extract p (p + a.length) = a.toByteArray := by
  refine ByteArray.ext_getElem ?_ fun i hi hi' => ?_
  · rw [ByteArray.size_extract, List.size_toByteArray]
    omega
  · rw [List.size_toByteArray] at hi'
    have hb := h i a[i] (List.getElem?_eq_getElem hi')
    rw [getElem?_pos data (p + i) (by omega)] at hb
    rw [ByteArray.getElem_extract, List.getElem_toByteArray]
    exact Option.some.inj hb

end Holds

/-- Bytes that stand between others are held where they start. -/
lemma holds_toByteArray (front bytes back : List UInt8) :
    Holds (front ++ bytes ++ back).toByteArray front.length bytes := by
  intro i b h
  have inside : i < bytes.length := (List.getElem?_eq_some_iff.mp h).1
  have bounded : front.length + i < (front ++ bytes ++ back).toByteArray.size := by
    simp only [List.size_toByteArray, List.length_append]
    omega
  rw [getElem?_pos (front ++ bytes ++ back).toByteArray _ bounded, List.getElem_toByteArray,
    ← List.getElem?_eq_getElem, List.append_assoc,
    List.getElem?_append_right (Nat.le_add_right _ _), Nat.add_sub_cancel_left,
    List.getElem?_append_left inside, h]

/-- Bytes at the end are held where they start. -/
lemma holds_append (front bytes : List UInt8) :
    Holds (front ++ bytes).toByteArray front.length bytes := by
  have h := holds_toByteArray front bytes []
  rwa [List.append_nil] at h

/-! ### The bytes of a text -/

lemma toList_loop (b : ByteArray) : ∀ (left i : ℕ) (r : List UInt8), left = b.size - i →
    ByteArray.toList.loop b i r = r.reverse ++ b.data.toList.drop i := by
  intro left
  induction left with
  | zero =>
    intro i r h
    rw [ByteArray.toList.loop, if_neg (by omega), List.drop_eq_nil_of_le, List.append_nil]
    rw [Array.length_toList]
    exact (by omega : b.size ≤ i)
  | succ left ih =>
    intro i r h
    have hi : i < b.data.toList.length := by
      rw [Array.length_toList]
      exact (by omega : i < b.size)
    have hget : b.get! i = b.data.toList[i] := by
      rw [Array.getElem_toList]
      exact getElem!_pos b.data i (by rwa [Array.length_toList] at hi)
    rw [ByteArray.toList.loop, if_pos (by omega), ih (i + 1) _ (by omega), List.reverse_cons,
      List.append_assoc, List.singleton_append, hget, ← List.drop_eq_getElem_cons hi]

/-- Bytes listed one by one make up the same bytes again. -/
lemma toByteArray_toList (b : ByteArray) : b.toList.toByteArray = b := by
  have h := toList_loop b b.size 0 [] (by omega)
  rw [List.reverse_nil, List.nil_append, List.drop_zero] at h
  rw [ByteArray.toList, h]
  apply ByteArray.ext
  rw [List.data_toByteArray, Array.toArray_toList]

/-- The bytes of a text make up the text. -/
lemma fromUTF8?_utf8 (text : String) :
    String.fromUTF8? (Wire.utf8 text).toByteArray = some text := by
  rw [Wire.utf8, toByteArray_toList, String.toUTF8_eq_toByteArray, String.fromUTF8?,
    dif_pos text.isValidUTF8]
  rfl

/-! ### Reading at a position -/

/-- Decoding ended in a value at a cursor. -/
def Outcome.Ends {α : Type} {c : Cursor} (o : Outcome α c) (value : α) (next : Cursor) : Prop :=
  ∃ reach, o = .done value next reach

namespace Outcome.Ends

variable {α β : Type} {c mid next : Cursor} {o : Outcome α c} {a : α} {b : β}

/-- Decoding ends in one way. -/
lemma unique {a' : α} {next' : Cursor} (h : o.Ends a next) (h' : o.Ends a' next') :
    a = a' ∧ next = next' := by
  obtain ⟨r, rfl⟩ := h
  obtain ⟨r', same⟩ := h'
  cases same
  exact ⟨rfl, rfl⟩

lemma andThen {f : α → (c' : Cursor) → c.Reaches c' → Outcome β c'} (h : o.Ends a mid)
    (hf : ∀ reach, (f a mid reach).Ends b next) : (o.andThen f).Ends b next := by
  obtain ⟨r, rfl⟩ := h
  obtain ⟨r', hr'⟩ := hf r
  exact ⟨r.trans r', by rw [Outcome.andThen, hr']⟩

/-- What goes on behind a success ends as it does from there. -/
lemma andThen_iff {g : α → (c' : Cursor) → Outcome β c'} (h : o.Ends a mid) :
    (o.andThen fun a c' _ => g a c').Ends b next ↔ (g a mid).Ends b next := by
  constructor
  · rintro ⟨reach, done⟩
    obtain ⟨a', mid', r, r', here, later⟩ := andThen_eq_done done
    obtain ⟨rfl, rfl⟩ := h.unique ⟨r, here⟩
    exact ⟨r', later⟩
  · exact fun hg => h.andThen fun _ => hg

lemma map {f : α → β} (h : o.Ends a next) : (o.map f).Ends (f a) next := by
  obtain ⟨r, rfl⟩ := h
  exact ⟨r, rfl⟩

/-- What ended in a value evaluates to it. -/
lemma toExcept_eq (h : o.Ends a next) : o.toExcept = .ok a := by
  obtain ⟨r, rfl⟩ := h
  rfl

end Outcome.Ends

/-! ### Spellings of a number -/

namespace Varint

/-- Seven bits go into each byte of a varint. -/
lemma length_encode_le {n k : ℕ} (h : n < 128 ^ k) (hk : 0 < k) : (encode n).length ≤ k := by
  induction k generalizing n with
  | zero => omega
  | succ k ih =>
    rw [encode]
    split
    · simp
    · rw [Nat.pow_succ] at h
      have hk' : 0 < k := by
        rcases Nat.eq_zero_or_pos k with rfl | hk'
        · omega
        · exact hk'
      have := ih (n := n / 128) (by omega) hk'
      rw [List.length_cons]
      omega

/-- All bytes but the last ask for another one. -/
inductive Complete : List UInt8 → Prop
  | last {b : UInt8} (stops : continues b = false) : Complete [b]
  | more {b : UInt8} {rest : List UInt8} (goes : continues b = true) (tail : Complete rest) :
      Complete (b :: rest)

lemma Complete.length_pos {bytes : List UInt8} (h : Complete bytes) : 0 < bytes.length := by
  cases h <;> simp

lemma complete_encode (n : ℕ) : Complete (encode n) := by
  induction n using Nat.strongRecOn with
  | ind n ih =>
    rw [encode]
    split
    next small =>
      refine .last ?_
      simp [continues, UInt8.le_iff_toNat_le]
      omega
    next big =>
      refine .more ?_ (ih (n / 128) (by omega))
      simp [continues, UInt8.le_iff_toNat_le]
      omega

/-- The bytes are read as a number, whether or not they are its shortest form. -/
structure Spells (bytes : List UInt8) (n : UInt64) : Prop where
  complete : Complete bytes
  length_le : bytes.length ≤ maxLength
  value_eq : UInt64.ofNat (value bytes) = n

/-- The shortest form is one of the forms. -/
lemma spells_varint (n : UInt64) : Spells (Wire.varint n) n where
  complete := complete_encode n.toNat
  length_le := length_encode_le (Nat.lt_of_lt_of_le n.toNat_lt (by decide)) (by decide)
  value_eq := by rw [Wire.varint, value_encode, UInt64.ofNat_toNat]

end Varint

namespace Decoder

variable {α β σ : Type} {p : Nat} {bytes more : List UInt8}

/-- The decoder reads the bytes at a position as a value, in every region that holds them. -/
def ReadsAt (x : Decoder α) (p : Nat) (bytes : List UInt8) (value : α) : Prop :=
  ∀ data limit, data.size < positionBound → limit ≤ data.size → Holds data p bytes →
    p + bytes.length ≤ limit → (x.run data ⟨p, limit⟩).Ends value ⟨p + bytes.length, limit⟩

/-- The decoder reads the bytes at a position as a value when they fill their region. -/
def FillsAt (x : Decoder α) (p : Nat) (bytes : List UInt8) (value : α) : Prop :=
  ∀ data, data.size < positionBound → p + bytes.length ≤ data.size → Holds data p bytes →
    (x.run data ⟨p, p + bytes.length⟩).Ends value ⟨p + bytes.length, p + bytes.length⟩

/-! ### Composition -/

lemma pure_readsAt (a : α) : (pure a : Decoder α).ReadsAt p [] a :=
  fun _ _ _ _ _ _ => ⟨.refl _, rfl⟩

lemma ReadsAt.bind {x : Decoder α} {f : α → Decoder β} {a : α} {b : β}
    (hx : x.ReadsAt p bytes a) (hf : (f a).ReadsAt (p + bytes.length) more b) :
    (x >>= f).ReadsAt p (bytes ++ more) b := by
  intro data limit small below held inside
  rw [List.length_append] at inside ⊢
  rw [← Nat.add_assoc]
  rw [run_bind]
  exact (hx data limit small below held.left (by omega)).andThen fun _ =>
    hf data limit small below held.right (by omega)

lemma FillsAt.bind {x : Decoder α} {f : α → Decoder β} {a : α} {b : β}
    (hx : x.ReadsAt p bytes a) (hf : (f a).FillsAt (p + bytes.length) more b) :
    (x >>= f).FillsAt p (bytes ++ more) b := by
  intro data small inside held
  rw [List.length_append, ← Nat.add_assoc] at inside ⊢
  rw [run_bind]
  exact (hx data _ small inside held.left (Nat.le_add_right _ _)).andThen fun _ =>
    hf data small inside held.right

/-- What goes on behind some bytes without reading more. -/
lemma ReadsAt.bind_nil {x : Decoder α} {f : α → Decoder β} {a : α} {b : β}
    (hx : x.ReadsAt p bytes a) (hf : (f a).ReadsAt (p + bytes.length) [] b) :
    (x >>= f).ReadsAt p bytes b := by
  have h := hx.bind hf
  rwa [List.append_nil] at h

/-- A decoder that answers with what another one read. -/
lemma ReadsAt.bind_pure {x : Decoder α} {f : α → β} {a : α} (hx : x.ReadsAt p bytes a) :
    (do let a ← x; return f a : Decoder β).ReadsAt p bytes (f a) :=
  hx.bind_nil (pure_readsAt (f a))

lemma ReadsAt.map {x : Decoder α} {a : α} (hx : x.ReadsAt p bytes a) (f : α → β) :
    (f <$> x).ReadsAt p bytes (f a) := by
  intro data limit small below held inside
  rw [run_map]
  exact (hx data limit small below held inside).map

lemma FillsAt.map {x : Decoder α} {a : α} (hx : x.FillsAt p bytes a) (f : α → β) :
    (f <$> x).FillsAt p bytes (f a) := by
  intro data small inside held
  rw [run_map]
  exact (hx data small inside held).map

lemma position_readsAt : position.ReadsAt p [] p :=
  fun _ _ _ _ _ _ => ⟨.refl _, rfl⟩

lemma ofExcept_readsAt {e : Except DecodeError α} {a : α} (h : e = .ok a) :
    (ofExcept e).ReadsAt p [] a := by
  rw [h]
  exact pure_readsAt a

/-- A decoder that asks for the position first. -/
lemma ReadsAt.position_bind {f : Nat → Decoder β} {b : β} (hf : (f p).ReadsAt p bytes b) :
    (position >>= f).ReadsAt p bytes b := by
  have h := position_readsAt.bind hf
  exact h

/-! ### Numbers -/

lemma byte_readsAt (b : UInt8) : byte.ReadsAt p [b] b := by
  intro data limit _ _ held inside
  rw [List.length_singleton] at inside ⊢
  have hb : data[p]? = some b := held 0 b rfl
  have hlt : ¬limit ≤ p := by omega
  refine ⟨⟨rfl, Nat.le_succ _⟩, ?_⟩
  simp only [byte, hlt, ↓reduceIte, hb, Option.getD_some]

/-- Bytes that are counted are taken as they are. -/
lemma take_readsAt (bytes : List UInt8) :
    (take bytes.length).ReadsAt p bytes bytes.toByteArray := by
  intro data limit small below held inside
  refine ⟨⟨rfl, Nat.le_add_right _ _⟩, ?_⟩
  have addressed : ¬positionBound ≤ p + bytes.length := by omega
  have within : ¬limit < p + bytes.length := by omega
  simp only [take, addressed, within, ↓reduceIte, held.extract_eq (by omega)]

lemma skip_readsAt (bytes : List UInt8) : (skip bytes.length).ReadsAt p bytes () :=
  (take_readsAt bytes).bind_pure

/-- Bytes that fill their region are all that is left in it. -/
lemma remaining_fillsAt (bytes : List UInt8) :
    (remaining >>= take).FillsAt p bytes bytes.toByteArray := by
  intro data small inside held
  have counted : Cursor.remaining ⟨p, p + bytes.length⟩ = bytes.length :=
    Nat.add_sub_cancel_left ..
  have left : (remaining.run data ⟨p, p + bytes.length⟩).Ends bytes.length
      ⟨p, p + bytes.length⟩ := ⟨.refl _, by simp only [remaining, counted]⟩
  rw [run_bind]
  exact left.andThen fun _ => take_readsAt bytes data _ small inside held (Nat.le_refl _)

lemma varintBytes_readsAt (start : ℕ) (complete : Varint.Complete bytes) : ∀ {left p : ℕ},
    bytes.length ≤ left → (varintBytes start left).ReadsAt p bytes bytes := by
  induction complete with
  | last stops =>
    intro left p fits
    cases left with
    | zero => exact absurd fits (by simp)
    | succ left =>
      rw [varintBytes]
      refine (byte_readsAt _).bind_nil ?_
      rw [stops]
      exact pure_readsAt _
  | @more b rest goes tail ih =>
    intro left p fits
    cases left with
    | zero => exact absurd fits (by simp)
    | succ left =>
      rw [varintBytes]
      change ReadsAt _ p ([b] ++ rest) _
      refine (byte_readsAt b).bind ?_
      rw [goes]
      exact (ih (Nat.le_of_succ_le_succ fits)).bind_pure

lemma spells_readsAt {n : UInt64} (h : Varint.Spells bytes n) : varint.ReadsAt p bytes n := by
  rw [← h.value_eq]
  exact ReadsAt.position_bind (varintBytes_readsAt p h.complete h.length_le).bind_pure

lemma varint_readsAt (n : UInt64) : varint.ReadsAt p (Wire.varint n) n :=
  spells_readsAt (Varint.spells_varint n)

lemma varint32_readsAt (n : UInt32) : varint32.ReadsAt p (Wire.varint32 n) n := by
  have h : varint32.ReadsAt p (Wire.varint n.toUInt64) n.toUInt64.toUInt32 :=
    (varint_readsAt n.toUInt64).bind_pure
  rwa [UInt32.toUInt32_toUInt64] at h

/-- A 32-bit read gives the low half of a number. -/
lemma varint32_readsAt_ofNat (n : ℕ) :
    varint32.ReadsAt p (Wire.varint (UInt64.ofNat n)) (UInt32.ofNat n) := by
  have low : (UInt64.ofNat n).toUInt32 = UInt32.ofNat n := by simp
  rw [← low]
  exact (varint_readsAt _).bind_pure

lemma sint32_readsAt (n : Int32) : sint32.ReadsAt p (Wire.varint32 (Zigzag.encode32 n)) n := by
  have h : sint32.ReadsAt p (Wire.varint32 (Zigzag.encode32 n))
      (Zigzag.decode32 (Zigzag.encode32 n)) := (varint32_readsAt _).bind_pure
  rwa [Zigzag.decode32_encode32] at h

lemma sint64_readsAt (n : Int64) : sint64.ReadsAt p (Wire.varint (Zigzag.encode64 n)) n := by
  have h : sint64.ReadsAt p (Wire.varint (Zigzag.encode64 n))
      (Zigzag.decode64 (Zigzag.encode64 n)) := (varint_readsAt _).bind_pure
  rwa [Zigzag.decode64_encode64] at h

lemma bool_readsAt (b : Bool) : bool.ReadsAt p (Wire.varint (if b then 1 else 0)) b := by
  have h : bool.ReadsAt p (Wire.varint (if b then 1 else 0)) ((if b then 1 else 0 : UInt64) != 0) :=
    (varint_readsAt _).bind_pure
  cases b <;> exact h

/-- The four bytes of a word add up to it. -/
lemma foldl_be32 (n : UInt32) :
    (Wire.be32 n).toByteArray.foldl (fun n b => 256 * n + b.toUInt32) 0 = n := by
  have unfolded : ∀ b₃ b₂ b₁ b₀ : UInt8,
      [b₃, b₂, b₁, b₀].toByteArray.foldl (fun n b => 256 * n + b.toUInt32) 0 =
        256 * (256 * (256 * (256 * 0 + b₃.toUInt32) + b₂.toUInt32) + b₁.toUInt32) +
          b₀.toUInt32 := fun _ _ _ _ => rfl
  rw [Wire.be32, unfolded]
  apply UInt32.toNat_inj.mp
  simp only [UInt32.toNat_add, UInt32.toNat_mul, UInt8.toNat_toUInt32, UInt32.toNat_toUInt8,
    UInt32.toNat_shiftRight, UInt32.reduceToNat, Nat.shiftRight_eq_div_pow, Nat.reduceMod,
    Nat.reducePow]
  have := n.toNat_lt
  omega

lemma be32_readsAt (n : UInt32) : be32.ReadsAt p (Wire.be32 n) n := by
  have h : be32.ReadsAt p (Wire.be32 n)
      ((Wire.be32 n).toByteArray.foldl (fun n b => 256 * n + b.toUInt32) 0) :=
    (take_readsAt (Wire.be32 n)).bind_pure
  rwa [foldl_be32] at h

/-! ### Nested regions and strings -/

/-- What ends inside a region ends there with the outer limit given back. -/
lemma ends_within {x : Decoder α} {a : α} {data : ByteArray} {length limit : ℕ} {next : Cursor}
    (inner : (x.run data ⟨p, p + length⟩).Ends a next) (inside : p + length ≤ limit) :
    ((within length x).run data ⟨p, limit⟩).Ends a ⟨next.position, limit⟩ := by
  obtain ⟨r, hr⟩ := inner
  refine ⟨⟨rfl, r.position_le⟩, ?_⟩
  have fits : ¬limit < p + length := by omega
  simp only [within, fits, ↓reduceIte, hr, Outcome.leave]

/-- A decoder that fills a region reads it where its extent is known. -/
lemma FillsAt.within {x : Decoder α} {a : α} (h : x.FillsAt p bytes a) :
    (within bytes.length x).ReadsAt p bytes a :=
  fun data _ small _ held inside => ends_within (h data small (by omega) held) inside

lemma FillsAt.sized {x : Decoder α} {a : α}
    (h : x.FillsAt (p + (Wire.length bytes.length).length) bytes a)
    (small : bytes.length < 2 ^ 32) : (sized x).ReadsAt p (Wire.sized bytes) a := by
  refine ReadsAt.bind (varint32_readsAt_ofNat _) ?_
  rw [UInt32.toNat_ofNat_of_lt' small]
  exact h.within

lemma FillsAt.blockSized {x : Decoder α} {a : α}
    (h : x.FillsAt (p + 4) bytes a) (small : bytes.length < 2 ^ 32) :
    (blockSized x).ReadsAt p (Wire.be32 (UInt32.ofNat bytes.length) ++ bytes) a := by
  refine ReadsAt.bind (be32_readsAt _) ?_
  rw [UInt32.toNat_ofNat_of_lt' small]
  exact h.within

/-- A length and the bytes it counts. -/
lemma bytes_readsAt (small : bytes.length < 2 ^ 32) :
    Decoder.bytes.ReadsAt p (Wire.sized bytes) bytes.toByteArray := by
  refine ReadsAt.bind (varint32_readsAt_ofNat _) ?_
  rw [UInt32.toNat_ofNat_of_lt' small]
  exact take_readsAt bytes

lemma string_readsAt {text : String} (small : (Wire.utf8 text).length < 2 ^ 32) :
    string.ReadsAt p (Wire.sized (Wire.utf8 text)) text := by
  refine ReadsAt.position_bind ((bytes_readsAt small).bind_nil ?_)
  rw [fromUTF8?_utf8]
  exact pure_readsAt text

end Decoder

end RoadAtlas
