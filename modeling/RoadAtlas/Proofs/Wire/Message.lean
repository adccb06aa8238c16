import RoadAtlas.Proofs.Wire.Reading

/-!
Messages read back field by field. A repetition reads an accumulator and then the rest of its
region. Some bytes carry it from one accumulator to another when, whatever follows them, reading
them with the first accumulator comes to the same as going on behind them with the second. The
relation composes as bytes do, so what a written message is read as follows from its fields one by
one.

* `Decoder.Carries`: written fields, or entries, and the change they make to what has been read;
* `Carries.trans`, `Carries.foldl`: fields one after another;
* `Carries.field`, `Carries.bytesField`, `Carries.entry`: one field of a message, one entry of a
  region;
* `Carries.fields_fillsAt`, `Carries.entries_fillsAt`: the whole message, the whole region;
* `skipField_sized_readsAt`, `skipBlock_readsAt`, …: what is passed over is the whole payload.
-/

namespace RoadAtlas

namespace Decoder

variable {α β σ τ ι : Type} {p : ℕ} {bytes more : List UInt8}

/-! ### Lengths -/

lemma length_le_sized (bytes : List UInt8) : bytes.length ≤ (Wire.sized bytes).length := by
  rw [Wire.sized, List.length_append]
  omega

lemma length_le_bytesField (field : ℕ) (bytes : List UInt8) :
    bytes.length ≤ (Wire.bytesField field bytes).length := by
  rw [Wire.bytesField, List.length_append]
  exact Nat.le_add_left_of_le (length_le_sized bytes)

/-! ### Repetitions -/

/-- Reading the bytes with the accumulator `acc` comes to going on behind them with `acc'`. -/
def Carries (x : σ → Decoder τ) (p : ℕ) (acc : σ) (bytes : List UInt8) (acc' : σ) : Prop :=
  ∀ data limit, data.size < positionBound → limit ≤ data.size → Holds data p bytes →
    p + bytes.length ≤ limit → ∀ value next,
      ((x acc).run data ⟨p, limit⟩).Ends value next ↔
        ((x acc').run data ⟨p + bytes.length, limit⟩).Ends value next

namespace Carries

variable {x : σ → Decoder τ} {acc acc' acc'' : σ}

lemma nil (acc : σ) : Carries x p acc [] acc :=
  fun _ _ _ _ _ _ _ _ => Iff.rfl

lemma trans (h : Carries x p acc bytes acc')
    (h' : Carries x (p + bytes.length) acc' more acc'') :
    Carries x p acc (bytes ++ more) acc'' := by
  intro data limit small below held inside value next
  rw [List.length_append, ← Nat.add_assoc] at inside ⊢
  exact (h data limit small below held.left (by omega) value next).trans
    (h' data limit small below held.right inside value next)

/-- Items written one after another carry the accumulator as a fold over them does. -/
lemma foldl {write : ι → List UInt8} {f : σ → ι → σ} {items : List ι}
    (h : ∀ item ∈ items, ∀ q acc, Carries x q acc (write item) (f acc item)) :
    Carries x p acc (items.flatMap write) (items.foldl f acc) := by
  induction items generalizing p acc with
  | nil => exact nil acc
  | cons item rest ih =>
    rw [List.flatMap_cons, List.foldl_cons]
    exact (h item (by simp) p acc).trans (ih fun i hi => h i (by simp [hi]))

end Carries

/-! ### Fields -/

lemma code_lt (wire : WireType) : wire.code < 8 := by
  cases wire <;> decide

/-- A written tag is the field and the wire type it was written from. -/
lemma ofWord_word {field : ℕ} (wire : WireType) (small : field < 2 ^ 29) :
    Tag.ofWord (Tag.word field wire) = ⟨field, wire.code⟩ := by
  have hw := code_lt wire
  have word : (Tag.word field wire).toNat = field * 8 + wire.code :=
    UInt32.toNat_ofNat_of_lt' (by simp [UInt32.size]; omega)
  rw [Tag.ofWord, word]
  congr 1 <;> omega

lemma tag_length_pos (field : ℕ) (wire : WireType) : 0 < (Wire.tag field wire).length :=
  List.length_pos_iff.mpr (Varint.encode_ne_nil _)

/-- The bytes are read as a tag. -/
def TagSpelled (head : List UInt8) (t : Tag) : Prop :=
  ∃ n, Varint.Spells head n ∧ Tag.ofWord n.toUInt32 = t

lemma tagSpelled_tag {field : ℕ} (wire : WireType) (small : field < 2 ^ 29) :
    TagSpelled (Wire.tag field wire) ⟨field, wire.code⟩ := by
  have spells : Varint.Spells (Wire.varint (Tag.word field wire).toUInt64)
      (Tag.word field wire).toUInt64 := Varint.spells_varint _
  refine ⟨_, spells, ?_⟩
  rw [UInt32.toUInt32_toUInt64, ofWord_word wire small]

lemma TagSpelled.readsAt {head : List UInt8} {t : Tag} (h : TagSpelled head t) :
    tag.ReadsAt p head t := by
  obtain ⟨n, spells, rfl⟩ := h
  intro data limit addressable below held inside
  have ahead : Cursor.atLimit ⟨p, limit⟩ = false := by
    have := spells.complete.length_pos
    simp only [Cursor.atLimit, decide_eq_false_iff_not]
    omega
  have word : varint32.ReadsAt p head n.toUInt32 := (spells_readsAt spells).bind_pure
  simp only [tag, ahead, Bool.false_eq_true, ↓reduceIte]
  exact (word data limit addressable below held inside).map

lemma tag_readsAt {field : ℕ} (wire : WireType) (small : field < 2 ^ 29) :
    tag.ReadsAt p (Wire.tag field wire) ⟨field, wire.code⟩ :=
  (tagSpelled_tag wire small).readsAt

/-- At the end of its region, a message has no further tag. -/
lemma tag_fillsAt (p : ℕ) : tag.FillsAt p [] .finish := by
  intro data _ _ _
  have ended : Cursor.atLimit ⟨p, p⟩ = true := by simp [Cursor.atLimit]
  exact ⟨.refl _, by simp only [tag, List.length_nil, Nat.add_zero, ended, ↓reduceIte]⟩

variable {step : Tag → σ → Decoder σ} {acc acc' : σ}

/-- A repetition that reads a tag and then lets `payload` read what it leads. -/
lemma Carries.tagged {x : σ → Decoder τ} {k : Tag → Decoder τ} {payload : Decoder σ}
    {head : List UInt8} {t : Tag} (lead : TagSpelled head t) (hx : x acc = tag >>= k)
    (hk : k t = payload >>= x) (h : payload.ReadsAt (p + head.length) bytes acc') :
    Carries x p acc (head ++ bytes) acc' := by
  intro data limit addressable below held inside value next
  rw [List.length_append, ← Nat.add_assoc] at inside ⊢
  rw [hx, run_bind]
  refine (lead.readsAt data limit addressable below held.left (by omega)).andThen_iff.trans ?_
  rw [hk, run_bind]
  exact (h data limit addressable below held.right inside).andThen_iff

/-- A number that a tag has room for, and that does not end a message. -/
def FieldNumber (field : ℕ) : Prop := 0 < field ∧ field < 2 ^ 29

instance : DecidablePred FieldNumber := fun _ => instDecidableAnd

lemma isEnd_eq_false {field : ℕ} (wire : WireType) (valid : FieldNumber field) :
    Tag.isEnd ⟨field, wire.code⟩ = false := by
  simp only [Tag.isEnd, beq_eq_false_iff_ne, ne_eq]
  exact Nat.ne_of_gt valid.1

/-- A field that `step` reads carries the fold over a message. -/
lemma Carries.field {field : ℕ} {wire : WireType} (valid : FieldNumber field)
    (h : (step ⟨field, wire.code⟩ acc).ReadsAt (p + (Wire.tag field wire).length) bytes acc') :
    Carries (fields · step) p acc (Wire.tag field wire ++ bytes) acc' :=
  Carries.tagged (tagSpelled_tag wire valid.2) (fields_eq acc step)
    (by simp [isEnd_eq_false wire valid]) h

/-- A field in front of the tag that ends a repetition carries it likewise. -/
lemma Carries.fieldUntil {stop : Tag → Bool} {field : ℕ} {wire : WireType}
    (valid : FieldNumber field) (goes : stop ⟨field, wire.code⟩ = false)
    (h : (step ⟨field, wire.code⟩ acc).ReadsAt (p + (Wire.tag field wire).length) bytes acc') :
    Carries (fieldsUntil stop · step) p acc (Wire.tag field wire ++ bytes) acc' :=
  Carries.tagged (tagSpelled_tag wire valid.2) (fieldsUntil_eq stop acc step)
    (by simp [isEnd_eq_false wire valid, goes]) h

/-- A field in a sized region, given that the region is read. -/
lemma Carries.bytesField {field : ℕ} {body : List UInt8} (valid : FieldNumber field)
    (bounded : (Wire.bytesField field body).length < 2 ^ 32)
    (h : body.length < 2 ^ 32 → (step ⟨field, WireType.lengthDelimited.code⟩ acc).ReadsAt
      (p + (Wire.tag field .lengthDelimited).length) (Wire.sized body) acc') :
    Carries (fields · step) p acc (Wire.bytesField field body) acc' :=
  Carries.field valid (h (Nat.lt_of_le_of_lt (length_le_bytesField field body) bounded))

/-- At the end of its region a message is what has been read. -/
lemma fields_ends (step : Tag → σ → Decoder σ) (acc : σ) (data : ByteArray) (q : ℕ) :
    ((fields acc step).run data ⟨q, q⟩).Ends acc ⟨q, q⟩ := by
  have ended : Cursor.atLimit ⟨q, q⟩ = true := by simp [Cursor.atLimit]
  refine ⟨.refl _, ?_⟩
  rw [fields_eq, run_bind, tag]
  simp only [ended, ↓reduceIte]
  rfl

lemma Carries.fields_fillsAt (h : Carries (fields · step) p acc bytes acc') :
    (fields acc step).FillsAt p bytes acc' :=
  fun data addressable inside held =>
    (h data _ addressable inside held (Nat.le_refl _) _ _).mpr (fields_ends step acc' data _)

/-! ### Passing over -/

lemma skipField_varint_readsAt (field : ℕ) {n : UInt64} (spells : Varint.Spells bytes n) :
    (skipField ⟨field, WireType.varint.code⟩).ReadsAt p bytes () :=
  (spells_readsAt spells).bind_pure

lemma skipField_sized_readsAt (field : ℕ) {head body : List UInt8} {n : UInt64}
    (spells : Varint.Spells head n) (counts : n.toUInt32.toNat = body.length) :
    (skipField ⟨field, WireType.lengthDelimited.code⟩).ReadsAt p (head ++ body) () := by
  have length : varint32.ReadsAt p head n.toUInt32 := (spells_readsAt spells).bind_pure
  refine length.bind ?_
  rw [counts]
  exact skip_readsAt body

lemma skipBlock_readsAt {body : List UInt8} (sized : body.length < 2 ^ 32) :
    skipBlock.ReadsAt p (Wire.be32 (UInt32.ofNat body.length) ++ body) () := by
  refine (be32_readsAt _).bind ?_
  rw [UInt32.toNat_ofNat_of_lt' sized]
  exact skip_readsAt body

/-! ### Entries -/

variable {enter : UInt32 → σ → Decoder σ}

/-- An entry that `enter` reads carries the fold over a region. -/
lemma Carries.entry {lead : UInt32}
    (h : (enter lead acc).ReadsAt (p + (Wire.varint32 lead).length) bytes acc') :
    Carries (entries · enter) p acc (Wire.varint32 lead ++ bytes) acc' := by
  intro data limit addressable below held inside value next
  rw [List.length_append, ← Nat.add_assoc] at inside ⊢
  beta_reduce
  have ahead : Cursor.remaining ⟨p, limit⟩ ≠ 0 := by
    have : 0 < (Wire.varint32 lead).length := List.length_pos_iff.mpr (Varint.encode_ne_nil _)
    simp only [Cursor.remaining]
    omega
  have left : (remaining.run data ⟨p, limit⟩).Ends (Cursor.remaining ⟨p, limit⟩) ⟨p, limit⟩ :=
    ⟨.refl _, rfl⟩
  rw [entries_eq, run_bind]
  refine left.andThen_iff.trans ?_
  simp only [ahead, ↓reduceIte]
  rw [run_bind]
  refine (varint32_readsAt lead data limit addressable below held.left (by omega)).andThen_iff.trans
    ?_
  rw [run_bind]
  exact (h data limit addressable below held.right inside).andThen_iff

/-- An empty region has no further entries. -/
lemma entries_ends (enter : UInt32 → σ → Decoder σ) (acc : σ) (data : ByteArray) (q : ℕ) :
    ((entries acc enter).run data ⟨q, q⟩).Ends acc ⟨q, q⟩ := by
  have ended : Cursor.remaining ⟨q, q⟩ = 0 := by simp [Cursor.remaining]
  refine ⟨.refl _, ?_⟩
  rw [entries_eq, run_bind, remaining]
  simp only [ended, Outcome.andThen, ↓reduceIte]
  rfl

lemma Carries.entries_fillsAt (h : Carries (entries · enter) p acc bytes acc') :
    (entries acc enter).FillsAt p bytes acc' :=
  fun data addressable inside held =>
    (h data _ addressable inside held (Nat.le_refl _) _ _).mpr (entries_ends enter acc' data _)

/-! ### Lists of scalars -/

lemma foldl_push (items : List α) (known : Array α) :
    items.foldl (fun known item => known.push item) known = known ++ items.toArray := by
  induction items generalizing known with
  | nil => simp
  | cons item rest ih =>
    rw [List.foldl_cons, ih]
    apply Array.ext'
    simp

lemma append_of_eq_empty {known : Array α} (fresh : known = #[]) (more : Array α) :
    known ++ more = more := by
  rw [fresh, Array.empty_append]

lemma packed_readsAt {ns : List UInt32} (small : (Wire.packed ns).length < 2 ^ 32) :
    packed.ReadsAt p (Wire.sized (Wire.packed ns)) ns.toArray := by
  refine FillsAt.sized ?_ small
  have h : Carries (entries · fun n ns => pure (ns.push n))
      (p + (Wire.length (Wire.packed ns).length).length) #[] (Wire.packed ns)
      (ns.foldl (fun known n => known.push n) #[]) :=
    Carries.foldl fun n _ q known => by
      have h : Carries (entries · fun n ns => pure (ns.push n)) q known (Wire.varint32 n ++ [])
          (known.push n) := Carries.entry (pure_readsAt (known.push n))
      rwa [List.append_nil] at h
  rw [foldl_push, Array.empty_append] at h
  exact h.entries_fillsAt

end Decoder

end RoadAtlas
