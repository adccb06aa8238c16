import RoadAtlas.Proofs.Network.Record
import RoadAtlas.Proofs.Traversal

/-!
Data blocks read back. A block is written with the id table and the string table that its roads
need, so each number that a record or a restriction holds stands for what it was chosen for.

* `BlockTables.KeptBy`: a block and its tables alone are read by the same steps, records apart;
* `BlockDraft.block` is the block that a written block is read as, `Block.decoder_fillsAt` says so,
  and `BlockTables.decoder_fillsAt` that its tables can be read without the records.
-/

namespace RoadAtlas

open Decoder

/-! ### Numbering -/

section Numbering

variable {α : Type} [DecidableEq α]

lemma prefix_appendNew (known more : List α) : known <+: appendNew known more := by
  induction more generalizing known with
  | nil => exact List.prefix_refl known
  | cons a rest ih =>
    rw [appendNew, List.foldl_cons]
    split
    · exact ih known
    · exact (List.prefix_append known [a]).trans (ih (known ++ [a]))

lemma mem_appendNew {a : α} {known more : List α} :
    a ∈ appendNew known more ↔ a ∈ known ∨ a ∈ more := by
  induction more generalizing known with
  | nil => simp [appendNew]
  | cons b rest ih =>
    rw [appendNew, List.foldl_cons, ← appendNew, ih]
    split
    · grind
    · grind

end Numbering

/-- Items that are written in at least one byte each are no more than the bytes. -/
lemma length_le_length_flatMap {α : Type} (write : α → List UInt8) (items : List α)
    (h : ∀ item, 0 < (write item).length) : items.length ≤ (items.flatMap write).length := by
  induction items with
  | nil => simp
  | cons item rest ih =>
    have := h item
    rw [List.flatMap_cons, List.length_append, List.length_cons]
    omega

/-! ### The tables of a block -/

namespace RoadDraft

/-- The restrictions of a road as they are stored, under the number of its record. -/
def restrictionRecords (r : RoadDraft) (ids : List Int64) (source : ℕ) : List RestrictionRecord :=
  r.restrictions.map fun e =>
    ⟨e.2.code, UInt32.ofNat source, UInt32.ofNat (BlockDraft.targetNumber ids e.1)⟩

end RoadDraft

namespace BlockDraft

/-- The stored restrictions of some roads, the first of which has the number `source`. -/
def restrictionRecords (ids : List Int64) (source : ℕ) : List RoadDraft → List RestrictionRecord
  | [] => []
  | r :: rest => r.restrictionRecords ids source ++ restrictionRecords ids (source + 1) rest

/-- The records of some roads, the first of which has the number `number`. -/
def records (table : List String) (number : ℕ) : List RoadDraft → List RoadRecord
  | [] => []
  | r :: rest => r.record number table :: records table (number + 1) rest

/-- The tables that a block is stored with. -/
def tables (b : BlockDraft) : BlockTables where
  ids := some b.ids.toArray
  strings := b.strings.toArray
  restrictions := (restrictionRecords b.ids 0 b.roads).toArray

/-- The block that the roads of a box are stored as. -/
def block (b : BlockDraft) : Block where
  tables := b.tables
  records := (records b.strings 0 b.roads).toArray

end BlockDraft

namespace BlockTables

variable {p : ℕ}

/-- Ids are read as the sums that the differences add up to. -/
lemma ids_carries (ids : List Int64) : ∀ {p : ℕ} (base : Int64) (known : Array Int64), ∃ last,
    Carries (fields · idStep) p (base, known) (BlockDraft.writeIds base ids)
      (last, known ++ ids.toArray) := by
  induction ids with
  | nil =>
    intro p base known
    exact ⟨base, by simpa [BlockDraft.writeIds] using Carries.nil _⟩
  | cons id rest ih =>
    intro p base known
    have sum : base + (id - base) = id := by
      rw [Int64.add_comm, Int64.sub_add_cancel]
    have first : Carries (fields · idStep) p (base, known)
        (Wire.sint64Field Format.IdTable.delta (id - base)) (id, known.push id) := by
      refine Carries.field (by decide) ((sint64_readsAt (id - base)).bind_nil ?_)
      rw [sum]
      exact pure_readsAt _
    obtain ⟨last, hrest⟩ := ih (p := p + (Wire.sint64Field Format.IdTable.delta
      (id - base)).length) id (known.push id)
    refine ⟨last, ?_⟩
    rw [List.push_append_toArray] at hrest
    exact first.trans hrest

/-- A written id table is read as its ids. -/
lemma readIds_readsAt {ids : List Int64} (small : (BlockDraft.writeIds 0 ids).length < 2 ^ 32) :
    readIds.ReadsAt p (Wire.sized (BlockDraft.writeIds 0 ids)) ids.toArray := by
  refine FillsAt.sized ?_ small
  obtain ⟨last, carried⟩ := ids_carries ids 0 #[]
  rw [Array.empty_append] at carried
  exact carried.fields_fillsAt.map Prod.snd

end BlockTables

/-- A written restriction is read with its numbers cut to 32 bits. -/
lemma RestrictionRecord.decoder_readsAt {p source target : ℕ} {code : UInt32}
    (small : (Wire.varint32Field Format.Restriction.kind code ++
      Wire.varintField Format.Restriction.source (UInt64.ofNat source) ++
      Wire.varintField Format.Restriction.target (UInt64.ofNat target)).length < 2 ^ 32) :
    RestrictionRecord.decoder.ReadsAt p
      (Wire.sized (Wire.varint32Field Format.Restriction.kind code ++
        Wire.varintField Format.Restriction.source (UInt64.ofNat source) ++
        Wire.varintField Format.Restriction.target (UInt64.ofNat target)))
      ⟨code, UInt32.ofNat source, UInt32.ofNat target⟩ := by
  refine FillsAt.sized (Carries.fields_fillsAt ?_) small
  have kind : ∀ {q}, Carries (fields · step) q {} (Wire.varint32Field Format.Restriction.kind code)
      { code } :=
    Carries.field (by decide) (varint32_readsAt code).bind_pure
  have start : ∀ {q}, Carries (fields · step) q { code }
      (Wire.varintField Format.Restriction.source (UInt64.ofNat source))
      { code, source := UInt32.ofNat source } :=
    Carries.field (by decide) (varint32_readsAt_ofNat source).bind_pure
  have goal : ∀ {q}, Carries (fields · step) q { code, source := UInt32.ofNat source }
      (Wire.varintField Format.Restriction.target (UInt64.ofNat target))
      ⟨code, UInt32.ofNat source, UInt32.ofNat target⟩ :=
    Carries.field (by decide) (varint32_readsAt_ofNat target).bind_pure
  exact (kind.trans start).trans goal

section StringTable

variable {p : ℕ}

/-- The strings of a string table are read in order. -/
lemma strings_carry {step : Tag → Array String → Decoder (Array String)}
    (reads : ∀ wire known, step ⟨1, wire⟩ known = do
      let text ← string
      return known.push text) :
    ∀ {strings : List String} {p : ℕ} {known : Array String},
      (strings.flatMap (Wire.stringField 1)).length < 2 ^ 32 →
        Carries (fields · step) p known (strings.flatMap (Wire.stringField 1))
          (known ++ strings.toArray)
  | [], _, known, _ => by simpa using Carries.nil known
  | text :: rest, p, known, small => by
    rw [List.flatMap_cons] at small ⊢
    rw [List.length_append] at small
    rw [← List.push_append_toArray]
    have first : Carries (fields · step) p known (Wire.stringField 1 text) (known.push text) :=
      Carries.bytesField (by decide) (by rw [← Wire.stringField]; omega) fun small => by
        rw [reads]
        exact (string_readsAt small).bind_pure
    exact first.trans (strings_carry reads (by omega))

/-- A written string table is read as its strings. -/
lemma stringTable_readsAt {strings : List String}
    (small : (strings.flatMap (Wire.stringField 1)).length < 2 ^ 32) :
    stringTable.ReadsAt p (Wire.stringTable strings) strings.toArray := by
  refine FillsAt.sized (Carries.fields_fillsAt ?_) small
  rw [← append_of_eq_empty rfl strings.toArray]
  exact strings_carry (fun _ _ => rfl) small

end StringTable

/-! ### Messages with the tables of a block -/

namespace BlockTables

/-- The tables with further restrictions behind their own. -/
def addRestrictions (t : BlockTables) (more : List RestrictionRecord) : BlockTables :=
  { t with restrictions := t.restrictions ++ more.toArray }

@[simp] lemma addRestrictions_nil (t : BlockTables) : t.addRestrictions [] = t := by
  simp [addRestrictions]

lemma addRestrictions_append (t : BlockTables) (rs more : List RestrictionRecord) :
    t.addRestrictions (rs ++ more) = (t.addRestrictions rs).addRestrictions more := by
  simp [addRestrictions, ← List.append_toArray]

/-- A message whose fields, records apart, are read into the tables that it keeps in a place of its
own. A block is such a message, and so are its tables when records are passed over. -/
structure KeptBy {σ : Type} (step : Tag → σ → Decoder σ) (get : σ → BlockTables)
    (set : σ → BlockTables → σ) : Prop where
  get_set : ∀ acc t, get (set acc t) = t
  set_get : ∀ acc, set acc (get acc) = acc
  set_set : ∀ acc t t', set (set acc t) t' = set acc t'
  step_eq : ∀ t acc, t.field ≠ Format.Block.road → step t acc = do
    let tables ← BlockTables.step t (get acc)
    return set acc tables

lemma keptBy_step : KeptBy step id fun _ t => t where
  get_set _ _ := rfl
  set_get _ := rfl
  set_set _ _ _ := rfl
  step_eq t acc _ := (bind_pure (step t acc)).symm

namespace KeptBy

variable {σ : Type} {step : Tag → σ → Decoder σ} {get : σ → BlockTables}
  {set : σ → BlockTables → σ} {p : ℕ} {acc : σ}

/-- A field in a sized region is read into the tables. -/
lemma bytesField (kept : KeptBy step get set) {field : ℕ} {body : List UInt8}
    {tables : BlockTables} (valid : FieldNumber field) (other : field ≠ Format.Block.road)
    (bounded : (Wire.bytesField field body).length < 2 ^ 32)
    (h : body.length < 2 ^ 32 →
      (BlockTables.step ⟨field, WireType.lengthDelimited.code⟩ (get acc)).ReadsAt
        (p + (Wire.tag field .lengthDelimited).length) (Wire.sized body) tables) :
    Carries (fields · step) p acc (Wire.bytesField field body) (set acc tables) :=
  Carries.bytesField valid bounded fun small => by
    rw [kept.step_eq _ _ other]
    exact (h small).bind_pure

lemma idTable_field_carries (kept : KeptBy step get set) (ids : List Int64)
    (small : (Wire.messageField Format.Block.idTable (BlockDraft.writeIds 0 ids)).length < 2 ^ 32) :
    Carries (fields · step) p acc
      (Wire.messageField Format.Block.idTable (BlockDraft.writeIds 0 ids))
      (set acc { get acc with ids := some ids.toArray }) :=
  kept.bytesField (by decide) (by decide) small fun small => (readIds_readsAt small).bind_pure

lemma restriction_field_carries (kept : KeptBy step get set) {source target : ℕ}
    {kind : Restriction}
    (small : (BlockDraft.writeRestriction source target kind).length < 2 ^ 32) :
    Carries (fields · step) p acc (BlockDraft.writeRestriction source target kind)
      (set acc ((get acc).addRestrictions
        [⟨kind.code, UInt32.ofNat source, UInt32.ofNat target⟩])) :=
  kept.bytesField (by decide) (by decide) small fun small =>
    (RestrictionRecord.decoder_readsAt small).bind_pure

/-- Restrictions are added one after another. -/
lemma set_addRestrictions_append (kept : KeptBy step get set)
    (rs more : List RestrictionRecord) :
    set acc ((get acc).addRestrictions (rs ++ more)) =
      set (set acc ((get acc).addRestrictions rs))
        ((get (set acc ((get acc).addRestrictions rs))).addRestrictions more) := by
  rw [kept.get_set, kept.set_set, addRestrictions_append]

/-- The restrictions of a road are read in order. -/
lemma roadRestrictions_carry (kept : KeptBy step get set) {ids : List Int64} {source : ℕ} :
    ∀ {restrictions : List (Int64 × Restriction)} {p : ℕ} {acc : σ},
    (restrictions.flatMap fun e => BlockDraft.writeRestriction source
        (BlockDraft.targetNumber ids e.1) e.2).length < 2 ^ 32 →
      Carries (fields · step) p acc
        (restrictions.flatMap fun e => BlockDraft.writeRestriction source
          (BlockDraft.targetNumber ids e.1) e.2)
        (set acc ((get acc).addRestrictions (restrictions.map fun e =>
          ⟨e.2.code, UInt32.ofNat source, UInt32.ofNat (BlockDraft.targetNumber ids e.1)⟩)))
  | [], _, acc, _ => by
    rw [List.map_nil, addRestrictions_nil, kept.set_get]
    exact Carries.nil acc
  | e :: rest, p, acc, small => by
    rw [List.flatMap_cons] at small ⊢
    rw [List.length_append] at small
    rw [List.map_cons, ← List.singleton_append, kept.set_addRestrictions_append]
    exact (kept.restriction_field_carries (by omega)).trans
      (kept.roadRestrictions_carry (by omega))

/-- The restrictions of a block are read in order. -/
lemma restrictions_carry (kept : KeptBy step get set) {ids : List Int64} :
    ∀ {roads : List RoadDraft} {p source : ℕ} {acc : σ},
    (BlockDraft.writeRestrictions ids source roads).length < 2 ^ 32 →
      Carries (fields · step) p acc (BlockDraft.writeRestrictions ids source roads)
        (set acc ((get acc).addRestrictions (BlockDraft.restrictionRecords ids source roads)))
  | [], _, _, acc, _ => by
    rw [BlockDraft.restrictionRecords, addRestrictions_nil, kept.set_get]
    exact Carries.nil acc
  | r :: rest, p, source, acc, small => by
    rw [BlockDraft.writeRestrictions] at small ⊢
    rw [List.length_append] at small
    rw [BlockDraft.restrictionRecords, kept.set_addRestrictions_append]
    exact (kept.roadRestrictions_carry (Nat.lt_of_le_of_lt (Nat.le_add_right _ _) small)).trans
      (kept.restrictions_carry (by omega))

lemma stringTable_field_carries (kept : KeptBy step get set) (strings : List String)
    (fresh : (get acc).strings = #[])
    (small : (RoadDraft.unlessEmpty strings
      (Wire.tag Format.Block.stringTable .lengthDelimited ++ Wire.stringTable strings)).length <
        2 ^ 32) :
    Carries (fields · step) p acc
      (RoadDraft.unlessEmpty strings
        (Wire.tag Format.Block.stringTable .lengthDelimited ++ Wire.stringTable strings))
      (set acc { get acc with strings := strings.toArray }) :=
  Carries.unlessEmpty small (fun none => by simp [none, ← fresh, kept.set_get]) fun small =>
    kept.bytesField (by decide) (by decide) small fun small =>
      (stringTable_readsAt small).bind_pure

/-- A block is read as its tables are, given how its records are. -/
lemma block_carries (kept : KeptBy step get set) {b : BlockDraft} {corner : Point}
    (addRecords : σ → σ) (fresh : get acc = {})
    (records : ∀ {q : ℕ} {acc : σ}, Carries (fields · step) q acc (b.recordFields corner).flatten
      (addRecords acc))
    (keeps : ∀ acc, get (addRecords acc) = get acc)
    (small : (b.write corner).length < 2 ^ 32) :
    Carries (fields · step) p acc (b.write corner)
      (set (addRecords (set acc { ids := some b.ids.toArray })) b.tables) := by
  simp only [BlockDraft.write, List.length_append] at small
  have idTable : Carries (fields · step) p acc b.writeIdTable
      (set acc { ids := some b.ids.toArray }) := by
    have h : Carries (fields · step) p acc b.writeIdTable
        (set acc { get acc with ids := some b.ids.toArray }) :=
      kept.idTable_field_carries b.ids (by rw [← BlockDraft.writeIdTable]; omega)
    rwa [fresh] at h
  have restrictions {q : ℕ} {acc : σ} : Carries (fields · step) q acc
      (BlockDraft.writeRestrictions b.ids 0 b.roads)
      (set acc ((get acc).addRestrictions (BlockDraft.restrictionRecords b.ids 0 b.roads))) :=
    kept.restrictions_carry (by omega)
  have carried := ((idTable.trans records).trans restrictions).trans
    (kept.stringTable_field_carries b.strings (by simp [kept.get_set, keeps, addRestrictions])
      (by omega))
  rw [BlockDraft.write]
  simpa [kept.get_set, kept.set_set, keeps, addRestrictions, BlockDraft.tables] using carried

end KeptBy

/-- A record is passed over. -/
lemma record_field_carries {body : List UInt8} {p : ℕ} {acc : BlockTables}
    (small : (Wire.bytesField Format.Block.road body).length < 2 ^ 32) :
    Carries (fields · step) p acc (Wire.bytesField Format.Block.road body) acc :=
  Carries.bytesField (by decide) small fun small => by
    have passed : (skipField ⟨Format.Block.road, WireType.lengthDelimited.code⟩).ReadsAt
        (p + (Wire.tag Format.Block.road .lengthDelimited).length) (Wire.sized body) () := by
      refine (varint32_readsAt_ofNat body.length).bind ?_
      rw [UInt32.toNat_ofNat_of_lt' small]
      exact skip_readsAt body
    exact passed.bind_pure

/-- The records of a block are passed over. -/
lemma records_carry {corner : Point} {table : List String} :
    ∀ {roads : List RoadDraft} {p number : ℕ} {acc : BlockTables},
    (BlockDraft.writeRecords corner table number roads).flatten.length < 2 ^ 32 →
      Carries (fields · step) p acc (BlockDraft.writeRecords corner table number roads).flatten acc
  | [], _, _, acc, _ => Carries.nil acc
  | r :: rest, p, number, acc, small => by
    rw [BlockDraft.writeRecords, List.flatten_cons] at small ⊢
    rw [List.length_append] at small
    exact (record_field_carries (by omega)).trans (records_carry (by omega))

/-- The tables of a written block are read without its records. -/
theorem decoder_fillsAt {p : ℕ} {corner : Point} {b : BlockDraft}
    (small : (b.write corner).length < 2 ^ 32) :
    decoder.FillsAt p (b.write corner) b.tables := by
  have records : (b.recordFields corner).flatten.length < 2 ^ 32 := by
    simp only [BlockDraft.write, List.length_append] at small
    omega
  exact (keptBy_step.block_carries id rfl (records_carry records) (fun _ => rfl)
    small).fields_fillsAt

end BlockTables

/-! ### The fields of a block -/

namespace Block

/-- The block with further records behind its own. -/
def addRecords (b : Block) (more : List RoadRecord) : Block :=
  { b with records := b.records ++ more.toArray }

@[simp] lemma addRecords_nil (b : Block) : b.addRecords [] = b := by
  simp [addRecords]

lemma addRecords_append (b : Block) (rs more : List RoadRecord) :
    b.addRecords (rs ++ more) = (b.addRecords rs).addRecords more := by
  simp [addRecords, ← List.append_toArray]

variable {p : ℕ} {corner : Point} {acc : Block}

lemma keptBy_step : BlockTables.KeptBy (step corner) tables fun b t => { b with tables := t } where
  get_set _ _ := rfl
  set_get _ := rfl
  set_set _ _ _ := rfl
  step_eq t acc other := by
    rw [step]
    split
    next record => exact absurd record other
    next => rfl

lemma record_field_carries {r : RoadDraft} {number : ℕ} {table : List String}
    (small : (Wire.bytesField Format.Block.road (r.write number corner table)).length < 2 ^ 32) :
    Carries (fields · (step corner)) p acc
      (Wire.bytesField Format.Block.road (r.write number corner table))
      (acc.addRecords [r.record number table]) :=
  Carries.bytesField (by decide) small fun small =>
    (RoadRecord.decoder_readsAt small).bind_pure

/-- The records of a block are read in order. -/
lemma records_carry {table : List String} : ∀ {roads : List RoadDraft} {p number : ℕ} {acc : Block},
    (BlockDraft.writeRecords corner table number roads).flatten.length < 2 ^ 32 →
      Carries (fields · (step corner)) p acc
        (BlockDraft.writeRecords corner table number roads).flatten
        (acc.addRecords (BlockDraft.records table number roads))
  | [], _, _, acc, _ => by
    simpa [BlockDraft.writeRecords, BlockDraft.records] using Carries.nil acc
  | r :: rest, p, number, acc, small => by
    rw [BlockDraft.writeRecords, List.flatten_cons] at small ⊢
    rw [List.length_append] at small
    rw [BlockDraft.records, ← List.singleton_append, addRecords_append]
    exact (record_field_carries (by omega)).trans (records_carry (by omega))

/-- A written block is read as the block of its roads. -/
theorem decoder_fillsAt {b : BlockDraft} (small : (b.write corner).length < 2 ^ 32) :
    (decoder corner).FillsAt p (b.write corner) b.block := by
  have records : (b.recordFields corner).flatten.length < 2 ^ 32 := by
    simp only [BlockDraft.write, List.length_append] at small
    omega
  have fresh : ({} : Block).tables = {} := rfl
  have carried := (@keptBy_step corner).block_carries (p := p)
    (addRecords · (BlockDraft.records b.strings 0 b.roads)) fresh (records_carry records)
    (fun _ => rfl) small
  rw [decoder]
  simpa [addRecords, BlockDraft.block] using carried.fields_fillsAt

end Block

end RoadAtlas
