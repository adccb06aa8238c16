import RoadAtlas.Proofs.Network.Access
import RoadAtlas.Proofs.Network.BlockParts
import RoadAtlas.Proofs.Network.Offsets

/-!
The order of the fields of a data block does not matter. A box leads to its block, and offsets lead
to single records in it; both ways, what is read does not depend on the order in which the fields of
the block stand.

* `recordOffsets`: where the records of a block stand;
* `SameAnswer`: two reads give one result or report one reference;
* `RoutingSection.HoldsBlock`: the block of a box is some message, which ends in the section;
* `RoutingSection.loadBlock_rearranged`: a block with its fields in another order gives the same
  roads, and each record is read as the same road at its new place.
-/

namespace RoadAtlas

open Decoder

/-! ### Places of records -/

/-- Where the payloads of the records start when the fields do at a position. -/
def recordOffsets : ℕ → List RawField → List ℕ
  | _, [] => []
  | start, f :: rest =>
    let later := recordOffsets (start + f.bytes.length) rest
    if f.number = Format.Block.road then (start + f.head.length) :: later else later

/-- The payload of a field stands at a position between two others. -/
structure RawField.StandsAt (data : ByteArray) (start stop offset : ℕ) (f : RawField) : Prop where
  held : Holds data offset f.payload
  behind : start ≤ offset
  before : offset + f.payload.length ≤ stop

/-- The payloads of the records stand at their places. -/
lemma forall₂_recordOffsets {fs : List RawField} {data : ByteArray} {start stop : ℕ}
    (held : Holds data start (fs.flatMap RawField.bytes))
    (before : start + (fs.flatMap RawField.bytes).length ≤ stop) :
    List.Forall₂ (RawField.StandsAt data start stop) (recordOffsets start fs)
      (standing Format.Block.road fs) := by
  induction fs generalizing start with
  | nil => exact .nil
  | cons f rest ih =>
    rw [List.flatMap_cons] at held before
    rw [List.length_append] at before
    have length : f.bytes.length = f.head.length + f.payload.length := List.length_append
    have later : List.Forall₂ (RawField.StandsAt data start stop)
        (recordOffsets (start + f.bytes.length) rest) (standing Format.Block.road rest) :=
      (ih held.right (by omega)).imp fun _ _ h =>
        ⟨h.held, (Nat.le_add_right start _).trans h.behind, h.before⟩
    rw [recordOffsets]
    by_cases road : f.number = Format.Block.road
    · rw [if_pos road, standing_cons_of_eq road]
      exact .cons ⟨held.left.right, Nat.le_add_right _ _, by omega⟩ later
    · rw [if_neg road, standing_cons_of_ne road]
      exact later

/-! ### Answers -/

/-- Two reads give one result or report one reference. Other failures may differ in the position
that they name. -/
structure SameAnswer {α : Type} (r r' : Except ContainerError α) : Prop where
  ok_iff : ∀ a, r' = .ok a ↔ r = .ok a
  dangling_iff : ∀ name offset reference,
    r' = .error (.corruptSection name offset (.dangling reference)) ↔
      r = .error (.corruptSection name offset (.dangling reference))

namespace RoutingSection

variable {s : RoutingSection} {box : Box} {data data' : ByteArray} {α : Type}

/-- A reference is reported if it is why decoding stopped. -/
lemma decode_eq_dangling_iff {x : Except DecodeError α} {name : String} {offset : ℕ}
    {reference : Dangling} :
    s.decode x = .error (.corruptSection name offset (.dangling reference)) ↔
      (s.name = name ∧ s.offset = offset) ∧
        x.mapError DecodeError.reference? = .error (some reference) := by
  cases x with
  | ok a => simp [decode, Except.mapError]
  | error cause => simp [decode, Except.mapError, DecodeError.reference?_eq_some, and_assoc]

/-- Verdicts are all that an answer tells. -/
lemma decode_sameAnswer {x y : Except DecodeError α}
    (same : y.mapError DecodeError.reference? = x.mapError DecodeError.reference?) :
    SameAnswer (s.decode x) (s.decode y) := by
  constructor
  case ok_iff =>
    intro a
    rw [decode_eq_ok_iff, decode_eq_ok_iff, ← mapError_eq_ok (f := DecodeError.reference?), same,
      mapError_eq_ok]
  case dangling_iff =>
    intro name offset reference
    rw [decode_eq_dangling_iff, decode_eq_dangling_iff, same]

/-! ### Blocks of a section -/

/-- The data block of a box is a message at a position, which ends in the section. -/
structure HoldsBlock (s : RoutingSection) (box : Box) (data : ByteArray) (position : ℕ)
    (m : RawMessage) : Prop where
  addressable : data.size < positionBound
  inside : s.offset + s.length ≤ data.size
  points : box.dataPosition? = some position
  held : Holds data position m.bytes
  fits : position + m.bytes.length ≤ s.offset + s.length

namespace HoldsBlock

variable {position : ℕ} {m : RawMessage}

/-- What stands in a section is evaluated to its verdict. -/
lemma evalAt_mapError (h : s.HoldsBlock box data position m) {p : ℕ} {bytes : List UInt8}
    (held : Holds data p bytes) (before : p + bytes.length ≤ s.offset + s.length) {x : Decoder α}
    {v : Verdict α} (found : x.Finds bytes v) :
    (s.evalAt x p data).mapError DecodeError.reference? = v := by
  rw [evalAt_eq_toExcept h.inside (by omega)]
  have shown := found p data _ h.addressable h.inside held before
  cases v with
  | ok a =>
    rw [Outcome.Ends.toExcept_eq shown]
    rfl
  | error reference =>
    obtain ⟨cause, place, failed, reason⟩ := shown
    rw [failed]
    exact congrArg Except.error reason

/-- A block is decoded to its verdict. -/
lemma decodeBlock_mapError (h : s.HoldsBlock box data position m) {x : Decoder α} {v : Verdict α}
    (found : x.FindsWhole (m.fields.flatMap RawField.bytes) v) :
    (s.decodeBlock box x data).mapError DecodeError.reference? = v := by
  rw [decodeBlock, evalBlock_eq_evalAt h.points]
  exact h.evalAt_mapError h.held h.fits (RawMessage.finds found)

/-- Where a block lies. -/
lemma blockExtent_eq_ok (h : s.HoldsBlock box data position m) : s.blockExtent box data =
    .ok ⟨position + m.head.length, (m.fields.flatMap RawField.bytes).length⟩ := by
  have fits := h.fits
  rw [RawMessage.bytes, List.length_append] at fits
  have reads : (do
      let length ← varint32
      let offset ← Decoder.position
      return ⟨offset, length.toNat⟩ : Decoder Region).ReadsAt position m.head
      ⟨position + m.head.length, (m.fields.flatMap RawField.bytes).length⟩ := by
    refine (spells_readsAt m.spells).bind_pure.bind_nil (ReadsAt.position_bind ?_)
    rw [m.counts]
    exact pure_readsAt _
  rw [blockExtent, evalBlock_eq_evalAt h.points, evalAt_eq_toExcept h.inside (by omega)]
  exact (reads data _ h.addressable h.inside h.held.left (by omega)).toExcept_eq

/-- In a section with one block, a place in it is found to be there. -/
lemma ownerOf_eq_ok (h : s.HoldsBlock box data position m) (only : s.dataBoxes = [box])
    {offset : ℕ} (behind : position + m.head.length ≤ offset)
    (before : offset < position + m.bytes.length) : s.ownerOf offset data = .ok (some box) := by
  rw [RawMessage.bytes, List.length_append, ← Nat.add_assoc] at before
  rw [ownerOf, only]
  exact findM?_eq_ok (.cons h.blockExtent_eq_ok .nil) (List.pairwise_singleton _ _)
    (List.mem_singleton_self _) ⟨behind, before⟩

/-- A record in the only block of a section is resolved with the tables of the block. -/
lemma exists_readRoad_eq (h : s.HoldsBlock box data position m) (only : s.dataBoxes = [box])
    {tables : BlockTables}
    (known : BlockTables.decoder.FindsWhole (m.fields.flatMap RawField.bytes) (.ok tables))
    {f : RawField} {offset : ℕ} {v : Verdict RoadRecord}
    (stands : f.StandsAt data (position + m.head.length) (position + m.bytes.length) offset)
    (found : (RoadRecord.decoder box.area.topLeft).Finds f.payload v) (filled : f.payload ≠ []) :
    ∃ x, s.readRoad offset data = s.decode x ∧ x.mapError DecodeError.reference? =
      v >>= fun r => (r.resolve tables s.id s.rules).mapError DecodeError.reference? := by
  have filled := List.length_pos_iff.mpr filled
  have before := stands.before
  have fits := h.fits
  have owner := h.ownerOf_eq_ok only stands.behind (by omega)
  have read : s.decodeBlock box BlockTables.decoder data = .ok tables :=
    mapError_eq_ok.mp (h.decodeBlock_mapError known)
  refine ⟨do
    let record ← s.evalAt (RoadRecord.decoder box.area.topLeft) offset data
    record.resolve tables s.id s.rules, ?_, ?_⟩
  · rw [readRoad_eq_evalAt, owner]
    simp only [bind, Except.bind, read, Option.map_some, Option.getD_some]
  · rw [mapError_bind, h.evalAt_mapError stands.held (by omega) found]

end HoldsBlock

/-! ### Rearranged blocks -/

variable {position : ℕ} {m m' : RawMessage}

/-- The same roads are loaded, or the same reference is reported. -/
lemma loadBlock_sameAnswer (parts : ∀ f ∈ m.fields, BlockPart f)
    (rearranged : Rearranges m.fields m'.fields) (block : s.HoldsBlock box data position m)
    (block' : s.HoldsBlock box data' position m') :
    SameAnswer (s.loadBlock box data) (s.loadBlock box data') := by
  obtain ⟨v, found, found'⟩ := rearranged.exists_block_findsWhole parts box.area.topLeft
  refine decode_sameAnswer ?_
  rw [mapError_bind, mapError_bind, block.decodeBlock_mapError found,
    block'.decodeBlock_mapError found']

/-- A block that is read gives its roads, or reports a reference. -/
lemma loadBlock_settled (block : s.HoldsBlock box data position m) {b : Block}
    (found : (Block.decoder box.area.topLeft).FindsWhole (m.fields.flatMap RawField.bytes)
      (.ok b)) : (∃ roads, s.loadBlock box data = .ok roads) ∨
        ∃ reference, s.loadBlock box data =
          .error (.corruptSection s.name s.offset (.dangling reference)) := by
  have read : s.decodeBlock box (Block.decoder box.area.topLeft) data = .ok b :=
    mapError_eq_ok.mp (block.decodeBlock_mapError found)
  have loaded : s.loadBlock box data = s.decode (b.resolve s) := by
    rw [loadBlock, read]
    rfl
  rw [loaded]
  cases resolved : b.resolve s with
  | ok roads => exact .inl ⟨roads, rfl⟩
  | error cause =>
    obtain ⟨reference, rfl⟩ :=
      DanglesOnly.mapM (fun r _ => r.resolve_danglesOnly b.tables s.id s.rules) cause resolved
    exact .inr ⟨reference, rfl⟩

/-- Each record is read as the same road at its new place. -/
lemma readRoad_sameAnswer (parts : ∀ f ∈ m.fields, BlockPart f)
    (rearranged : Rearranges m.fields m'.fields) (block : s.HoldsBlock box data position m)
    (block' : s.HoldsBlock box data' position m') (only : s.dataBoxes = [box]) :
    List.Forall₂ (fun o o' => SameAnswer (s.readRoad o data) (s.readRoad o' data'))
      (recordOffsets (position + m.head.length) m.fields)
      (recordOffsets (position + m'.head.length) m'.fields) := by
  obtain ⟨tables, known, known'⟩ := rearranged.exists_tables_findsWhole parts
  have length (m : RawMessage) : position + m.bytes.length =
      position + m.head.length + (m.fields.flatMap RawField.bytes).length := by
    rw [RawMessage.bytes, List.length_append, Nat.add_assoc]
  have places := forall₂_recordOffsets block.held.right (length m).ge
  have places' := forall₂_recordOffsets block'.held.right (length m').ge
  rw [rearranged.records] at places'
  have road : ∀ f ∈ standing Format.Block.road m.fields,
      f.payload ≠ [] ∧ ∃ v, (RoadRecord.decoder box.area.topLeft).Finds f.payload v := by
    intro f member
    obtain ⟨present, number⟩ := List.mem_filter.mp member
    exact (parts f present).exists_record_finds (of_decide_eq_true number) _
  refine (forall₂_comp places ((List.forall₂_and_left _ _).mpr ⟨road, places'.flip⟩)).imp ?_
  rintro o o' ⟨f, stands, ⟨filled, v, found⟩, stands'⟩
  obtain ⟨x, read, verdict⟩ := block.exists_readRoad_eq only known stands found filled
  obtain ⟨x', read', verdict'⟩ := block'.exists_readRoad_eq only known' stands' found filled
  rw [read, read']
  exact decode_sameAnswer (verdict'.trans verdict.symm)

/-- The order of the fields of a block does not matter. Of two blocks that lie at one box, each in
its data, and have the same well-formed fields in different orders, which keep the order of the
records and that of the restrictions, the same roads are loaded or the same reference is reported,
and nothing else comes of them if their records can be read. If no other box of the section has a
data block, then reading single roads at the places of the records gives the same answers, record
by record. -/
theorem loadBlock_rearranged (parts : ∀ f ∈ m.fields, BlockPart f)
    (rearranged : Rearranges m.fields m'.fields) (block : s.HoldsBlock box data position m)
    (block' : s.HoldsBlock box data' position m') :
    SameAnswer (s.loadBlock box data) (s.loadBlock box data') ∧
    ((∀ f ∈ standing Format.Block.road m.fields,
        ∃ r, (RoadRecord.decoder box.area.topLeft).Finds f.payload (.ok r)) →
      (∃ roads, s.loadBlock box data = .ok roads) ∨
        ∃ reference, s.loadBlock box data =
          .error (.corruptSection s.name s.offset (.dangling reference))) ∧
    (s.dataBoxes = [box] →
      List.Forall₂ (fun o o' => SameAnswer (s.readRoad o data) (s.readRoad o' data'))
        (recordOffsets (position + m.head.length) m.fields)
        (recordOffsets (position + m'.head.length) m'.fields)) := by
  refine ⟨loadBlock_sameAnswer parts rearranged block block', fun readable => ?_, fun only => ?_⟩
  · obtain ⟨b, found, -⟩ := rearranged.exists_block_findsWhole_ok parts readable
    exact loadBlock_settled block found
  · exact readRoad_sameAnswer parts rearranged block block' only

/-! ### Two orders of a small block -/

/-- The number of a record: it is the first of a block. -/
def numberField : RawField := .ofNumber Format.Road.number 0 (by decide) (by decide)

/-- A record without points. -/
def bareRecord : RawMessage := .ofFields [numberField] (by decide)

/-- A turn from the first road to the second. -/
def plainTurn : RawMessage :=
  .ofFields [.ofNumber Format.Restriction.kind 3 (by decide) (by decide),
    .ofNumber Format.Restriction.target 1 (by decide) (by decide)] (by decide)

/-- The parts of a block: a record, an id table and a restriction. -/
def recordPart : RawField := .ofMessage Format.Block.road bareRecord (by decide)

def idsPart : RawField := .ofMessage Format.Block.idTable plainIds (by decide)

def turnPart : RawField := .ofMessage Format.Block.restriction plainTurn (by decide)

/-- The block with its id table behind the record, and in front of it. -/
def idsBehind : RawMessage := .ofFields [recordPart, idsPart, turnPart] (by decide)

def idsAhead : RawMessage := .ofFields [idsPart, turnPart, recordPart] (by decide)

/-- The data of a section that is one block, behind a first byte. -/
def soleBlock (m : RawMessage) : ByteArray := (0 :: m.bytes).toByteArray

/-- The box of the block. -/
def soleBox : Box := ⟨default, 0, 0, 1, []⟩

/-- The section over the block. -/
def soleSection : RoutingSection where
  id := 3
  name := "s"
  offset := 0
  length := 18
  boxes := #[soleBox]

lemma soleSection_holdsBlock {m : RawMessage} (length : m.bytes.length = 17) :
    soleSection.HoldsBlock soleBox (soleBlock m) 1 m where
  addressable := by rw [soleBlock, List.size_toByteArray, List.length_cons, length]; decide
  inside := by rw [soleBlock, List.size_toByteArray, List.length_cons, length]; decide
  points := rfl
  held := holds_append [0] m.bytes
  fits := by rw [length]; decide

lemma bareRecord_finds (base : Point) :
    ∃ r, (RoadRecord.decoder base).Finds bareRecord.bytes (.ok r) := by
  refine (RoadRecord.understands base).exists_finds_ok (fun f member acc => ?_) {}
  obtain rfl : f = numberField := List.mem_singleton.mp member
  exact varint_accepts.bind_pure _ numberField.extent

/-- The record lies at 3 in one order, and at 15 in the other. -/
theorem loadBlock_rearranged_idsAhead :
    SameAnswer (soleSection.loadBlock soleBox (soleBlock idsBehind))
      (soleSection.loadBlock soleBox (soleBlock idsAhead)) ∧
    ((∃ roads, soleSection.loadBlock soleBox (soleBlock idsBehind) = .ok roads) ∨
      ∃ reference, soleSection.loadBlock soleBox (soleBlock idsBehind) =
        .error (.corruptSection "s" 0 (.dangling reference))) ∧
    SameAnswer (soleSection.readRoad 3 (soleBlock idsBehind))
      (soleSection.readRoad 15 (soleBlock idsAhead)) := by
  have parts : ∀ f ∈ idsBehind.fields, BlockPart f := by
    refine List.forall_mem_cons.mpr ⟨.record rfl bareRecord rfl (by decide), ?_⟩
    refine List.forall_mem_cons.mpr ⟨.ids rfl plainIds rfl (by decide), ?_⟩
    exact List.forall_mem_singleton.mpr (.restriction rfl plainTurn rfl (by decide))
  have turned : ([idsPart, turnPart] ++ [recordPart]).Perm ([recordPart] ++ [idsPart, turnPart]) :=
    List.perm_append_comm
  have rearranged : Rearranges idsBehind.fields idsAhead.fields :=
    { perm := turned
      records := rfl
      restrictions := rfl
      oneIdTable := by decide
      oneStringTable := by decide }
  obtain ⟨loaded, settled, read⟩ := loadBlock_rearranged parts rearranged
    (soleSection_holdsBlock (by decide)) (soleSection_holdsBlock (by decide))
  refine ⟨loaded, settled ?_, (List.forall₂_cons.mp (read rfl)).1⟩
  exact List.forall_mem_singleton.mpr (bareRecord_finds default)

end RoutingSection

end RoadAtlas
