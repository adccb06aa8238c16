import RoadAtlas.Proofs.Network.Section
import RoadAtlas.Proofs.Traversal

/-!
Roads read one by one. The place that is reported for a record when a section is written leads to
the road that loading the record's whole data block gives.

* `BlockDraft.forall₂_standsAt`: the records of a block stand at their offsets in it;
* `SectionDraft.pairwise_extents`: no two data blocks overlap, so `RoutingSection.ownerOf_eq_ok`
  finds the box in whose block a record lies;
* `RoutingSection.readRoad_roadOffsets`: both ways to a road agree, for every record of every box.
-/

namespace RoadAtlas

open Decoder

section Lists

variable {α β γ : Type}

/-- Two lists that are related to the same third one are so side by side. -/
lemma forall₂_zip_left {R : α → γ → Prop} {S : β → γ → Prop} {as : List α} {bs : List β}
    {cs : List γ} (h : List.Forall₂ R as cs) (h' : List.Forall₂ S bs cs) :
    List.Forall₂ (fun e c => R e.1 c ∧ S e.2 c) (as.zip bs) cs := by
  induction h generalizing bs with
  | nil =>
    cases h'
    exact .nil
  | cons first _ ih =>
    cases h' with
    | cons first' later' => exact .cons ⟨first, first'⟩ (ih later')

/-- Relations compose list by list. -/
lemma forall₂_comp {R : α → β → Prop} {S : β → γ → Prop} {as : List α} {bs : List β}
    {cs : List γ} (h : List.Forall₂ R as bs) (h' : List.Forall₂ S bs cs) :
    List.Forall₂ (fun a c => ∃ b, R a b ∧ S b c) as cs := by
  induction h generalizing cs with
  | nil =>
    cases h'
    exact .nil
  | cons first _ ih =>
    cases h' with
    | cons first' later' => exact .cons ⟨_, first, first'⟩ (ih later')

/-- The elements with an answer, beside their answers. -/
lemma forall₂_filterMap (f : α → Option β) : ∀ items : List α,
    List.Forall₂ (fun b a => f a = some b) (items.filterMap f)
      (items.filter fun a => (f a).isSome)
  | [] => .nil
  | a :: rest => by
    rw [List.filterMap_cons, List.filter_cons]
    cases h : f a with
    | none => exact forall₂_filterMap f rest
    | some b => exact .cons h (forall₂_filterMap f rest)

end Lists

/-! ### Records of a block -/

/-- Bytes at a position, the last of them before another one, are read as a record. -/
def RoadRecord.StandsAt (data : ByteArray) (corner : Point) (stop p : ℕ) (record : RoadRecord) :
    Prop :=
  ∃ bytes : List UInt8, Holds data p bytes ∧ p < stop ∧ p + bytes.length ≤ stop ∧
    (decoder corner).ReadsAt p bytes record

namespace BlockDraft

lemma length_writeRecords (corner : Point) (table : List String) :
    ∀ (roads : List RoadDraft) (number : ℕ),
      (writeRecords corner table number roads).length = roads.length
  | [], _ => rfl
  | _ :: rest, number => congrArg (· + 1) (length_writeRecords corner table rest (number + 1))

variable {data : ByteArray} {origin stop : ℕ} {corner : Point}

/-- Records stand where the payloads of their fields start. -/
lemma forall₂_standsAt {table : List String} : ∀ {roads : List RoadDraft} {number start : ℕ},
    Holds data (origin + start) (writeRecords corner table number roads).flatten →
      (writeRecords corner table number roads).flatten.length < 2 ^ 32 →
      origin + start + (writeRecords corner table number roads).flatten.length ≤ stop →
      List.Forall₂ (fun offset => RoadRecord.StandsAt data corner stop (origin + offset))
        (payloadOffsets (Wire.tag Format.Block.road .lengthDelimited).length start
          (writeRecords corner table number roads))
        (records table number roads)
  | [], _, _, _, _, _ => .nil
  | r :: rest, number, start, held, small, before => by
    rw [writeRecords, List.flatten_cons] at held small before
    rw [List.length_append] at small before
    rw [writeRecords, payloadOffsets, records]
    have behind := held.right
    rw [Nat.add_assoc] at behind
    refine .cons ?_ (forall₂_standsAt behind (by omega) (by omega))
    have payload := held.left.right
    rw [Nat.add_assoc] at payload
    have body := length_le_bytesField Format.Block.road (r.write number corner table)
    have field : (Wire.bytesField Format.Block.road (r.write number corner table)).length =
        (Wire.tag Format.Block.road .lengthDelimited).length +
          (Wire.sized (r.write number corner table)).length := by
      rw [Wire.bytesField, List.length_append]
    have prefixed : 0 < (Wire.sized (r.write number corner table)).length := by
      rw [Wire.sized, List.length_append]
      exact Nat.add_pos_left (List.length_pos_iff.mpr (Varint.encode_ne_nil _)) _
    exact ⟨_, payload, by omega, by omega, RoadRecord.decoder_readsAt (by omega)⟩

/-- The reported offsets of a block, with the roads' ids, and the records that stand there. -/
lemma forall₂_roadOffsets {b : BlockDraft} (held : Holds data origin (b.write corner))
    (small : (b.write corner).length < 2 ^ 32) :
    List.Forall₂ (fun offset =>
        RoadRecord.StandsAt data corner (origin + (b.write corner).length) (origin + offset))
      (payloadOffsets (Wire.tag Format.Block.road .lengthDelimited).length b.writeIdTable.length
        (b.recordFields corner))
      (records b.strings 0 b.roads) := by
  simp only [write, List.length_append] at small ⊢
  rw [write] at held
  refine forall₂_standsAt held.left.left.right ?_ ?_
  · rw [← recordFields]
    omega
  · rw [← recordFields]
    omega

end BlockDraft

/-! ### The box of a record -/

/-- The position behind a range of bytes. -/
def Region.stop (r : Region) : ℕ := r.offset + r.length

namespace SectionDraft

/-- Payloads start behind the start of the first field. -/
lemma le_of_mem_payloadOffsets {tagLength place : ℕ} :
    ∀ {fields : List (List UInt8)} {start : ℕ},
      place ∈ BlockDraft.payloadOffsets tagLength start fields → start ≤ place
  | [], _, h => by simp [BlockDraft.payloadOffsets] at h
  | field :: rest, start, h => by
    rw [BlockDraft.payloadOffsets, List.mem_cons] at h
    rcases h with rfl | later
    · exact Nat.le_add_right _ _
    · exact Nat.le_trans (Nat.le_add_right _ _) (le_of_mem_payloadOffsets later)

/-- Payloads lie one behind the other. -/
lemma pairwise_payloadOffsets (tag : List UInt8) : ∀ (bodies : List (List UInt8)) (start : ℕ),
    ((BlockDraft.payloadOffsets tag.length start (bodies.map fun body => tag ++ body)).zip
      bodies).Pairwise fun e e' => e.1 + e.2.length ≤ e'.1
  | [], _ => .nil
  | body :: rest, start => by
    rw [List.map_cons, BlockDraft.payloadOffsets, List.zip_cons_cons]
    refine .cons (fun e he => ?_) (pairwise_payloadOffsets tag rest _)
    have behind := le_of_mem_payloadOffsets (List.of_mem_zip he).1
    rw [List.length_append] at behind
    simp only
    omega

/-- Where a block lies in the data, its length prefix not counted. -/
def extent (origin : ℕ) (e : ℕ × Area × BlockDraft) : Region where
  offset := origin + e.1 + (Wire.length (e.2.2.write e.2.1.topLeft).length).length
  length := (e.2.2.write e.2.1.topLeft).length

/-- No two data blocks overlap. -/
lemma pairwise_extents (d : SectionDraft) (origin : ℕ) :
    ((d.places.zip d.blocks).map (extent origin)).Pairwise fun r r' =>
      r.stop ≤ r'.offset := by
  have apart := pairwise_payloadOffsets blockTag d.blockBodies (d.writeFront []).length
  rw [← places, blockBodies, List.zip_map_right, List.pairwise_map] at apart
  rw [List.pairwise_map]
  refine apart.imp ?_
  rintro ⟨place, area, b⟩ ⟨place', area', b'⟩ h
  simp only [Prod.map, id_eq, Wire.sized, List.length_append] at h
  simp only [Region.stop, extent]
  omega

end SectionDraft

namespace RoutingSection

variable {s : RoutingSection} {d : SectionDraft} {data : ByteArray}

/-- Of boxes whose blocks do not overlap, the one in whose block an offset lies is found. -/
lemma findM?_eq_ok {offset : ℕ} {extents : List Region} {boxes : List Box}
    (known : List.Forall₂ (fun r box => s.blockExtent box data = .ok r) extents boxes)
    (apart : extents.Pairwise fun r r' => r.stop ≤ r'.offset) {r : Region} {box : Box}
    (listed : (r, box) ∈ extents.zip boxes)
    (here : r.offset ≤ offset ∧ offset < r.stop) :
    (boxes.findM? fun b => do
      let r ← s.blockExtent b data
      return r.offset ≤ offset && offset < r.offset + r.length) = .ok (some box) := by
  induction known with
  | nil => cases listed
  | @cons first b more rest hfirst hmore ih =>
    rw [List.pairwise_cons] at apart
    rw [List.findM?, hfirst]
    rw [List.zip_cons_cons, List.mem_cons] at listed
    rcases listed with same | later
    · cases same
      rw [Region.stop] at here
      simp [bind, Except.bind, pure, Except.pure, here]
    · -- the offset lies behind the first block, so the search goes on
      have behind := apart.1 r (List.of_mem_zip later).1
      have past : ¬ offset < first.offset + first.length := by
        rw [Region.stop] at behind
        omega
      simpa [bind, Except.bind, pure, Except.pure, past] using ih apart.2 later

/-- A box stands for a block of a draft at a place: it has the block's area and points there. -/
def StandsFor (s : RoutingSection) (e : ℕ × Area × BlockDraft) (box : Box) : Prop :=
  box.area = e.2.1 ∧ box.dataPosition? = some (s.offset + e.1)

/-- A road is the one whose id was reported with an offset, and is read at that offset. -/
def ReadsAs (s : RoutingSection) (data : ByteArray) (reported : Int64 × ℕ) (road : Road) : Prop :=
  road.id = reported.1 ∧ s.readRoad (s.offset + reported.2) data = .ok road

namespace WrittenFrom

variable {place : ℕ} {area : Area} {b : BlockDraft} {box : Box}

/-- Where the block of a box lies. -/
lemma blockExtent_eq_ok (written : s.WrittenFrom d data) (placed : d.Places place (area, b))
    (stands : s.StandsFor (place, area, b) box) :
    s.blockExtent box data = .ok (SectionDraft.extent s.offset (place, area, b)) := by
  obtain ⟨found, -, before⟩ := SectionDraft.holds_block written.held placed
  have small := written.length_block_lt placed
  have inside := written.inside
  rw [Wire.sized, List.length_append] at before
  rw [Wire.sized] at found
  have reads : (do
      let length ← varint32
      let offset ← position
      return ⟨offset, length.toNat⟩ : Decoder Region).ReadsAt (s.offset + place)
      (Wire.length (b.write area.topLeft).length)
      (SectionDraft.extent s.offset (place, area, b)) := by
    refine (varint32_readsAt_ofNat _).bind_nil (ReadsAt.position_bind ?_)
    rw [UInt32.toNat_ofNat_of_lt' small]
    exact pure_readsAt _
  rw [blockExtent, written.blockCursor_eq_ok stands.2 (by omega)]
  exact (reads data _ written.addressable inside found.left (by omega)).toExcept_eq

/-- The box in whose block an offset lies is found. -/
lemma ownerOf_eq_ok (written : s.WrittenFrom d data)
    (boxes : List.Forall₂ s.StandsFor (d.places.zip d.blocks) s.dataBoxes)
    (listed : ((place, area, b), box) ∈ (d.places.zip d.blocks).zip s.dataBoxes) {offset : ℕ}
    (here : (SectionDraft.extent s.offset (place, area, b)).offset ≤ offset ∧
      offset < (SectionDraft.extent s.offset (place, area, b)).stop) :
    s.ownerOf offset data = .ok (some box) := by
  have known : List.Forall₂ (fun r box => s.blockExtent box data = .ok r)
      ((d.places.zip d.blocks).map (SectionDraft.extent s.offset)) s.dataBoxes := by
    rw [List.forall₂_map_left_iff]
    refine List.forall₂_iff_zip.mpr ⟨boxes.length_eq, fun {_ _} h => ?_⟩
    exact written.blockExtent_eq_ok (List.of_mem_zip h).1 (List.forall₂_zip boxes h)
  refine findM?_eq_ok known (d.pairwise_extents s.offset) ?_ here
  rw [List.zip_map_left]
  exact List.mem_map.mpr ⟨_, listed, rfl⟩

/-- A record that stands in the block of a box is read as the road that it is resolved to. -/
lemma readRoad_eq_ok (written : s.WrittenFrom d data)
    (boxes : List.Forall₂ s.StandsFor (d.places.zip d.blocks) s.dataBoxes)
    (listed : ((place, area, b), box) ∈ (d.places.zip d.blocks).zip s.dataBoxes) {offset : ℕ}
    {record : RoadRecord} {road : Road}
    (after : (SectionDraft.extent s.offset (place, area, b)).offset ≤ offset)
    (stands : record.StandsAt data area.topLeft
      (SectionDraft.extent s.offset (place, area, b)).stop offset)
    (resolved : record.resolve b.tables s.id s.rules = .ok road) :
    s.readRoad offset data = .ok road := by
  obtain ⟨bytes, held, before, fits, reads⟩ := stands
  have placed : d.Places place (area, b) := (List.of_mem_zip listed).1
  obtain ⟨same, points⟩ := List.forall₂_zip boxes listed
  have owner := written.ownerOf_eq_ok boxes listed ⟨after, before⟩
  have tables : s.decodeBlock box BlockTables.decoder data = .ok b.tables := by
    refine written.decodeBlock_eq_ok (by rwa [same]) points ?_
    rw [same]
    exact BlockTables.decoder_fillsAt (written.length_block_lt placed)
  -- the record lies in a block, and the block in the section
  obtain ⟨-, -, inside⟩ := SectionDraft.holds_block written.held placed
  rw [Wire.sized, List.length_append] at inside
  simp only [Region.stop, SectionDraft.extent] at fits before
  have seeks : Cursor.seek ⟨s.offset, s.offset + d.write.length⟩ data offset =
      .ok ⟨offset, s.offset + d.write.length⟩ := by
    rw [Cursor.seek, if_neg (by simp only; omega)]
  have decoded : (RoadRecord.decoder area.topLeft).eval data
      ⟨offset, s.offset + d.write.length⟩ = .ok record :=
    (reads data _ written.addressable written.inside held (by omega)).toExcept_eq
  simp only [readRoad, owner, tables, written.cursor_eq_ok, same, bind, Except.bind, pure,
    Except.pure, seeks, decoded, resolved, RoutingSection.decode]

/-- The roads of a block are those that are read one by one where their records stand. -/
lemma loadBlock_eq_ok (written : s.WrittenFrom d data)
    (boxes : List.Forall₂ s.StandsFor (d.places.zip d.blocks) s.dataBoxes)
    (listed : ((place, area, b), box) ∈ (d.places.zip d.blocks).zip s.dataBoxes) :
    ∃ roads, s.loadBlock box data = .ok roads ∧
      List.Forall₂ (s.ReadsAs data) (SectionDraft.offsetsIn place area b) roads := by
  have placed : d.Places place (area, b) := (List.of_mem_zip listed).1
  have given : b.givenIds = none := written.storable.ids _ (List.of_mem_zip placed).2
  have small := written.length_block_lt placed
  obtain ⟨same, points⟩ := List.forall₂_zip boxes listed
  obtain ⟨found, -, -⟩ := SectionDraft.holds_block written.held placed
  obtain ⟨roads, resolved, stored⟩ :=
    BlockDraft.resolve_block given (BlockDraft.numbered_of_write small) s
  refine ⟨roads, ?_, ?_⟩
  · have decoded : s.decodeBlock box (Block.decoder box.area.topLeft) data = .ok b.block := by
      rw [same]
      exact written.decodeBlock_eq_ok (by rwa [same]) points (by
        rw [same]
        exact Block.decoder_fillsAt small)
    simp only [loadBlock, decoded, bind, Except.bind, resolved, RoutingSection.decode]
  · have ids : List.Forall₂ (fun id road => road.id = id) (b.roads.map RoadDraft.id) roads := by
      rw [List.forall₂_map_left_iff]
      exact stored.imp fun r road h => h.id
    have resolves : List.Forall₂
        (fun record road => record.resolve b.tables s.id s.rules = .ok road)
        (BlockDraft.records b.strings 0 b.roads) roads := forall₂_of_mapM resolved
    have stands := BlockDraft.forall₂_roadOffsets found.right small
    rw [SectionDraft.offsetsIn, BlockDraft.roadOffsets, List.forall₂_map_left_iff]
    refine (forall₂_zip_left ids (forall₂_comp stands resolves)).imp ?_
    rintro ⟨id, offset⟩ road ⟨named, record, here, resolve⟩
    refine ⟨named, ?_⟩
    simp only [← Nat.add_assoc]
    exact written.readRoad_eq_ok boxes listed (Nat.le_add_right _ _) here resolve

end WrittenFrom

/-- A section is read where it was written, with box forests that mirror its own. -/
lemma read_eq_ok {entry : SectionEntry} (id : ℕ) (storable : d.Storable)
    (addressable : data.size < positionBound) (kind : entry.kind = .routing)
    (length : entry.length = d.write.length) (held : Holds data entry.offset d.write) :
    ∃ s, read id entry data = .ok s ∧ s.offset = entry.offset ∧ s.WrittenFrom d data ∧
      d.BoxedAs s.offset s.boxes.toList s.basemap.toList := by
  obtain ⟨s, known, offset, laid, boxed⟩ :=
    exists_read_laidOut id storable.fits addressable kind length held
  exact ⟨s, known, offset, ⟨laid, storable⟩, boxed⟩

/-- The boxes that a section is read with stand for its blocks, in file order. -/
lemma forall₂_standsFor (boxed : d.BoxedAs s.offset s.boxes.toList s.basemap.toList) :
    List.Forall₂ s.StandsFor (d.places.zip d.blocks) s.dataBoxes := by
  have hasData : ∀ b box, BoxDraft.PointsAt d.Places s.offset b box → box.hasData = true := by
    rintro b box ⟨place, -, points⟩
    rw [Box.hasData, points, Option.isSome_some]
  have areas := List.rel_append (boxed.mirrors.forall₂_blocks hasData)
    (boxed.mirrors_basemap.forall₂_blocks hasData)
  have places := forall₂_filterMap Box.dataPosition?
    (Box.preorderAll s.boxes.toList ++ Box.preorderAll s.basemap.toList)
  rw [boxed.positions, List.forall₂_map_left_iff] at places
  beta_reduce at areas
  rw [← List.filter_append] at areas
  rw [dataBoxes, Box.preorderAll_append]
  exact (forall₂_zip_left places areas).imp fun e box h => ⟨h.2.1, h.1⟩

/-- The ids and the offsets of a block's records, road by road. -/
lemma map_fst_offsetsIn (place : ℕ) (area : Area) (b : BlockDraft) :
    (SectionDraft.offsetsIn place area b).map Prod.fst = b.roads.map RoadDraft.id := by
  have same : (b.roads.map RoadDraft.id).length ≤
      (BlockDraft.payloadOffsets (Wire.tag Format.Block.road .lengthDelimited).length
        b.writeIdTable.length (b.recordFields area.topLeft)).length := by
    rw [SectionDraft.length_payloadOffsets, BlockDraft.recordFields, List.length_map]
    exact (BlockDraft.length_writeRecords area.topLeft b.strings b.roads 0).ge
  rw [SectionDraft.offsetsIn, List.map_map]
  exact List.map_fst_zip same

/-- A written section is read back such that every record can be read alone: the offsets that are
reported for the records, block by block, lead to the roads that loading the block gives. -/
theorem readRoad_roadOffsets {entry : SectionEntry} (id : ℕ) (storable : d.Storable)
    (addressable : data.size < positionBound) (kind : entry.kind = .routing)
    (length : entry.length = d.write.length) (held : Holds data entry.offset d.write) :
    ∃ (s : RoutingSection) (groups : List (List (Int64 × ℕ))),
      read id entry data = .ok s ∧ s.offset = entry.offset ∧
      d.roadOffsets = groups.flatten ∧
      groups.map (List.map Prod.fst) = d.blocks.map (fun e => e.2.roads.map RoadDraft.id) ∧
      List.Forall₂ (fun reported box => ∃ roads, s.loadBlock box data = .ok roads ∧
        List.Forall₂ (s.ReadsAs data) reported roads) groups s.dataBoxes := by
  obtain ⟨s, known, offset, written, boxed⟩ := read_eq_ok id storable addressable kind length held
  have boxes := forall₂_standsFor boxed
  refine ⟨s, (d.places.zip d.blocks).map fun e => SectionDraft.offsetsIn e.1 e.2.1 e.2.2, known,
    offset, rfl, ?_, ?_⟩
  · have blocks : (d.places.zip d.blocks).map Prod.snd = d.blocks :=
      List.map_snd_zip d.places_forall₂.length_eq.ge
    rw [List.map_map]
    nth_rewrite 2 [← blocks]
    rw [List.map_map]
    exact List.map_congr_left fun e _ => map_fst_offsetsIn e.1 e.2.1 e.2.2
  · rw [List.forall₂_map_left_iff]
    refine List.forall₂_iff_zip.mpr ⟨boxes.length_eq, fun {_ _} listed => ?_⟩
    exact written.loadBlock_eq_ok boxes listed

/-- A section with a block in a box, another one in a box in it, and a third one in the basemap. -/
def threeBlocks : SectionDraft where
  name := "roads"
  rules := [("highway", "primary")]
  boxes := [{
    area := ⟨0, 0, 4096, 4096⟩
    block := some { roads := [
      { id := 5, points := [⟨64, 64⟩, ⟨4000, 96⟩], types := [0], names := [(1, "a")] },
      { id := -9, points := [⟨96, 4000⟩], types := [0, 0], restrictions := [(5, .noLeftTurn)] }] }
    children := [{
      area := ⟨32, 64, 1024, 2048⟩
      block := some { roads := [{ id := 5, points := [⟨640, 640⟩], names := [(1, "b")] }] } }] }]
  basemap := [{
    area := ⟨0, 0, 8192, 8192⟩
    block := some { roads := [{ id := 7, points := [⟨8000, 8000⟩], names := [(1, "a")] }] } }]

/-- The section behind a first byte of other data. -/
theorem readRoad_roadOffsets_threeBlocks :
    ∃ (s : RoutingSection) (groups : List (List (Int64 × ℕ))),
      read 4 ⟨.routing, "", 1, threeBlocks.write.length⟩ (0 :: threeBlocks.write).toByteArray =
        .ok s ∧ s.offset = 1 ∧ threeBlocks.roadOffsets = groups.flatten ∧
      groups.map (List.map Prod.fst) = [[5, -9], [5], [7]] ∧
      List.Forall₂ (fun reported box => ∃ roads,
        s.loadBlock box (0 :: threeBlocks.write).toByteArray = .ok roads ∧
        List.Forall₂ (s.ReadsAs (0 :: threeBlocks.write).toByteArray) reported roads) groups
          s.dataBoxes := by
  have storable : threeBlocks.Storable :=
    { boxes := ⟨⟨⟨by decide, by decide, by decide, by decide⟩,
        ⟨⟨by decide, by decide, by decide, by decide⟩, trivial⟩, trivial⟩, trivial⟩
      basemap := ⟨⟨⟨by decide, by decide, by decide, by decide⟩, trivial⟩, trivial⟩
      ids := by simp [SectionDraft.blocks, threeBlocks, BoxDraft.blocksAll, BoxDraft.blocks]
      length_lt := by decide +kernel }
  have addressable : (0 :: threeBlocks.write).toByteArray.size < positionBound := by
    have := storable.length_lt
    rw [List.size_toByteArray, List.length_cons, positionBound]
    omega
  have held : Holds (0 :: threeBlocks.write).toByteArray 1 threeBlocks.write := by
    have h := holds_toByteArray [0] threeBlocks.write []
    rwa [List.append_nil] at h
  exact readRoad_roadOffsets 4 storable addressable rfl rfl held

end RoutingSection

end RoadAtlas
