import Mathlib.Algebra.Ring.Nat
import RoadAtlas.Proofs.Container.Catalog
import RoadAtlas.Proofs.Network.BlockLoading
import RoadAtlas.Proofs.Network.Border
import RoadAtlas.Proofs.Network.Descent
import RoadAtlas.Proofs.Network.Isolation
import RoadAtlas.Proofs.Wire.Containment

/-!
Reading comes to its end, and what it gives is no larger than what it is read from. Whatever is put
into a list has a number of its own in front of it, a byte at least, so that the bytes of a section
bound what a section holds: its rules and boxes, and what each of its data blocks says.

* `Catalog.size_sections_le`: the sections of a catalog;
* `RoutingSection.parts`, `Block.parts`: how much a section and a data block hold;
* `RoutingSection.decoder_paysAt`, `Block.decoder_paysAt`: what is held is paid for by what is read;
* `RoutingSection.HoldsNoMore`: a section that was read holds no more than it has bytes;
* `decoding_makes_progress`: every repetition and every descent comes to its end, and sections hold
  no more than they have bytes.
-/

namespace RoadAtlas

open Decoder

variable {data : ByteArray} {c : Cursor}

/-! ### Catalogs -/

lemma skipSectionField_contained (t : Tag) : (skipSectionField t).Contained := by
  rw [skipSectionField]
  split
  · exact skipBlock_contained
  · exact skipField_contained t

namespace Index

lemma readSection_contained (kind : SectionKind) : (readSection kind).Contained := by
  refine be32_contained.bind fun length => position_contained.bind fun offset => ?_
  refine (inspect_contained _).bind fun size => ?_
  split
  · exact (fail_contained _).bind fun _ => (inspect_contained _).bind fun name =>
      (skip_contained _).bind fun _ => pure_contained _
  · exact (inspect_contained _).bind fun name => (skip_contained _).bind fun _ => pure_contained _

lemma step_contained (t : Tag) (index : Index) : (step t index).Contained := by
  rw [step]
  split
  · exact varint32_contained.bind fun _ => pure_contained _
  · exact varint_contained.bind fun _ => pure_contained _
  · exact varint32_contained.bind fun _ => pure_contained _
  · split
    · exact (readSection_contained _).bind fun _ => pure_contained _
    · exact (skipSectionField_contained t).bind fun _ => pure_contained _

/-- A field of the index pays for a section with its number. -/
lemma step_paysAt (t : Tag) (index : Index) :
    (step t index).PaysAt data c (index.sections.size + 1) fun index => index.sections.size := by
  refine paysAt_of_le fun index' next ends => ?_
  obtain ⟨reach, done⟩ := ends
  rcases step_cases t with ⟨kind, same⟩ | ⟨α, x, f, -, same, sections, -⟩
  · rw [same, run_map] at done
    obtain ⟨s, -, rfl⟩ := Outcome.map_eq_done done
    rw [push, Array.size_push]
  · rw [same, run_map] at done
    obtain ⟨a, -, rfl⟩ := Outcome.map_eq_done done
    rw [sections]
    exact Nat.le_succ _

end Index

/-- A catalog has no more sections than its container has bytes. -/
lemma Catalog.size_sections_le {catalog : Catalog} (h : Catalog.read data = .ok catalog) :
    catalog.sections.size ≤ data.size := by
  obtain ⟨index, next, folds, checked⟩ := read_eq_ok_iff.mp h
  have paid : index.sections.size ≤ 0 + next.position :=
    fields_paysAt (fun t index _ _ => Index.step_paysAt t index) {} folds.ends
  have stays := fields_contained Index.step_contained {} data (.start data) (Nat.zero_le _)
  obtain ⟨reach, done⟩ := folds.ends
  rw [done] at stays
  calc catalog.sections.size = index.sections.size := by rw [Index.sections_of_check checked]
    _ ≤ next.position := paid.trans (Nat.zero_add _).le
    _ ≤ data.size := stays.inside.trans stays.limit_le

/-! ### Sections -/

namespace RoutingSection

/-- How many rules and boxes a section has. -/
def parts (s : RoutingSection) : ℕ :=
  s.rules.size + (Box.preorderAll (s.boxes.toList ++ s.basemap.toList)).length

lemma parts_pushRule (s : RoutingSection) (tag value : String) :
    ({ s with rules := s.rules.push tag value } : RoutingSection).parts = s.parts + 1 := by
  simp only [parts, RuleTable.size, RuleTable.push, Array.size_push]
  omega

lemma parts_pushBox (s : RoutingSection) (b : Box) :
    ({ s with boxes := s.boxes.push b } : RoutingSection).parts = s.parts + b.preorder.length := by
  simp only [parts, Array.toList_push, Box.preorderAll_append, Box.preorderAll, List.length_append,
    List.append_nil]
  omega

lemma parts_pushBasemap (s : RoutingSection) (b : Box) :
    ({ s with basemap := s.basemap.push b } : RoutingSection).parts =
      s.parts + b.preorder.length := by
  simp only [parts, Array.toList_push, Box.preorderAll_append, Box.preorderAll, List.length_append,
    List.append_nil]
  omega

/-- A field of a section pays for a rule with its number, for boxes with that and their bytes. -/
lemma step_paysAt (t : Tag) (s : RoutingSection) :
    (step t s).PaysAt data c (s.parts + 1) parts := by
  rw [step]
  split
  case h_2 =>
    refine paysAt_behind fun pair _ _ => paysAt_pure ?_
    exact (parts_pushRule s pair.1 pair.2).le
  case h_3 => exact (Box.readRoot_paysAt.beside s.parts).bind_pure fun b => (parts_pushBox s b).le
  case h_4 =>
    exact (Box.readRoot_paysAt.beside s.parts).bind_pure fun b => (parts_pushBasemap s b).le
  case h_7 =>
    exact paysAt_behind fun _ _ _ => paysAt_behind fun _ _ _ => paysAt_pure (Nat.le_succ _)
  all_goals exact paysAt_behind fun _ _ _ => paysAt_pure (Nat.le_succ _)

lemma decoder_paysAt (s : RoutingSection) : (decoder s).PaysAt data c s.parts parts :=
  fields_paysAt (fun t s _ _ => step_paysAt t s) s

/-- A section that was read has no more rules and boxes than bytes. -/
lemma parts_le {id : ℕ} {entry : SectionEntry} {s : RoutingSection}
    (h : RoutingSection.read id entry data = .ok s) : s.parts ≤ entry.length := by
  obtain ⟨-, -, found⟩ := SectionEntry.decode_eq_ok_iff.mp h
  have paid : s.parts + entry.offset ≤ 0 + entry.stop :=
    (decoder_paysAt _).le_of_eval found fun next ends =>
      (decoder_local _ _).position_le (Nat.le_add_right _ _) ends.choose_spec
  rw [SectionEntry.stop] at paid
  omega

end RoutingSection

/-! ### Records and tables -/

namespace RoadRecord

lemma readPoints_paysAt (base : Point) (points : Array Point) :
    (readPoints base points).PaysAt data c points.size Array.size := by
  refine PaysAt.sized fun c => ?_
  have gathered : (entries (gridOf base, points) pointStep).PaysAt data c points.size
      fun state => state.2.size := by
    refine entries_paysAt (fun lead state c' _ => ?_) (gridOf base, points)
    refine paysAt_behind fun dy _ _ => paysAt_behind fun point _ _ => paysAt_pure ?_
    rw [Array.size_push]
  exact gathered.map fun _ => le_rfl

lemma step_paysAt (base : Point) (t : Tag) (r : RoadRecord) :
    (step base t r).PaysAt data c (r.points.size + 1) fun r => r.points.size := by
  rw [step]
  split
  case h_1 =>
    exact ((readPoints_paysAt base r.points).mono (Nat.le_succ _)).bind_pure fun _ => le_rfl
  all_goals exact paysAt_behind fun _ _ _ => paysAt_pure (Nat.le_succ _)

lemma decoder_paysAt (base : Point) :
    (decoder base).PaysAt data c 0 fun r => r.points.size :=
  PaysAt.sized fun _ => fields_paysAt (fun t r _ _ => step_paysAt base t r) {}

end RoadRecord

lemma Decoder.stringTable_paysAt : stringTable.PaysAt data c 0 Array.size := by
  refine PaysAt.sized fun c => fields_paysAt (fun t strings c' _ => ?_) #[]
  split
  · refine paysAt_behind fun text _ _ => paysAt_pure ?_
    rw [Array.size_push]
  · exact paysAt_behind fun _ _ _ => paysAt_pure (Nat.le_succ _)

namespace BlockTables

/-- How many ids, strings and restrictions the tables of a block have. -/
def parts (tables : BlockTables) : ℕ :=
  (tables.ids.elim 0 Array.size) + tables.strings.size + tables.restrictions.size

lemma readIds_paysAt : readIds.PaysAt data c 0 Array.size := by
  refine PaysAt.sized fun c => ?_
  have gathered : (fields (0, #[]) idStep).PaysAt data c 0 fun state => state.2.size := by
    refine fields_paysAt (fun t state c' _ => ?_) (0, #[])
    rw [idStep]
    split
    · refine paysAt_behind fun delta _ _ => paysAt_pure ?_
      rw [Array.size_push]
    · exact paysAt_behind fun _ _ _ => paysAt_pure (Nat.le_succ _)
  exact gathered.map fun _ => le_rfl

lemma step_paysAt (t : Tag) (tables : BlockTables) :
    (step t tables).PaysAt data c (tables.parts + 1) parts := by
  rw [step]
  split
  case h_1 =>
    refine (readIds_paysAt.beside (tables.parts + 1)).bind_pure fun ids => ?_
    simp only [parts, Option.elim_some]
    omega
  case h_2 =>
    refine paysAt_behind fun restriction _ _ => paysAt_pure ?_
    simp only [parts, Array.size_push]
    omega
  case h_3 =>
    refine (stringTable_paysAt.beside (tables.parts + 1)).bind_pure fun strings => ?_
    simp only [parts]
    omega
  case h_4 => exact paysAt_behind fun _ _ _ => paysAt_pure (Nat.le_succ _)

end BlockTables

/-! ### Resolved records -/

namespace RoadRecord

variable {tables : BlockTables} {sectionId : ℕ} {rules : RuleTable}

lemma map_length_points {records : List RoadRecord} {roads : List Road}
    (each : List.Forall₂ (fun r road => ReadAs r tables sectionId rules road) records roads) :
    (roads.map fun r => r.points.toList.length) = records.map fun r => r.points.size := by
  induction each with
  | nil => rfl
  | cons first _ ih =>
    rw [List.map_cons, List.map_cons, ih, first.points]
    rfl

/-- A road has no more restrictions than the table of its block. -/
lemma length_restrictions_le {r : RoadRecord} {road : Road}
    (h : r.resolve tables sectionId rules = .ok road) :
    road.restrictions.toList.length ≤ tables.restrictions.size := by
  rw [resolve] at h
  obtain ⟨names, -, h⟩ := bind_eq_ok.mp h
  obtain ⟨pointNames, -, h⟩ := bind_eq_ok.mp h
  obtain ⟨restrictions, found, h⟩ := bind_eq_ok.mp h
  obtain ⟨id, -, h⟩ := bind_eq_ok.mp h
  cases h
  rw [resolveRestrictions_eq] at found
  obtain ⟨targets, -, rfl⟩ := map_eq_ok.mp found
  calc _ ≤ ((ownRestrictions tables r.number).zip targets).length :=
        (SortedMap.length_foldl_insert_le _ _ _ _).trans (Nat.zero_add _).le
    _ ≤ (ownRestrictions tables r.number).length := by
        rw [List.length_zip]
        exact Nat.min_le_left _ _
    _ ≤ tables.restrictions.size := List.length_filter_le _ _

end RoadRecord

/-! ### Blocks -/

namespace Block

/-- How many roads a block has, with their points, and what its tables hold. -/
def parts (b : Block) : ℕ :=
  b.records.size + (b.records.toList.map fun r => r.points.size).sum + b.tables.parts

lemma step_paysAt (base : Point) (t : Tag) (b : Block) :
    (step base t b).PaysAt data c (b.parts + 1) parts := by
  rw [step]
  split
  · refine ((RoadRecord.decoder_paysAt base).beside (b.parts + 1)).bind_pure fun r => ?_
    simp only [parts, Array.size_push, Array.toList_push, List.map_append, List.map_cons,
      List.map_nil, List.sum_append, List.sum_cons, List.sum_nil]
    omega
  · have tables : (BlockTables.step t b.tables).PaysAt data c (b.tables.parts + 1)
        BlockTables.parts := BlockTables.step_paysAt t b.tables
    exact (tables.beside _).bind_pure fun _ => le_rfl

lemma decoder_paysAt (base : Point) : (decoder base).PaysAt data c 0 parts :=
  fields_paysAt (fun t b _ _ => step_paysAt base t b) {}

/-- A data block that is read from behind the start of a section has no more parts than the section
has bytes. -/
lemma parts_le {s : RoutingSection} {b : Box} {block : Block} (behind : s.offset ≤ b.offset)
    (h : s.decodeBlock b (decoder b.area.topLeft) data = .ok block) : block.parts ≤ s.length := by
  obtain ⟨c, begins, found⟩ := bind_eq_ok.mp h
  obtain ⟨lower, upper⟩ := RoutingSection.blockCursor_ok begins
  have paid := (PaysAt.sized fun _ => decoder_paysAt b.area.topLeft).le_of_eval found fun _ ends =>
    sized_position_le (decoder_local _) ends
  omega

/-- The roads of a block are as many as its records, and have as many points. -/
lemma length_roads_le {s : RoutingSection} {block : Block} {roads : List Road}
    (h : block.resolve s = .ok roads) :
    roads.length + (roads.map fun r => r.points.toList.length).sum ≤ block.parts := by
  have each := (forall₂_of_mapM h).imp fun _ _ => RoadRecord.readAs_of_resolve
  rw [← each.length_eq, RoadRecord.map_length_points each, parts, Array.length_toList]
  exact Nat.le_add_right _ _

end Block

/-! ### Borders -/

lemma BorderLine.readAll_paysAt : BorderLine.readAll.PaysAt data c 0 Array.size := by
  refine fieldsUntil_paysAt (fun t lines c' _ => ?_) #[]
  rw [BorderLine.boxStep]
  split
  · refine paysAt_behind fun line _ _ => paysAt_pure ?_
    rw [Array.size_push]
  · exact paysAt_behind fun _ _ _ => paysAt_pure (Nat.le_succ _)

/-- There are no more border lines than the border box has bytes. -/
lemma RoutingSection.size_borderLines_le {s : RoutingSection} {region : Region}
    {lines : Array BorderLine} (h : s.borderLines region data = .ok lines) :
    lines.size ≤ region.length := by
  obtain ⟨c, -, h⟩ := bind_eq_ok.mp h
  obtain ⟨c, -, h⟩ := bind_eq_ok.mp h
  have paid := (PaysAt.within fun _ => BorderLine.readAll_paysAt).le_of_eval h fun _ ends =>
    within_position_le BorderLine.readAll_local ends
  omega

/-! ### Progress -/

/-- A section that was read, and what is loaded of it, hold no more than there are bytes. -/
structure RoutingSection.HoldsNoMore (s : RoutingSection) (bytes : ℕ) (data : ByteArray) : Prop where
  /-- The rules and boxes. -/
  parts_le : s.parts ≤ bytes
  /-- The roads, points, ids, strings and restrictions of a data block. -/
  block : ∀ b ∈ Box.preorderAll (s.boxes.toList ++ s.basemap.toList), ∀ block,
    s.decodeBlock b (Block.decoder b.area.topLeft) data = .ok block → block.parts ≤ bytes
  /-- The roads that a data block becomes, with their points, and the restrictions of each. -/
  roads : ∀ b ∈ Box.preorderAll (s.boxes.toList ++ s.basemap.toList), ∀ roads,
    s.loadBlock b data = .ok roads →
      roads.length + (roads.map fun r => r.points.toList.length).sum ≤ bytes ∧
      ∀ road ∈ roads, road.restrictions.toList.length ≤ bytes

lemma RoutingSection.holdsNoMore {id : ℕ} {entry : SectionEntry} {s : RoutingSection}
    (h : RoutingSection.read id entry data = .ok s) : s.HoldsNoMore entry.length data := by
  have lies := RoutingSection.read_liesAt h
  have behind : ∀ b ∈ Box.preorderAll (s.boxes.toList ++ s.basemap.toList), s.offset ≤ b.offset :=
    fun b hb => lies.offset_le hb
  rw [← lies.length_eq]
  constructor
  case parts_le => exact lies.length_eq ▸ RoutingSection.parts_le h
  case block => exact fun b hb block found => Block.parts_le (behind b hb) found
  case roads =>
    intro b hb roads loaded
    obtain ⟨block, found, resolved⟩ := bind_eq_ok.mp (decode_eq_ok_iff.mp loaded)
    have few := Block.parts_le (behind b hb) found
    refine ⟨(Block.length_roads_le resolved).trans few, fun road hroad => ?_⟩
    obtain ⟨r, -, made⟩ := exists_of_mem_mapM resolved road hroad
    have own := RoadRecord.length_restrictions_le made
    rw [Block.parts, BlockTables.parts] at few
    omega

/-- Every repetition and every descent makes progress. A round leaves less of its region, whose limit
stays; so a message, a message up to a certain tag, and the values that fill a region are over after
no more rounds than there are bytes. A box is entered with fewer bytes than were left in front of
it, so that there are no more levels than bytes. What is read is bounded by the bytes it is read
from: the sections of a catalog by those of the container, the rules and boxes of a section, and the
roads, points, ids, strings and restrictions of a data block, by those of the section, and the border
lines by those of the border box. -/
theorem decoding_makes_progress (data : ByteArray) :
    (∀ {σ : Type} (ends : UInt32 → Bool) (step : UInt32 → σ → Decoder σ) (c c₁ : Cursor)
      (acc acc₁ : σ), Round ends step data c acc c₁ acc₁ →
        c₁.limit = c.limit ∧ c₁.remaining < c.remaining) ∧
    (∀ {σ : Type} (step : Tag → σ → Decoder σ) (c : Cursor) (acc : σ),
      IsOver endsMessage (byTag step) data c acc ((fields acc step).eval data c)) ∧
    (∀ {σ : Type} (stop : Tag → Bool) (step : Tag → σ → Decoder σ) (c : Cursor) (acc : σ),
      IsOver (fun lead => endsMessage lead || byTag stop lead) (byTag step) data c acc
        ((Prod.fst <$> fieldsUntil stop acc step).eval data c)) ∧
    (∀ {σ : Type} (step : UInt32 → σ → Decoder σ) (c : Cursor) (acc : σ),
      IsOver neverEnds step data c acc ((entries acc step).eval data c)) ∧
    (∀ (base : Area) (b : Box) (c : Cursor), b.Descends data base c) ∧
    (∀ catalog, Catalog.read data = .ok catalog → catalog.sections.size ≤ data.size) ∧
    (∀ id entry s, RoutingSection.read id entry data = .ok s →
      s.HoldsNoMore entry.length data) ∧
    ∀ (s : RoutingSection) region lines, s.borderLines region data = .ok lines →
      lines.size ≤ region.length := by
  refine ⟨?rounds, ?messages, ?stopped, ?values, ?boxes, ?catalogs, ?sections, ?borders⟩
  case rounds =>
    intro σ ends step c c₁ acc acc₁ round
    exact ⟨round.precedes.limit_eq, round.remaining_lt⟩
  case messages =>
    intro σ step c acc
    exact repeatAt_isOver endsMessage (byTag step) data c acc
  case stopped =>
    intro σ stop step c acc
    rw [eval, run_fieldsUntil_eq]
    exact repeatAt_isOver _ (byTag step) data c acc
  case values =>
    intro σ step c acc
    exact repeatAt_isOver neverEnds step data c acc
  case boxes => exact fun base b c => b.descends data base c
  case catalogs => exact fun catalog => Catalog.size_sections_le
  case sections => exact fun id entry s => RoutingSection.holdsNoMore
  case borders => exact fun s region lines => RoutingSection.size_borderLines_le

/-- A section with a rule, a box in a box, a border line, and a data block with a road of one point,
an id, a string and a restriction. -/
def oneOfEach : ByteArray :=
  [0x12, 0, 0x1d, 0, 0, 0, 10, 0x3d, 0, 0, 0, 5, 0x2d, 0, 0, 0, 13, 0x3d, 0, 0, 0, 2, 0x0a, 0, 0x2d,
    16, 0x2a, 2, 8, 2, 0x32, 4, 0x0a, 2, 2, 2, 0x3a, 0, 0x42, 2, 0x0a, 0].toByteArray

/-- In such a section there are three rules and boxes, and the data block holds five parts; neither
is more than its forty-two bytes. -/
theorem decoding_makes_progress_oneOfEach :
    (Round neverEnds (fun n ns => pure (ns.push n)) oneOfEach ⟨0, 42⟩ #[] ⟨1, 42⟩ #[0x12] ∧
      Cursor.remaining ⟨1, 42⟩ < Cursor.remaining ⟨0, 42⟩) ∧
    (Cursor.remaining ⟨7, 17⟩ < 11 ∧
      (Box.decoderTo (fun _ _ => fail (.endOfData 0)) 11 default
        ⟨default, 7, 10, 0, []⟩).run oneOfEach ⟨7, 17⟩ =
          (Box.decoder default ⟨default, 7, 10, 0, []⟩).run oneOfEach ⟨7, 17⟩) ∧
    (∃ catalog, Catalog.read [8, 5, 0x4d, 0, 0, 0, 0, 0x80, 2, 5].toByteArray = .ok catalog ∧
      catalog.sections.size = 1 ∧ catalog.sections.size ≤ 10) ∧
    ∃ s b block roads region lines, RoutingSection.read 0 ⟨.routing, "", 0, 42⟩ oneOfEach = .ok s ∧
      s.parts = 3 ∧ s.parts ≤ 42 ∧ b ∈ Box.preorderAll (s.boxes.toList ++ s.basemap.toList) ∧
      s.decodeBlock b (Block.decoder b.area.topLeft) oneOfEach = .ok block ∧ block.parts = 5 ∧
      block.parts ≤ 42 ∧ s.loadBlock b oneOfEach = .ok roads ∧
      roads.length + (roads.map fun r => r.points.toList.length).sum ≤ 42 ∧
      s.borderLines region oneOfEach = .ok lines ∧ lines.size = 1 ∧ lines.size ≤ region.length := by
  obtain ⟨rounds, -, -, -, boxes, -, sections, borders⟩ := decoding_makes_progress oneOfEach
  refine ⟨?_, ?_, ?_, ?_⟩
  · have round : Round neverEnds (fun n (ns : Array UInt32) => pure (ns.push n)) oneOfEach
        ⟨0, 42⟩ #[] ⟨1, 42⟩ #[0x12] :=
      ⟨by decide, 0x12, ⟨1, 42⟩, ⟨⟨rfl, by decide⟩, rfl⟩, rfl, pure_ends_iff.mpr ⟨rfl, rfl⟩⟩
    exact ⟨round, (rounds _ _ _ _ _ _ round).2⟩
  · have enough : Cursor.remaining ⟨7, 17⟩ < 11 := by decide
    exact ⟨enough, (boxes default ⟨default, 7, 10, 0, []⟩ ⟨7, 17⟩).levels _ 11 enough⟩
  · obtain ⟨-, -, -, -, -, catalogs, -⟩ :=
      decoding_makes_progress [8, 5, 0x4d, 0, 0, 0, 0, 0x80, 2, 5].toByteArray
    have found : ∃ catalog ∈ (Catalog.read
        [8, 5, 0x4d, 0, 0, 0, 0, 0x80, 2, 5].toByteArray).toOption,
        catalog.sections.size = 1 := by
      decide +kernel
    obtain ⟨catalog, read, one⟩ := found
    have read := eq_ok_of_mem_toOption read
    exact ⟨catalog, read, one, catalogs catalog read⟩
  · have found : ∃ s ∈ (RoutingSection.read 0 ⟨.routing, "", 0, 42⟩ oneOfEach).toOption,
        s.parts = 3 ∧
        (∃ b ∈ Box.preorderAll (s.boxes.toList ++ s.basemap.toList),
          (∃ block ∈ (s.decodeBlock b (Block.decoder b.area.topLeft) oneOfEach).toOption,
            block.parts = 5) ∧ (s.loadBlock b oneOfEach).isOk) ∧
        ∃ region ∈ s.border, ∃ lines ∈ (s.borderLines region oneOfEach).toOption,
          lines.size = 1 := by
      decide +kernel
    obtain ⟨s, read, three, box, region, -, lines, headed, one⟩ := found
    obtain ⟨b, listed, ⟨block, decoded, five⟩, loads⟩ := box
    have read := eq_ok_of_mem_toOption read
    have decoded := eq_ok_of_mem_toOption decoded
    have headed := eq_ok_of_mem_toOption headed
    cases loaded : s.loadBlock b oneOfEach with
    | error cause =>
      rw [loaded] at loads
      cases loads
    | ok roads =>
      have holds := sections 0 _ s read
      exact ⟨s, b, block, roads, region, lines, read, three, holds.parts_le, listed, decoded, five,
        holds.block b listed block decoded, loaded, (holds.roads b listed roads loaded).1, headed,
        one, borders s region lines headed⟩

end RoadAtlas
