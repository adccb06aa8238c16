import RoadAtlas.Proofs.Network.Access
import RoadAtlas.Proofs.Network.BlockLoading

/-!
Turn restrictions read back. A restriction is stored with its target's number in the id table, and a
target that the table does not hold is given the number 0, which stands for the first road of the
table. So with an id table of the caller's choice a restriction may come to lead onto another road.

* `RoadDraft.RestrictedAs`: what is read back was declared, or stands for such a restriction;
* `RoutingSection.restrictions_read_write`: this is so for every road of every block;
* `RoutingSection.restrictions_redirected`: the second case happens.
-/

namespace RoadAtlas

open Decoder

namespace RoadDraft

/-- The restriction was declared on the road; it is told by its number. -/
def Declares (r : RoadDraft) (target : Int64) (kind : Restriction) : Prop :=
  ∃ e ∈ r.restrictions, e.1 = target ∧ e.2.code = kind.code

instance (r : RoadDraft) (target : Int64) (kind : Restriction) :
    Decidable (r.Declares target kind) :=
  inferInstanceAs (Decidable (∃ e ∈ r.restrictions, e.1 = target ∧ e.2.code = kind.code))

/-- Every restriction of a road that is read back was declared, or it leads onto the first road of
the id table and stands for a declared one whose target the table does not hold. -/
def RestrictedAs (r : RoadDraft) (ids : List Int64) (road : Road) : Prop :=
  ∀ target kind, road.restrictions.get? target = some kind →
    r.Declares target kind ∨
      ids.head? = some target ∧ ∃ e ∈ r.restrictions, e.1 ∉ ids ∧ e.2.code = kind.code

end RoadDraft

/-! ### Blocks -/

namespace BlockDraft

variable {b : BlockDraft}

/-- There are no more roads than bytes. -/
lemma length_le_writeRecords (corner : Point) (table : List String) :
    ∀ (roads : List RoadDraft) (number : ℕ),
      roads.length ≤ (writeRecords corner table number roads).flatten.length
  | [], _ => Nat.zero_le _
  | r :: rest, number => by
    have later := length_le_writeRecords corner table rest (number + 1)
    have field := tag_length_pos Format.Block.road .lengthDelimited
    rw [writeRecords, List.flatten_cons, List.length_append, List.length_cons, Wire.bytesField,
      List.length_append]
    omega

lemma targetNumber_eq_zero {ids : List Int64} {target : Int64} (missing : target ∉ ids) :
    targetNumber ids target = 0 := by
  rw [targetNumber, List.idxOf?_eq_none_iff.mpr missing, Option.getD_none]

lemma roadId_zero {id : Int64} : b.tables.roadId 0 = .ok id ↔ b.ids.head? = some id := by
  cases h : b.ids <;> simp [BlockTables.roadId, tables, h]

/-- A restriction that starts at the record of a road is one of the road's. -/
lemma exists_of_mem_restrictions (few : b.roads.length ≤ 2 ^ 32) {index : ℕ} {r : RoadDraft}
    (here : b.roads[index]? = some r) {x : RestrictionRecord}
    (listed : x ∈ b.tables.restrictions.toList) (own : x.source.toUInt64 = UInt64.ofNat index) :
    ∃ e ∈ r.restrictions, x.code = e.2.code ∧ x.target = UInt32.ofNat (targetNumber b.ids e.1) := by
  have filtered := filter_restrictionRecords b.ids here (show 0 + b.roads.length ≤ 2 ^ 32 by omega)
  rw [Nat.zero_add] at filtered
  have mine : x ∈ r.restrictionRecords b.ids index := by
    rw [← filtered]
    exact List.mem_filter.mpr ⟨listed, decide_eq_true own⟩
  obtain ⟨e, declared, rfl⟩ := List.mem_map.mp mine
  exact ⟨e, declared, rfl, rfl⟩

/-- The restrictions of a road that a record is resolved to stem from those of the road that the
record was written from. -/
lemma restrictedAs_of_resolve (numbered : b.Numbered) (few : b.roads.length ≤ 2 ^ 32) {index : ℕ}
    {r : RoadDraft} (here : b.roads[index]? = some r) {sectionId : ℕ} {rules : RuleTable}
    {road : Road}
    (resolved : (r.record index b.strings).resolve b.tables sectionId rules = .ok road) :
    r.RestrictedAs b.ids road := by
  intro target kind found
  obtain ⟨x, listed, own, known, rfl⟩ :=
    (RoadRecord.readAs_of_resolve resolved).restrictions target kind found
  obtain ⟨e, declared, code, number⟩ := exists_of_mem_restrictions few here listed own
  rw [number] at known
  rw [RoadDraft.Declares, Restriction.code_ofCode, code]
  by_cases held : e.1 ∈ b.ids
  · have same := roadId_targetNumber numbered held
    rw [known] at same
    exact .inl ⟨e, declared, (Except.ok.inj same).symm, rfl⟩
  · rw [targetNumber_eq_zero held] at known
    exact .inr ⟨roadId_zero.mp known, e, declared, held, rfl⟩

/-- The record of a road resolves exactly if the id table reaches to it: its strings are in the
string table, and a target that the id table does not hold has the number of its first road. -/
lemma resolvable_record_iff (numbered : b.Numbered) (few : b.roads.length ≤ 2 ^ 32) {index : ℕ}
    {r : RoadDraft} (here : b.roads[index]? = some r) :
    (r.record index b.strings).Resolvable b.tables ↔ index < b.ids.length := by
  have hr : r ∈ b.roads := List.mem_of_getElem? here
  have inside := (List.getElem?_eq_some_iff.mp here).1
  have own : b.tables.Knows (UInt64.ofNat index) ↔ index < b.ids.length := by
    rw [BlockTables.Knows, UInt64.toNat_ofNat_of_lt' (by simp [UInt64.size]; omega)]
    rfl
  refine ⟨fun h => own.mp h.number, fun within => ?_⟩
  constructor
  case number => exact own.mpr within
  case names =>
    intro name listed
    obtain ⟨given, hgiven, rfl⟩ := List.mem_map.mp listed
    exact BlockTables.exists_string_iff.mp
      ⟨_, string_idxOf numbered (mem_strings hr (RoadDraft.mem_strings_of_mem_names hgiven))⟩
  case pointNames =>
    intro name listed
    obtain ⟨given, hgiven, rfl⟩ := List.mem_map.mp listed
    exact BlockTables.exists_string_iff.mp ⟨_, string_idxOf numbered
      (mem_strings hr (RoadDraft.mem_strings_of_mem_pointNameEntries hgiven))⟩
  case restrictions =>
    intro x listed starts
    obtain ⟨e, -, -, number⟩ := exists_of_mem_restrictions few here listed starts
    rw [number]
    by_cases held : e.1 ∈ b.ids
    · exact BlockTables.exists_roadId_iff.mp ⟨_, roadId_targetNumber numbered held⟩
    · rw [targetNumber_eq_zero held]
      exact Nat.lt_of_le_of_lt (Nat.zero_le index) within

/-- The records of some roads are numbered one after another. -/
lemma records_eq (table : List String) : ∀ (roads : List RoadDraft) (number : ℕ),
    records table number roads = (roads.zipIdx number).map fun e => e.1.record e.2 table
  | [], _ => rfl
  | r :: rest, number => by
    rw [records, List.zipIdx_cons, List.map_cons, records_eq table rest]

/-- The restrictions of the roads that a block is resolved to stem from those of the roads that it
was written from, road by road. -/
lemma forall₂_restrictedAs (numbered : b.Numbered) (few : b.roads.length ≤ 2 ^ 32)
    {sectionId : ℕ} {rules : RuleTable} {resolved : List Road}
    (each : List.Forall₂ (fun record road => record.resolve b.tables sectionId rules = .ok road)
      (records b.strings 0 b.roads) resolved) :
    List.Forall₂ (fun r road => r.RestrictedAs b.ids road) b.roads resolved := by
  rw [records_eq, List.forall₂_map_left_iff] at each
  rw [← List.zipIdx_map_fst 0 b.roads, List.forall₂_map_left_iff]
  refine List.forall₂_iff_zip.mpr ⟨each.length_eq, fun {e road} listed => ?_⟩
  have here := List.mem_zipIdx_iff_getElem?.mp (List.of_mem_zip listed).1
  exact restrictedAs_of_resolve numbered few here (List.forall₂_zip each listed)

/-- The roads of a block can be resolved exactly if the id table is long enough. -/
lemma exists_resolve_block_iff (numbered : b.Numbered) (few : b.roads.length ≤ 2 ^ 32)
    (s : RoutingSection) :
    (∃ roads, b.block.resolve s = .ok roads) ↔ b.roads.length ≤ b.ids.length := by
  rw [Block.resolve, exists_mapM_eq_ok_iff]
  simp only [RoadRecord.exists_resolve_iff, block, records_eq, List.forall_mem_map]
  constructor
  · intro each
    by_contra short
    have here := List.getElem?_eq_getElem (Nat.lt_of_not_le short)
    have resolvable := each (_, b.ids.length) (List.mem_zipIdx_iff_getElem?.mpr here)
    exact Nat.lt_irrefl _ ((resolvable_record_iff numbered few here).mp resolvable)
  · intro long e listed
    have here := List.mem_zipIdx_iff_getElem?.mp listed
    have inside := (List.getElem?_eq_some_iff.mp here).1
    exact (resolvable_record_iff numbered few here).mpr (Nat.lt_of_lt_of_le inside long)

end BlockDraft

/-! ### Sections -/

namespace RoutingSection

variable {s : RoutingSection} {d : SectionDraft} {data : ByteArray} {b : BlockDraft} {box : Box}

/-- The data block of a box can be loaded exactly if its id table has an id for every road, and then
its roads are restricted as those that it was written from. -/
structure RestrictsAs (s : RoutingSection) (data : ByteArray) (b : BlockDraft) (box : Box) :
    Prop where
  loads : (∃ roads, s.loadBlock box data = .ok roads) ↔ b.roads.length ≤ b.ids.length
  restricted : ∀ roads, s.loadBlock box data = .ok roads →
    List.Forall₂ (fun r road => r.RestrictedAs b.ids road) b.roads roads

lemma LaidOut.restrictsAs_of_pointsAt (laid : s.LaidOut d data)
    (points : BoxDraft.PointsAt d.Places s.offset b box) : s.RestrictsAs data b box := by
  obtain ⟨place, placed, points⟩ := points
  have small := laid.length_block_lt placed
  have numbered := BlockDraft.numbered_of_write small
  have few : b.roads.length ≤ 2 ^ 32 := by
    have count := BlockDraft.length_le_writeRecords box.area.topLeft b.strings b.roads 0
    simp only [BlockDraft.write, List.length_append] at small
    rw [BlockDraft.recordFields] at small
    omega
  have loads (roads : List Road) :
      s.loadBlock box data = .ok roads ↔ b.block.resolve s = .ok roads := by
    rw [loadBlock, laid.decodeBlock_eq_ok placed points (Block.decoder_fillsAt small)]
    exact decode_eq_ok_iff
  constructor
  · simp only [loads]
    exact BlockDraft.exists_resolve_block_iff numbered few s
  · intro roads loaded
    exact BlockDraft.forall₂_restrictedAs numbered few (forall₂_of_mapM ((loads roads).mp loaded))

/-- A written section is read back such that the restrictions of every road, in every block that can
be loaded, stem from those declared on the road at the same place: they are among them, or else
stand for some whose targets are not in the block's id table. -/
theorem restrictions_read_write {entry : SectionEntry} (id : ℕ) (fits : d.Fits)
    (addressable : data.size < positionBound) (kind : entry.kind = .routing)
    (length : entry.length = d.write.length) (held : Holds data entry.offset d.write) :
    ∃ s, read id entry data = .ok s ∧
      BoxDraft.MirrorsAll (s.RestrictsAs data) d.boxes s.boxes.toList ∧
      BoxDraft.MirrorsAll (s.RestrictsAs data) d.basemap s.basemap.toList := by
  obtain ⟨s, known, offset, laid, boxed⟩ := exists_read_laidOut id fits addressable kind length held
  refine ⟨s, known, ?_, ?_⟩
  · exact boxed.mirrors.imp fun _ _ _ => laid.restrictsAs_of_pointsAt
  · exact boxed.mirrors_basemap.imp fun _ _ _ => laid.restrictsAs_of_pointsAt

/-- A section with one box, whose block has the given roads and id table. -/
def oneBlock (roads : List RoadDraft) (ids : List Int64) : SectionDraft where
  name := "turns"
  boxes := [{ area := ⟨0, 0, 4096, 4096⟩, block := some { roads, givenIds := some ids } }]

/-- Two roads with restrictions onto each other and onto a third one. -/
def crossing : List RoadDraft :=
  [{ id := 8, points := [⟨64, 64⟩], restrictions := [(9, .noLeftTurn), (5, .other 12)] },
    { id := 5, points := [⟨96, 64⟩], restrictions := [(8, .noUTurn)] }]

/-- An id table with an id that stands in it twice, and one of a road that is not in the block. -/
theorem restrictions_read_write_crossing :
    ∃ s box roads, read 2 ⟨.routing, "", 0, (oneBlock crossing [8, 5, 5, 9]).write.length⟩
        (oneBlock crossing [8, 5, 5, 9]).write.toByteArray = .ok s ∧
      s.boxes.toList = [box] ∧
      s.loadBlock box (oneBlock crossing [8, 5, 5, 9]).write.toByteArray = .ok roads ∧
      List.Forall₂ (fun r road => r.RestrictedAs [8, 5, 5, 9] road) crossing roads := by
  have fits : (oneBlock crossing [8, 5, 5, 9]).Fits :=
    { boxes := ⟨⟨⟨by decide, by decide, by decide, by decide⟩, trivial⟩, trivial⟩
      basemap := trivial
      length_lt := by decide +kernel }
  have addressable : (oneBlock crossing [8, 5, 5, 9]).write.toByteArray.size < positionBound := by
    have := fits.length_lt
    rw [List.size_toByteArray, positionBound]
    omega
  have held : Holds (oneBlock crossing [8, 5, 5, 9]).write.toByteArray 0
      (oneBlock crossing [8, 5, 5, 9]).write := by
    have h := holds_toByteArray [] (oneBlock crossing [8, 5, 5, 9]).write []
    rwa [List.nil_append, List.append_nil] at h
  have reads : ∃ s, read 2 ⟨.routing, "", 0, (oneBlock crossing [8, 5, 5, 9]).write.length⟩
        (oneBlock crossing [8, 5, 5, 9]).write.toByteArray = .ok s ∧ _ ∧ _ :=
    restrictions_read_write 2 fits addressable rfl rfl held
  obtain ⟨s, known, ⟨box, more, boxes, ⟨-, keeps, -⟩, rfl⟩, -⟩ := reads
  obtain ⟨roads, loaded⟩ := keeps.loads.mpr (by decide)
  exact ⟨s, box, roads, known, boxes, loaded, keeps.restricted roads loaded⟩

/-- Two roads, the second with a restriction onto a third one. -/
def sideRoad : List RoadDraft :=
  [{ id := 5, points := [⟨64, 64⟩] },
    { id := 8, points := [⟨96, 64⟩], restrictions := [(9, .noLeftTurn)] }]

/-- Where the id table has the two roads alone, the restriction is read back as one onto the first
road, which was not declared. -/
theorem restrictions_redirected :
    ∃ s box roads road, read 2 ⟨.routing, "", 0, (oneBlock sideRoad [5, 8]).write.length⟩
        (oneBlock sideRoad [5, 8]).write.toByteArray = .ok s ∧
      box ∈ s.boxes.toList ∧
      s.loadBlock box (oneBlock sideRoad [5, 8]).write.toByteArray = .ok roads ∧
      roads[1]? = some road ∧ road.restrictions.get? 5 = some .noLeftTurn ∧
      ∀ r ∈ sideRoad, ¬ r.Declares 5 .noLeftTurn := by
  have reads : ∃ s ∈ (read 2 ⟨.routing, "", 0, (oneBlock sideRoad [5, 8]).write.length⟩
      (oneBlock sideRoad [5, 8]).write.toByteArray).toOption, ∃ box ∈ s.boxes.toList,
        ∃ roads ∈ (s.loadBlock box (oneBlock sideRoad [5, 8]).write.toByteArray).toOption,
          ∃ road ∈ roads[1]?, road.restrictions.get? 5 = some .noLeftTurn := by decide +kernel
  obtain ⟨s, known, box, listed, roads, loaded, road, second, found⟩ := reads
  exact ⟨s, box, roads, road, eq_ok_of_mem_toOption known, listed, eq_ok_of_mem_toOption loaded,
    second, found, by decide⟩

end RoutingSection

end RoadAtlas
