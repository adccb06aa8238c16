import RoadAtlas.Network.Writing
import RoadAtlas.Proofs.Network.Locality
import RoadAtlas.Proofs.Road.Polyline
import RoadAtlas.Proofs.SortedMap
import RoadAtlas.Proofs.Traversal
import RoadAtlas.Proofs.Wire.Rounds

/-!
What the fields of a data block come to. The fields may stand in any order, and records may refer to
tables that come behind them: references are resolved when the whole block is read.

* `BlockField.readAll` reads a block as the list of its fields; `Block.decoder_eq` reads the block
  off that list, with the last table of each kind and all records and restrictions;
* `RoadRecord.Resolvable` says which references of a record must be in the tables, and
  `RoadRecord.exists_resolve_iff` that these are all;
* `RoadRecord.resolve_danglesOnly`: otherwise a reference is reported;
* `RoutingSection.loadBlock_of_fields`: so a block gives all its roads, or none.
-/

namespace RoadAtlas

open Decoder

/-! ### Fields of a block -/

/-- What a field of a block holds. -/
inductive BlockField where
  | record (record : RoadRecord)
  | ids (ids : Array Int64)
  | restriction (restriction : RestrictionRecord)
  | strings (strings : Array String)
  /-- Nothing that has a meaning. -/
  | other

namespace BlockField

/-- Reads the payload of a field of a block whose points are relative to `base`. -/
def decoder (base : Point) (t : Tag) : Decoder BlockField :=
  match t.field with
  | Format.Block.road => record <$> RoadRecord.decoder base
  | Format.Block.idTable => ids <$> BlockTables.readIds
  | Format.Block.restriction => restriction <$> RestrictionRecord.decoder
  | Format.Block.stringTable => strings <$> stringTable
  | _ => (fun _ => other) <$> skipField t

/-- Reads the fields of a block in the order in which they stand. -/
def readAll (base : Point) : Decoder (List BlockField) :=
  fields [] fun t known => do
    let field ← decoder base t
    return known ++ [field]

def record? : BlockField → Option RoadRecord
  | record r => some r
  | _ => none

def ids? : BlockField → Option (Array Int64)
  | ids table => some table
  | _ => none

def restriction? : BlockField → Option RestrictionRecord
  | restriction r => some r
  | _ => none

def strings? : BlockField → Option (Array String)
  | strings table => some table
  | _ => none

variable (fields : List BlockField)

/-- The records among the fields. -/
def records : List RoadRecord := fields.filterMap record?

/-- The tables among the fields: the last id table, the last string table, all restrictions. -/
def tables : BlockTables where
  ids := (fields.filterMap ids?).getLast?
  strings := (fields.filterMap strings?).getLast?.getD #[]
  restrictions := (fields.filterMap restriction?).toArray

/-- The block that the fields make up. -/
def block : Block where
  tables := tables fields
  records := (records fields).toArray

end BlockField

namespace Block

/-- The block with a further field. -/
def add (b : Block) : BlockField → Block
  | .record r => { b with records := b.records.push r }
  | .ids table => { b with tables := { b.tables with ids := some table } }
  | .restriction r =>
    { b with tables := { b.tables with restrictions := b.tables.restrictions.push r } }
  | .strings table => { b with tables := { b.tables with strings := table } }
  | .other => b

/-- A step reads a field and adds it. -/
lemma step_eq (base : Point) (t : Tag) (b : Block) :
    step base t b = b.add <$> BlockField.decoder base t := by
  rw [step, BlockField.decoder]
  split
  next road =>
    simp only [road, Functor.map_map, bind_pure_comp]
    rfl
  next other =>
    simp only [BlockTables.step]
    split <;> simp_all [add]

lemma add_block (fields : List BlockField) (field : BlockField) :
    (BlockField.block fields).add field = BlockField.block (fields ++ [field]) := by
  cases field <;>
    simp [add, BlockField.block, BlockField.tables, BlockField.records, BlockField.record?,
      BlockField.ids?, BlockField.restriction?, BlockField.strings?]

/-- A block is read as what its fields make up. -/
lemma decoder_eq (base : Point) : decoder base = BlockField.block <$> BlockField.readAll base := by
  have commutes (t : Tag) (known : List BlockField) :
      step base t (BlockField.block known) = BlockField.block <$> (do
        let field ← BlockField.decoder base t
        return known ++ [field]) := by
    rw [step_eq, bind_pure_comp, Functor.map_map]
    simp only [← add_block]
  exact fields_map commutes []

end Block

/-! ### Resolution -/

/-- Where the computation fails, it fails on a reference to something that does not exist. -/
def DanglesOnly {α : Type} (x : Except DecodeError α) : Prop :=
  ∀ cause, x = .error cause → ∃ reference, cause = .dangling reference

namespace DanglesOnly

variable {α β : Type} {x : Except DecodeError α}

lemma pure (a : α) : DanglesOnly (Pure.pure a) := nofun

lemma bind {f : α → Except DecodeError β} (h : DanglesOnly x) (hf : ∀ a, DanglesOnly (f a)) :
    DanglesOnly (x >>= f) := by
  intro cause fails
  rcases bind_eq_error.mp fails with first | ⟨a, -, later⟩
  · exact h cause first
  · exact hf a cause later

lemma map (f : α → β) (h : DanglesOnly x) : DanglesOnly (f <$> x) := by
  rw [← bind_pure_comp]
  exact h.bind fun a => pure (f a)

lemma mapM {f : α → Except DecodeError β} {items : List α} (h : ∀ a ∈ items, DanglesOnly (f a)) :
    DanglesOnly (items.mapM f) := by
  intro cause fails
  obtain ⟨before, item, after, rfl, -, fails⟩ := mapM_eq_error_iff.mp fails
  exact h item (by simp) cause fails

end DanglesOnly

namespace BlockTables

variable {tables : BlockTables}

/-- How many numbers stand for a road: as many as there are ids in the id table, and where there is
no id table, all that are an id themselves. -/
def roadCount (tables : BlockTables) : ℕ :=
  match tables.ids with
  | some ids => ids.size
  | none => 2 ^ 63

/-- The number stands for a road. -/
def Knows (tables : BlockTables) (number : UInt64) : Prop := number.toNat < tables.roadCount

instance (tables : BlockTables) (number : UInt64) : Decidable (tables.Knows number) :=
  inferInstanceAs (Decidable (number.toNat < tables.roadCount))

lemma exists_roadId_iff {number : UInt64} :
    (∃ id, tables.roadId number = .ok id) ↔ tables.Knows number := by
  rw [roadId, Knows, roadCount]
  cases tables.ids with
  | some ids => by_cases inside : number.toNat < ids.size <;> simp [inside]
  | none =>
    have bound : number ≤ 0x7fffffffffffffff ↔ number.toNat < 2 ^ 63 := by
      have most : (0x7fffffffffffffff : UInt64).toNat = 0x7fffffffffffffff := rfl
      rw [UInt64.le_iff_toNat_le, most]
      omega
    by_cases inside : number.toNat < 2 ^ 63
    · simp only [bound, inside, ↓reduceIte, Except.ok.injEq, exists_eq']
    · simp only [bound, inside, ↓reduceIte, reduceCtorEq, exists_false]

lemma roadId_danglesOnly (tables : BlockTables) (number : UInt64) :
    DanglesOnly (tables.roadId number) := by
  intro cause fails
  rw [roadId] at fails
  split at fails
  all_goals
    split at fails <;> cases fails
    exact ⟨_, rfl⟩

lemma exists_string_iff {number : UInt32} :
    (∃ text, tables.string number = .ok text) ↔ number.toNat < tables.strings.size := by
  rw [string]
  by_cases inside : number.toNat < tables.strings.size <;> simp [inside]

lemma string_danglesOnly (tables : BlockTables) (number : UInt32) :
    DanglesOnly (tables.string number) := by
  intro cause fails
  rw [string] at fails
  split at fails <;> cases fails
  exact ⟨_, rfl⟩

end BlockTables

namespace RoadRecord

variable {tables : BlockTables} {r : RoadRecord}

/-- What a record refers to is in the tables: its own number, the strings of its names, and the
targets of the restrictions that start at it. -/
structure Resolvable (r : RoadRecord) (tables : BlockTables) : Prop where
  number : tables.Knows r.number
  names : ∀ name ∈ r.names.toList, name.2.toNat < tables.strings.size
  pointNames : ∀ name ∈ r.pointNames.toList, name.2.2.toNat < tables.strings.size
  restrictions : ∀ x ∈ tables.restrictions.toList, x.source.toUInt64 = r.number →
    tables.Knows x.target.toUInt64

instance (r : RoadRecord) (tables : BlockTables) : Decidable (r.Resolvable tables) :=
  decidable_of_iff (tables.Knows r.number ∧
      (r.names.toList.all fun name => name.2.toNat < tables.strings.size) ∧
      (r.pointNames.toList.all fun name => name.2.2.toNat < tables.strings.size) ∧
      tables.restrictions.toList.all fun x =>
        x.source.toUInt64 = r.number → tables.Knows x.target.toUInt64) <| by
    simp only [List.all_eq_true, decide_eq_true_eq]
    exact ⟨fun h => ⟨h.1, h.2.1, h.2.2.1, h.2.2.2⟩,
      fun h => ⟨h.number, h.names, h.pointNames, h.restrictions⟩⟩

/-- The road says what the record says, with references resolved. -/
structure ReadAs (r : RoadRecord) (tables : BlockTables) (sectionId : ℕ) (rules : RuleTable)
    (road : Road) : Prop where
  id : tables.roadId r.number = .ok road.id
  sectionId : road.sectionId = sectionId
  rules : road.rules = some rules
  points : road.points.toList = r.points.toList
  types : road.types = r.types
  extraTypes : road.extraTypes = r.extraTypes
  pointTypes : road.pointTypes = r.pointTypes
  names : ∀ tag text, road.names.get? tag = some text →
    ∃ number, (tag, number) ∈ r.names.toList ∧ tables.string number = .ok text
  restrictions : ∀ target kind, road.restrictions.get? target = some kind →
    ∃ x ∈ tables.restrictions.toList, x.source.toUInt64 = r.number ∧
      tables.roadId x.target.toUInt64 = .ok target ∧ kind = .ofCode x.code

/-- Names are looked up first and then put in. -/
lemma resolveNames_eq (names : List (UInt32 × UInt32)) : resolveNames tables names =
    (fun texts => (names.zip texts).foldl
      (fun (found : SortedMap UInt32 String) e => found.insert e.1.1 e.2) ∅) <$>
        names.mapM fun name => tables.string name.2 :=
  foldlM_eq_map_mapM (fun name : UInt32 × UInt32 => tables.string name.2)
    (fun (found : SortedMap UInt32 String) name text => found.insert name.1 text) names ∅

lemma resolvePointNames_eq (names : List (UInt32 × UInt32 × UInt32)) :
    resolvePointNames tables names =
      (fun texts => (names.zip texts).foldl
        (fun (found : SortedMap UInt32 (Array TagName)) e =>
          found.alter e.1.1 fun known => (known.getD #[]).push (e.1.2.1, e.2)) ∅) <$>
        names.mapM fun name => tables.string name.2.2 :=
  foldlM_eq_map_mapM (fun name : UInt32 × UInt32 × UInt32 => tables.string name.2.2)
    (fun (found : SortedMap UInt32 (Array TagName)) name text =>
      found.alter name.1 fun known => (known.getD #[]).push (name.2.1, text)) names ∅

/-- The restrictions of a block that start at a record. -/
def ownRestrictions (tables : BlockTables) (number : UInt64) : List RestrictionRecord :=
  tables.restrictions.toList.filter fun x => x.source.toUInt64 = number

lemma resolveRestrictions_eq (number : UInt64) : resolveRestrictions tables number =
    (fun targets => ((ownRestrictions tables number).zip targets).foldl
      (fun (found : SortedMap Int64 Restriction) e => found.insert e.2 (.ofCode e.1.code)) ∅) <$>
        (ownRestrictions tables number).mapM fun x => tables.roadId x.target.toUInt64 :=
  foldlM_eq_map_mapM (fun x : RestrictionRecord => tables.roadId x.target.toUInt64)
    (fun (found : SortedMap Int64 Restriction) x target => found.insert target (.ofCode x.code))
    (ownRestrictions tables number) ∅

lemma exists_resolveNames_iff {names : List (UInt32 × UInt32)} :
    (∃ found, resolveNames tables names = .ok found) ↔
      ∀ name ∈ names, name.2.toNat < tables.strings.size := by
  rw [resolveNames_eq, exists_map_eq_ok_iff, exists_mapM_eq_ok_iff]
  simp only [BlockTables.exists_string_iff]

lemma exists_resolvePointNames_iff {names : List (UInt32 × UInt32 × UInt32)} :
    (∃ found, resolvePointNames tables names = .ok found) ↔
      ∀ name ∈ names, name.2.2.toNat < tables.strings.size := by
  rw [resolvePointNames_eq, exists_map_eq_ok_iff, exists_mapM_eq_ok_iff]
  simp only [BlockTables.exists_string_iff]

lemma exists_resolveRestrictions_iff {number : UInt64} :
    (∃ found, resolveRestrictions tables number = .ok found) ↔
      ∀ x ∈ tables.restrictions.toList, x.source.toUInt64 = number →
        tables.Knows x.target.toUInt64 := by
  rw [resolveRestrictions_eq, exists_map_eq_ok_iff, exists_mapM_eq_ok_iff]
  simp only [BlockTables.exists_roadId_iff, ownRestrictions, List.mem_filter, decide_eq_true_eq,
    and_imp]

/-- A record becomes a road exactly if all its references resolve. -/
lemma exists_resolve_iff {sectionId : ℕ} {rules : RuleTable} :
    (∃ road, r.resolve tables sectionId rules = .ok road) ↔ r.Resolvable tables := by
  rw [resolve]
  constructor
  · rintro ⟨road, h⟩
    obtain ⟨names, hnames, h⟩ := bind_eq_ok.mp h
    obtain ⟨pointNames, hpointNames, h⟩ := bind_eq_ok.mp h
    obtain ⟨restrictions, hrestrictions, h⟩ := bind_eq_ok.mp h
    obtain ⟨id, hid, -⟩ := bind_eq_ok.mp h
    exact {
      number := BlockTables.exists_roadId_iff.mp ⟨id, hid⟩
      names := exists_resolveNames_iff.mp ⟨names, hnames⟩
      pointNames := exists_resolvePointNames_iff.mp ⟨pointNames, hpointNames⟩
      restrictions := exists_resolveRestrictions_iff.mp ⟨restrictions, hrestrictions⟩ }
  · intro h
    obtain ⟨names, hnames⟩ := exists_resolveNames_iff.mpr h.names
    obtain ⟨pointNames, hpointNames⟩ := exists_resolvePointNames_iff.mpr h.pointNames
    obtain ⟨restrictions, hrestrictions⟩ := exists_resolveRestrictions_iff.mpr h.restrictions
    obtain ⟨id, hid⟩ := BlockTables.exists_roadId_iff.mpr h.number
    simp only [hnames, hpointNames, hrestrictions, hid]
    exact ⟨_, rfl⟩

/-- A record that does not become a road has a reference that does not resolve. -/
lemma resolve_danglesOnly (r : RoadRecord) (tables : BlockTables) (sectionId : ℕ)
    (rules : RuleTable) : DanglesOnly (r.resolve tables sectionId rules) := by
  have names : DanglesOnly (resolveNames tables r.names.toList) := by
    rw [resolveNames_eq]
    exact (DanglesOnly.mapM fun name _ => tables.string_danglesOnly name.2).map _
  have pointNames : DanglesOnly (resolvePointNames tables r.pointNames.toList) := by
    rw [resolvePointNames_eq]
    exact (DanglesOnly.mapM fun name _ => tables.string_danglesOnly name.2.2).map _
  have restrictions : DanglesOnly (resolveRestrictions tables r.number) := by
    rw [resolveRestrictions_eq]
    exact (DanglesOnly.mapM fun x _ => tables.roadId_danglesOnly x.target.toUInt64).map _
  have id := tables.roadId_danglesOnly r.number
  exact names.bind fun _ => pointNames.bind fun _ => restrictions.bind fun _ =>
    id.bind fun _ => DanglesOnly.pure _

/-- The road that a record becomes says what the record says. -/
lemma readAs_of_resolve {sectionId : ℕ} {rules : RuleTable} {road : Road}
    (h : r.resolve tables sectionId rules = .ok road) :
    r.ReadAs tables sectionId rules road := by
  rw [resolve] at h
  obtain ⟨names, hnames, h⟩ := bind_eq_ok.mp h
  obtain ⟨pointNames, hpointNames, h⟩ := bind_eq_ok.mp h
  obtain ⟨restrictions, hrestrictions, h⟩ := bind_eq_ok.mp h
  obtain ⟨id, hid, h⟩ := bind_eq_ok.mp h
  cases h
  constructor
  case id => exact hid
  case sectionId => rfl
  case rules => rfl
  case points => exact Polyline.toList_ofArray r.points
  case types => rfl
  case extraTypes => rfl
  case pointTypes => rfl
  case names =>
    intro tag text found
    rw [resolveNames_eq] at hnames
    obtain ⟨texts, looked, rfl⟩ := map_eq_ok.mp hnames
    obtain ⟨e, listed, rfl, rfl⟩ := SortedMap.exists_of_get?_foldl_insert_empty found
    exact ⟨e.1.2, (List.of_mem_zip listed).1,
      (List.forall₂_iff_zip.mp (forall₂_of_mapM looked)).2 listed⟩
  case restrictions =>
    intro target kind found
    rw [resolveRestrictions_eq] at hrestrictions
    obtain ⟨targets, looked, rfl⟩ := map_eq_ok.mp hrestrictions
    obtain ⟨e, listed, rfl, rfl⟩ := SortedMap.exists_of_get?_foldl_insert_empty found
    have own := List.mem_filter.mp (List.of_mem_zip listed).1
    exact ⟨e.1, own.1, of_decide_eq_true own.2,
      (List.forall₂_iff_zip.mp (forall₂_of_mapM looked)).2 listed, rfl⟩

end RoadRecord

/-! ### Loading -/

namespace RoutingSection

variable {s : RoutingSection} {box : Box} {data : ByteArray}

/-- A block is loaded by resolving what its fields make up. -/
lemma loadBlock_eq {fields : List BlockField}
    (found : s.decodeBlock box (BlockField.readAll box.area.topLeft) data = .ok fields) :
    s.loadBlock box data = s.decode ((BlockField.records fields).mapM fun r =>
      r.resolve (BlockField.tables fields) s.id s.rules) := by
  have decoded : s.decodeBlock box (Block.decoder box.area.topLeft) data =
      .ok (BlockField.block fields) := by
    rw [decodeBlock] at found ⊢
    rw [Block.decoder_eq, sized_map]
    simp only [eval_map, ← map_bind, found]
    rfl
  rw [loadBlock, decoded]
  rfl

/-- A block whose fields can be read, in whatever order they stand, gives a road for every record in
record order if all references of all records resolve. Otherwise it gives no road, and the failure
names a reference that does not resolve. -/
theorem loadBlock_of_fields {fields : List BlockField}
    (found : s.decodeBlock box (BlockField.readAll box.area.topLeft) data = .ok fields) :
    ((∃ roads, s.loadBlock box data = .ok roads) ↔
      ∀ r ∈ BlockField.records fields, r.Resolvable (BlockField.tables fields)) ∧
    (∀ roads, s.loadBlock box data = .ok roads →
      List.Forall₂ (fun r road => r.ReadAs (BlockField.tables fields) s.id s.rules road)
        (BlockField.records fields) roads) ∧
    ((¬ ∀ r ∈ BlockField.records fields, r.Resolvable (BlockField.tables fields)) →
      ∃ reference, s.loadBlock box data =
        .error (.corruptSection s.name s.offset (.dangling reference))) := by
  have loads : (∃ roads, s.loadBlock box data = .ok roads) ↔
      ∀ r ∈ BlockField.records fields, r.Resolvable (BlockField.tables fields) := by
    simp only [loadBlock_eq found, decode_eq_ok_iff, exists_mapM_eq_ok_iff,
      RoadRecord.exists_resolve_iff]
  refine ⟨loads, fun roads h => ?_, fun unresolvable => ?_⟩
  · rw [loadBlock_eq found, decode_eq_ok_iff] at h
    exact (forall₂_of_mapM h).imp fun _ _ => RoadRecord.readAs_of_resolve
  · rw [← loads, loadBlock_eq found] at unresolvable
    rw [loadBlock_eq found]
    cases resolved : (BlockField.records fields).mapM fun r =>
        r.resolve (BlockField.tables fields) s.id s.rules with
    | ok roads => exact absurd ⟨roads, decode_eq_ok_iff.mpr resolved⟩ unresolvable
    | error cause =>
      obtain ⟨reference, rfl⟩ := DanglesOnly.mapM
        (fun r _ => r.resolve_danglesOnly (BlockField.tables fields) s.id s.rules) cause resolved
      exact ⟨reference, rfl⟩

/-- A block with a restriction and a record in front of their tables, an id table and a string table
that do not count, and a last id table of given ids. -/
def shuffledBlock (ids : List Int64) : List UInt8 :=
  BlockDraft.writeRestriction 1 0 .noUTurn ++
    Wire.messageField Format.Block.idTable (BlockDraft.writeIds 0 [3, 4, 5]) ++
    Wire.bytesField Format.Block.road (RoadDraft.write
      { id := 0, points := [⟨64, 64⟩], names := [(2, "b")] } 1 default ["a", "b"]) ++
    Wire.messageField Format.Block.stringTable [] ++
    Wire.tag Format.Block.stringTable .lengthDelimited ++ Wire.stringTable ["a", "b"] ++
    Wire.messageField Format.Block.idTable (BlockDraft.writeIds 0 ids)

/-- The data of a section that is one block, behind a first byte. -/
def shuffledData (ids : List Int64) : ByteArray := (0 :: Wire.sized (shuffledBlock ids)).toByteArray

/-- A section over such data. -/
def shuffledSection (ids : List Int64) : RoutingSection where
  id := 3
  name := "s"
  offset := 0
  length := (shuffledData ids).size

/-- With two ids the road is known and so is the target of its restriction; with one id the road is
not. -/
theorem loadBlock_of_fields_shuffledBlock :
    (∃ road, (shuffledSection [7, -9]).loadBlock ⟨default, 0, 0, 1, []⟩ (shuffledData [7, -9]) =
        .ok [road] ∧ road.id = -9) ∧
      ∃ reference, (shuffledSection [7]).loadBlock ⟨default, 0, 0, 1, []⟩ (shuffledData [7]) =
        .error (.corruptSection "s" 0 (.dangling reference)) := by
  have two : ∃ fields ∈ ((shuffledSection [7, -9]).decodeBlock ⟨default, 0, 0, 1, []⟩
      (BlockField.readAll default) (shuffledData [7, -9])).toOption,
        (∀ r ∈ BlockField.records fields, r.Resolvable (BlockField.tables fields)) ∧
        (BlockField.records fields).map (fun r =>
          ((BlockField.tables fields).roadId r.number).toOption) = [some (-9)] := by
    decide +kernel
  have one : ∃ fields ∈ ((shuffledSection [7]).decodeBlock ⟨default, 0, 0, 1, []⟩
      (BlockField.readAll default) (shuffledData [7])).toOption,
        ¬ ∀ r ∈ BlockField.records fields, r.Resolvable (BlockField.tables fields) := by
    decide +kernel
  constructor
  · obtain ⟨fields, found, resolvable, ids⟩ := two
    obtain ⟨loads, each, -⟩ := loadBlock_of_fields (eq_ok_of_mem_toOption found)
    obtain ⟨roads, loaded⟩ := loads.mpr resolvable
    obtain ⟨r, single, known⟩ := List.map_eq_singleton_iff.mp ids
    have read := each roads loaded
    rw [single, List.forall₂_cons_left_iff] at read
    obtain ⟨road, rest, first, none, rfl⟩ := read
    rw [List.forall₂_nil_left_iff.mp none] at loaded
    refine ⟨road, loaded, ?_⟩
    rw [first.id] at known
    exact Option.some.inj known
  · obtain ⟨fields, found, unresolvable⟩ := one
    exact (loadBlock_of_fields (eq_ok_of_mem_toOption found)).2.2 unresolvable

end RoutingSection

end RoadAtlas
