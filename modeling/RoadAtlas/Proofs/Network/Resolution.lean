import RoadAtlas.Proofs.Network.Block
import RoadAtlas.Proofs.Road.Polyline

/-!
Roads resolved from the records that they are stored as. A stored block has an id for every road and
every restriction's target and a string for every name, each found again under its number.

* `RoadDraft.StoredAs` says what of a road survives being stored;
* `RoadDraft.resolve_record` is about one road, `BlockDraft.resolve_block` about all roads of a
  block: resolving what they are stored as gives them back, in order.
-/

namespace RoadAtlas

open Decoder

/-- The restriction has a name. -/
def Restriction.IsNamed : Restriction → Prop
  | other _ => False
  | _ => True

lemma Restriction.ofCode_code {kind : Restriction} (named : kind.IsNamed) :
    ofCode kind.code = kind := by
  cases kind with
  | other => cases named
  | _ => rfl

/-- A road agrees with what it was written from: its points without their low bits, its types and
names as they were given, the last of several names for one tag, and the last of several
restrictions onto one road. A restriction keeps its number, and a number with a name comes back
under this name. -/
structure RoadDraft.StoredAs (r : RoadDraft) (sectionId : ℕ) (rules : RuleTable) (road : Road) :
    Prop where
  id : road.id = r.id
  sectionId : road.sectionId = sectionId
  rules : road.rules = some rules
  points : road.points.toList = r.points.map (Point.onGrid Format.coordinateShift)
  types : road.types = r.types.toArray
  extraTypes : road.extraTypes = r.extraTypes.toArray
  pointTypes : ∀ index, road.pointTypes.get? index = (r.pointTypes.get? index).map List.toArray
  names : ∀ tag, road.names.get? tag = r.names.reverse.lookup tag
  pointNames : ∀ index, road.namesAt index = ((r.pointNames.get? index).getD []).toArray
  restrictions : ∀ target, (road.restrictions.get? target).map Restriction.code =
    (r.restrictions.reverse.lookup target).map Restriction.code
  namedRestrictions : ∀ target kind, kind.IsNamed →
    (r.restrictions.reverse.lookup target).map Restriction.code = some kind.code →
      road.restrictions.get? target = some kind

/-! ### Numbers of a stored block -/

namespace BlockDraft

variable {b : BlockDraft}

/-- What a block numbers has a number of 32 bits. -/
structure Numbered (b : BlockDraft) : Prop where
  ids : b.ids.length < 2 ^ 32
  strings : b.strings.length < 2 ^ 32

lemma length_le_writeIds (ids : List Int64) (base : Int64) :
    ids.length ≤ (writeIds base ids).length := by
  induction ids generalizing base with
  | nil => simp
  | cons id rest ih =>
    have tagged := tag_length_pos Format.IdTable.delta .varint
    have := ih id
    rw [writeIds, List.length_append, List.length_cons, Wire.sint64Field, List.length_append]
    omega

lemma length_le_stringTable (strings : List String) :
    strings.length ≤ (Wire.stringTable strings).length := by
  have counted := length_le_length_flatMap (Wire.stringField 1) strings fun text => by
    have := tag_length_pos 1 .lengthDelimited
    rw [Wire.stringField, Wire.bytesField, List.length_append]
    omega
  exact Nat.le_trans counted (length_le_sized _)

/-- A block that is not too long to be sized is not too large to be numbered. -/
lemma numbered_of_write {corner : Point} (small : (b.write corner).length < 2 ^ 32) :
    b.Numbered := by
  simp only [write, List.length_append] at small
  constructor
  · have counted := length_le_writeIds b.ids 0
    have written : (writeIds 0 b.ids).length ≤ b.writeIdTable.length := length_le_bytesField _ _
    omega
  · have counted := length_le_stringTable b.strings
    cases h : b.strings with
    | nil => simp
    | cons text rest =>
      rw [h] at small counted
      simp only [RoadDraft.unlessEmpty, List.isEmpty_cons, Bool.false_eq_true, ↓reduceIte,
        List.length_append] at small
      omega

/-! ### Look-ups in the tables -/

/-- A string is found under its number. -/
lemma string_idxOf (numbered : b.Numbered) {text : String} (h : text ∈ b.strings) :
    b.tables.string (UInt32.ofNat (b.strings.idxOf text)) = .ok text := by
  have place := List.idxOf_lt_length_of_mem h
  have strings := numbered.strings
  have found : b.strings.toArray[(UInt32.ofNat (b.strings.idxOf text)).toNat]? = some text := by
    rw [UInt32.toNat_ofNat_of_lt' (by simp [UInt32.size]; omega), List.getElem?_toArray,
      List.getElem?_eq_getElem place, List.getElem_idxOf place]
  rw [BlockTables.string, tables]
  simp only [found]

/-- An id is found under its place in the id table. -/
lemma roadId_eq_ok {place : ℕ} {id : Int64} (h : b.ids[place]? = some id) (number : UInt64)
    (small : number.toNat = place) : b.tables.roadId number = .ok id := by
  rw [← small] at h
  simp [BlockTables.roadId, tables, h]

/-- The target of a restriction is found under its number. -/
lemma roadId_targetNumber (numbered : b.Numbered) {target : Int64} (h : target ∈ b.ids) :
    b.tables.roadId (UInt32.ofNat (targetNumber b.ids target)).toUInt64 = .ok target := by
  obtain ⟨place, found⟩ := Option.isSome_iff_exists.mp (List.isSome_idxOf?.mpr h)
  obtain ⟨inside, same, -⟩ := List.idxOf?_eq_some_iff.mp found
  have ids := numbered.ids
  have here : b.ids[place]? = some target := List.getElem?_eq_some_iff.mpr ⟨inside, same⟩
  refine roadId_eq_ok here _ ?_
  rw [targetNumber, found, Option.getD_some, UInt32.toNat_toUInt64,
    UInt32.toNat_ofNat_of_lt' (by simp [UInt32.size]; omega)]

lemma ids_eq (given : b.givenIds = none) :
    b.ids = appendNew (b.roads.map RoadDraft.id)
      (b.roads.flatMap fun r => r.restrictions.map Prod.fst) := by
  rw [ids, given]

/-- The records of a block are numbered as its roads are. -/
lemma ids_getElem? (given : b.givenIds = none) {number : ℕ} {r : RoadDraft}
    (h : b.roads[number]? = some r) : b.ids[number]? = some r.id := by
  obtain ⟨more, whole⟩ := prefix_appendNew (b.roads.map RoadDraft.id)
    (b.roads.flatMap fun r => r.restrictions.map Prod.fst)
  rw [ids_eq given, ← whole]
  have inside : number < (b.roads.map RoadDraft.id).length := by
    rw [List.length_map]
    exact (List.getElem?_eq_some_iff.mp h).1
  rw [List.getElem?_append_left inside, List.getElem?_map, h, Option.map_some]

/-- A block has an id for the target of every restriction. -/
lemma target_mem_ids (given : b.givenIds = none) {r : RoadDraft} (hr : r ∈ b.roads)
    {e : Int64 × Restriction} (he : e ∈ r.restrictions) : e.1 ∈ b.ids := by
  rw [ids_eq given, mem_appendNew]
  exact .inr (List.mem_flatMap_of_mem hr (List.mem_map_of_mem he))

/-- A block has every string that a road refers to. -/
lemma mem_strings {r : RoadDraft} (hr : r ∈ b.roads) {text : String} (h : text ∈ r.strings) :
    text ∈ b.strings := by
  rw [strings, mem_appendNew]
  exact .inr (List.mem_flatMap_of_mem hr h)

/-! ### Resolution -/

/-- Names whose strings the block has are resolved to what they were. -/
lemma resolveNames_numbered (numbered : b.Numbered) {names : List TagName}
    (known : ∀ name ∈ names, name.2 ∈ b.strings) :
    RoadRecord.resolveNames b.tables (names.map (RoadDraft.numbered b.strings)) =
      .ok (SortedMap.ofList names) := by
  rw [RoadRecord.resolveNames, List.foldlM_map, SortedMap.ofList]
  refine foldlM_eq_ok (fun name hn found => ?_) _
  simp only [RoadDraft.numbered, string_idxOf numbered (known name hn)]
  rfl

/-- The same of names of single points. -/
lemma resolvePointNames_numbered (numbered : b.Numbered) {names : List (UInt32 × TagName)}
    (known : ∀ e ∈ names, e.2.2 ∈ b.strings) :
    RoadRecord.resolvePointNames b.tables
        (names.map fun e => (e.1, RoadDraft.numbered b.strings e.2)) =
      .ok (names.foldl (fun found e => found.alter e.1 fun names => (names.getD #[]).push e.2)
        ∅) := by
  rw [RoadRecord.resolvePointNames, List.foldlM_map]
  refine foldlM_eq_ok (fun e he found => ?_) _
  simp only [RoadDraft.numbered, string_idxOf numbered (known e he)]
  rfl

lemma toUInt64_ofNat_eq_iff {i j : ℕ} (hi : i < 2 ^ 32) (hj : j < 2 ^ 32) :
    (UInt32.ofNat i).toUInt64 = UInt64.ofNat j ↔ i = j := by
  rw [← UInt64.toNat_inj, UInt32.toNat_toUInt64, UInt32.toNat_ofNat_of_lt' hi,
    UInt64.toNat_ofNat_of_lt' (Nat.lt_trans hj (by decide))]

/-- The restrictions of one road all start at its record. -/
lemma filter_road_restrictionRecords {ids : List Int64} (r : RoadDraft) {source number : ℕ}
    (hs : source < 2 ^ 32) (hn : number < 2 ^ 32) :
    (r.restrictionRecords ids source).filter
        (fun x => x.source.toUInt64 = UInt64.ofNat number) =
      if source = number then r.restrictionRecords ids source else [] := by
  rw [RoadDraft.restrictionRecords, List.filter_map]
  simp only [Function.comp_def, toUInt64_ofNat_eq_iff hs hn]
  split
  next same => simp [same, List.filter_eq_self.mpr]
  next differ => simp [differ]

/-- No restriction starts at a record before the first. -/
lemma filter_restrictionRecords_of_lt {ids : List Int64} {number : ℕ} :
    ∀ {roads : List RoadDraft} {source : ℕ}, number < source → source + roads.length ≤ 2 ^ 32 →
      (restrictionRecords ids source roads).filter
        (fun x => x.source.toUInt64 = UInt64.ofNat number) = []
  | [], _, _, _ => rfl
  | r :: rest, source, before, bound => by
    rw [List.length_cons] at bound
    rw [restrictionRecords, List.filter_append,
      filter_restrictionRecords_of_lt (by omega) (by omega), List.append_nil,
      filter_road_restrictionRecords r (by omega) (by omega), if_neg (by omega)]

/-- The restrictions that start at a record are those of its road. -/
lemma filter_restrictionRecords (ids : List Int64) {r : RoadDraft} :
    ∀ {roads : List RoadDraft} {source index : ℕ}, roads[index]? = some r →
      source + roads.length ≤ 2 ^ 32 →
      (restrictionRecords ids source roads).filter
          (fun x => x.source.toUInt64 = UInt64.ofNat (source + index)) =
        r.restrictionRecords ids (source + index)
  | first :: rest, source, 0, h, bound => by
    rw [List.length_cons] at bound
    obtain rfl : first = r := by simpa using h
    rw [restrictionRecords, List.filter_append,
      filter_restrictionRecords_of_lt (by omega) (by omega), List.append_nil,
      filter_road_restrictionRecords first (by omega) (by omega), Nat.add_zero, if_pos rfl]
  | first :: rest, source, index + 1, h, bound => by
    have inside := (List.getElem?_eq_some_iff.mp h).1
    rw [List.length_cons] at bound inside
    rw [List.getElem?_cons_succ] at h
    have later := filter_restrictionRecords ids h (show source + 1 + rest.length ≤ 2 ^ 32 by omega)
    rw [Nat.add_right_comm, Nat.add_assoc] at later
    rw [restrictionRecords, List.filter_append, later,
      filter_road_restrictionRecords first (by omega) (by omega), if_neg (by omega),
      List.nil_append]

/-- The restrictions of a road are resolved to the last one onto each other road. -/
lemma resolveRestrictions_eq_ok (given : b.givenIds = none) (numbered : b.Numbered) {index : ℕ}
    {r : RoadDraft} (h : b.roads[index]? = some r) :
    RoadRecord.resolveRestrictions b.tables (UInt64.ofNat index) =
      .ok (SortedMap.ofList (r.restrictions.map fun e => (e.1, .ofCode e.2.code))) := by
  have bound : 0 + b.roads.length ≤ 2 ^ 32 := by
    have ids := numbered.ids
    have fewer := (prefix_appendNew (b.roads.map RoadDraft.id)
      (b.roads.flatMap fun r => r.restrictions.map Prod.fst)).length_le
    rw [← ids_eq given, List.length_map] at fewer
    omega
  -- only the records under the number of the road are its own
  have own := filter_restrictionRecords b.ids h bound
  rw [Nat.zero_add] at own
  rw [RoadRecord.resolveRestrictions]
  simp only [tables, own]
  rw [RoadDraft.restrictionRecords, List.foldlM_map, SortedMap.ofList, List.foldl_map]
  refine foldlM_eq_ok (fun e he found => ?_) _
  have target := roadId_targetNumber numbered
    (target_mem_ids given (List.mem_of_getElem? h) he)
  rw [tables] at target
  simp only [target]
  rfl

end BlockDraft

/-! ### Roads -/

lemma lookup_map_snd {κ ν μ : Type} [BEq κ] (f : ν → μ) (es : List (κ × ν)) (k : κ) :
    (es.map fun e => (e.1, f e.2)).lookup k = (es.lookup k).map f := by
  induction es with
  | nil => rfl
  | cons e rest ih =>
    rw [List.map_cons, List.lookup_cons, List.lookup_cons, ih]
    cases k == e.1 <;> rfl

namespace RoadDraft

variable {r : RoadDraft}

lemma mem_strings_of_mem_names {name : TagName} (h : name ∈ r.names) : name.2 ∈ r.strings := by
  rw [strings]
  exact List.mem_map_of_mem (List.mem_append_right _ h)

lemma mem_strings_of_mem_pointNameEntries {e : UInt32 × TagName} (h : e ∈ r.pointNameEntries) :
    e.2.2 ∈ r.strings := by
  obtain ⟨entry, hentry, he⟩ := List.mem_flatMap.mp h
  obtain ⟨name, hname, rfl⟩ := List.mem_map.mp he
  rw [strings]
  refine List.mem_map_of_mem (List.mem_append_left _ ?_)
  exact List.mem_flatten_of_mem (List.mem_map_of_mem hentry) hname

/-- Types of single points are kept index by index. -/
lemma get?_pointTypeArrays (index : UInt32) :
    r.pointTypeArrays.get? index = (r.pointTypes.get? index).map List.toArray := by
  rw [pointTypeArrays, SortedMap.get?_foldl_alter_of_nodup (f := fun types more =>
    types.getD #[] ++ List.toArray more) _ _ r.pointTypes.nodup_keys (fun _ _ => rfl),
    SortedMap.get?_eq_lookup r.pointTypes]
  simp only [Option.getD_none, Array.empty_append]
  exact Option.or_none

/-- Names of single points are kept index by index, in order. -/
lemma getD_foldl_pointNameEntries (index : UInt32) :
    ((r.pointNameEntries.foldl (fun found e => found.alter e.1 fun names =>
        (names.getD #[]).push e.2) (∅ : SortedMap UInt32 (Array TagName))).get? index).getD #[] =
      ((r.pointNames.get? index).getD []).toArray := by
  rw [SortedMap.getD_foldl_alter, SortedMap.get?_eq_lookup r.pointNames, pointNameEntries,
    SortedMap.filter_flatMap_of_nodup _ r.pointNames.nodup_keys]
  exact Array.empty_append

/-- Resolving what a road of a block is stored as gives the road. -/
lemma resolve_record {b : BlockDraft} (given : b.givenIds = none) (numbered : b.Numbered)
    {index : ℕ} (h : b.roads[index]? = some r) (sectionId : ℕ) (rules : RuleTable) :
    ∃ road, (r.record index b.strings).resolve b.tables sectionId rules = .ok road ∧
      r.StoredAs sectionId rules road := by
  have hr : r ∈ b.roads := List.mem_of_getElem? h
  have bound : index < 2 ^ 64 := by
    have ids := numbered.ids
    have inside := (List.getElem?_eq_some_iff.mp (BlockDraft.ids_getElem? given h)).1
    omega
  have names := BlockDraft.resolveNames_numbered numbered fun name hn =>
    BlockDraft.mem_strings hr (mem_strings_of_mem_names hn)
  have pointNames := BlockDraft.resolvePointNames_numbered numbered fun e he =>
    BlockDraft.mem_strings hr (mem_strings_of_mem_pointNameEntries he)
  have restrictions := BlockDraft.resolveRestrictions_eq_ok given numbered h
  have id := BlockDraft.roadId_eq_ok (BlockDraft.ids_getElem? given h) (UInt64.ofNat index)
    (UInt64.toNat_ofNat_of_lt' bound)
  have found (target : Int64) : (SortedMap.ofList (r.restrictions.map fun e =>
      (e.1, Restriction.ofCode e.2.code))).get? target =
        ((r.restrictions.reverse.lookup target).map Restriction.code).map Restriction.ofCode := by
    rw [SortedMap.get?_ofList, ← List.map_reverse,
      lookup_map_snd fun kind : Restriction => Restriction.ofCode kind.code, Option.map_map]
    rfl
  rw [RoadRecord.resolve]
  simp only [record, names, pointNames, restrictions, id]
  refine ⟨_, rfl, ?_⟩
  constructor
  case id => rfl
  case sectionId => rfl
  case rules => rfl
  case points => simp [Polyline.toList_ofArray]
  case types => rfl
  case extraTypes => rfl
  case pointTypes => exact get?_pointTypeArrays
  case names => exact SortedMap.get?_ofList r.names
  case pointNames => exact getD_foldl_pointNameEntries
  case restrictions =>
    intro target
    have back : Restriction.code ∘ Restriction.ofCode = fun code => code :=
      funext Restriction.code_ofCode
    rw [found, Option.map_map, back, Option.map_id']
  case namedRestrictions =>
    intro target kind named code
    rw [found, code, Option.map_some, Restriction.ofCode_code named]

end RoadDraft

/-! ### Blocks -/

namespace BlockDraft

/-- Resolving the records of some roads of a block gives the roads. -/
lemma resolve_records {b : BlockDraft} (given : b.givenIds = none) (numbered : b.Numbered)
    (sectionId : ℕ) (rules : RuleTable) : ∀ {roads : List RoadDraft} {number : ℕ},
    b.roads.drop number = roads → ∃ resolved,
      (records b.strings number roads).mapM (RoadRecord.resolve · b.tables sectionId rules) =
          .ok resolved ∧
        List.Forall₂ (fun r road => r.StoredAs sectionId rules road) roads resolved
  | [], _, _ => ⟨[], rfl, .nil⟩
  | r :: rest, number, h => by
    have here : b.roads[number]? = some r := by
      rw [← List.head?_drop, h, List.head?_cons]
    have later : b.roads.drop (number + 1) = rest := by
      rw [← List.drop_drop, h, List.drop_one, List.tail_cons]
    obtain ⟨road, resolved, stored⟩ := RoadDraft.resolve_record given numbered here sectionId rules
    obtain ⟨roads, hroads, all⟩ := resolve_records given numbered sectionId rules later
    refine ⟨road :: roads, ?_, .cons stored all⟩
    rw [records, List.mapM_cons, resolved, hroads]
    rfl

/-- Resolving a stored block gives the roads it was written from, in order. -/
theorem resolve_block {b : BlockDraft} (given : b.givenIds = none) (numbered : b.Numbered)
    (s : RoutingSection) : ∃ roads, b.block.resolve s = .ok roads ∧
      List.Forall₂ (fun r road => r.StoredAs s.id s.rules road) b.roads roads :=
  resolve_records given numbered s.id s.rules (List.drop_zero (l := b.roads))

end BlockDraft

end RoadAtlas
