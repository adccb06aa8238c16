import RoadAtlas.Proofs.Container.Catalog
import RoadAtlas.Proofs.Network.Locality
import RoadAtlas.Proofs.Pool
import RoadAtlas.Proofs.Traversal
import RoadAtlas.Proofs.Wire.Rounds

/-!
Sections do not affect one another. Whatever the body of a section holds, the container is accepted
as it was and every other section is read as it was, with its data blocks, failures included.

* `RoutingSection.renumber`, `Road.renumber`: sections and roads under another number, which is all
  that two readings of the same section differ in;
* `RoutingSection.read_renumber`, `loadBlock_renumber`, `areaTasks_renumber`: readings of data that
  agree on a section;
* `RoutingSection.MayLoad`: what loading an area may come to, whichever failure is reported;
* `SectionEntry.Unaffected`: a section that is read alike from two byte strings;
* `Catalog.read_damaged`: damage to a section leaves the others unaffected.
-/

namespace RoadAtlas

open Decoder

/-! ### Numbers of sections -/

/-- The road in a section of another number. -/
def Road.renumber (id : ℕ) (r : Road) : Road := { r with sectionId := id }

/-- The section under another number. -/
def RoutingSection.renumber (id : ℕ) (s : RoutingSection) : RoutingSection := { s with id }

lemma RoadRecord.resolve_renumber (id id' : ℕ) (r : RoadRecord) (tables : BlockTables)
    (rules : RuleTable) :
    r.resolve tables id' rules = Road.renumber id' <$> r.resolve tables id rules := by
  simp only [resolve, map_bind, map_pure]
  rfl

lemma Block.resolve_renumber (id : ℕ) (b : Block) (s : RoutingSection) :
    b.resolve (s.renumber id) = List.map (Road.renumber id) <$> b.resolve s :=
  mapM_map_congr fun r _ => r.resolve_renumber s.id id b.tables s.rules

/-! ### Boxes of a query -/

namespace Box

mutual

/-- The boxes that a query finds are boxes of the tree. -/
lemma mem_preorder_of_intersecting {query : Area} {d : Box} :
    ∀ {b : Box}, d ∈ b.intersecting query → d ∈ b.preorder
  | ⟨area, offset, length, shift, children⟩, h => by
    rw [intersecting] at h
    rw [preorder]
    split at h
    · rcases List.mem_append.mp h with own | below
      · split at own
        · exact List.mem_singleton.mp own ▸ List.mem_cons_self
        · cases own
      · exact List.mem_cons_of_mem _ (mem_preorderAll_of_intersectingAll below)
    · cases h

lemma mem_preorderAll_of_intersectingAll {query : Area} {d : Box} :
    ∀ {bs : List Box}, d ∈ intersectingAll query bs → d ∈ preorderAll bs
  | [], h => h
  | b :: rest, h => by
    rw [intersectingAll] at h
    rw [preorderAll]
    rcases List.mem_append.mp h with first | later
    · exact List.mem_append_left _ (mem_preorder_of_intersecting first)
    · exact List.mem_append_right _ (mem_preorderAll_of_intersectingAll later)

end

end Box

/-! ### Two readings of a section -/

namespace SectionEntry

variable {α β : Type} {t : SectionEntry} {data data' : ByteArray}

lemma decode_eq {x : Decoder α} (hx : x.Local) (agree : AgreeOn data data' t.offset t.stop) :
    t.decode x data' = t.decode x data := by
  have same := hx.eval_region agree
  rw [decode, decode, cursor, cursor, same]

lemma decode_map (f : α → β) (x : Decoder α) (data : ByteArray) :
    t.decode (f <$> x) data = f <$> t.decode x data := by
  rw [decode, decode]
  split
  · rfl
  · cases t.cursor data with
    | error cause => rfl
    | ok c =>
      simp only [bind, Except.bind, eval, run_map]
      cases x.run data c with
      | done value next reach => rfl
      | failed cause stopped => rfl

end SectionEntry

namespace RoutingSection

variable {s : RoutingSection} {b : Box} {data data' : ByteArray} {id id' : ℕ}

lemma step_renumber (t : Tag) (s : RoutingSection) :
    step t (s.renumber id) = renumber id <$> step t s := by
  rw [step, step]
  split
  case h_7 | h_8 => simp only [map_bind, map_pure]
  all_goals
    simp only [map_bind, map_pure]
    rfl

lemma decoder_renumber (s : RoutingSection) :
    decoder (s.renumber id) = renumber id <$> decoder s :=
  fields_map step_renumber s

/-- A section is read alike from data that agree on its body. -/
lemma read_renumber {t : SectionEntry} (agree : AgreeOn data data' t.offset t.stop) :
    read id' t data' = renumber id' <$> read id t data := by
  rw [read, read, SectionEntry.decode_eq (decoder_local _) agree, ← SectionEntry.decode_map,
    ← decoder_renumber]
  rfl

lemma decode_map {α β : Type} (f : α → β) (s : RoutingSection) (result : Except DecodeError α) :
    s.decode (f <$> result) = f <$> s.decode result := by
  cases result with
  | ok value => rfl
  | error cause => rfl

/-- The roads of a box are read alike from data that agree on its section. -/
lemma loadBlock_renumber (agree : AgreeOn data data' s.offset (s.offset + s.length))
    (behind : s.offset ≤ b.offset) :
    (s.renumber id).loadBlock b data' = List.map (Road.renumber id) <$> s.loadBlock b data := by
  have decoded := decodeBlock_eq (Block.decoder_local b.area.topLeft) agree behind
  have resolved : (do
      let block ← s.decodeBlock b (Block.decoder b.area.topLeft) data'
      block.resolve (s.renumber id)) = List.map (Road.renumber id) <$> (do
      let block ← s.decodeBlock b (Block.decoder b.area.topLeft) data
      block.resolve s) := by
    rw [decoded, map_bind]
    simp only [Block.resolve_renumber]
  rw [loadBlock, loadBlock, ← decode_map, ← resolved]
  rfl

/-- Loading an area is the same tasks for data that agree on the section. -/
lemma areaTasks_renumber (agree : AgreeOn data data' s.offset (s.offset + s.length))
    (behind : ∀ b ∈ Box.preorderAll s.boxes.toList, s.offset ≤ b.offset) (query : Area)
    (calledOff : Bool) : (s.renumber id).areaTasks query calledOff data' =
      (s.areaTasks query calledOff data).map (List.map (Road.renumber id) <$> ·) := by
  rw [areaTasks, areaTasks, List.map_map]
  refine List.map_congr_left fun b hb => ?_
  cases calledOff with
  | true => rfl
  | false => exact loadBlock_renumber agree (behind b (Box.mem_preorderAll_of_intersectingAll hb))

/-- Loading an area may come to the result. Of several boxes that cannot be loaded, any may be
reported. -/
def MayLoad (s : RoutingSection) (query : Area) (calledOff : Bool) (data : ByteArray)
    (result : Except ContainerError (List Road)) : Prop :=
  ∃ pool, s.loadRoads query calledOff data pool = result

lemma mayLoad_iff {query : Area} {calledOff : Bool} {result : Except ContainerError (List Road)} :
    s.MayLoad query calledOff data result ↔ ∃ groups,
      (∃ pool : Pool ContainerError, pool.collect (s.areaTasks query calledOff data) = groups) ∧
        List.flatten <$> groups = result := by
  constructor
  · rintro ⟨pool, rfl⟩
    exact ⟨_, ⟨pool, rfl⟩, rfl⟩
  · rintro ⟨_, ⟨pool, rfl⟩, rfl⟩
    exact ⟨pool, rfl⟩

lemma flatten_map_map (f : Road → Road) (groups : Except ContainerError (List (List Road))) :
    List.flatten <$> List.map (List.map f) <$> groups = List.map f <$> List.flatten <$> groups := by
  cases groups with
  | ok groups => exact congrArg Except.ok List.map_flatten.symm
  | error cause => rfl

/-- Loading an area may come to the same from data that agree on the section. -/
lemma mayLoad_renumber (agree : AgreeOn data data' s.offset (s.offset + s.length))
    (behind : ∀ b ∈ Box.preorderAll s.boxes.toList, s.offset ≤ b.offset) (query : Area)
    (calledOff : Bool) (result : Except ContainerError (List Road)) :
    (s.renumber id).MayLoad query calledOff data' result ↔
      ∃ before, s.MayLoad query calledOff data before ∧
        List.map (Road.renumber id) <$> before = result := by
  simp only [mayLoad_iff, areaTasks_renumber agree behind, Pool.exists_collect_map_iff]
  constructor
  · rintro ⟨_, ⟨groups, loads, rfl⟩, rfl⟩
    exact ⟨_, ⟨groups, loads, rfl⟩, (flatten_map_map _ groups).symm⟩
  · rintro ⟨_, ⟨groups, loads, rfl⟩, rfl⟩
    exact ⟨_, ⟨groups, loads, rfl⟩, flatten_map_map _ groups⟩

/-- A single worker loads the same roads of an area from data that agree on the section. -/
lemma loadRoads_renumber (agree : AgreeOn data data' s.offset (s.offset + s.length))
    (behind : ∀ b ∈ Box.preorderAll s.boxes.toList, s.offset ≤ b.offset) (query : Area)
    (calledOff : Bool) {pool : Pool ContainerError} (alone : pool.workers = 1) :
    (s.renumber id).loadRoads query calledOff data' pool =
      List.map (Road.renumber id) <$> s.loadRoads query calledOff data pool := by
  rw [loadRoads, loadRoads, areaTasks_renumber agree behind,
    Pool.collect_map_map_of_single alone, flatten_map_map]

/-- A section that is read lies in its place. -/
lemma read_liesAt {t : SectionEntry} (h : read id t data = .ok s) : s.LiesAt t.offset t.length := by
  obtain ⟨-, -, decoded⟩ := SectionEntry.decode_eq_ok_iff.mp h
  obtain ⟨next, reach, run⟩ := eval_eq_ok_iff.mp decoded
  exact decoder_liesAt run
    { offset_eq := rfl
      length_eq := rfl
      boxes := fun _ none => nomatch none
      basemap := fun _ none => nomatch none
      border := fun _ none => nomatch none }

lemma LiesAt.agreeOn {offset length : ℕ} (lies : s.LiesAt offset length)
    (agree : AgreeOn data data' offset (offset + length)) :
    AgreeOn data data' s.offset (s.offset + s.length) := by
  rwa [lies.offset_eq, lies.length_eq]

/-- A box for detailed roads is a box of the section. -/
lemma mem_boxes (s : RoutingSection) (hb : b ∈ Box.preorderAll s.boxes.toList) :
    b ∈ Box.preorderAll (s.boxes.toList ++ s.basemap.toList) := by
  rw [Box.preorderAll_append]
  exact List.mem_append_left _ hb

lemma LiesAt.offset_le {offset length : ℕ} (lies : s.LiesAt offset length)
    (hb : b ∈ Box.preorderAll (s.boxes.toList ++ s.basemap.toList)) : s.offset ≤ b.offset := by
  obtain ⟨root, hroot, inside⟩ := Box.mem_preorderAll_iff.mp hb
  rw [lies.offset_eq]
  rcases List.mem_append.mp hroot with detailed | base
  · exact lies.boxes root detailed b inside
  · exact lies.basemap root base b inside

lemma LiesAt.offset_le_detailed {offset length : ℕ} (lies : s.LiesAt offset length) :
    ∀ b ∈ Box.preorderAll s.boxes.toList, s.offset ≤ b.offset :=
  fun _ hb => lies.offset_le (s.mem_boxes hb)

end RoutingSection

namespace SectionEntry

/-- A section is read alike from some other data, failures included, and so are the roads of its
boxes and of areas. Sections and roads are told up to the number that a section is given. -/
structure Unaffected (t : SectionEntry) (data data' : ByteArray) : Prop where
  rules : RuleTable.read t data' = RuleTable.read t data
  read : ∀ id id', RoutingSection.read id' t data' =
    RoutingSection.renumber id' <$> RoutingSection.read id t data
  loadBlock : ∀ id id' s, RoutingSection.read id t data = .ok s →
    ∀ b ∈ Box.preorderAll (s.boxes.toList ++ s.basemap.toList),
      (s.renumber id').loadBlock b data' = List.map (Road.renumber id') <$> s.loadBlock b data
  mayLoad : ∀ id id' s, RoutingSection.read id t data = .ok s → ∀ query calledOff result,
    (s.renumber id').MayLoad query calledOff data' result ↔
      ∃ before, s.MayLoad query calledOff data before ∧
        List.map (Road.renumber id') <$> before = result
  loadRoads : ∀ id id' s, RoutingSection.read id t data = .ok s → ∀ query calledOff pool,
    pool.workers = 1 → (s.renumber id').loadRoads query calledOff data' pool =
      List.map (Road.renumber id') <$> s.loadRoads query calledOff data pool

/-- A section is unaffected by what happens to data outside its body. -/
lemma unaffected {t : SectionEntry} {data data' : ByteArray}
    (agree : AgreeOn data data' t.offset t.stop) : t.Unaffected data data' := by
  constructor
  case rules => exact decode_eq RuleTable.decoder_local agree
  case read => exact fun id id' => RoutingSection.read_renumber agree
  case loadBlock =>
    intro id id' s found b hb
    have lies := RoutingSection.read_liesAt found
    exact RoutingSection.loadBlock_renumber (lies.agreeOn agree) (lies.offset_le hb)
  case mayLoad =>
    intro id id' s found query calledOff result
    have lies := RoutingSection.read_liesAt found
    exact RoutingSection.mayLoad_renumber (lies.agreeOn agree) lies.offset_le_detailed query
      calledOff result
  case loadRoads =>
    intro id id' s found query calledOff pool alone
    have lies := RoutingSection.read_liesAt found
    exact RoutingSection.loadRoads_renumber (lies.agreeOn agree) lies.offset_le_detailed query
      calledOff alone

end SectionEntry

/-! ### Damaged sections -/

namespace Catalog

variable {data data' : ByteArray} {catalog : Catalog}

/-- Sections of a catalog do not overlap. -/
lemma sections_disjoint (accepted : read data = .ok catalog) {i j : ℕ}
    (hi : i < catalog.sections.size) (hj : j < catalog.sections.size) (ne : j ≠ i) :
    catalog.sections[i].stop ≤ catalog.sections[j].offset ∨
      catalog.sections[j].stop ≤ catalog.sections[i].offset := by
  have ordered := List.pairwise_iff_getElem.mp (sections_of_read accepted).1
  simp only [Array.length_toList, Array.getElem_toList] at ordered
  rcases Nat.lt_or_gt_of_ne ne with before | behind
  · exact .inr (ordered j i hj hi before)
  · exact .inl (ordered i j hi hj behind)

/-- Whatever the body of a section is replaced with, the container is accepted with the same catalog
but for the name of that section, and every other section is read as before. -/
theorem read_damaged (accepted : read data = .ok catalog) {i : ℕ} (hi : i < catalog.sections.size)
    (agree : AgreeOutside [catalog.sections[i]] data data') :
    (∃ name, read data' =
        .ok { catalog with sections := catalog.sections.modify i fun s => { s with name } }) ∧
      ∀ j (hj : j < catalog.sections.size), j ≠ i → catalog.sections[j].Unaffected data data' := by
  have siblings : ∀ j (hj : j < catalog.sections.size), j ≠ i →
      AgreeOn data data' catalog.sections[j].offset catalog.sections[j].stop := by
    intro j hj ne
    refine agree.agreeOn fun s hs => ?_
    cases List.mem_singleton.mp hs
    exact sections_disjoint accepted hi hj ne
  -- the names of the siblings are found in bytes that are the same
  have names : catalog.sections.map (·.rescan data') = catalog.sections.modify i fun s =>
      { s with name := (catalog.sections[i].rescan data').name } := by
    refine Array.ext (by simp) fun j hj _ => ?_
    rw [Array.size_map] at hj
    rw [Array.getElem_map, Array.getElem_modify]
    split
    next same =>
      cases same
      rfl
    next ne =>
      rw [SectionEntry.rescan_eq (siblings j hj (Ne.symm ne))]
      exact (sections_of_read accepted).2 _ (Array.getElem_mem_toList hj)
  refine ⟨⟨(catalog.sections[i].rescan data').name, ?_⟩,
    fun j hj ne => SectionEntry.unaffected (siblings j hj ne)⟩
  rw [read_rescan accepted (agree.mono (by simp)), names]

/-- A container of two routing sections: the given bytes, and a section with a rule, a box with a
road, and a box in it whose block cannot be read. -/
def twoSections (first : List UInt8) : ByteArray :=
  ([8, 2, 77, 0, 0, 0, 3] ++ first ++ [77, 0, 0, 0, 56,
    0x0a, 1, 66, 0x12, 6, 0x1a, 1, 97, 0x2a, 1, 98,
    0x1d, 0, 0, 0, 21, 0x10, 100, 0x20, 100, 0x2d, 0, 0, 0, 22,
      0x3d, 0, 0, 0, 7, 0x08, 80, 0x2d, 0, 0, 0, 24,
    0x2d, 15, 0x2a, 2, 0x08, 10, 0x32, 9, 0x0a, 2, 2, 2, 0x3a, 1, 0, 0x60, 0, 1, 0x0f] ++
    [128, 2, 2]).toByteArray

/-- What the container holds when the first section is a name. -/
def twoSectionsCatalog : Catalog := ⟨2, 0, #[⟨.routing, "A", 7, 3⟩, ⟨.routing, "B", 15, 56⟩]⟩

lemma twoSections_agreeOutside : AgreeOutside [twoSectionsCatalog.sections[0]]
    (twoSections [0x0a, 1, 65]) (twoSections [255, 0, 7]) where
  size_eq := rfl
  byte_eq p outside := by
    by_cases within : p < (twoSections [0x0a, 1, 65]).size
    · have bytes : ∀ p < 74, ¬ (7 ≤ p ∧ p < 10) →
          (twoSections [255, 0, 7])[p]? = (twoSections [0x0a, 1, 65])[p]? := by
        decide +kernel
      exact bytes p within (outside _ List.mem_cons_self)
    · rw [getElem?_neg (twoSections [255, 0, 7]) p within,
        getElem?_neg (twoSections [0x0a, 1, 65]) p within]

lemma ids_renumber (id : ℕ) (result : Except ContainerError (List Road)) :
    List.map Road.id <$> List.map (Road.renumber id) <$> result = List.map Road.id <$> result := by
  cases result with
  | ok roads => exact congrArg Except.ok (List.map_map.trans rfl)
  | error cause => rfl

/-- Damage to the first section hides its name. From the second one, its rule, the road of its outer
box and the failure of its inner box are read as they were. -/
theorem read_damaged_twoSections :
    read (twoSections [0x0a, 1, 65]) = .ok twoSectionsCatalog ∧
      (∃ name, read (twoSections [255, 0, 7]) = .ok { twoSectionsCatalog with
        sections := twoSectionsCatalog.sections.modify 0 fun s => { s with name } }) ∧
      RuleTable.read twoSectionsCatalog.sections[1] (twoSections [255, 0, 7]) =
        .ok (RuleTable.push {} "a" "b") ∧
      ∃ s, RoutingSection.read 1 twoSectionsCatalog.sections[1] (twoSections [255, 0, 7]) = .ok s ∧
        (∃ outer ∈ Box.preorderAll s.boxes.toList,
          List.map Road.id <$> s.loadBlock outer (twoSections [255, 0, 7]) = .ok [5]) ∧
        (∃ inner ∈ Box.preorderAll s.boxes.toList, s.loadBlock inner (twoSections [255, 0, 7]) =
          .error (.corruptSection "B" 15 (.unknownWireType 1 7 71))) ∧
        List.map Road.id <$> s.loadRoads ⟨0, 0, 30, 30⟩ false (twoSections [255, 0, 7]) =
          .ok [5] ∧
        s.MayLoad .world false (twoSections [255, 0, 7])
          (.error (.corruptSection "B" 15 (.unknownWireType 1 7 71))) := by
  have accepted : read (twoSections [0x0a, 1, 65]) = .ok twoSectionsCatalog := by decide +kernel
  have rules : RuleTable.read twoSectionsCatalog.sections[1] (twoSections [0x0a, 1, 65]) =
      .ok (RuleTable.push {} "a" "b") := by decide +kernel
  have reads : ∃ s ∈ (RoutingSection.read 0 twoSectionsCatalog.sections[1]
      (twoSections [0x0a, 1, 65])).toOption,
      (∃ outer ∈ Box.preorderAll s.boxes.toList,
        List.map Road.id <$> s.loadBlock outer (twoSections [0x0a, 1, 65]) = .ok [5]) ∧
      (∃ inner ∈ Box.preorderAll s.boxes.toList,
        List.map Road.id <$> s.loadBlock inner (twoSections [0x0a, 1, 65]) =
          .error (.corruptSection "B" 15 (.unknownWireType 1 7 71))) ∧
      List.map Road.id <$> s.loadRoads ⟨0, 0, 30, 30⟩ false (twoSections [0x0a, 1, 65]) =
        .ok [5] ∧
      List.map Road.id <$> s.loadRoads .world false (twoSections [0x0a, 1, 65]) =
        .error (.corruptSection "B" 15 (.unknownWireType 1 7 71)) := by decide +kernel
  obtain ⟨s, found, ⟨outer, houter, outerRoads⟩, ⟨inner, hinner, innerFails⟩, part, whole⟩ := reads
  have found := eq_ok_of_mem_toOption found
  obtain ⟨renamed, others⟩ := read_damaged accepted (by decide) twoSections_agreeOutside
  have unaffected := others 1 (by decide) Nat.one_ne_zero
  refine ⟨accepted, renamed, unaffected.rules.trans rules, s.renumber 1, ?_,
    ⟨outer, houter, ?_⟩, ⟨inner, hinner, ?_⟩, ?_, ?_⟩
  · rw [unaffected.read 0 1, found]
    rfl
  · rw [unaffected.loadBlock 0 1 s found outer (s.mem_boxes houter), ids_renumber, outerRoads]
  · rw [unaffected.loadBlock 0 1 s found inner (s.mem_boxes hinner), map_eq_error.mp innerFails]
    rfl
  · rw [unaffected.loadRoads 0 1 s found _ _ .single rfl, ids_renumber, part]
  · exact (unaffected.mayLoad 0 1 s found _ _ _).mpr ⟨_, ⟨.single, map_eq_error.mp whole⟩, rfl⟩

end Catalog

end RoadAtlas
