import RoadAtlas.Network.Writing
import RoadAtlas.Proofs.Network.Border
import RoadAtlas.Proofs.Network.Isolation
import RoadAtlas.Proofs.Traversal

/-!
Reads that offsets lead to. A single road is read where the caller says, and the points of a border
line where its header says. The limit of the section keeps such a read from leading out of the
section at the end; at the front nothing does but the offset itself.

* `RoutingSection.readRoad_eq`: a road at or behind the start of the section depends on the bytes of
  the section alone;
* `RoutingSection.readBorder_eq`: so do the border points of lines whose points are there;
* `RoutingSection.offsets_confined` puts the two together for a section that was read, and
  `RoutingSection.offsets_not_confined` shows that an offset before the section leads out of it.
-/

namespace RoadAtlas

open Decoder

namespace RoutingSection

variable {s : RoutingSection} {data data' : ByteArray} {offset length : ℕ}

/-- What a decoder answers at a position, up to the end of the section. -/
def evalAt {α : Type} (s : RoutingSection) (x : Decoder α) (position : ℕ) (data : ByteArray) :
    Except DecodeError α := do
  let c ← s.cursor data
  let c ← c.seek data position
  x.eval data c

/-- At a position behind the start of a section, the bytes of the section are read. -/
lemma evalAt_eq {α : Type} {x : Decoder α} (hx : x.Local)
    (agree : AgreeOn data data' s.offset (s.offset + s.length)) {position : ℕ}
    (behind : s.offset ≤ position) : s.evalAt x position data' = s.evalAt x position data := by
  rw [evalAt, evalAt, cursor, cursor, Cursor.region_congr agree.size_eq]
  cases whole : Cursor.region data s.offset s.length with
  | error cause => rfl
  | ok c =>
    obtain ⟨-, rfl⟩ := Cursor.region_eq_ok_iff.mp whole
    simp only [bind, Except.bind, Cursor.seek, overrun_eq agree.size_eq]
    by_cases beyond : s.offset + s.length < position
    · simp only [beyond, ↓reduceIte]
    · simp only [beyond, ↓reduceIte]
      exact congrArg Outcome.toExcept ((hx _).run_eq (agree.mono behind (Nat.le_refl _)))

/-- In a section that lies in the data, a decoder is run up to the end of the section. -/
lemma evalAt_eq_toExcept {α : Type} (inside : s.offset + s.length ≤ data.size) {position : ℕ}
    (before : position ≤ s.offset + s.length) (x : Decoder α) :
    s.evalAt x position data = (x.run data ⟨position, s.offset + s.length⟩).toExcept := by
  have whole : s.cursor data = .ok ⟨s.offset, s.offset + s.length⟩ :=
    Cursor.region_eq_ok_iff.mpr ⟨inside, rfl⟩
  have seeks : Cursor.seek ⟨s.offset, s.offset + s.length⟩ data position =
      .ok ⟨position, s.offset + s.length⟩ := if_neg (Nat.not_lt.mpr before)
  rw [evalAt, whole]
  simp only [bind, Except.bind, seeks]
  rfl

/-- A decoder that starts at the block of a box starts where the box points. -/
lemma evalBlock_eq_evalAt {α : Type} {box : Box} {position : ℕ}
    (points : box.dataPosition? = some position) (x : Decoder α) :
    (do let c ← s.blockCursor box data; x.eval data c) = s.evalAt x position data := by
  rw [blockCursor, points, evalAt]
  simp only [bind_assoc]

/-! ### Single roads -/

lemma mem_preorderAll_of_mem_dataBoxes {b : Box} (h : b ∈ s.dataBoxes) :
    b ∈ Box.preorderAll (s.boxes.toList ++ s.basemap.toList) :=
  (List.mem_filter.mp h).1

/-- Where the blocks of a section are, its own bytes tell. -/
lemma ownerOf_eq (lies : s.LiesAt s.offset s.length)
    (agree : AgreeOn data data' s.offset (s.offset + s.length)) (position : ℕ) :
    s.ownerOf position data' = s.ownerOf position data := by
  refine findM?_congr fun b hb => ?_
  have behind := lies.offset_le (mem_preorderAll_of_mem_dataBoxes hb)
  have header : (do
      let length ← varint32
      let offset ← Decoder.position
      return ⟨offset, length.toNat⟩ : Decoder Region).Local :=
    varint32_local.bind fun _ => position_local.bind fun _ => pure_local _
  have extent : s.blockExtent b data' = s.blockExtent b data := evalBlock_eq header agree behind
  rw [extent]

/-- A road is resolved from the record at its position with the tables around it. -/
lemma readRoad_eq_evalAt (s : RoutingSection) (position : ℕ) (data : ByteArray) :
    s.readRoad position data = s.decode (do
      let owner ← s.ownerOf position data
      let tables ← match owner with
        | some b => s.decodeBlock b BlockTables.decoder data
        | none => pure {}
      let corner := (owner.map fun b => b.area.topLeft).getD default
      let record ← s.evalAt (RoadRecord.decoder corner) position data
      record.resolve tables s.id s.rules) := by
  rw [readRoad]
  refine congrArg s.decode (bind_congr fun owner => ?_)
  cases owner with
  | none => simp only [evalAt, bind_assoc, pure_bind, Option.map_none, Option.getD_none]
  | some b => simp only [evalAt, bind_assoc, pure_bind, Option.map_some, Option.getD_some]

/-- A road at or behind the start of the section is read from the bytes of the section. -/
lemma readRoad_eq (lies : s.LiesAt s.offset s.length)
    (agree : AgreeOn data data' s.offset (s.offset + s.length)) {position : ℕ}
    (behind : s.offset ≤ position) : s.readRoad position data' = s.readRoad position data := by
  have record (corner : Point) := evalAt_eq (RoadRecord.decoder_local corner) agree behind
  rw [readRoad_eq_evalAt, readRoad_eq_evalAt, ownerOf_eq lies agree]
  simp only [record]
  cases owner : s.ownerOf position data with
  | error cause => simp only [bind, Except.bind]
  | ok found =>
    cases found with
    | none => simp only [bind, Except.bind]
    | some b =>
      have within := lies.offset_le (mem_preorderAll_of_mem_dataBoxes (mem_of_findM? owner))
      have tables := decodeBlock_eq BlockTables.decoder_local agree within
      simp only [bind, Except.bind, tables]

/-! ### Border points -/

/-- The points of a section's border lines, read line by line. -/
lemma readBorder_eq_evalAt (s : RoutingSection) (query : Option Area) (data : ByteArray) :
    s.readBorder query data = match s.border with
      | none => .ok []
      | some region => s.decode (do
        let lines ← s.evalAt (within region.length BorderLine.readAll) region.offset data
        let blocks ← (borderOffsets lines.toList query).mapM fun position =>
          s.evalAt (BorderTrail.decoder s.id query) position data
        return (blocks.map Array.toList).flatten) := by
  rw [readBorder]
  cases s.border with
  | none => rfl
  | some region => simp only [borderLines, evalAt]

/-- The points of the lines that concern a query lie at or behind the start of the section. -/
def BorderBehind (s : RoutingSection) (query : Option Area) (data : ByteArray) : Prop :=
  ∀ region ∈ s.border, ∀ lines ∈ (s.borderLines region data).toOption,
    ∀ position ∈ borderOffsets lines.toList query, s.offset ≤ position

instance (s : RoutingSection) (query : Option Area) (data : ByteArray) :
    Decidable (s.BorderBehind query data) :=
  inferInstanceAs (Decidable (∀ region ∈ s.border, ∀ lines ∈ (s.borderLines region data).toOption,
    ∀ position ∈ borderOffsets lines.toList query, s.offset ≤ position))

/-- Border points whose lines' headers lead to places at or behind the start of the section are read
from the bytes of the section. -/
lemma readBorder_eq (lies : s.LiesAt s.offset s.length)
    (agree : AgreeOn data data' s.offset (s.offset + s.length)) {query : Option Area}
    (behind : s.BorderBehind query data) : s.readBorder query data' = s.readBorder query data := by
  rw [readBorder_eq_evalAt, readBorder_eq_evalAt]
  cases border : s.border with
  | none => rfl
  | some region =>
    have headers : s.evalAt (within region.length BorderLine.readAll) region.offset data' =
        s.evalAt (within region.length BorderLine.readAll) region.offset data :=
      evalAt_eq (BorderLine.readAll_local.within _) agree (lies.border region border)
    simp only [headers]
    cases found : s.evalAt (within region.length BorderLine.readAll) region.offset data with
    | error cause => simp only [bind, Except.bind]
    | ok lines =>
      have read : lines ∈ (s.borderLines region data).toOption := by
        rw [borderLines, ← evalAt, found]
        rfl
      have points := mapM_congr fun position listed =>
        evalAt_eq (BorderTrail.decoder_local s.id query) agree
          (behind region border lines read position listed)
      simp only [bind, Except.bind] at points ⊢
      rw [points]

/-! ### Both -/

/-- What is read of a section at a place at or behind its start, depends on the bytes of the section
alone, failures included. -/
theorem offsets_confined {id : ℕ} {t : SectionEntry} (found : read id t data = .ok s)
    (agree : AgreeOn data data' t.offset t.stop) :
    (∀ position, s.offset ≤ position →
      s.readRoad position data' = s.readRoad position data) ∧
    ∀ query, s.BorderBehind query data → s.readBorder query data' = s.readBorder query data := by
  have lies := read_liesAt found
  have inside := lies.agreeOn agree
  rw [← lies.offset_eq, ← lies.length_eq] at lies
  exact ⟨fun position behind => readRoad_eq lies inside behind,
    fun query behind => readBorder_eq lies inside behind⟩

/-- A section with a border line and its points, behind a byte of other data. -/
def borderSample (front : UInt8) : ByteArray :=
  (front :: { name := "b", border := [{ x := 9, y := 9, toX := some 99, points :=
    [{ roadId := 7, location := ⟨9, 9⟩, direction := true }] }] : SectionDraft }.write).toByteArray

/-- The byte in front of the section is of no consequence. -/
theorem offsets_confined_borderSample :
    ∃ s, read 4 ⟨.routing, "", 1, 41⟩ (borderSample 0) = .ok s ∧
      (∀ position, s.offset ≤ position →
        s.readRoad position (borderSample 255) = s.readRoad position (borderSample 0)) ∧
      s.readBorder none (borderSample 255) = s.readBorder none (borderSample 0) := by
  have ⟨s, found, behind⟩ : ∃ s ∈ (read 4 ⟨.routing, "", 1, 41⟩ (borderSample 0)).toOption,
    s.BorderBehind none (borderSample 0) := by decide +kernel
  have found := eq_ok_of_mem_toOption found
  have agree : ∀ i < 42, 1 ≤ i → (borderSample 255)[i]? = (borderSample 0)[i]? := by
    decide +kernel
  have ⟨roads, points⟩ := offsets_confined found
    ⟨by decide +kernel, fun i before behind => agree i behind before⟩
  exact ⟨s, found, roads, points none behind⟩

/-- A section whose border line does not say where its points are. -/
def unplacedBorder : List UInt8 := [61, 0, 0, 0, 4, 10, 2, 8, 5]

/-- The points of a border line. -/
def strayPoints : List UInt8 :=
  [18, 8, 9, 16, 9, 24, 7, 42, 10, 8, 0, 16, 0, 24, 0, 32, 1, 58, 0]

/-- A place in front of the section is read: of a road because the caller asks for it, of a border
line because its header lacks the distance. -/
theorem offsets_not_confined :
    (¬ ∀ (id : ℕ) (t : SectionEntry) (data data' : ByteArray) (s : RoutingSection),
      read id t data = .ok s → AgreeOn data data' t.offset t.stop →
        ∀ position, s.readRoad position data' = s.readRoad position data) ∧
    ¬ ∀ (id : ℕ) (t : SectionEntry) (data data' : ByteArray) (s : RoutingSection),
      read id t data = .ok s → AgreeOn data data' t.offset t.stop →
        ∀ query, s.readBorder query data' = s.readBorder query data := by
  refine ⟨fun confined => ?road, fun confined => ?border⟩
  case road =>
    let data : ByteArray := (2 :: 96 :: 7 :: unplacedBorder).toByteArray
    let data' : ByteArray := (0 :: 0 :: 0 :: unplacedBorder).toByteArray
    have ⟨s, found, differs⟩ : ∃ s ∈ (read 0 ⟨.routing, "", 3, 9⟩ data).toOption,
      (s.readRoad 0 data').map Road.id ≠ (s.readRoad 0 data).map Road.id := by decide +kernel
    have agree : ∀ i < 12, 3 ≤ i → data'[i]? = data[i]? := by decide +kernel
    have same := confined 0 _ data data' s (eq_ok_of_mem_toOption found)
      ⟨by decide +kernel, fun i before behind => agree i behind before⟩ 0
    exact differs (congrArg (Except.map Road.id) same)
  case border =>
    let data : ByteArray := (strayPoints ++ unplacedBorder).toByteArray
    let data' : ByteArray := (List.replicate 19 0 ++ unplacedBorder).toByteArray
    have ⟨s, found, differs⟩ : ∃ s ∈ (read 0 ⟨.routing, "", 19, 9⟩ data).toOption,
      s.readBorder none data' ≠ s.readBorder none data := by decide +kernel
    have agree : ∀ i < 28, 19 ≤ i → data'[i]? = data[i]? := by decide +kernel
    have same := confined 0 _ data data' s (eq_ok_of_mem_toOption found)
      ⟨by decide +kernel, fun i before behind => agree i behind before⟩ none
    exact differs same

end RoutingSection

end RoadAtlas
