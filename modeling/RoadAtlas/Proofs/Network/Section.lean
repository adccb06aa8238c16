import RoadAtlas.Proofs.Network.Locality
import RoadAtlas.Proofs.Network.Resolution

/-!
Routing sections read back. Wherever a written section lies in some data, it is read with its name,
its rules in order and a box forest of the shape it was written from, and the data block of every
box gives the roads of the box.

* `SectionDraft.Storable` collects what a section must fulfil to be stored;
* `SectionDraft.holds_block`: the data blocks lie at the places that the boxes were told;
* `RoutingSection.read_write` is the round trip.
-/

namespace RoadAtlas

open Decoder

/-! ### The end of a section -/

namespace Decoder

variable {α β σ τ : Type} {p : ℕ} {bytes more : List UInt8}

lemma FillsAt.bind_nil {x : Decoder α} {f : α → Decoder β} {a : α} {b : β}
    (hx : x.FillsAt p bytes a) (hf : (f a).FillsAt (p + bytes.length) [] b) :
    (x >>= f).FillsAt p bytes b := by
  intro data small inside held
  rw [run_bind]
  refine (hx data small inside held).andThen fun _ => ?_
  exact hf data small inside fun i b hb => by simp at hb

/-- What carries an accumulator may be followed by what fills the rest of the region. -/
lemma Carries.then_fillsAt {x : σ → Decoder τ} {acc acc' : σ} {value : τ}
    (h : Carries x p acc bytes acc') (hrest : (x acc').FillsAt (p + bytes.length) more value) :
    (x acc).FillsAt p (bytes ++ more) value := by
  intro data small inside held
  rw [List.length_append, ← Nat.add_assoc] at inside ⊢
  exact (h data _ small inside held.left (Nat.le_add_right _ _) value _).mpr
    (hrest data small inside held.right)

/-- All that is left of a region is passed over. -/
lemma skip_remaining_fillsAt (bytes : List UInt8) (a : α) :
    (do
      let rest ← remaining
      skip rest
      return a : Decoder α).FillsAt p bytes a := by
  intro data small inside held
  rw [run_bind, remaining]
  refine Outcome.Ends.andThen ⟨.refl _, rfl⟩ fun _ => ?_
  have left : Cursor.remaining ⟨p, p + bytes.length⟩ = bytes.length := by
    simp [Cursor.remaining]
  rw [left]
  exact (skip_readsAt bytes).bind_pure data _ small inside held (Nat.le_refl _)

/-- A message whose last field takes the rest of the region. -/
lemma fields_fillsAt_of_last {step : Tag → σ → Decoder σ} {acc acc' : σ} {field : ℕ}
    {wire : WireType} (valid : FieldNumber field)
    (h : (step ⟨field, wire.code⟩ acc).FillsAt (p + (Wire.tag field wire).length) bytes acc') :
    (fields acc step).FillsAt p (Wire.tag field wire ++ bytes) acc' := by
  rw [fields_eq]
  refine FillsAt.bind (tag_readsAt wire valid.2) ?_
  simp only [isEnd_eq_false wire valid, Bool.false_eq_true, ↓reduceIte]
  exact h.bind_nil fun data _ _ _ => fields_ends step acc' data _

end Decoder

/-! ### The fields of a section -/

/-- A written rule is read as the pair it was written from, whatever place it names. -/
lemma Rule.decoder_readsAt {p : ℕ} {tag value : String} {place : UInt64}
    (small : (Wire.stringField Format.Rule.tag tag ++ Wire.stringField Format.Rule.value value ++
      Wire.varintField Format.Rule.id place).length < 2 ^ 32) :
    Rule.decoder.ReadsAt p
      (Wire.sized (Wire.stringField Format.Rule.tag tag ++
        Wire.stringField Format.Rule.value value ++ Wire.varintField Format.Rule.id place))
      (tag, value) := by
  refine FillsAt.sized (Carries.fields_fillsAt ?_) small
  simp only [List.length_append, Wire.stringField] at small
  have first {q : ℕ} : Carries (fields · Rule.step) q ("", "")
      (Wire.stringField Format.Rule.tag tag) (tag, "") :=
    Carries.bytesField (by decide) (by omega) fun small =>
      (string_readsAt small).bind_pure
  have second {q : ℕ} : Carries (fields · Rule.step) q (tag, "")
      (Wire.stringField Format.Rule.value value) (tag, value) :=
    Carries.bytesField (by decide) (by omega) fun small =>
      (string_readsAt small).bind_pure
  have third {q : ℕ} : Carries (fields · Rule.step) q (tag, value)
      (Wire.varintField Format.Rule.id place) (tag, value) :=
    Carries.field (by decide) ((varint_readsAt place).bind_pure (f := UInt64.toUInt32)).bind_pure
  exact (first.trans second).trans third

namespace RoutingSection

variable {p : ℕ} {acc : RoutingSection}

lemma name_field_carries {name : String}
    (small : (Wire.stringField Format.Section.name name).length < 2 ^ 32) :
    Carries (fields · step) p acc (Wire.stringField Format.Section.name name) { acc with name } :=
  Carries.bytesField (by decide) small fun small => (string_readsAt small).bind_pure

/-- Rules are read in order, behind those there are. -/
lemma rules_carry : ∀ {rules : List (String × String)} {p place : ℕ} {acc : RoutingSection},
    (SectionDraft.writeRules place rules).length < 2 ^ 32 →
      Carries (fields · step) p acc (SectionDraft.writeRules place rules)
        { acc with rules := rules.foldl (fun t (tag, value) => t.push tag value) acc.rules }
  | [], _, _, acc, _ => by
    rw [SectionDraft.writeRules]
    exact Carries.nil acc
  | (tag, value) :: rest, p, place, acc, small => by
    rw [SectionDraft.writeRules] at small ⊢
    rw [List.length_append] at small
    have first : Carries (fields · step) p acc
        (Wire.messageField Format.Section.rule
          (Wire.stringField Format.Rule.tag tag ++ Wire.stringField Format.Rule.value value ++
            Wire.varintField Format.Rule.id (UInt64.ofNat place)))
        { acc with rules := acc.rules.push tag value } :=
      Carries.bytesField (by decide) (by rw [← Wire.messageField]; omega) fun small =>
        (Rule.decoder_readsAt small).bind_pure
    exact first.trans (rules_carry (by omega))

/-- A section with a further box for detailed roads. -/
def addBox (s : RoutingSection) (box : Box) : RoutingSection := { s with boxes := s.boxes.push box }

/-- A section with a further box for the basemap. -/
def addBasemapBox (s : RoutingSection) (box : Box) : RoutingSection :=
  { s with basemap := s.basemap.push box }

lemma addBox_takenBy :
    Box.TakenBy (fields · step) Format.Section.box default (fun _ => True) addBox where
  carries _ small h := Box.blockField_carries (by decide) rfl small h
  keeps _ := trivial

lemma addBasemapBox_takenBy :
    Box.TakenBy (fields · step) Format.Section.basemapBox default (fun _ => True)
      addBasemapBox where
  carries _ small h := Box.blockField_carries (by decide) rfl small h
  keeps _ := trivial

lemma foldl_addBox (boxes : List Box) (s : RoutingSection) :
    boxes.foldl addBox s = { s with boxes := s.boxes ++ boxes.toArray } := by
  induction boxes generalizing s with
  | nil => simp
  | cons box rest ih =>
    rw [List.foldl_cons, ih, addBox, List.push_append_toArray]

lemma foldl_addBasemapBox (boxes : List Box) (s : RoutingSection) :
    boxes.foldl addBasemapBox s = { s with basemap := s.basemap ++ boxes.toArray } := by
  induction boxes generalizing s with
  | nil => simp
  | cons box rest ih =>
    rw [List.foldl_cons, ih, addBasemapBox, List.push_append_toArray]

/-- A block is read as the stretch of bytes that it is. -/
lemma readRegion_readsAt {body : List UInt8} (small : body.length < 2 ^ 32) :
    readRegion.ReadsAt p (Wire.be32 (UInt32.ofNat body.length) ++ body)
      ⟨p + 4, body.length⟩ := by
  refine (be32_readsAt _).bind (ReadsAt.position_bind ?_)
  rw [UInt32.toNat_ofNat_of_lt' small]
  exact (skip_readsAt body).bind_pure

/-- A border box is passed over, whatever it holds; where its body lies is kept. -/
lemma border_field_carries {body : List UInt8} (small : body.length < 2 ^ 32) :
    Carries (fields · step) p acc (Wire.blockField Format.Section.border body)
      { acc with
        border := some ⟨p + (Wire.blockHeader Format.Section.border body.length).length,
          body.length⟩ } := by
  rw [Wire.blockField, Wire.blockHeader, List.length_append, Wire.length_be32, ← Nat.add_assoc,
    List.append_assoc]
  exact Carries.field (by decide) (readRegion_readsAt small).bind_pure

/-- What follows the first tag of a data block is not looked at. -/
lemma blocks_fillsAt (bodies : List (List UInt8)) :
    (fields acc step).FillsAt p (bodies.flatMap fun body => SectionDraft.blockTag ++ body) acc := by
  cases bodies with
  | nil => exact (Carries.nil acc).fields_fillsAt
  | cons body rest =>
    rw [List.flatMap_cons, List.append_assoc]
    exact fields_fillsAt_of_last (by decide) (skip_remaining_fillsAt _ acc)

end RoutingSection

/-! ### Data blocks -/

namespace SectionDraft

variable {d : SectionDraft}

lemma length_payloadOffsets (tagLength : ℕ) : ∀ (fields : List (List UInt8)) (start : ℕ),
    (BlockDraft.payloadOffsets tagLength start fields).length = fields.length
  | [], _ => rfl
  | field :: rest, start => by
    rw [BlockDraft.payloadOffsets, List.length_cons, List.length_cons,
      length_payloadOffsets tagLength rest]

/-- Fields that follow each other have their payloads where `payloadOffsets` says. -/
lemma holds_payload {data : ByteArray} {origin : ℕ} {tag : List UInt8} :
    ∀ {bodies : List (List UInt8)} {start : ℕ},
      Holds data (origin + start) (bodies.flatMap fun body => tag ++ body) →
      ∀ {place : ℕ} {body : List UInt8},
        (place, body) ∈ (BlockDraft.payloadOffsets tag.length start
          (bodies.map fun body => tag ++ body)).zip bodies →
        Holds data (origin + place) body ∧ start ≤ place ∧
          place + body.length ≤ start + (bodies.flatMap fun body => tag ++ body).length
  | [], _, _, _, _, h => by simp at h
  | first :: rest, start, held, place, body, h => by
    rw [List.flatMap_cons] at held ⊢
    rw [List.map_cons, BlockDraft.payloadOffsets, List.zip_cons_cons, List.mem_cons] at h
    rw [List.length_append, List.length_append]
    rcases h with here | later
    · cases here
      refine ⟨?_, by omega, by omega⟩
      rw [← Nat.add_assoc]
      exact held.left.right
    · have behind := held.right
      rw [Nat.add_assoc] at behind
      obtain ⟨found, after, before⟩ := holds_payload behind later
      rw [List.length_append] at after before
      exact ⟨found, by omega, by omega⟩

/-- Where the data blocks are does not change how long what comes before them is. -/
lemma length_writeFront (d : SectionDraft) (places places' : List ℕ) :
    (d.writeFront places).length = (d.writeFront places').length := by
  simp only [writeFront, writeBoxes, List.length_append]
  rw [BoxDraft.writeAll_length_congr d.boxes _ _ _ _ places places',
    BoxDraft.writeAll_length_congr d.basemap _ _ _ _ _ _]

lemma write_ne_nil (d : SectionDraft) : d.write ≠ [] := by
  have := tag_length_pos Format.Section.name .lengthDelimited
  intro none
  have empty := congrArg List.length none
  simp only [write, writeFront, writeHead, Wire.stringField, Wire.bytesField, List.length_append,
    List.length_nil] at empty
  omega

/-- A place of the section goes with the block that was written there. -/
def Places (d : SectionDraft) (place : ℕ) (e : Area × BlockDraft) : Prop :=
  (place, e) ∈ d.places.zip d.blocks

lemma places_forall₂ (d : SectionDraft) : List.Forall₂ d.Places d.places d.blocks := by
  have same : d.places.length = d.blocks.length := by
    rw [places, length_payloadOffsets, List.length_map, blockBodies, List.length_map]
  exact List.forall₂_iff_zip.mpr ⟨same, fun {_ _} h => h⟩

/-- The data blocks lie at their places, behind everything else. -/
lemma holds_block {data : ByteArray} {origin place : ℕ} {area : Area} {b : BlockDraft}
    (held : Holds data origin d.write) (placed : d.Places place (area, b)) :
    Holds data (origin + place) (Wire.sized (b.write area.topLeft)) ∧
      (d.writeFront d.places).length ≤ place ∧
      place + (Wire.sized (b.write area.topLeft)).length ≤ d.write.length := by
  have bodies : (place, Wire.sized (b.write area.topLeft)) ∈ d.places.zip d.blockBodies := by
    rw [blockBodies, List.zip_map_right]
    exact List.mem_map.mpr ⟨_, placed, rfl⟩
  rw [places, length_writeFront d [] d.places] at bodies
  rw [write] at held ⊢
  rw [List.length_append]
  exact holds_payload held.right bodies

/-- The box forests are written one behind the other. -/
lemma writeBoxes_eq (d : SectionDraft) (start : ℕ) (places : List ℕ) :
    ∃ boxes left basemap rest,
      BoxDraft.writeAll Format.Section.box default start places d.boxes = (boxes, left) ∧
      BoxDraft.writeAll Format.Section.basemapBox default (start + boxes.length) left d.basemap =
        (basemap, rest) ∧
      d.writeBoxes start places = boxes ++ basemap :=
  ⟨_, _, _, _, rfl, rfl, rfl⟩

/-- What a section must fulfil to be stored: the edges of its boxes lie on the grid, each block
comes with the id table that its roads need, and the length of the section fits in the 32 bits that
a container has for it. All lengths and distances in the section are smaller. -/
structure Storable (d : SectionDraft) : Prop where
  boxes : BoxDraft.OnGridAll d.boxes
  basemap : BoxDraft.OnGridAll d.basemap
  ids : ∀ e ∈ d.blocks, e.2.givenIds = none
  length_lt : d.write.length < 2 ^ 32

/-- What a section must fulfil to be read field by field, whether or not its data blocks can be
loaded. -/
structure Fits (d : SectionDraft) : Prop where
  boxes : BoxDraft.OnGridAll d.boxes
  basemap : BoxDraft.OnGridAll d.basemap
  length_lt : d.write.length < 2 ^ 32

lemma Storable.fits {d : SectionDraft} (storable : d.Storable) : d.Fits :=
  ⟨storable.boxes, storable.basemap, storable.length_lt⟩

/-- A place lies behind everything else and is a number of 32 bits. -/
lemma Fits.beyond {d : SectionDraft} (fits : d.Fits) {data : ByteArray} {origin : ℕ}
    (held : Holds data origin d.write) {place : ℕ} {e : Area × BlockDraft}
    (placed : d.Places place e) : (d.writeFront d.places).length ≤ place ∧ place < 2 ^ 32 := by
  obtain ⟨-, after, before⟩ := holds_block held placed
  have := fits.length_lt
  omega

/-- Box forests that mirror those of the section, whose boxes point at the places of the blocks, one
box for each place. -/
structure BoxedAs (d : SectionDraft) (origin : ℕ) (boxes basemap : List Box) : Prop where
  mirrors : BoxDraft.MirrorsAll (BoxDraft.PointsAt d.Places origin) d.boxes boxes
  mirrors_basemap : BoxDraft.MirrorsAll (BoxDraft.PointsAt d.Places origin) d.basemap basemap
  positions : (Box.preorderAll boxes ++ Box.preorderAll basemap).filterMap Box.dataPosition? =
    d.places.map (origin + ·)

/-- The box forests are read as forests whose boxes point at the places of the blocks. -/
lemma boxes_carry {d : SectionDraft} (fits : d.Fits) {data : ByteArray} {origin : ℕ}
    (held : Holds data origin d.write) (acc : RoutingSection) :
    ∃ boxes basemap,
      Carries (fields · RoutingSection.step) (origin + d.writeHead.length) acc
        (d.writeBoxes d.writeHead.length d.places)
        { acc with
          boxes := acc.boxes ++ List.toArray boxes
          basemap := acc.basemap ++ List.toArray basemap } ∧
      d.BoxedAs origin boxes basemap := by
  obtain ⟨boxBytes, left, basemapBytes, rest, hboxes, hbasemap, written⟩ :=
    d.writeBoxes_eq d.writeHead.length d.places
  obtain ⟨mine, theirs, split, hmine, htheirs⟩ := BoxDraft.forall₂_append_split d.places_forall₂
  have front : (d.writeFront d.places).length < 2 ^ 32 := by
    have := fits.length_lt
    rw [write, List.length_append] at this
    omega
  have ahead : d.writeHead.length + boxBytes.length + basemapBytes.length ≤
      (d.writeFront d.places).length := by
    rw [writeFront, written]
    simp only [List.length_append]
    omega
  rw [split] at hboxes
  obtain ⟨rfl, boxes, carried, mirrors, positions⟩ := BoxDraft.writeAll_reads origin front
    (fits.beyond held) d.boxes acc RoutingSection.addBox_takenBy trivial Area.default_onGrid
    fits.boxes hmine hboxes (by omega)
  rw [← List.append_nil left] at hbasemap
  obtain ⟨rfl, basemap, carried', mirrors', positions'⟩ := BoxDraft.writeAll_reads origin front
    (fits.beyond held) d.basemap (boxes.foldl RoutingSection.addBox acc)
    RoutingSection.addBasemapBox_takenBy trivial Area.default_onGrid fits.basemap htheirs
    hbasemap (by omega)
  rw [← Nat.add_assoc] at carried'
  refine ⟨boxes, basemap, ?_, mirrors, mirrors', ?_⟩
  · have both := carried.trans carried'
    rw [RoutingSection.foldl_addBasemapBox, RoutingSection.foldl_addBox] at both
    rw [written]
    exact both
  · rw [List.filterMap_append, positions, positions', split, List.map_append]

/-- Where the border box of a section lies when the section starts at `origin`. -/
def borderPlace (d : SectionDraft) (origin : ℕ) : Region where
  offset := origin + d.writeHead.length + (d.writeBoxes d.writeHead.length d.places).length +
    (Wire.blockHeader Format.Section.border (writeBorder d.border).length).length
  length := (writeBorder d.border).length

/-- A border box is read as the place where it lies, or left out. -/
lemma border_carries (d : SectionDraft) (origin : ℕ) (acc : RoutingSection)
    (small : d.writeBorderField.length < 2 ^ 32) :
    Carries (fields · RoutingSection.step)
      (origin + d.writeHead.length + (d.writeBoxes d.writeHead.length d.places).length) acc
      d.writeBorderField
      { acc with
        border := if d.border.isEmpty then acc.border else some (d.borderPlace origin) } := by
  rw [writeBorderField] at small ⊢
  by_cases empty : d.border.isEmpty = true
  · simp only [RoadDraft.unlessEmpty, empty, ↓reduceIte]
    exact Carries.nil acc
  · simp only [RoadDraft.unlessEmpty, empty, Bool.false_eq_true, ↓reduceIte] at small ⊢
    rw [BoxDraft.length_blockField] at small
    exact RoutingSection.border_field_carries (by omega)

/-- A written section is read field by field up to the data blocks: its name, its rules and box
forests, and the place of its border box. -/
lemma decoder_fillsAt_bordered {d : SectionDraft} (fits : d.Fits) {data : ByteArray}
    {origin : ℕ} (held : Holds data origin d.write) (acc : RoutingSection) :
    ∃ boxes basemap,
      (RoutingSection.decoder acc).FillsAt origin d.write
        { acc with
          name := d.name
          rules := d.rules.foldl (fun t (tag, value) => t.push tag value) acc.rules
          boxes := acc.boxes ++ List.toArray boxes
          basemap := acc.basemap ++ List.toArray basemap
          border := if d.border.isEmpty then acc.border else some (d.borderPlace origin) } ∧
      d.BoxedAs origin boxes basemap := by
  have lengths := fits.length_lt
  rw [write, writeFront, writeHead] at lengths
  simp only [List.length_append] at lengths
  have name : Carries (fields · RoutingSection.step) origin acc
      (Wire.stringField Format.Section.name d.name) { acc with name := d.name } :=
    RoutingSection.name_field_carries (by omega)
  have bounded : (writeRules 0 d.rules).length < 2 ^ 32 := by omega
  have head := name.trans (RoutingSection.rules_carry bounded)
  obtain ⟨boxes, basemap, forests, boxed⟩ := boxes_carry fits held
    { acc with
      name := d.name
      rules := d.rules.foldl (fun t (tag, value) => t.push tag value) acc.rules }
  refine ⟨boxes, basemap, ?_, boxed⟩
  have border := border_carries d origin
    { acc with
      name := d.name
      rules := d.rules.foldl (fun t (tag, value) => t.push tag value) acc.rules
      boxes := acc.boxes ++ List.toArray boxes
      basemap := acc.basemap ++ List.toArray basemap } (by omega)
  rw [Nat.add_assoc, ← List.length_append] at border
  have front := (head.trans forests).trans border
  exact front.then_fillsAt (RoutingSection.blocks_fillsAt d.blockBodies)

/-- A written section is read with box forests whose boxes point at the places of the blocks. -/
lemma decoder_fillsAt_boxed {d : SectionDraft} (storable : d.Storable) {data : ByteArray}
    {origin : ℕ} (held : Holds data origin d.write) (acc : RoutingSection) :
    ∃ boxes basemap border,
      (RoutingSection.decoder acc).FillsAt origin d.write
        { acc with
          name := d.name
          rules := d.rules.foldl (fun t (tag, value) => t.push tag value) acc.rules
          boxes := acc.boxes ++ List.toArray boxes
          basemap := acc.basemap ++ List.toArray basemap
          border } ∧
      d.BoxedAs origin boxes basemap := by
  obtain ⟨boxes, basemap, fills, boxed⟩ := decoder_fillsAt_bordered storable.fits held acc
  exact ⟨boxes, basemap, _, fills, boxed⟩

/-- A written section is read, with box forests that mirror its own. -/
lemma decoder_fillsAt {d : SectionDraft} (storable : d.Storable) {data : ByteArray} {origin : ℕ}
    (held : Holds data origin d.write) (acc : RoutingSection) :
    ∃ boxes basemap border,
      (RoutingSection.decoder acc).FillsAt origin d.write
        { acc with
          name := d.name
          rules := d.rules.foldl (fun t (tag, value) => t.push tag value) acc.rules
          boxes := acc.boxes ++ List.toArray boxes
          basemap := acc.basemap ++ List.toArray basemap
          border } ∧
      BoxDraft.MirrorsAll (BoxDraft.PointsAt d.Places origin) d.boxes boxes ∧
      BoxDraft.MirrorsAll (BoxDraft.PointsAt d.Places origin) d.basemap basemap := by
  obtain ⟨boxes, basemap, border, fills, boxed⟩ := decoder_fillsAt_boxed storable held acc
  exact ⟨boxes, basemap, border, fills, boxed.mirrors, boxed.mirrors_basemap⟩

end SectionDraft

/-! ### The round trip -/

namespace RoutingSection

/-- A section whose bytes in the data are what a draft was written as. -/
structure LaidOut (s : RoutingSection) (d : SectionDraft) (data : ByteArray) : Prop where
  fits : d.Fits
  addressable : data.size < positionBound
  length : s.length = d.write.length
  held : Holds data s.offset d.write
  inside : s.offset + d.write.length ≤ data.size

/-- A section that is laid out from a draft which can be stored. -/
structure WrittenFrom (s : RoutingSection) (d : SectionDraft) (data : ByteArray) : Prop
    extends s.LaidOut d data where
  storable : d.Storable

namespace LaidOut

variable {s : RoutingSection} {d : SectionDraft} {data : ByteArray} {place : ℕ} {area : Area}
  {b : BlockDraft} {box : Box}

lemma cursor_eq_ok (laid : s.LaidOut d data) :
    s.cursor data = .ok ⟨s.offset, s.offset + d.write.length⟩ := by
  rw [cursor, laid.length, Cursor.region_eq_ok_iff.mpr ⟨laid.inside, rfl⟩]

/-- A box that points at a place finds its data block there. -/
lemma blockCursor_eq_ok (laid : s.LaidOut d data)
    (points : box.dataPosition? = some (s.offset + place)) (before : place ≤ d.write.length) :
    s.blockCursor box data = .ok ⟨s.offset + place, s.offset + d.write.length⟩ := by
  have seeks : Cursor.seek ⟨s.offset, s.offset + d.write.length⟩ data (s.offset + place) =
      .ok ⟨s.offset + place, s.offset + d.write.length⟩ := by
    rw [Cursor.seek, if_neg (by simp only; omega)]
  simp only [blockCursor, points, laid.cursor_eq_ok]
  exact seeks

/-- No block is too long to be sized. -/
lemma length_block_lt (laid : s.LaidOut d data) (placed : d.Places place (area, b)) :
    (b.write area.topLeft).length < 2 ^ 32 := by
  obtain ⟨-, -, before⟩ := SectionDraft.holds_block laid.held placed
  have := length_le_sized (b.write area.topLeft)
  have := laid.fits.length_lt
  omega

/-- What fills a block is what a decoder reads in the block of a box that points there. -/
lemma decodeBlock_eq_ok {α : Type} {x : Decoder α} {a : α} (laid : s.LaidOut d data)
    (placed : d.Places place (box.area, b))
    (points : box.dataPosition? = some (s.offset + place))
    (fills : ∀ {p}, x.FillsAt p (b.write box.area.topLeft) a) :
    s.decodeBlock box x data = .ok a := by
  obtain ⟨found, -, before⟩ := SectionDraft.holds_block laid.held placed
  have inside := laid.inside
  have read := fills.sized (laid.length_block_lt placed) data _ laid.addressable inside found
    (by omega)
  rw [decodeBlock, laid.blockCursor_eq_ok points (by omega)]
  exact read.toExcept_eq

end LaidOut

/-- A section is read where it was written, with box forests that mirror its own, whether or not its
data blocks can be loaded. -/
lemma exists_read_laidOut {d : SectionDraft} {entry : SectionEntry} {data : ByteArray} (id : ℕ)
    (fits : d.Fits) (addressable : data.size < positionBound) (kind : entry.kind = .routing)
    (length : entry.length = d.write.length) (held : Holds data entry.offset d.write) :
    ∃ s, read id entry data = .ok s ∧ s.offset = entry.offset ∧ s.LaidOut d data ∧
      d.BoxedAs s.offset s.boxes.toList s.basemap.toList := by
  have inside : entry.offset + d.write.length ≤ data.size := held.le_size d.write_ne_nil
  obtain ⟨boxes, basemap, reads, boxed⟩ := SectionDraft.decoder_fillsAt_bordered fits held
    { id, name := entry.name, offset := entry.offset, length := entry.length }
  have decoded := (reads data addressable inside held).toExcept_eq
  have bounded := inside
  rw [← length] at decoded bounded
  refine ⟨_, SectionEntry.decode_eq_ok_iff.mpr ⟨kind, bounded, decoded⟩, rfl,
    ⟨fits, addressable, length, held, inside⟩, ?_⟩
  simpa using boxed

/-- The data block of a box has the roads that it was written from. -/
def LoadsAs (s : RoutingSection) (data : ByteArray) (b : BlockDraft) (box : Box) : Prop :=
  ∃ roads, s.loadBlock box data = .ok roads ∧
    List.Forall₂ (fun r road => r.StoredAs s.id s.rules road) b.roads roads

/-- A box that points at the place of a block loads the block. -/
lemma loadsAs_of_pointsAt {s : RoutingSection} {d : SectionDraft} {data : ByteArray}
    (storable : d.Storable) (addressable : data.size < positionBound)
    (length : s.length = d.write.length) (held : Holds data s.offset d.write)
    (inside : s.offset + d.write.length ≤ data.size) {b : BlockDraft} {box : Box}
    (given : b.givenIds = none) (h : BoxDraft.PointsAt d.Places s.offset b box) :
    s.LoadsAs data b box := by
  have laid : s.LaidOut d data := ⟨storable.fits, addressable, length, held, inside⟩
  obtain ⟨place, placed, points⟩ := h
  have bounded := laid.length_block_lt placed
  obtain ⟨roads, resolved, stored⟩ :=
    BlockDraft.resolve_block given (BlockDraft.numbered_of_write bounded) s
  refine ⟨roads, ?_, stored⟩
  rw [loadBlock, laid.decodeBlock_eq_ok placed points (Block.decoder_fillsAt bounded)]
  simp only [bind, Except.bind, resolved, RoutingSection.decode]

/-- A written section is read back: its name, its rules in order and box forests of the same shape,
and the data block of every box has the roads that the box was written from. -/
theorem read_write {d : SectionDraft} {entry : SectionEntry} {data : ByteArray} (id : ℕ)
    (storable : d.Storable) (addressable : data.size < positionBound)
    (kind : entry.kind = .routing) (length : entry.length = d.write.length)
    (held : Holds data entry.offset d.write) :
    ∃ s, read id entry data = .ok s ∧ s.id = id ∧ s.name = d.name ∧
      s.rules = RuleTable.ofPairs d.rules ∧
      BoxDraft.MirrorsAll (s.LoadsAs data) d.boxes s.boxes.toList ∧
      BoxDraft.MirrorsAll (s.LoadsAs data) d.basemap s.basemap.toList := by
  have inside : entry.offset + d.write.length ≤ data.size := held.le_size (by
    have := tag_length_pos Format.Section.name .lengthDelimited
    intro none
    have empty := congrArg List.length none
    rw [SectionDraft.write, SectionDraft.writeFront, SectionDraft.writeHead] at empty
    simp only [List.length_append, Wire.stringField, Wire.bytesField, List.length_nil] at empty
    omega)
  obtain ⟨boxes, basemap, border, reads, mirrors, mirrors'⟩ :=
    SectionDraft.decoder_fillsAt storable held
      { id, name := entry.name, offset := entry.offset, length := d.write.length }
  let s : RoutingSection :=
    { id, name := d.name, offset := entry.offset, length := d.write.length
      rules := RuleTable.ofPairs d.rules
      boxes := #[] ++ boxes.toArray
      basemap := #[] ++ basemap.toArray
      border }
  have loads : ∀ e ∈ d.blocks, ∀ box, BoxDraft.PointsAt d.Places entry.offset e.2 box →
      s.LoadsAs data e.2 box := fun e he box points =>
    loadsAs_of_pointsAt storable addressable rfl held inside (storable.ids e he) points
  refine ⟨s, ?_, rfl, rfl, rfl, ?_, ?_⟩
  · have decoded := (reads data addressable inside held).toExcept_eq
    rw [read, length]
    refine SectionEntry.decode_eq_ok_iff.mpr ⟨kind, ?_, ?_⟩
    · rwa [SectionEntry.stop, length]
    · rwa [SectionEntry.stop, length]
  · have same : s.boxes.toList = boxes := by simp [s]
    rw [same]
    exact mirrors.imp fun e he => loads e (List.mem_append_left _ he)
  · have same : s.basemap.toList = basemap := by simp [s]
    rw [same]
    exact mirrors'.imp fun e he => loads e (List.mem_append_right _ he)

/-- A section with a box in a box, and a road in the inner one. -/
def nestedSample : SectionDraft where
  name := "Ω"
  rules := [("highway", "primary"), ("oneway", "True")]
  boxes := [{
    area := ⟨0, 0, 4096, 4096⟩
    children := [{
      area := ⟨32, 64, 1024, 2048⟩
      block := some { roads := [{
        id := -7
        points := [⟨33, 65⟩, ⟨1000, 70⟩]
        types := [0]
        names := [(1, "a"), (1, "b")]
        restrictions := [(9, .noLeftTurn), (-7, .other 3)] }] } }] }]

/-- The section behind a first byte of other data. -/
theorem read_write_nestedSample :
    ∃ s, read 4 ⟨.routing, "", 1, nestedSample.write.length⟩ (0 :: nestedSample.write).toByteArray =
        .ok s ∧ s.id = 4 ∧ s.name = "Ω" ∧ s.rules = RuleTable.ofPairs nestedSample.rules ∧
      BoxDraft.MirrorsAll (s.LoadsAs (0 :: nestedSample.write).toByteArray) nestedSample.boxes
        s.boxes.toList ∧
      BoxDraft.MirrorsAll (s.LoadsAs (0 :: nestedSample.write).toByteArray) []
        s.basemap.toList := by
  have storable : nestedSample.Storable :=
    { boxes := ⟨⟨⟨by decide, by decide, by decide, by decide⟩,
        ⟨⟨by decide, by decide, by decide, by decide⟩, trivial⟩, trivial⟩, trivial⟩
      basemap := trivial
      ids := by simp [SectionDraft.blocks, nestedSample, BoxDraft.blocksAll, BoxDraft.blocks]
      length_lt := by decide +kernel }
  have addressable : (0 :: nestedSample.write).toByteArray.size < positionBound := by
    have := storable.length_lt
    rw [List.size_toByteArray, List.length_cons, positionBound]
    omega
  have held : Holds (0 :: nestedSample.write).toByteArray 1 nestedSample.write := by
    have h := holds_toByteArray [0] nestedSample.write []
    rwa [List.append_nil] at h
  exact read_write 4 storable addressable rfl rfl held

end RoutingSection

end RoadAtlas
