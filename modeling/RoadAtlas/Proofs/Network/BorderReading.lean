import RoadAtlas.Proofs.Network.Access
import RoadAtlas.Proofs.Network.Offsets

/-!
Border points read back. The headers of a section's border lines are written first and say how far
away the points of each line are; the points of a line are written as differences, each from the one
before it, the first from a base that is the point itself.

* `BorderLineDraft.header_readsAt`, `BorderLineDraft.writeHeaders_carries`: the headers are read with
  the places that they were told;
* `BorderTrail.advance_record`: a stored point is added to the sums that its predecessor left;
* `BorderLineDraft.writePoints_readsAt`: the points of a line are read in order;
* `forall₂_placesFrom`, `pairwise_placesFrom`: the points of the lines lie at their places, which
  increase, so sorting the lines by place leaves their order;
* `RoutingSection.readBorder_write`: a section that is read back gives the points of its lines.
-/

namespace RoadAtlas

open Decoder

/-! ### Headers -/

/-- Reads the headers of a border box behind those there are. -/
def BorderLine.upToPoints (lines : Array BorderLine) : Decoder (Array BorderLine × Tag) :=
  fieldsUntil (fun t => t.field == Format.Border.block) lines boxStep

namespace BorderLineDraft

variable (line : BorderLineDraft)

/-- The header that a line is read as, given where its points lie. -/
def header (line : BorderLineDraft) (place : ℕ) : BorderLine :=
  ⟨line.x, line.y, line.toX, line.toY, place⟩

/-- How far away the points of a line are does not change how long its header is. -/
lemma length_writeHeader (shift shift' : ℕ) :
    (line.writeHeader shift).length = (line.writeHeader shift').length := by
  simp only [writeHeader, Wire.sized, List.length_append, Wire.length_be32]

/-- A coordinate that may be left out is read if it is there. -/
lemma optional_carries {start q : ℕ} {acc : BorderLine} (number : ℕ)
    (valid : FieldNumber number) (value : Option UInt32) (put : Option UInt32 → BorderLine)
    (absent : put none = acc)
    (present : ∀ n, (BorderLine.step start ⟨number, WireType.varint.code⟩ acc).ReadsAt
      (q + (Wire.tag number .varint).length) (Wire.varint32 n) (put (some n))) :
    Carries (fields · (BorderLine.step start)) q acc
      (match value with
        | some n => Wire.varint32Field number n
        | none => []) (put value) := by
  cases value with
  | none =>
    rw [absent]
    exact Carries.nil acc
  | some n => exact Carries.field valid (present n)

/-- A header is read with the place of its points, which it tells by the distance from itself. -/
lemma header_readsAt (p place : ℕ) (small : (line.writeHeader (place - p)).length < 2 ^ 32)
    (behind : p ≤ place) (near : place < 2 ^ 32 + p) :
    BorderLine.decoder.ReadsAt p (line.writeHeader (place - p)) (line.header place) := by
  refine ReadsAt.position_bind
    (FillsAt.sized (Carries.fields_fillsAt ?_) ((length_le_sized _).trans_lt small))
  have x {q : ℕ} : Carries (fields · (BorderLine.step p)) q {}
      (Wire.varint32Field Format.BorderLine.x line.x) { x := line.x } :=
    Carries.field (by decide) (varint32_readsAt line.x).bind_pure
  have y {q : ℕ} : Carries (fields · (BorderLine.step p)) q { x := line.x }
      (Wire.varint32Field Format.BorderLine.y line.y) { x := line.x, y := line.y } :=
    Carries.field (by decide) (varint32_readsAt line.y).bind_pure
  have toX {q : ℕ} : Carries (fields · (BorderLine.step p)) q { x := line.x, y := line.y } _
      { x := line.x, y := line.y, toX := line.toX } :=
    optional_carries Format.BorderLine.toX (by decide) line.toX
      (fun toX => { x := line.x, y := line.y, toX }) rfl
      fun n => (varint32_readsAt n).bind_pure
  have toY {q : ℕ} : Carries (fields · (BorderLine.step p)) q
      { x := line.x, y := line.y, toX := line.toX } _ (line.header 0) :=
    optional_carries Format.BorderLine.toY (by decide) line.toY
      (fun toY => { x := line.x, y := line.y, toX := line.toX, toY }) rfl
      fun n => (varint32_readsAt n).bind_pure
  have distance {q : ℕ} : Carries (fields · (BorderLine.step p)) q (line.header 0)
      (Wire.tag Format.BorderLine.shift .fixed32 ++ Wire.be32 (UInt32.ofNat (place - p)))
      (line.header place) := by
    have word : p + (UInt32.ofNat (place - p)).toNat = place := by
      rw [UInt32.toNat_ofNat_of_lt' (show place - p < 2 ^ 32 by omega)]
      omega
    have read : (BorderLine.step p ⟨Format.BorderLine.shift, WireType.fixed32.code⟩
        (line.header 0)).ReadsAt (q + (Wire.tag Format.BorderLine.shift .fixed32).length)
        (Wire.be32 (UInt32.ofNat (place - p)))
        { line.header 0 with pointsOffset := p + (UInt32.ofNat (place - p)).toNat } :=
      (be32_readsAt _).bind_pure
    rw [word] at read
    exact Carries.field (by decide) read
  rw [List.append_assoc _ (Wire.tag Format.BorderLine.shift .fixed32)]
  exact (((x.trans y).trans toX).trans toY).trans distance

/-- The headers of some lines are as long wherever the points are. -/
lemma length_writeHeaders (lines : List BorderLineDraft) : ∀ (start start' : ℕ)
    (places places' : List ℕ),
    (writeHeaders start places lines).length = (writeHeaders start' places' lines).length := by
  induction lines with
  | nil =>
    intro _ _ _ _
    rfl
  | cons line rest ih =>
    intro start start' places places'
    simp only [writeHeaders, List.length_append]
    rw [line.length_writeHeader _ 0, line.length_writeHeader (places'.headD 0 - _) 0,
      ih _ _ places.tail places'.tail]

/-- Headers are read one after another, each with the place that it was told. -/
lemma writeHeaders_carries {origin : ℕ} : ∀ {lines : List BorderLineDraft} {places : List ℕ}
    {start : ℕ} {acc : Array BorderLine}, places.length = lines.length →
    (∀ place ∈ places, start + (writeHeaders start places lines).length ≤ place ∧
      place < 2 ^ 32) →
    Carries BorderLine.upToPoints (origin + start) acc (writeHeaders start places lines)
      (acc ++ (List.zipWith header lines (places.map (origin + ·))).toArray)
  | [], places, start, acc, _, _ => by
    rw [writeHeaders, List.zipWith_nil_left, Array.append_empty]
    exact Carries.nil acc
  | line :: rest, [], _, _, same, _ => by cases same
  | line :: rest, place :: later, start, acc, same, bounds => by
    let tag := Wire.tag Format.Border.line .lengthDelimited
    let own := tag ++ line.writeHeader (place - (start + tag.length))
    have written : writeHeaders start (place :: later) (line :: rest) =
        own ++ writeHeaders (start + own.length) later rest := by
      simp only [own, List.length_append, ← Nat.add_assoc]
      rfl
    have ownLength : own.length =
        tag.length + (line.writeHeader (place - (start + tag.length))).length :=
      List.length_append
    rw [written] at bounds ⊢
    rw [List.length_append] at bounds
    obtain ⟨ahead, small⟩ := bounds place (by simp)
    -- the distance counts from behind the tag, in the data as in the border box
    have header := line.header_readsAt (origin + start + tag.length) (origin + place)
    have shift : origin + place - (origin + start + tag.length) = place - (start + tag.length) := by
      omega
    rw [shift] at header
    have first : Carries BorderLine.upToPoints (origin + start) acc own
        (acc.push (line.header (origin + place))) :=
      Carries.fieldUntil (by decide) rfl (header (by omega) (by omega) (by omega)).bind_pure
    have more : Carries BorderLine.upToPoints (origin + (start + own.length))
        (acc.push (line.header (origin + place)))
        (writeHeaders (start + own.length) later rest) _ :=
      writeHeaders_carries (Nat.succ.inj same) fun place listed => by
        obtain ⟨ahead, small⟩ := bounds place (by simp [listed])
        exact ⟨by omega, small⟩
    rw [← Nat.add_assoc] at more
    have both := first.trans more
    rwa [List.push_append_toArray] at both

end BorderLineDraft

/-! ### Points -/

/-- Both coordinates lie on the grid. -/
structure Point.OnGrid (p : Point) : Prop where
  x : p.x.toNat < 2 ^ 31
  y : p.y.toNat < 2 ^ 31

namespace BorderPointDraft

/-- The point that a draft is read as, in a section under some number. -/
def point (sectionId : ℕ) (p : BorderPointDraft) : BorderPoint :=
  ⟨sectionId, p.roadId, p.location, p.direction, p.types.toArray⟩

/-- What a point is stored as, relative to a base. -/
def record (base : Point × Int64) (p : BorderPointDraft) : BorderRecord where
  dx := coordinateDelta p.location.x base.1.x
  dy := coordinateDelta p.location.y base.1.y
  idDelta := p.roadId - base.2
  direction := p.direction
  types := p.types.toArray

/-- The bytes of a stored point. -/
def writeRecord (base : Point × Int64) (p : BorderPointDraft) : List UInt8 :=
  Wire.sint32Field Format.BorderPoint.dx (coordinateDelta p.location.x base.1.x) ++
    Wire.sint32Field Format.BorderPoint.dy (coordinateDelta p.location.y base.1.y) ++
    Wire.varintField Format.BorderPoint.idDelta (p.roadId - base.2).toUInt64 ++
    Wire.boolField Format.BorderPoint.direction p.direction ++
    Wire.packedField Format.BorderPoint.types p.types

lemma record_readsAt {q : ℕ} (base : Point × Int64) (p : BorderPointDraft)
    (small : (p.writeRecord base).length < 2 ^ 32) :
    BorderRecord.decoder.ReadsAt q (Wire.sized (p.writeRecord base)) (p.record base) := by
  refine FillsAt.sized (Carries.fields_fillsAt ?_) small
  rw [writeRecord, List.length_append] at small
  have dx {q : ℕ} : Carries (fields · BorderRecord.step) q {}
      (Wire.sint32Field Format.BorderPoint.dx (coordinateDelta p.location.x base.1.x))
      { dx := (p.record base).dx } :=
    Carries.field (by decide) (sint32_readsAt _).bind_pure
  have dy {q : ℕ} : Carries (fields · BorderRecord.step) q { dx := (p.record base).dx }
      (Wire.sint32Field Format.BorderPoint.dy (coordinateDelta p.location.y base.1.y))
      { dx := (p.record base).dx, dy := (p.record base).dy } :=
    Carries.field (by decide) (sint32_readsAt _).bind_pure
  have idDelta {q : ℕ} : Carries (fields · BorderRecord.step) q
      { dx := (p.record base).dx, dy := (p.record base).dy }
      (Wire.varintField Format.BorderPoint.idDelta (p.roadId - base.2).toUInt64)
      { dx := (p.record base).dx, dy := (p.record base).dy, idDelta := p.roadId - base.2 } :=
    -- a signed difference and its unsigned form are the same word
    Carries.field (by decide) (varint_readsAt _).bind_pure
  have direction {q : ℕ} : Carries (fields · BorderRecord.step) q
      { dx := (p.record base).dx, dy := (p.record base).dy, idDelta := p.roadId - base.2 }
      (Wire.boolField Format.BorderPoint.direction p.direction)
      { p.record base with types := #[] } :=
    Carries.field (by decide) (bool_readsAt p.direction).bind_pure
  have types {q : ℕ} : Carries (fields · BorderRecord.step) q { p.record base with types := #[] }
      (Wire.packedField Format.BorderPoint.types p.types) (p.record base) :=
    Carries.bytesField (by decide) (show (Wire.packedField _ _).length < _ by omega)
      fun small => (packed_readsAt small).bind_pure
  exact (((dx.trans dy).trans idDelta).trans direction).trans types

end BorderPointDraft

namespace BorderTrail

/-- The sums at a base, behind some points. -/
def standing (base : Point × Int64) (points : Array BorderPoint) : BorderTrail :=
  ⟨base.1.x.toNat, base.1.y.toNat, base.2, points⟩

/-- A stored point is found where it was, and the sums go on from there. -/
lemma advance_record (sectionId : ℕ) {base : Point × Int64} (p : BorderPointDraft)
    (known : Array BorderPoint) (baseOnGrid : base.1.OnGrid) (onGrid : p.location.OnGrid) :
    (standing base known).advance sectionId none (p.record base) =
      .ok (standing (p.location, p.roadId) (known.push (p.point sectionId))) := by
  have x : (base.1.x.toNat : Int) + (p.record base).dx.toInt = p.location.x.toNat := by
    rw [BorderPointDraft.record, coordinateDelta_toInt onGrid.x baseOnGrid.x]
    omega
  have y : (base.1.y.toNat : Int) + (p.record base).dy.toInt = p.location.y.toNat := by
    rw [BorderPointDraft.record, coordinateDelta_toInt onGrid.y baseOnGrid.y]
    omega
  have roadId : base.2 + (p.record base).idDelta = p.roadId := by
    rw [BorderPointDraft.record]
    grind
  simp only [advance, standing, x, y, roadId, coordinate, toCoordinate?_toNat]
  rfl

end BorderTrail

namespace BorderLineDraft

variable (line : BorderLineDraft)

/-- Points are read behind those there are, each from the sums at the one before it. -/
lemma writePointsFrom_carries (sectionId : ℕ) : ∀ {points : List BorderPointDraft}
    (base : Point × Int64) (known : Array BorderPoint),
    (writePointsFrom base points).length < 2 ^ 32 → (points ≠ [] → base.1.OnGrid) →
    (∀ p ∈ points, p.location.OnGrid) → ∃ last, ∀ q,
      Carries (fields · (BorderTrail.step sectionId none)) q (BorderTrail.standing base known)
        (writePointsFrom base points)
        (BorderTrail.standing last
          (known ++ (points.map (BorderPointDraft.point sectionId)).toArray))
  | [], base, known, _, _, _ => by
    refine ⟨base, fun q => ?_⟩
    rw [List.map_nil, Array.append_empty]
    exact Carries.nil _
  | p :: rest, base, known, small, baseOnGrid, onGrid => by
    have written : writePointsFrom base (p :: rest) =
        Wire.messageField Format.BorderBlock.point (p.writeRecord base) ++
          writePointsFrom (p.location, p.roadId) rest := rfl
    rw [List.forall_mem_cons] at onGrid
    obtain ⟨here, later⟩ := onGrid
    rw [written, List.length_append] at small
    have first (q : ℕ) : Carries (fields · (BorderTrail.step sectionId none)) q
        (BorderTrail.standing base known)
        (Wire.messageField Format.BorderBlock.point (p.writeRecord base))
        (BorderTrail.standing (p.location, p.roadId) (known.push (p.point sectionId))) := by
      refine Carries.bytesField (by decide) (show (Wire.messageField _ _).length < _ by omega)
        fun small => (p.record_readsAt base small).bind_nil (ofExcept_readsAt ?_)
      exact BorderTrail.advance_record sectionId p known (baseOnGrid (by simp)) here
    obtain ⟨last, more⟩ := writePointsFrom_carries sectionId (p.location, p.roadId)
      (known.push (p.point sectionId)) (by omega) (fun _ => here) later
    refine ⟨last, fun q => ?_⟩
    have both := (first q).trans (more _)
    rwa [List.push_append_toArray] at both

/-- The base of a line with points is the first of them. -/
lemma base_onGrid (onGrid : ∀ p ∈ line.points, p.location.OnGrid) (some : line.points ≠ []) :
    line.base.1.OnGrid := by
  rw [base]
  cases points : line.points with
  | nil => exact absurd points some
  | cons first rest => exact onGrid first (by simp [points])

/-- The points of a line are read in order. -/
lemma writePoints_readsAt (sectionId : ℕ) {q : ℕ} (small : line.writePoints.length < 2 ^ 32)
    (onGrid : ∀ p ∈ line.points, p.location.OnGrid) :
    (BorderTrail.decoder sectionId none).ReadsAt q line.writePoints
      (line.points.map (BorderPointDraft.point sectionId)).toArray := by
  have bounded := (length_le_sized _).trans_lt small
  simp only [List.length_append] at bounded
  have x {q : ℕ} : Carries (fields · (BorderTrail.step sectionId none)) q {}
      (Wire.varint32Field Format.BorderBlock.x line.base.1.x) { x := line.base.1.x.toNat } :=
    Carries.field (by decide) (varint32_readsAt _).bind_pure
  have y {q : ℕ} : Carries (fields · (BorderTrail.step sectionId none)) q
      { x := line.base.1.x.toNat } (Wire.varint32Field Format.BorderBlock.y line.base.1.y)
      { x := line.base.1.x.toNat, y := line.base.1.y.toNat } :=
    Carries.field (by decide) (varint32_readsAt _).bind_pure
  have baseId {q : ℕ} : Carries (fields · (BorderTrail.step sectionId none)) q
      { x := line.base.1.x.toNat, y := line.base.1.y.toNat }
      (Wire.varintField Format.BorderBlock.baseId line.base.2.toUInt64)
      (BorderTrail.standing line.base #[]) :=
    Carries.field (by decide) (varint_readsAt _).bind_pure
  obtain ⟨last, points⟩ := writePointsFrom_carries sectionId line.base #[] (by omega)
    (line.base_onGrid onGrid) onGrid
  simp only [Array.empty_append] at points
  have read {q : ℕ} := (((x.trans y).trans baseId).trans (points _)).fields_fillsAt (p := q)
  exact (read.sized ((length_le_sized _).trans_lt small)).map BorderTrail.points

end BorderLineDraft

/-! ### Places -/

lemma length_placesFrom : ∀ (stretches : List (List UInt8)) (start : ℕ),
    (placesFrom start stretches).length = stretches.length
  | [], _ => rfl
  | stretch :: rest, start => by
    rw [placesFrom, List.length_cons, List.length_cons, length_placesFrom rest]

/-- No place is before the start or behind the end. -/
lemma mem_placesFrom {place : ℕ} : ∀ {stretches : List (List UInt8)} {start : ℕ},
    place ∈ placesFrom start stretches →
      start ≤ place ∧ place ≤ start + stretches.flatten.length
  | [], _, h => by simp [placesFrom] at h
  | stretch :: rest, start, h => by
    rw [placesFrom, List.mem_cons] at h
    rw [List.flatten_cons, List.length_append]
    rcases h with rfl | later
    · omega
    · obtain ⟨after, before⟩ := mem_placesFrom later
      omega

/-- Places increase. -/
lemma pairwise_placesFrom : ∀ (stretches : List (List UInt8)) (start : ℕ),
    (placesFrom start stretches).Pairwise (· ≤ ·)
  | [], _ => .nil
  | stretch :: rest, start => by
    rw [placesFrom, List.pairwise_cons]
    refine ⟨fun place later => ?_, pairwise_placesFrom rest _⟩
    have := (mem_placesFrom later).1
    omega

/-- Stretches that follow each other lie at their places. -/
lemma forall₂_placesFrom {data : ByteArray} {origin : ℕ} :
    ∀ {stretches : List (List UInt8)} {start : ℕ},
      Holds data (origin + start) stretches.flatten →
      List.Forall₂ (fun place stretch => Holds data (origin + place) stretch ∧
        place + stretch.length ≤ start + stretches.flatten.length)
        (placesFrom start stretches) stretches
  | [], _, _ => .nil
  | stretch :: rest, start, held => by
    rw [List.flatten_cons] at held
    rw [placesFrom, List.flatten_cons, List.length_append]
    have behind := held.right
    rw [Nat.add_assoc] at behind
    refine .cons ⟨held.left, by omega⟩ ((forall₂_placesFrom behind).imp ?_)
    rintro place stretch ⟨found, before⟩
    exact ⟨found, by omega⟩

/-- Where the points of some lines lie in their border box. -/
def borderPlaces (lines : List BorderLineDraft) : List ℕ :=
  placesFrom ((BorderLineDraft.writeHeaders 0 [] lines).length +
    (Wire.tag Format.Border.block .lengthDelimited).length)
    (lines.map BorderLineDraft.writePoints)

lemma writeBorder_eq (lines : List BorderLineDraft) :
    writeBorder lines = BorderLineDraft.writeHeaders 0 (borderPlaces lines) lines ++
      Wire.tag Format.Border.block .lengthDelimited ++
        (lines.map BorderLineDraft.writePoints).flatten := rfl

lemma length_borderPlaces (lines : List BorderLineDraft) :
    (borderPlaces lines).length = lines.length := by
  rw [borderPlaces, length_placesFrom, List.length_map]

namespace BorderLine

variable {data : ByteArray} {origin limit : ℕ} {lines : List BorderLineDraft}

/-- The headers of a written border box are read up to the points. -/
lemma readAll_ends (addressable : data.size < positionBound) (below : limit ≤ data.size)
    (held : Holds data origin (writeBorder lines))
    (inside : origin + (writeBorder lines).length ≤ limit)
    (small : (writeBorder lines).length < 2 ^ 32) :
    ∃ next, ((within (writeBorder lines).length readAll).run data ⟨origin, limit⟩).Ends
      (List.zipWith BorderLineDraft.header lines
        ((borderPlaces lines).map (origin + ·))).toArray next := by
  have length := congrArg List.length (writeBorder_eq lines)
  rw [List.length_append, List.length_append] at length
  have bounds : ∀ place ∈ borderPlaces lines,
      0 + (BorderLineDraft.writeHeaders 0 (borderPlaces lines) lines).length ≤ place ∧
        place < 2 ^ 32 := by
    intro place listed
    obtain ⟨after, before⟩ := mem_placesFrom listed
    rw [BorderLineDraft.length_writeHeaders lines 0 0 [] (borderPlaces lines)] at after before
    omega
  have headers : Carries upToPoints (origin + 0) #[] _ _ :=
    BorderLineDraft.writeHeaders_carries (length_borderPlaces lines) bounds
  rw [Array.empty_append, Nat.add_zero] at headers
  rw [writeBorder_eq] at held
  have ending : tag.ReadsAt
      (origin + (BorderLineDraft.writeHeaders 0 (borderPlaces lines) lines).length)
      (Wire.tag Format.Border.block .lengthDelimited)
      ⟨Format.Border.block, WireType.lengthDelimited.code⟩ := tag_readsAt _ (by decide)
  have last := ending data (origin + (writeBorder lines).length) addressable (by omega)
    held.left.right (by omega)
  have read := (headers data _ addressable (by omega) held.left.left (by omega) _ _).mpr
    (fieldsUntil_ends_of_stop last (by decide))
  exact ⟨_, ends_within read.map inside⟩

end BorderLine

/-! ### The round trip -/

/-- The border box of a section lies where the section says. -/
lemma SectionDraft.holds_border {d : SectionDraft} {data : ByteArray} {origin : ℕ}
    (some : d.border.isEmpty = false) (held : Holds data origin d.write) :
    Holds data (d.borderPlace origin).offset (writeBorder d.border) ∧
      (d.borderPlace origin).offset + (writeBorder d.border).length ≤ origin + d.write.length := by
  have field : d.writeBorderField =
      Wire.blockHeader Format.Section.border (writeBorder d.border).length ++
        writeBorder d.border := by
    rw [writeBorderField, RoadDraft.unlessEmpty, some]
    rfl
  rw [write, writeFront, field] at held ⊢
  have found := held.left.right.right
  rw [List.length_append, ← Nat.add_assoc] at found
  refine ⟨found, ?_⟩
  simp only [borderPlace, List.length_append]
  omega

namespace RoutingSection

variable {s : RoutingSection} {d : SectionDraft} {data : ByteArray}

/-- What ends in a value inside the section is its answer. -/
lemma evalAt_eq_ok {α : Type} {x : Decoder α} {a : α} {position limit : ℕ} {next : Cursor}
    (whole : s.cursor data = .ok ⟨s.offset, limit⟩) (inside : position ≤ limit)
    (ends : (x.run data ⟨position, limit⟩).Ends a next) : s.evalAt x position data = .ok a := by
  have seeks : Cursor.seek ⟨s.offset, limit⟩ data position = .ok ⟨position, limit⟩ :=
    if_neg (Nat.not_lt.mpr inside)
  rw [evalAt, whole]
  simp only [bind, Except.bind, seeks]
  exact ends.toExcept_eq

lemma map_pointsOffset_headers : ∀ {lines : List BorderLineDraft} {places : List ℕ},
    places.length = lines.length →
      (List.zipWith BorderLineDraft.header lines places).map BorderLine.pointsOffset = places
  | [], places, same => (List.length_eq_zero_iff.mp same).symm
  | line :: rest, [], same => by cases same
  | line :: rest, place :: later, same => by
    rw [List.zipWith_cons_cons, List.map_cons, map_pointsOffset_headers (Nat.succ.inj same)]
    rfl

/-- The headers of a border box lead to the places of its points, in their order. -/
lemma borderOffsets_headers (lines : List BorderLineDraft) (origin : ℕ) :
    borderOffsets (List.zipWith BorderLineDraft.header lines
      ((borderPlaces lines).map (origin + ·))) none = (borderPlaces lines).map (origin + ·) := by
  have increasing : ((borderPlaces lines).map (origin + ·)).Pairwise (· ≤ ·) :=
    (pairwise_placesFrom _ _).map _ fun _ _ before => Nat.add_le_add_left before origin
  simp only [borderOffsets, Option.all_none, List.filter_true]
  rw [map_pointsOffset_headers (by rw [List.length_map, length_borderPlaces])]
  exact List.mergeSort_of_pairwise (by simpa using increasing)

/-- The points of every line are read at its place. -/
lemma forall₂_borderPlaces {origin : ℕ}
    (whole : s.cursor data = .ok ⟨s.offset, s.offset + d.write.length⟩)
    (addressable : data.size < positionBound) (below : s.offset + d.write.length ≤ data.size)
    (held : Holds data origin (writeBorder d.border))
    (inside : origin + (writeBorder d.border).length ≤ s.offset + d.write.length)
    (small : (writeBorder d.border).length < 2 ^ 32)
    (onGrid : ∀ line ∈ d.border, ∀ p ∈ line.points, p.location.OnGrid) :
    List.Forall₂ (fun position points => s.evalAt (BorderTrail.decoder s.id none) position data =
        .ok points)
      ((borderPlaces d.border).map (origin + ·))
      (d.border.map fun line => (line.points.map (BorderPointDraft.point s.id)).toArray) := by
  have length := congrArg List.length (writeBorder_eq d.border)
  rw [List.length_append, List.length_append,
    BorderLineDraft.length_writeHeaders d.border 0 0 (borderPlaces d.border) []] at length
  rw [writeBorder_eq, List.append_assoc] at held
  have found := held.right.right
  rw [Nat.add_assoc, BorderLineDraft.length_writeHeaders d.border 0 0 (borderPlaces d.border) []]
    at found
  have placed := forall₂_placesFrom found
  rw [← borderPlaces, List.forall₂_map_right_iff] at placed
  rw [List.forall₂_map_left_iff, List.forall₂_map_right_iff]
  refine ((List.forall₂_and_left _ _).mpr ⟨onGrid, placed.flip⟩).flip.imp ?_
  rintro place line ⟨lineOnGrid, here, before⟩
  have within : origin + place + line.writePoints.length ≤ s.offset + d.write.length := by
    omega
  exact evalAt_eq_ok whole (by omega)
    (line.writePoints_readsAt s.id (by omega) lineOnGrid data _ addressable below here within)

/-- The points of the border lines are found in a section that knows where its border box lies. -/
lemma readBorder_eq_ok (whole : s.cursor data = .ok ⟨s.offset, s.offset + d.write.length⟩)
    (addressable : data.size < positionBound) (below : s.offset + d.write.length ≤ data.size)
    (held : Holds data s.offset d.write) (small : d.write.length < 2 ^ 32)
    (border : s.border = if d.border.isEmpty then none else some (d.borderPlace s.offset))
    (onGrid : ∀ line ∈ d.border, ∀ p ∈ line.points, p.location.OnGrid) :
    s.readBorder none data =
      .ok (d.border.flatMap fun line => line.points.map (BorderPointDraft.point s.id)) := by
  rw [readBorder_eq_evalAt, border]
  cases lines : d.border.isEmpty with
  | true =>
    rw [List.isEmpty_iff.mp lines]
    rfl
  | false =>
    obtain ⟨found, before⟩ := SectionDraft.holds_border lines held
    have behind : s.offset ≤ (d.borderPlace s.offset).offset := by
      simp only [SectionDraft.borderPlace]
      omega
    have short : (writeBorder d.border).length < 2 ^ 32 := by omega
    obtain ⟨next, ends⟩ := BorderLine.readAll_ends addressable below found before short
    have headers : s.evalAt (within (d.borderPlace s.offset).length BorderLine.readAll)
        (d.borderPlace s.offset).offset data = .ok _ := evalAt_eq_ok whole (by omega) ends
    have points := mapM_of_forall₂
      (forall₂_borderPlaces whole addressable below found before short onGrid)
    simp only [Bool.false_eq_true, ↓reduceIte, headers, bind, Except.bind, borderOffsets_headers,
      points, pure, Except.pure, RoutingSection.decode]
    rw [List.map_map, List.flatMap]
    rfl

/-- A written section is read back such that the points of its border lines are found: those of all
lines, line by line and in order, each as it was. -/
theorem readBorder_write {entry : SectionEntry} (id : ℕ) (fits : d.Fits)
    (addressable : data.size < positionBound) (kind : entry.kind = .routing)
    (length : entry.length = d.write.length) (held : Holds data entry.offset d.write)
    (onGrid : ∀ line ∈ d.border, ∀ p ∈ line.points, p.location.OnGrid) :
    ∃ s, read id entry data = .ok s ∧ s.readBorder none data =
      .ok (d.border.flatMap fun line => line.points.map (BorderPointDraft.point id)) := by
  have inside : entry.offset + d.write.length ≤ data.size := held.le_size d.write_ne_nil
  obtain ⟨boxes, basemap, reads, -⟩ := SectionDraft.decoder_fillsAt_bordered fits held
    { id, name := entry.name, offset := entry.offset, length := entry.length }
  have decoded := (reads data addressable inside held).toExcept_eq
  rw [← length] at decoded
  have bounded : entry.stop ≤ data.size := by rwa [SectionEntry.stop, length]
  refine ⟨_, SectionEntry.decode_eq_ok_iff.mpr ⟨kind, bounded, decoded⟩, ?_⟩
  refine readBorder_eq_ok ?_ addressable inside held fits.length_lt rfl onGrid
  rw [cursor, length, Cursor.region_eq_ok_iff.mpr ⟨inside, rfl⟩]

/-- A section with three border lines: one from left to right, whose points have ids that are
further apart than an id can say, one without points, and one from right to left. -/
def threeLines : SectionDraft where
  name := "b"
  border := [
    { x := 100, y := 50, toX := some 200, toY := some 50
      points := [
        { roadId := -9223372036854775808, location := ⟨110, 50⟩, direction := true,
          types := [2, 1] },
        { roadId := 9223372036854775807, location := ⟨105, 50⟩, direction := false }] },
    { x := 7, y := 8 },
    { x := 2147483647, y := 0, toX := some 10
      points := [{ roadId := 3, location := ⟨2147483647, 0⟩, direction := true }] }]

/-- The section behind a first byte of other data. -/
def threeLinesData : ByteArray := (0 :: threeLines.write).toByteArray

lemma threeLines_fits : threeLines.Fits := ⟨trivial, trivial, by decide +kernel⟩

lemma threeLinesData_held : Holds threeLinesData 1 threeLines.write :=
  holds_append [0] threeLines.write

lemma size_threeLinesData : threeLinesData.size = threeLines.write.length + 1 := by
  rw [threeLinesData, List.size_toByteArray, List.length_cons]

lemma threeLinesData_addressable : threeLinesData.size < positionBound := by
  have := threeLines_fits.length_lt
  rw [size_threeLinesData, positionBound]
  omega

lemma threeLines_onGrid : ∀ line ∈ threeLines.border, ∀ p ∈ line.points, p.location.OnGrid := by
  have bounds : ∀ line ∈ threeLines.border, ∀ p ∈ line.points,
      p.location.x.toNat < 2 ^ 31 ∧ p.location.y.toNat < 2 ^ 31 := by decide
  intro line listed p onLine
  exact ⟨(bounds line listed p onLine).1, (bounds line listed p onLine).2⟩

theorem readBorder_write_threeLines :
    ∃ s, read 4 ⟨.routing, "", 1, threeLines.write.length⟩ threeLinesData = .ok s ∧
      s.readBorder none threeLinesData =
        .ok [⟨4, -9223372036854775808, ⟨110, 50⟩, true, #[2, 1]⟩,
          ⟨4, 9223372036854775807, ⟨105, 50⟩, false, #[]⟩,
          ⟨4, 3, ⟨2147483647, 0⟩, true, #[]⟩] :=
  readBorder_write 4 threeLines_fits threeLinesData_addressable rfl rfl threeLinesData_held
    threeLines_onGrid

end RoutingSection

end RoadAtlas
