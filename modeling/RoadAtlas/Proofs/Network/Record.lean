import RoadAtlas.Network.Block
import RoadAtlas.Proofs.Network.Box
import RoadAtlas.Proofs.SortedMap

/-!
Road records read back. A record is written in a box that starts at some corner, under a number,
with strings given by their place in a table.

* `points_field_carries`, `types_field_carries`, …: the fields of a record, one by one;
* `RoadRecord.decoder_readsAt`: a written record is read as the record of its road.
-/

namespace RoadAtlas

open Decoder

/-- What is written for one item is part of what is written for all. -/
lemma length_le_flatMap {α : Type} (write : α → List UInt8) {items : List α} {item : α}
    (h : item ∈ items) : (write item).length ≤ (items.flatMap write).length :=
  (List.sublist_flatten_of_mem (List.mem_map_of_mem h)).length_le

/-! ### Coordinates -/

lemma shiftRight_coordinateShift (x : UInt32) :
    (x >>> Format.coordinateShift).toNat = x.toNat / 32 := by
  rw [UInt32.toNat_shiftRight, Nat.shiftRight_eq_div_pow]
  rfl

lemma shiftRight_coordinateShift_lt (x : UInt32) :
    (x >>> Format.coordinateShift).toNat < 2 ^ 31 := by
  rw [shiftRight_coordinateShift]
  have := x.toNat_lt
  omega

namespace RoadRecord

/-- A coarse coordinate is one of the full grid without its low bits. -/
lemma fromGrid_shiftRight (x : UInt32) :
    fromGrid ((x >>> Format.coordinateShift).toNat) =
      .ok ((x >>> Format.coordinateShift) <<< Format.coordinateShift) := by
  have scaled : (((x >>> Format.coordinateShift).toNat : Int) <<< Format.coordinateShift.toNat) =
      ((x >>> Format.coordinateShift) <<< Format.coordinateShift).toNat := by
    rw [UInt32.toNat_shiftLeft, shiftRight_coordinateShift, Int.shiftLeft_eq, Nat.shiftLeft_eq]
    have := x.toNat_lt
    simp only [Format.coordinateShift, UInt32.reduceToNat, Nat.reduceMod, Nat.reducePow]
    omega
  rw [fromGrid, scaled, toCoordinate?_toNat]

lemma pointFromGrid_gridPoint (q : Point) :
    pointFromGrid (RoadDraft.gridPoint q).1.toNat (RoadDraft.gridPoint q).2.toNat =
      .ok (q.onGrid Format.coordinateShift) := by
  simp only [pointFromGrid, RoadDraft.gridPoint, fromGrid_shiftRight]
  rfl

/-! ### Points -/

/-- A point is read as the difference to the point before it says. -/
lemma pointStep_readsAt {p : ℕ} {g : UInt32 × UInt32} (hx : g.1.toNat < 2 ^ 31)
    (hy : g.2.toNat < 2 ^ 31) (q : Point) (known : Array Point) :
    (pointStep (Zigzag.encode32 (coordinateDelta (RoadDraft.gridPoint q).1 g.1))
      ((g.1.toNat, g.2.toNat), known)).ReadsAt p
      (Wire.varint32 (Zigzag.encode32 (coordinateDelta (RoadDraft.gridPoint q).2 g.2)))
      (((RoadDraft.gridPoint q).1.toNat, (RoadDraft.gridPoint q).2.toNat),
        known.push (q.onGrid Format.coordinateShift)) := by
  have qx : (RoadDraft.gridPoint q).1.toNat < 2 ^ 31 := shiftRight_coordinateShift_lt q.x
  have qy : (RoadDraft.gridPoint q).2.toNat < 2 ^ 31 := shiftRight_coordinateShift_lt q.y
  have x : (g.1.toNat : Int) + (coordinateDelta (RoadDraft.gridPoint q).1 g.1).toInt =
      (RoadDraft.gridPoint q).1.toNat := by
    rw [coordinateDelta_toInt qx hx]
    omega
  have y : (g.2.toNat : Int) + (coordinateDelta (RoadDraft.gridPoint q).2 g.2).toInt =
      (RoadDraft.gridPoint q).2.toNat := by
    rw [coordinateDelta_toInt qy hy]
    omega
  rw [pointStep, Zigzag.decode32_encode32]
  refine (sint32_readsAt _).bind_nil ?_
  simp only [x, y]
  exact (ofExcept_readsAt (pointFromGrid_gridPoint q)).bind_pure

/-- Points are read behind those there are, from the base on from which they were written. -/
lemma points_carries (points : List Point) : ∀ {p : ℕ} {g : UInt32 × UInt32} (known : Array Point),
    g.1.toNat < 2 ^ 31 → g.2.toNat < 2 ^ 31 → ∃ here,
      Carries (entries · pointStep) p ((g.1.toNat, g.2.toNat), known)
        (RoadDraft.writePoints g points)
        (here, known ++ (points.map (Point.onGrid Format.coordinateShift)).toArray) := by
  induction points with
  | nil =>
    intro p g known _ _
    exact ⟨_, by simpa [RoadDraft.writePoints] using Carries.nil _⟩
  | cons q rest ih =>
    intro p g known hx hy
    obtain ⟨here, hrest⟩ := ih (g := RoadDraft.gridPoint q)
      (known.push (q.onGrid Format.coordinateShift))
      (shiftRight_coordinateShift_lt q.x) (shiftRight_coordinateShift_lt q.y)
    refine ⟨here, ?_⟩
    have pushed : known.push (q.onGrid Format.coordinateShift) ++
        (rest.map (Point.onGrid Format.coordinateShift)).toArray =
          known ++ ((q :: rest).map (Point.onGrid Format.coordinateShift)).toArray := by
      apply Array.ext'
      simp
    rw [RoadDraft.writePoints, ← pushed]
    exact (Carries.entry (pointStep_readsAt hx hy q known)).trans hrest

end RoadRecord

/-! ### Records -/

namespace RoadDraft

/-- A name with its string as a place in a table. -/
def numbered (table : List String) (name : TagName) : UInt32 × UInt32 :=
  (name.1, UInt32.ofNat (table.idxOf name.2))

/-- The names of single points, each with its index. -/
def pointNameEntries (r : RoadDraft) : List (UInt32 × TagName) :=
  r.pointNames.toList.flatMap fun e => e.2.map fun name => (e.1, name)

/-- The types of single points as a map that was filled point by point. -/
def pointTypeArrays (r : RoadDraft) : SortedMap UInt32 (Array UInt32) :=
  r.pointTypes.toList.foldl
    (fun found e => found.alter e.1 fun types => types.getD #[] ++ e.2.toArray) ∅

/-- The record that a road is stored as, under a number, with its strings as places in a table. -/
def record (r : RoadDraft) (number : ℕ) (table : List String) : RoadRecord where
  number := UInt64.ofNat number
  points := (r.points.map (Point.onGrid Format.coordinateShift)).toArray
  types := r.types.toArray
  extraTypes := r.extraTypes.toArray
  pointTypes := r.pointTypeArrays
  names := (r.names.map (numbered table)).toArray
  pointNames := (r.pointNameEntries.map fun e => (e.1, numbered table e.2)).toArray

/-- Names of single points are written one by one, each with its index. -/
lemma writePointNames_eq (r : RoadDraft) (table : List String) :
    writePointNames table r.pointNames.toList = r.pointNameEntries.flatMap fun e =>
      Wire.varint32 e.1 ++ (Wire.varint32 e.2.1 ++ stringNumber table e.2.2) := by
  rw [writePointNames, pointNameEntries, List.flatMap_assoc]
  simp only [List.flatMap_map, List.append_assoc]

end RoadDraft

/-- A field that is left out when there is nothing to write, given that it changes nothing then. -/
lemma Decoder.Carries.unlessEmpty {α σ τ : Type} {x : σ → Decoder τ} {p : ℕ} {acc acc' : σ}
    {items : List α} {field : List UInt8}
    (bounded : (RoadDraft.unlessEmpty items field).length < 2 ^ 32)
    (empty : items = [] → acc' = acc)
    (written : field.length < 2 ^ 32 → Carries x p acc field acc') :
    Carries x p acc (RoadDraft.unlessEmpty items field) acc' := by
  cases items with
  | nil =>
    rw [empty rfl]
    exact Carries.nil acc
  | cons item rest => exact written bounded

namespace RoadRecord

variable {p : ℕ}

/-- A string is named by a number of 32 bits. -/
lemma stringNumber_readsAt (table : List String) (text : String) :
    varint32.ReadsAt p (RoadDraft.stringNumber table text) (UInt32.ofNat (table.idxOf text)) :=
  varint32_readsAt_ofNat _

/-- Types of single points are put into the map one point after another. -/
lemma pointTypes_carries {es : List (UInt32 × List UInt32)}
    (known : SortedMap UInt32 (Array UInt32))
    (small : (RoadDraft.writePointTypes es).length < 2 ^ 32) :
    Carries (entries · pointTypesStep) p known (RoadDraft.writePointTypes es)
      (es.foldl (fun found e => found.alter e.1 fun types => types.getD #[] ++ e.2.toArray)
        known) :=
  Carries.foldl fun e he q found => by
    have part : (Wire.varint32 e.1 ++ Wire.sized (Wire.packed e.2)).length ≤
        (RoadDraft.writePointTypes es).length :=
      length_le_flatMap (fun e => Wire.varint32 e.1 ++ Wire.sized (Wire.packed e.2)) he
    have whole : (Wire.packed e.2).length ≤ (Wire.sized (Wire.packed e.2)).length :=
      length_le_sized _
    rw [List.length_append] at part
    exact Carries.entry (packed_readsAt (by omega)).bind_pure

/-- Names of single points are read one after another, each with its index. -/
lemma pointNames_carries (r : RoadDraft) (table : List String)
    (known : Array (UInt32 × UInt32 × UInt32)) :
    Carries (entries · fun index names => do
        let tag ← varint32
        let text ← varint32
        return names.push (index, tag, text)) p known
      (RoadDraft.writePointNames table r.pointNames.toList)
      (known ++ (r.pointNameEntries.map fun e => (e.1, RoadDraft.numbered table e.2)).toArray) := by
  rw [RoadDraft.writePointNames_eq, ← foldl_push, List.foldl_map]
  exact Carries.foldl fun e _ q names => Carries.entry <|
    (varint32_readsAt e.2.1).bind (stringNumber_readsAt table e.2.2).bind_pure

/-- Names of the road are read one after another. -/
lemma names_carries (names : List TagName) (table : List String)
    (known : Array (UInt32 × UInt32)) :
    Carries (entries · fun tag names => do
        let text ← varint32
        return names.push (tag, text)) p known
      (RoadDraft.writeNames table names)
      (known ++ (names.map (RoadDraft.numbered table)).toArray) := by
  rw [← foldl_push, List.foldl_map]
  exact Carries.foldl fun name _ q names => Carries.entry <|
    (stringNumber_readsAt table name.2).bind_pure

/-- A written point list is read behind the points there are. -/
lemma readPoints_readsAt {corner : Point} {points : List Point} (known : Array Point)
    (small : (RoadDraft.writePoints (RoadDraft.gridPoint corner) points).length < 2 ^ 32) :
    (readPoints corner known).ReadsAt p
      (Wire.sized (RoadDraft.writePoints (RoadDraft.gridPoint corner) points))
      (known ++ (points.map (Point.onGrid Format.coordinateShift)).toArray) := by
  refine FillsAt.sized ?_ small
  obtain ⟨here, carried⟩ := points_carries points (g := RoadDraft.gridPoint corner) known
    (shiftRight_coordinateShift_lt corner.x) (shiftRight_coordinateShift_lt corner.y)
  exact carried.entries_fillsAt.map Prod.snd

/-! ### The fields of a record -/

variable {corner : Point} {acc : RoadRecord}

lemma points_field_carries (points : List Point) (fresh : acc.points = #[])
    (small : (Wire.bytesField Format.Road.points
      (RoadDraft.writePoints (RoadDraft.gridPoint corner) points)).length < 2 ^ 32) :
    Carries (fields · (step corner)) p acc
      (Wire.bytesField Format.Road.points
        (RoadDraft.writePoints (RoadDraft.gridPoint corner) points))
      { acc with points := (points.map (Point.onGrid Format.coordinateShift)).toArray } :=
  Carries.bytesField (by decide) small fun small => by
    rw [← append_of_eq_empty fresh (List.toArray _)]
    exact (readPoints_readsAt acc.points small).bind_pure

lemma types_field_carries (types : List UInt32)
    (small : (Wire.packedField Format.Road.types types).length < 2 ^ 32) :
    Carries (fields · (step corner)) p acc (Wire.packedField Format.Road.types types)
      { acc with types := types.toArray } :=
  Carries.bytesField (by decide) small fun small => (packed_readsAt small).bind_pure

lemma extraTypes_field_carries (types : List UInt32) (fresh : acc.extraTypes = #[])
    (small : (RoadDraft.unlessEmpty types
      (Wire.packedField Format.Road.extraTypes types)).length < 2 ^ 32) :
    Carries (fields · (step corner)) p acc
      (RoadDraft.unlessEmpty types (Wire.packedField Format.Road.extraTypes types))
      { acc with extraTypes := types.toArray } :=
  Carries.unlessEmpty small (fun none => by simp [none, ← fresh]) fun small =>
    Carries.bytesField (by decide) small fun small => (packed_readsAt small).bind_pure

lemma pointTypes_field_carries (r : RoadDraft) (fresh : acc.pointTypes = ∅)
    (small : (RoadDraft.unlessEmpty r.pointTypes.toList (Wire.bytesField Format.Road.pointTypes
      (RoadDraft.writePointTypes r.pointTypes.toList))).length < 2 ^ 32) :
    Carries (fields · (step corner)) p acc
      (RoadDraft.unlessEmpty r.pointTypes.toList (Wire.bytesField Format.Road.pointTypes
        (RoadDraft.writePointTypes r.pointTypes.toList)))
      { acc with pointTypes := r.pointTypeArrays } :=
  Carries.unlessEmpty small
    (fun none => by simp [RoadDraft.pointTypeArrays, none, ← fresh]) fun small =>
    Carries.bytesField (by decide) small fun small => by
      rw [RoadDraft.pointTypeArrays, ← fresh]
      exact ((pointTypes_carries acc.pointTypes small).entries_fillsAt.sized small).bind_pure

lemma number_field_carries (number : UInt64) :
    Carries (fields · (step corner)) p acc (Wire.varintField Format.Road.number number)
      { acc with number } :=
  Carries.field (by decide) (varint_readsAt number).bind_pure

lemma pointNames_field_carries (r : RoadDraft) (table : List String) (fresh : acc.pointNames = #[])
    (small : (RoadDraft.unlessEmpty r.pointNames.toList (Wire.bytesField Format.Road.pointNames
      (RoadDraft.writePointNames table r.pointNames.toList))).length < 2 ^ 32) :
    Carries (fields · (step corner)) p acc
      (RoadDraft.unlessEmpty r.pointNames.toList (Wire.bytesField Format.Road.pointNames
        (RoadDraft.writePointNames table r.pointNames.toList)))
      { acc with
        pointNames := (r.pointNameEntries.map fun e =>
          (e.1, RoadDraft.numbered table e.2)).toArray } :=
  Carries.unlessEmpty small
    (fun none => by simp [RoadDraft.pointNameEntries, none, ← fresh]) fun small =>
    Carries.bytesField (by decide) small fun small => by
      rw [← append_of_eq_empty fresh (List.toArray _)]
      exact ((pointNames_carries r table acc.pointNames).entries_fillsAt.sized small).bind_pure

lemma names_field_carries (names : List TagName) (table : List String) (fresh : acc.names = #[])
    (small : (RoadDraft.unlessEmpty names (Wire.bytesField Format.Road.names
      (RoadDraft.writeNames table names))).length < 2 ^ 32) :
    Carries (fields · (step corner)) p acc
      (RoadDraft.unlessEmpty names
        (Wire.bytesField Format.Road.names (RoadDraft.writeNames table names)))
      { acc with names := (names.map (RoadDraft.numbered table)).toArray } :=
  Carries.unlessEmpty small (fun none => by simp [none, ← fresh]) fun small =>
    Carries.bytesField (by decide) small fun small => by
      rw [← append_of_eq_empty fresh (List.toArray _)]
      exact ((names_carries names table acc.names).entries_fillsAt.sized small).bind_pure

/-- The fields of a written record make up the record of its road. -/
lemma record_carries {r : RoadDraft} {number : ℕ} {table : List String}
    (small : (r.write number corner table).length < 2 ^ 32) :
    Carries (fields · (step corner)) p {} (r.write number corner table)
      (r.record number table) := by
  simp only [RoadDraft.write, List.length_append] at small
  exact ((((((points_field_carries r.points rfl (by omega)).trans
    (types_field_carries r.types (by omega))).trans
    (extraTypes_field_carries r.extraTypes rfl (by omega))).trans
    (pointTypes_field_carries r rfl (by omega))).trans
    (number_field_carries (UInt64.ofNat number))).trans
    (pointNames_field_carries r table rfl (by omega))).trans
    (names_field_carries r.names table rfl (by omega))

/-- A written record is read as the record of its road. -/
lemma decoder_readsAt {r : RoadDraft} {number : ℕ} {table : List String}
    (small : (r.write number corner table).length < 2 ^ 32) :
    (decoder corner).ReadsAt p (Wire.sized (r.write number corner table))
      (r.record number table) :=
  (record_carries small).fields_fillsAt.sized small

end RoadRecord

end RoadAtlas
