import Mathlib.Data.List.Sort
import RoadAtlas.Proofs.Network.BorderReading
import RoadAtlas.Proofs.Wire.Rounds

/-!
Border points in a query area. A query leaves lines out before their points are read, and points out
while the sums that later points are relative to go on. Nothing is lost by either, given that the
points of a line lie on it.

* `BorderTrail.decoder_query`: the points of a line in an area are those among all its points;
* `BorderLine.concerns_of_passes`: a line with a point in an area concerns the area;
* `flatMap_sorted_filter`: places that yield nothing may be left out before they are sorted;
* `RoutingSection.readBorder_query`: a query answers with the points in its area, in the order in
  which they are read without one.
-/

namespace RoadAtlas

open Decoder

/-! ### Points of a line -/

namespace BorderTrail

/-- The sums of a trail, with the points in an area. -/
def restrict (query : Area) (trail : BorderTrail) : BorderTrail :=
  { trail with points := trail.points.filter fun p => query.contains p.location }

/-- The sums go on over points that are left out. -/
lemma advance_restrict (sectionId : ℕ) (query : Area) (trail : BorderTrail) (r : BorderRecord) :
    (trail.restrict query).advance sectionId (some query) r =
      restrict query <$> trail.advance sectionId none r := by
  simp only [advance, restrict]
  cases coordinate (trail.x + r.dx.toInt) with
  | error cause => rfl
  | ok x =>
    cases coordinate (trail.y + r.dy.toInt) with
    | error cause => rfl
    | ok y =>
      simp only [bind, Except.bind, pure, Except.pure, Functor.map, Except.map, Option.all_none,
        Option.all_some, ↓reduceIte, restrict, Array.filter_push]

/-- Every field is read likewise. -/
lemma step_restrict (sectionId : ℕ) (query : Area) (t : Tag) (trail : BorderTrail) :
    step sectionId (some query) t (trail.restrict query) =
      restrict query <$> step sectionId none t trail := by
  rw [step, step]
  split
  · simp only [map_bind, map_pure]
    rfl
  · simp only [map_bind, map_pure]
    rfl
  · simp only [map_bind, map_pure]
    rfl
  · simp only [map_bind, advance_restrict, map_ofExcept]
  · simp only [map_bind, map_pure]

/-- The points of a line in an area are those among all its points. -/
lemma decoder_query (sectionId : ℕ) (query : Area) :
    decoder sectionId (some query) =
      Array.filter (fun p => query.contains p.location) <$> decoder sectionId none := by
  have trails : fields {} (step sectionId (some query)) =
      restrict query <$> fields {} (step sectionId none) :=
    fields_map (step_restrict sectionId query) {}
  rw [decoder, decoder, trails, sized_map]
  simp only [Functor.map_map]
  rfl

end BorderTrail

/-! ### Lines -/

namespace BorderLine

variable {line : BorderLine} {query : Area} {p : Point}

/-- A point lies on a line, between the ends that it has. -/
def Passes (line : BorderLine) (p : Point) : Prop :=
  p.y = line.y ∧ ∃ toX ∈ line.toX, (line.x ≤ p.x ∧ p.x ≤ toX) ∨ (toX ≤ p.x ∧ p.x ≤ line.x)

instance (line : BorderLine) (p : Point) : Decidable (line.Passes p) := instDecidableAnd

/-- A line with a point in an area concerns the area. -/
lemma concerns_of_passes (onLine : line.Passes p) (inside : query.contains p = true) :
    line.concerns query = true := by
  obtain ⟨level, toX, ends, between⟩ := onLine
  have smaller : min line.x toX = if line.x ≤ toX then line.x else toX := rfl
  have larger : max line.x toX = if line.x ≤ toX then toX else line.x := rfl
  simp only [Area.contains, Bool.and_eq_true, decide_eq_true_eq] at inside
  simp only [concerns, span?, Option.mem_def.mp ends, Option.map_some, Option.any_some,
    Area.intersects, Bool.and_eq_true, decide_eq_true_eq, ← level, smaller, larger]
  simp only [UInt32.le_iff_toNat_le] at *
  split <;> omega

end BorderLine

/-! ### Places -/

section Places

variable {α β : Type}

lemma flatMap_filter_of_nil {f : α → List β} {keep : α → Bool} :
    ∀ {items : List α}, (∀ a ∈ items, keep a = false → f a = []) →
      (items.filter keep).flatMap f = items.flatMap f
  | [], _ => rfl
  | a :: rest, h => by
    rw [List.forall_mem_cons] at h
    cases kept : keep a with
    | true => rw [List.filter_cons_of_pos kept, List.flatMap_cons, List.flatMap_cons,
        flatMap_filter_of_nil h.2]
    | false =>
      rw [List.filter_cons_of_neg (by simp [kept]), List.flatMap_cons, h.1 kept, List.nil_append,
        flatMap_filter_of_nil h.2]

/-- Places that yield nothing may be left out before the others are sorted. -/
lemma flatMap_sorted_filter {items : List α} {place : α → ℕ} {keep : α → Bool} {f : ℕ → List β}
    (h : ∀ a ∈ items, keep a = false → f (place a) = []) :
    ((items.filter keep).map place).mergeSort.flatMap f = (items.map place).mergeSort.flatMap f := by
  -- a place left out with one item may be kept with another one, so only the places that yield
  -- something are compared
  let yields (p : ℕ) : Bool := !(f p).isEmpty
  have dropped (places : List ℕ) : (places.filter yields).flatMap f = places.flatMap f :=
    flatMap_filter_of_nil fun p _ none => by simpa [yields] using none
  have sorted (places : List ℕ) : (places.mergeSort.filter yields).Pairwise (· ≤ ·) :=
    (List.pairwise_mergeSort' (· ≤ ·) places).filter _
  have same : ((items.filter keep).map place).filter yields = (items.map place).filter yields := by
    rw [List.filter_map, List.filter_map, List.filter_filter]
    refine congrArg (List.map place) (List.filter_congr fun a listed => ?_)
    cases kept : keep a with
    | true => exact Bool.and_true _
    | false => simp [yields, h a listed kept]
  have perm : ((items.filter keep).map place).mergeSort.filter yields ≈
      (items.map place).mergeSort.filter yields :=
    calc ((items.filter keep).map place).mergeSort.filter yields
      _ ≈ ((items.filter keep).map place).filter yields := (List.mergeSort_perm _ _).filter yields
      _ = (items.map place).filter yields := same
      _ ≈ (items.map place).mergeSort.filter yields :=
        ((List.mergeSort_perm _ _).filter yields).symm
  calc ((items.filter keep).map place).mergeSort.flatMap f
    _ = (((items.filter keep).map place).mergeSort.filter yields).flatMap f := (dropped _).symm
    _ = ((items.map place).mergeSort.filter yields).flatMap f :=
      congrArg (List.flatMap f) (perm.eq_of_pairwise' (sorted _) (sorted _))
    _ = (items.map place).mergeSort.flatMap f := dropped _

end Places

/-! ### Queries -/

namespace RoutingSection

variable {s : RoutingSection} {data : ByteArray}

lemma evalAt_map {α β : Type} (f : α → β) (x : Decoder α) (position : ℕ) :
    s.evalAt (f <$> x) position data = f <$> s.evalAt x position data := by
  simp only [evalAt, eval_map, map_bind]

/-- The points that are read at the place of a border line lie on the line. In particular, a line
without another end has no points. -/
def PointsOnLines (s : RoutingSection) (data : ByteArray) : Prop :=
  ∀ region ∈ s.border, ∀ lines ∈ (s.borderLines region data).toOption, ∀ line ∈ lines.toList,
    ∀ points ∈ (s.evalAt (BorderTrail.decoder s.id none) line.pointsOffset data).toOption,
      ∀ p ∈ points.toList, line.Passes p.location

instance (s : RoutingSection) (data : ByteArray) : Decidable (s.PointsOnLines data) :=
  inferInstanceAs (Decidable (∀ region ∈ s.border, ∀ lines ∈ (s.borderLines region data).toOption,
    ∀ line ∈ lines.toList,
      ∀ points ∈ (s.evalAt (BorderTrail.decoder s.id none) line.pointsOffset data).toOption,
        ∀ p ∈ points.toList, line.Passes p.location))

/-- Points are looked for at the places of the lines that concern the query. -/
lemma mem_borderOffsets {lines : List BorderLine} {query : Option Area} {position : ℕ} :
    position ∈ borderOffsets lines query ↔
      ∃ line ∈ lines, query.all line.concerns = true ∧ line.pointsOffset = position := by
  rw [borderOffsets, List.mem_mergeSort, List.mem_map]
  simp only [List.mem_filter, and_assoc]

/-- The points at a place, none if they cannot be read. -/
def pointsAt (s : RoutingSection) (data : ByteArray) (position : ℕ) : Array BorderPoint :=
  (s.evalAt (BorderTrail.decoder s.id none) position data).toOption.getD #[]

/-- Border points that are read line by line. -/
lemma readBorder_eq_flatMap {query : Option Area} {region : Region} {lines : Array BorderLine}
    {f : ℕ → Array BorderPoint} (border : s.border = some region)
    (headers : s.borderLines region data = .ok lines)
    (each : ∀ position ∈ borderOffsets lines.toList query,
      s.evalAt (BorderTrail.decoder s.id query) position data = .ok (f position)) :
    s.readBorder query data =
      .ok ((borderOffsets lines.toList query).flatMap fun position => (f position).toList) := by
  have read : s.evalAt (within region.length BorderLine.readAll) region.offset data = .ok lines :=
    headers
  rw [readBorder_eq_evalAt, border]
  simp only [read, bind, Except.bind, mapM_eq_map each, pure, Except.pure, decode, List.map_map]
  rfl

/-- Where border points are read, the headers are, and the points at the place of each line. -/
lemma exists_lines_of_readBorder {region : Region} {points : List BorderPoint}
    (border : s.border = some region) (found : s.readBorder none data = .ok points) :
    ∃ lines, s.borderLines region data = .ok lines ∧
      ∀ position ∈ borderOffsets lines.toList none,
        s.evalAt (BorderTrail.decoder s.id none) position data =
          .ok (s.pointsAt data position) := by
  rw [readBorder_eq_evalAt, border] at found
  simp only [decode_eq_ok_iff] at found
  cases headers : s.evalAt (within region.length BorderLine.readAll) region.offset data with
  | error cause =>
    rw [headers] at found
    cases found
  | ok lines =>
    refine ⟨lines, headers, fun position listed => ?_⟩
    rw [headers] at found
    cases blocks : (borderOffsets lines.toList none).mapM fun position =>
        s.evalAt (BorderTrail.decoder s.id none) position data with
    | error cause =>
      simp only [bind, Except.bind] at found blocks
      rw [blocks] at found
      cases found
    | ok blocks =>
      obtain ⟨points, here⟩ := exists_of_mapM blocks position listed
      rw [pointsAt, here]
      rfl

/-- A line that a query is not about has no points in the area of the query. -/
lemma filter_pointsAt_eq_nil {region : Region} {lines : Array BorderLine} {line : BorderLine}
    {query : Area} (onLines : s.PointsOnLines data) (border : s.border = some region)
    (headers : s.borderLines region data = .ok lines) (among : line ∈ lines.toList)
    (read : s.evalAt (BorderTrail.decoder s.id none) line.pointsOffset data =
      .ok (s.pointsAt data line.pointsOffset)) (apart : line.concerns query = false) :
    (s.pointsAt data line.pointsOffset).toList.filter (fun p => query.contains p.location) =
      [] := by
  have known : lines ∈ (s.borderLines region data).toOption := by
    rw [headers]
    rfl
  have here : s.pointsAt data line.pointsOffset ∈
      (s.evalAt (BorderTrail.decoder s.id none) line.pointsOffset data).toOption := by
    rw [read]
    rfl
  refine List.filter_eq_nil_iff.mpr fun p listed inside => ?_
  have passes := onLines region border lines known line among _ here p listed
  rw [BorderLine.concerns_of_passes passes inside] at apart
  cases apart

/-- A query answers with the points in its area, in the order in which they are read without one. -/
theorem readBorder_query {points : List BorderPoint} (found : s.readBorder none data = .ok points)
    (onLines : s.PointsOnLines data) (query : Area) :
    s.readBorder (some query) data =
      .ok (points.filter fun p => query.contains p.location) := by
  cases border : s.border with
  | none =>
    rw [readBorder_eq_evalAt, border] at found ⊢
    cases found
    rfl
  | some region =>
    obtain ⟨lines, headers, each⟩ := exists_lines_of_readBorder border found
    have all := readBorder_eq_flatMap border headers each
    rw [found] at all
    obtain rfl := Except.ok.inj all
    have eachInside : ∀ position ∈ borderOffsets lines.toList (some query),
        s.evalAt (BorderTrail.decoder s.id (some query)) position data =
          .ok ((s.pointsAt data position).filter fun p => query.contains p.location) := by
      intro position listed
      obtain ⟨line, among, -, there⟩ := mem_borderOffsets.mp listed
      rw [BorderTrail.decoder_query, evalAt_map,
        each position (mem_borderOffsets.mpr ⟨line, among, rfl, there⟩)]
      rfl
    have nothing : ∀ line ∈ lines.toList, line.concerns query = false →
        (s.pointsAt data line.pointsOffset).toList.filter
          (fun p => query.contains p.location) = [] := fun line among =>
      filter_pointsAt_eq_nil onLines border headers among
        (each line.pointsOffset (mem_borderOffsets.mpr ⟨line, among, rfl, rfl⟩))
    rw [readBorder_eq_flatMap border headers eachInside, List.filter_flatMap]
    simp only [borderOffsets, Option.all_none, List.filter_true, Option.all_some,
      Array.toList_filter]
    exact congrArg Except.ok (flatMap_sorted_filter nothing)

/-- A query whose area one of the points of a line is in, and the other is not. -/
theorem readBorder_query_threeLines :
    ∃ s, read 4 ⟨.routing, "", 1, threeLines.write.length⟩ threeLinesData = .ok s ∧
      s.PointsOnLines threeLinesData ∧
      s.readBorder (some ⟨100, 40, 107, 60⟩) threeLinesData =
        .ok [⟨4, 9223372036854775807, ⟨105, 50⟩, false, #[]⟩] := by
  have ⟨s, found, onLines, id, offset, length, border⟩ :
      ∃ s ∈ (read 4 ⟨.routing, "", 1, threeLines.write.length⟩ threeLinesData).toOption,
        s.PointsOnLines threeLinesData ∧ s.id = 4 ∧ s.offset = 1 ∧
          s.length = threeLines.write.length ∧
            s.border = some (threeLines.borderPlace 1) := by decide +kernel
  have inside : 1 + threeLines.write.length ≤ threeLinesData.size := by
    rw [size_threeLinesData]
    omega
  have whole : s.cursor threeLinesData = .ok ⟨s.offset, s.offset + threeLines.write.length⟩ := by
    rw [cursor, length, offset, Cursor.region_eq_ok_iff.mpr ⟨inside, rfl⟩]
  have points := readBorder_eq_ok whole threeLinesData_addressable (offset ▸ inside)
    (offset ▸ threeLinesData_held) threeLines_fits.length_lt (offset ▸ border) threeLines_onGrid
  refine ⟨s, eq_ok_of_mem_toOption found, onLines, ?_⟩
  rw [readBorder_query points onLines, id]
  rfl

end RoutingSection

end RoadAtlas
