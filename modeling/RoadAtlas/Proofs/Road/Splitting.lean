import Mathlib.Algebra.Group.Nat.Defs
import Mathlib.Order.Monotone.Basic
import RoadAtlas.Proofs.Road.Polyline
import RoadAtlas.Proofs.SortedMap
import RoadAtlas.Road.Basic

/-!
Roads that are split. Every point that is put into a road moves the points behind it up by one. What
is attached to single points stands in maps by point index, which are keyed anew at every split, so
that it stays with its point.

* `Split`, `Split.moveAll`: a point to be put in, and where an index ends up after some of them:
  `moveAll_strictMono` keeps indices apart, and `moveAll_ne_place` keeps them off the new points;
* `Road.SplitsInto`: a road that splits have made from another one, with the entries of both maps
  moved one by one;
* `Road.insertPoint?_splitsInto`, `SplitsInto.trans`, `Road.insertPoints?_splitsInto`: one split,
  two runs of splits after each other, and any run;
* `Road.insertPoints?_keeps_attributes`: what follows for the points of the road, old and new.
-/

namespace RoadAtlas

/-! ### Where indices move -/

/-- A point to be put before an index. -/
structure Split where
  index : ℕ
  point : Point

namespace Split

/-- Where an index is found after a split. -/
def move (s : Split) (i : ℕ) : ℕ := if s.index ≤ i then i + 1 else i

/-- Where an index is found after some splits, one after another. -/
def moveAll (splits : List Split) (i : ℕ) : ℕ := splits.foldl (fun i s => s.move i) i

/-- The new points, each with the index at which it is found in the end. -/
def placed : List Split → List (ℕ × Point)
  | [] => []
  | s :: rest => (moveAll rest s.index, s.point) :: placed rest

/-- The splits can be made one after another in a sequence of some length: each is before an index
of the sequence that it meets, or at its end. -/
def Valid : ℕ → List Split → Prop
  | _, [] => True
  | size, s :: rest => s.index ≤ size ∧ Valid (size + 1) rest

/-- A sequence of points after some splits. -/
def insertAll (splits : List Split) (points : List Point) : List Point :=
  splits.foldl (fun points s => points.insertIdx s.index s.point) points

variable {s : Split} {splits : List Split} {i j : ℕ}

lemma move_lt_move (s : Split) (h : i < j) : s.move i < s.move j := by
  rw [move, move]
  split <;> split <;> omega

lemma move_ne_index (s : Split) (i : ℕ) : s.move i ≠ s.index := by
  rw [move]
  split <;> omega

lemma le_move (s : Split) (i : ℕ) : i ≤ s.move i := by
  rw [move]
  split <;> omega

/-- Indices stay in their order. -/
lemma moveAll_strictMono (splits : List Split) : StrictMono (moveAll splits) := by
  induction splits with
  | nil => exact strictMono_id
  | cons s rest ih => exact fun i j h => ih (s.move_lt_move h)

lemma le_moveAll (splits : List Split) (i : ℕ) : i ≤ moveAll splits i := by
  induction splits generalizing i with
  | nil => exact Nat.le_refl i
  | cons s rest ih => exact Nat.le_trans (s.le_move i) (ih (s.move i))

/-- No index ends up at a new point. -/
lemma moveAll_ne_place {e : ℕ × Point} (he : e ∈ placed splits) (i : ℕ) :
    moveAll splits i ≠ e.1 := by
  induction splits generalizing i with
  | nil => cases he
  | cons s rest ih =>
    rcases List.mem_cons.mp he with rfl | later
    · exact fun same => s.move_ne_index i ((moveAll_strictMono rest).injective same)
    · exact ih later (s.move i)

/-- A point that was there is found where its index has moved. -/
lemma getElem?_insertIdx_move (s : Split) (points : List Point) (i : ℕ) :
    (points.insertIdx s.index s.point)[s.move i]? = points[i]? := by
  rw [move]
  split
  next behind => exact List.getElem?_insertIdx_of_gt (Nat.lt_succ_of_le behind)
  next before => exact List.getElem?_insertIdx_of_lt (Nat.lt_of_not_le before)

lemma getElem?_insertAll (splits : List Split) (points : List Point) (i : ℕ) :
    (insertAll splits points)[moveAll splits i]? = points[i]? := by
  induction splits generalizing points i with
  | nil => rfl
  | cons s rest ih => exact (ih _ (s.move i)).trans (s.getElem?_insertIdx_move points i)

/-- A new point is found at its place. -/
lemma getElem?_insertAll_placed {points : List Point} (valid : Valid points.length splits)
    {e : ℕ × Point} (he : e ∈ placed splits) : (insertAll splits points)[e.1]? = some e.2 := by
  induction splits generalizing points with
  | nil => cases he
  | cons s rest ih =>
    obtain ⟨inside, later⟩ := valid
    rw [← List.length_insertIdx_of_le_length inside s.point] at later
    rcases List.mem_cons.mp he with rfl | other
    · refine (getElem?_insertAll rest _ s.index).trans ?_
      rw [List.getElem?_insertIdx_self, if_pos inside]
    · exact ih later other

end Split

/-! ### Roads -/

namespace Road

open Split

/-- The road with some points put into it, one after another. -/
def insertPoints? (r : Road) (splits : List Split) : Option Road :=
  splits.foldlM (fun r s => r.insertPoint? s.index s.point) r

/-- The indices that something is attached to. -/
def attached (r : Road) : List UInt32 :=
  r.pointTypes.toList.map Prod.fst ++ r.pointNames.toList.map Prod.fst

/-- The entries of a map by point index, with the indices moved by some splits. -/
def movedEntries {ν : Type} (splits : List Split) (m : SortedMap UInt32 ν) : List (ℕ × ν) :=
  m.toList.map fun e => (moveAll splits e.1.toNat, e.2)

/-- A road `r'` that some splits make from the road `r`: the points are put in, what is attached to
single points is moved entry by entry, and all else is the same. -/
structure SplitsInto (r : Road) (splits : List Split) (r' : Road) : Prop where
  wellFormed : r'.points.WellFormed
  points : r'.points.toList = insertAll splits r.points.toList
  pointTypes : movedEntries [] r'.pointTypes = movedEntries splits r.pointTypes
  pointNames : movedEntries [] r'.pointNames = movedEntries splits r.pointNames
  rest : r' = { r with
    points := r'.points, pointTypes := r'.pointTypes, pointNames := r'.pointNames }

/-! ### Entries -/

section Entries

variable {ν : Type} {m m' : SortedMap UInt32 ν} {splits : List Split}

/-- An index that does not leave the 32-bit numbers is moved by adding one. -/
lemma shiftIndex_toNat {s : Split} {i : UInt32} (fits : s.move i.toNat < 2 ^ 32) :
    (shiftIndex s.index i).toNat = s.move i.toNat := by
  rw [Split.move] at fits ⊢
  rw [shiftIndex]
  split
  next behind =>
    rw [if_pos behind] at fits
    rw [UInt32.toNat_add]
    exact Nat.mod_eq_of_lt fits
  next before => rfl

lemma compare_eq_lt_iff {i j : UInt32} : compare i j = .lt ↔ i.toNat < j.toNat :=
  compareOfLessAndEq_eq_lt.trans UInt32.lt_iff_toNat_lt

/-- A split moves the entries of a map one by one. -/
lemma movedEntries_shiftIndex {s : Split} (fits : ∀ e ∈ m.toList, s.move e.1.toNat < 2 ^ 32) :
    movedEntries [] (m.mapKeys (shiftIndex s.index)) = movedEntries [s] m := by
  have ascending : m.toList.Pairwise fun a b =>
      compare (shiftIndex s.index a.1) (shiftIndex s.index b.1) = .lt := by
    refine m.ascending.imp_of_mem fun {a b} ha hb before => ?_
    rw [compare_eq_lt_iff] at before ⊢
    rw [shiftIndex_toNat (fits a ha), shiftIndex_toNat (fits b hb)]
    exact s.move_lt_move before
  rw [movedEntries, movedEntries, SortedMap.toList_mapKeys ascending, List.map_map]
  refine List.map_congr_left fun e he => ?_
  exact congrArg (·, e.2) (shiftIndex_toNat (fits e he))

/-- What a map holds under an index is what its entries hold, moved or not. -/
lemma get?_eq_lookup_movedEntries (m : SortedMap UInt32 ν) (splits : List Split) (i : UInt32) :
    m.get? i = (movedEntries splits m).lookup (moveAll splits i.toNat) := by
  rw [SortedMap.get?_eq_lookup, movedEntries]
  induction m.toList with
  | nil => rfl
  | cons e rest ih =>
    rw [List.map_cons, List.lookup_cons, List.lookup_cons, ih]
    have same : (moveAll splits i.toNat == moveAll splits e.1.toNat) = (i == e.1) := by
      rw [Bool.eq_iff_iff, beq_iff_eq, beq_iff_eq, (moveAll_strictMono splits).injective.eq_iff,
        UInt32.toNat_inj]
    rw [same]

/-- What is attached to an index is attached to the index to which it has moved. -/
lemma get?_of_movedEntries (moved : movedEntries [] m' = movedEntries splits m) {i j : UInt32}
    (here : j.toNat = moveAll splits i.toNat) : m'.get? j = m.get? i := by
  rw [get?_eq_lookup_movedEntries m splits, get?_eq_lookup_movedEntries m' [], moved, ← here]
  rfl

/-- Nothing is attached to a new point. -/
lemma get?_placed_of_movedEntries (moved : movedEntries [] m' = movedEntries splits m)
    {e : ℕ × Point} (he : e ∈ placed splits) {j : UInt32} (here : j.toNat = e.1) :
    m'.get? j = none := by
  rw [get?_eq_lookup_movedEntries m' [], moved, List.lookup_eq_none_iff]
  intro entry hentry
  obtain ⟨old, -, rfl⟩ := List.mem_map.mp hentry
  rw [bne_iff_ne]
  intro same
  exact moveAll_ne_place he old.1.toNat (same.symm.trans here)

end Entries

/-! ### Runs of splits -/

variable {r r' r'' : Road} {s : Split} {splits more : List Split}

/-- Splits that follow splits. -/
lemma SplitsInto.trans (h : r.SplitsInto splits r') (h' : r'.SplitsInto more r'') :
    r.SplitsInto (splits ++ more) r'' := by
  have later {ν : Type} {m m' m'' : SortedMap UInt32 ν}
      (first : movedEntries [] m' = movedEntries splits m)
      (second : movedEntries [] m'' = movedEntries more m') :
      movedEntries [] m'' = movedEntries (splits ++ more) m := by
    have moved := congrArg (List.map fun e => (moveAll more e.1, e.2)) first
    simp only [movedEntries, List.map_map, Function.comp_def] at moved second ⊢
    rw [second]
    simpa only [moveAll, List.foldl_append, List.foldl_nil] using moved
  constructor
  case wellFormed => exact h'.wellFormed
  case points =>
    rw [h'.points, h.points, insertAll, insertAll, insertAll, List.foldl_append]
  case pointTypes => exact later h.pointTypes h'.pointTypes
  case pointNames => exact later h.pointNames h'.pointNames
  case rest =>
    rw [h'.rest, h.rest]

lemma SplitsInto.refl (wellFormed : r.points.WellFormed) : r.SplitsInto [] r :=
  ⟨wellFormed, rfl, rfl, rfl, rfl⟩

/-- A road can be split at every index up to its end. -/
lemma insertPoint?_splitsInto (wellFormed : r.points.WellFormed) (valid : s.index ≤ r.points.size)
    (fits : ∀ i ∈ r.attached, s.move i.toNat < 2 ^ 32) :
    ∃ r', r.insertPoint? s.index s.point = some r' ∧ r.SplitsInto [s] r' := by
  have list := wellFormed.map_insert? s.index s.point
  have inside : ¬ r.points.toList.length < s.index := by
    rw [← wellFormed.size_eq]
    exact Nat.not_lt.mpr valid
  rw [Polyline.insertInto?, if_neg inside] at list
  obtain ⟨points, made, same⟩ := Option.map_eq_some_iff.mp list
  refine ⟨_, by rw [insertPoint?, made]; rfl, ?_⟩
  have types : ∀ e ∈ r.pointTypes.toList, s.move e.1.toNat < 2 ^ 32 := fun e he =>
    fits e.1 (List.mem_append_left _ (List.mem_map_of_mem he))
  have names : ∀ e ∈ r.pointNames.toList, s.move e.1.toNat < 2 ^ 32 := fun e he =>
    fits e.1 (List.mem_append_right _ (List.mem_map_of_mem he))
  exact ⟨wellFormed.of_insert? made, same, movedEntries_shiftIndex types,
    movedEntries_shiftIndex names, rfl⟩

/-- The indices to which something is attached after some splits are those from before, moved. -/
lemma SplitsInto.exists_of_mem_attached (h : r.SplitsInto splits r') {j : UInt32}
    (hj : j ∈ r'.attached) : ∃ i ∈ r.attached, j.toNat = moveAll splits i.toNat := by
  have old {ν : Type} {m m' : SortedMap UInt32 ν}
      (moved : movedEntries [] m' = movedEntries splits m) (hj : j ∈ m'.toList.map Prod.fst) :
      ∃ i ∈ m.toList.map Prod.fst, j.toNat = moveAll splits i.toNat := by
    obtain ⟨e, he, rfl⟩ := List.mem_map.mp hj
    have listed : (e.1.toNat, e.2) ∈ movedEntries [] m' := List.mem_map_of_mem he
    rw [moved] at listed
    obtain ⟨e', he', same⟩ := List.mem_map.mp listed
    exact ⟨e'.1, List.mem_map_of_mem he', (congrArg Prod.fst same).symm⟩
  rcases List.mem_append.mp hj with types | names
  · obtain ⟨i, hi, same⟩ := old h.pointTypes types
    exact ⟨i, List.mem_append_left _ hi, same⟩
  · obtain ⟨i, hi, same⟩ := old h.pointNames names
    exact ⟨i, List.mem_append_right _ hi, same⟩

/-- A road can be split again and again, as long as no index leaves the 32-bit numbers. -/
lemma insertPoints?_splitsInto (wellFormed : r.points.WellFormed)
    (valid : Valid r.points.size splits)
    (fits : ∀ i ∈ r.attached, moveAll splits i.toNat < 2 ^ 32) :
    ∃ r', r.insertPoints? splits = some r' ∧ r.SplitsInto splits r' := by
  induction splits generalizing r with
  | nil => exact ⟨r, rfl, .refl wellFormed⟩
  | cons s rest ih =>
    obtain ⟨inside, later⟩ := valid
    obtain ⟨r₁, made, first⟩ := insertPoint?_splitsInto wellFormed inside fun i hi =>
      Nat.lt_of_le_of_lt (le_moveAll rest _) (fits i hi)
    have size : r₁.points.size = r.points.size + 1 := by
      rw [first.wellFormed.size_eq, first.points, wellFormed.size_eq]
      exact List.length_insertIdx_of_le_length (wellFormed.size_eq ▸ inside) s.point
    obtain ⟨r', made', second⟩ := ih first.wellFormed (size ▸ later) fun j hj => by
      obtain ⟨i, hi, same⟩ := first.exists_of_mem_attached hj
      rw [same]
      exact fits i hi
    refine ⟨r', ?_, first.trans second⟩
    rw [insertPoints?, List.foldlM_cons, made]
    exact made'

/-- Points can be put into a road one after another, and attributes stay with their points: every
point that was there is found where its index has moved, with the types and names that it had, and
every new point carries none. No entry is lost, joined to another one or left behind, whether or not
there is a point at its index, and all else that the road says stays as it is. -/
theorem insertPoints?_keeps_attributes (wellFormed : r.points.WellFormed)
    (valid : Valid r.points.size splits)
    (fits : ∀ i ∈ r.attached, moveAll splits i.toNat < 2 ^ 32) :
    ∃ r', r.insertPoints? splits = some r' ∧ r.SplitsInto splits r' ∧
      (∀ i, r'.points.get? (moveAll splits i) = r.points.get? i) ∧
      (∀ i j : UInt32, j.toNat = moveAll splits i.toNat →
        r'.pointTypes.get? j = r.pointTypes.get? i ∧
          r'.pointNames.get? j = r.pointNames.get? i) ∧
      (∀ e ∈ placed splits, r'.points.get? e.1 = some e.2) ∧
      (∀ e ∈ placed splits, ∀ j : UInt32, j.toNat = e.1 →
        r'.pointTypes.get? j = none ∧ r'.pointNames.get? j = none) := by
  obtain ⟨r', made, splitted⟩ := insertPoints?_splitsInto wellFormed valid fits
  have old := wellFormed.answersAs.get?_eq
  have new := splitted.wellFormed.answersAs.get?_eq
  rw [splitted.points] at new
  refine ⟨r', made, splitted, fun i => ?_, fun i j here => ?_, fun e he => ?_, ?_⟩
  · rw [new, old, getElem?_insertAll]
  · exact ⟨get?_of_movedEntries splitted.pointTypes here,
      get?_of_movedEntries splitted.pointNames here⟩
  · rw [new]
    exact getElem?_insertAll_placed (wellFormed.size_eq ▸ valid) he
  · intro e he j here
    exact ⟨get?_placed_of_movedEntries splitted.pointTypes he here,
      get?_placed_of_movedEntries splitted.pointNames he here⟩

/-- A road of three points with types at its second one, types past its end, and a name at its last
point. -/
def signedRoad : Road where
  id := 7
  sectionId := 1
  points := .ofArray #[⟨0, 0⟩, ⟨10, 0⟩, ⟨20, 0⟩]
  pointTypes := .ofList [(1, #[3]), (9, #[4])]
  pointNames := .ofList [(2, #[(0, "b")])]

/-- Splits before the second point, before the first one and at the end. -/
def threeSplits : List Split := [⟨1, ⟨5, 0⟩⟩, ⟨0, ⟨1, 1⟩⟩, ⟨5, ⟨30, 0⟩⟩]

theorem insertPoints?_keeps_attributes_threeSplits :
    ∃ r', signedRoad.insertPoints? threeSplits = some r' ∧
      r'.points.get? 3 = some ⟨10, 0⟩ ∧ r'.pointTypes.get? 3 = some #[3] ∧
      r'.pointTypes.get? 12 = some #[4] ∧ r'.pointNames.get? 4 = some #[(0, "b")] ∧
      r'.points.get? 2 = some ⟨5, 0⟩ ∧ r'.pointTypes.get? 2 = none := by
  have valid : Valid signedRoad.points.size threeSplits :=
    ⟨by decide, by decide, by decide, trivial⟩
  have fits : ∀ i ∈ signedRoad.attached, moveAll threeSplits i.toNat < 2 ^ 32 := by
    have indices : signedRoad.attached = [1, 9, 2] := by decide
    rw [indices, List.forall_mem_cons, List.forall_mem_cons, List.forall_mem_singleton]
    decide
  have wellFormed : signedRoad.points.WellFormed :=
    Polyline.wellFormed_ofArray #[⟨0, 0⟩, ⟨10, 0⟩, ⟨20, 0⟩]
  obtain ⟨r', made, -, old, attributes, new, bare⟩ :=
    insertPoints?_keeps_attributes wellFormed valid fits
  have first : (2, ⟨5, 0⟩) ∈ placed threeSplits := List.mem_cons_self
  exact ⟨r', made, old 1, (attributes 1 3 rfl).1, (attributes 9 12 rfl).1, (attributes 2 4 rfl).2,
    new _ first, (bare _ first 2 rfl).1⟩

end Road

end RoadAtlas
