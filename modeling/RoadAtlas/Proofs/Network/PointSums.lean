import Mathlib.Algebra.Ring.Int.Defs
import Mathlib.Data.List.Induction
import RoadAtlas.Proofs.Network.Record
import RoadAtlas.Proofs.Wire.Lengths
import RoadAtlas.Proofs.Wire.Rounds

/-!
The points of a road as running sums. A point list holds differences of 32 bits, as many as the
bytes give, and every point is the sum of those up to it on a coarse grid. The sums are formed in
64-bit words. They never leave the range in which that is exact, because a sum is added to only
after the point that it stands for was found to lie on the grid.

* `AddsExactly`: what is needed to add a difference in 64-bit words and to scale the sum;
  `addsExactly_of_isCoordinate` gives it of everything that a coordinate can be;
* `RoadRecord.gridSum`: the exact sums behind some differences, and `SumsTo`: points that lie there;
* `foldlM_addPoint_eq_ok_iff`, `foldlM_addPoint_failed`: a point list is read up to the first sum
  that is not on the grid;
* `RoadRecord.readPoints64`: the same reader in words that wrap around, and `readPoints64_eq`.
-/

namespace RoadAtlas

open Decoder

/-! ### Coordinates -/

/-- A number that is a coordinate of the full grid. -/
def IsCoordinate (n : ℤ) : Prop := 0 ≤ n ∧ n < 2 ^ 32

instance (n : ℤ) : Decidable (IsCoordinate n) := instDecidableAnd

lemma toCoordinate?_eq_some_iff {n : ℤ} {v : UInt32} :
    toCoordinate? n = some v ↔ (v.toNat : ℤ) = n := by
  constructor
  · intro h
    rw [toCoordinate?] at h
    split at h
    next inside =>
      have small : n.toNat < 2 ^ 32 := by omega
      cases h
      rw [UInt32.toNat_ofNat_of_lt' small, Int.toNat_of_nonneg inside.1]
    next => cases h
  · rintro rfl
    exact toCoordinate?_toNat v

lemma toCoordinate?_eq_none {n : ℤ} (outside : ¬ IsCoordinate n) : toCoordinate? n = none :=
  if_neg outside

lemma isCoordinate_toNat (v : UInt32) : IsCoordinate v.toNat :=
  ⟨Int.natCast_nonneg _, by have := v.toNat_lt; omega⟩

/-- A point has the given coordinates. -/
def Point.LiesAt (p : Point) (x y : ℤ) : Prop := (p.x.toNat : ℤ) = x ∧ (p.y.toNat : ℤ) = y

/-- Of two sums, the first that does not meet a condition. -/
def FirstAmiss (fits : ℤ → Prop) (sums : ℤ × ℤ) (n : ℤ) : Prop :=
  (¬ fits sums.1 ∧ n = sums.1) ∨ (fits sums.1 ∧ ¬ fits sums.2 ∧ n = sums.2)

/-! ### 64-bit words -/

/-- Scales a coarse coordinate up, as an integer and as a word. -/
def upscale (n : ℤ) : ℤ := n <<< Format.coordinateShift.toNat

/-- Scales a coarse coordinate up in a word; bits that leave the word are lost. -/
def upscale64 (n : Int64) : Int64 := n <<< Int64.ofNat Format.coordinateShift.toNat

/-- A word as a coordinate, if it is one. -/
def toCoordinate64? (n : Int64) : Option UInt32 :=
  if 0 ≤ n ∧ n < 0x100000000 then some n.toUInt64.toUInt32 else none

lemma upscale_eq (n : ℤ) : upscale n = n * 32 := Int.shiftLeft_eq n 5

lemma upscale64_eq (n : Int64) : upscale64 n = n * 32 := by
  have five : (Int64.ofNat Format.coordinateShift.toNat).toBitVec.smod 64 = 5#64 := by decide
  rw [upscale64, ← Int64.toBitVec_inj, Int64.toBitVec_shiftLeft, Int64.toBitVec_mul, five,
    BitVec.shiftLeft_eq', BitVec.shiftLeft_eq_mul_twoPow]
  rfl

lemma toCoordinate64?_eq (n : Int64) : toCoordinate64? n = toCoordinate? n.toInt := by
  have low : (0 : Int64).toInt = 0 := rfl
  have high : (0x100000000 : Int64).toInt = 0x100000000 := rfl
  rw [toCoordinate64?, toCoordinate?]
  simp only [Int64.le_iff_toInt_le, Int64.lt_iff_toInt_lt, low, high]
  split
  next inside =>
    have kept : n.toUInt64.toNat = n.toInt.toNat :=
      Int64.toNat_toUInt64_of_le (Int64.le_iff_toInt_le.mpr inside.1)
    rw [Option.some.injEq, ← UInt32.toNat_inj, UInt64.toNat_toUInt32, kept]
    rfl
  next => rfl

/-- To a sum a difference is added, and the new sum scaled up, within bounds that 64-bit words keep
exactly. -/
structure AddsExactly (n : ℤ) (difference : Int32) : Prop where
  bounded : -2 ^ 33 < n ∧ n < 2 ^ 33
  sum_bounded : -2 ^ 33 < n + difference.toInt ∧ n + difference.toInt < 2 ^ 33
  upscale_bounded : -2 ^ 38 < upscale (n + difference.toInt) ∧
    upscale (n + difference.toInt) < 2 ^ 38
  sum_eq : (Int64.ofInt n + difference.toInt64).toInt = n + difference.toInt
  upscale_eq : (upscale64 (Int64.ofInt n + difference.toInt64)).toInt =
    upscale (n + difference.toInt)

lemma ofInt_add_toInt64 (n : ℤ) (difference : Int32) :
    Int64.ofInt n + difference.toInt64 = Int64.ofInt (n + difference.toInt) := by
  rw [Int64.ofInt_add, Int64.ofInt_int32ToInt]

/-- To what is a coordinate any difference is added exactly. -/
lemma addsExactly_of_isCoordinate {n : ℤ} (fits : IsCoordinate n) (difference : Int32) :
    AddsExactly n difference := by
  obtain ⟨nonneg, small⟩ := fits
  have lo := difference.le_toInt
  have hi := difference.toInt_lt
  have scaled : upscale64 (Int64.ofInt (n + difference.toInt)) =
      Int64.ofInt ((n + difference.toInt) * 32) := by
    rw [upscale64_eq, Int64.ofInt_mul]
    rfl
  refine ⟨⟨by omega, by omega⟩, ⟨by omega, by omega⟩, ?_, ?_, ?_⟩
  · rw [RoadAtlas.upscale_eq]
    omega
  · rw [ofInt_add_toInt64, Int64.toInt_ofInt_of_le (by omega) (by omega)]
  · rw [ofInt_add_toInt64, scaled, RoadAtlas.upscale_eq, Int64.toInt_ofInt_of_le (by omega) (by omega)]

/-! ### Points of a road -/

namespace RoadRecord

variable {data : ByteArray} {c c₁ : Cursor} {base : Point} {points found : Array Point}
  {state : (Int × Int) × Array Point} {differences front : List (Int32 × Int32)}
  {difference : Int32 × Int32} {more : List Point}

/-- A sum stands for a coordinate that is on the coarse grid. -/
def OnGrid (n : ℤ) : Prop := IsCoordinate (upscale n)

instance (n : ℤ) : Decidable (OnGrid n) := instDecidableAnd

lemma fromGrid_eq_ok_iff {n : ℤ} {v : UInt32} : fromGrid n = .ok v ↔ (v.toNat : ℤ) = upscale n := by
  rw [← toCoordinate?_eq_some_iff, fromGrid, upscale]
  cases toCoordinate? (n <<< Format.coordinateShift.toNat) with
  | none => constructor <;> rintro ⟨⟩
  | some w => simp only [Except.ok.injEq, Option.some.injEq]

lemma fromGrid_eq_error {n : ℤ} (outside : ¬ OnGrid n) :
    fromGrid n = .error (.dangling (.roadPoint n)) := by
  have none : toCoordinate? (n <<< Format.coordinateShift.toNat) = none :=
    toCoordinate?_eq_none outside
  rw [fromGrid, none]

lemma exists_fromGrid {n : ℤ} (inside : OnGrid n) : ∃ v, fromGrid n = .ok v := by
  have place : ((UInt32.ofNat (upscale n).toNat).toNat : ℤ) = upscale n := by
    have small : (upscale n).toNat < 2 ^ 32 := by have := inside.2; omega
    rw [UInt32.toNat_ofNat_of_lt' small, Int.toNat_of_nonneg inside.1]
  exact ⟨_, fromGrid_eq_ok_iff.mpr place⟩

/-- A point is made of sums that are on the grid, and lies at what they stand for. -/
lemma pointFromGrid_eq_ok_iff {x y : ℤ} {p : Point} :
    pointFromGrid x y = .ok p ↔ p.LiesAt (upscale x) (upscale y) := by
  simp only [pointFromGrid, bind_eq_ok, fromGrid_eq_ok_iff]
  constructor
  · rintro ⟨px, hx, py, hy, ⟨⟩⟩
    exact ⟨hx, hy⟩
  · rintro ⟨hx, hy⟩
    exact ⟨p.x, hx, p.y, hy, rfl⟩

/-- Otherwise the first sum that is not on the grid is at fault. -/
lemma pointFromGrid_eq_error {x y n : ℤ} (amiss : FirstAmiss OnGrid (x, y) n) :
    pointFromGrid x y = .error (.dangling (.roadPoint n)) := by
  rcases amiss with ⟨outside, rfl⟩ | ⟨inside, outside, rfl⟩
  · rw [pointFromGrid, fromGrid_eq_error outside]
    rfl
  · obtain ⟨px, first⟩ := exists_fromGrid inside
    rw [pointFromGrid, first, fromGrid_eq_error outside]
    rfl

/-! ### Sums -/

/-- Reads a difference, given the number of its horizontal part. -/
def readDifference (lead : UInt32) : Decoder (Int32 × Int32) := do
  let dy ← sint32
  return (Zigzag.decode32 lead, dy)

/-- Goes on by a difference and puts the point that is reached behind those there are. -/
def addPoint (state : (Int × Int) × Array Point) (difference : Int32 × Int32) :
    Except DecodeError ((Int × Int) × Array Point) := do
  let x := state.1.1 + difference.1.toInt
  let y := state.1.2 + difference.2.toInt
  let point ← pointFromGrid x y
  return ((x, y), state.2.push point)

/-- A point is read as a difference that is gone on by. -/
lemma pointStep_eq : pointStep = putting readDifference addPoint := by
  funext lead ⟨⟨x, y⟩, points⟩
  simp only [pointStep, putting, readDifference, addPoint, bind_assoc, pure_bind]
  congr
  funext dy
  cases pointFromGrid (x + (Zigzag.decode32 lead).toInt) (y + dy.toInt) <;> rfl

/-- The exact sums behind some differences, from those of a base point on. -/
def gridSum (base : Point) (differences : List (Int32 × Int32)) : ℤ × ℤ :=
  ((gridOf base).1 + (differences.map fun d => d.1.toInt).sum,
    (gridOf base).2 + (differences.map fun d => d.2.toInt).sum)

lemma gridSum_concat (base : Point) (differences : List (Int32 × Int32))
    (difference : Int32 × Int32) : gridSum base (differences ++ [difference]) =
      ((gridSum base differences).1 + difference.1.toInt,
        (gridSum base differences).2 + difference.2.toInt) := by
  simp only [gridSum, List.map_append, List.sum_append, List.map_cons, List.map_nil, List.sum_cons,
    List.sum_nil, Int.add_zero, Int.add_assoc]

/-- Points that lie where the sums of as many differences do, each at the sum of those up to its
own. -/
inductive SumsTo (base : Point) : List (Int32 × Int32) → List Point → Prop
  | none : SumsTo base [] []
  | more {front : List (Int32 × Int32)} {difference : Int32 × Int32} {points : List Point} {p : Point}
      (earlier : SumsTo base front points)
      (here : p.LiesAt (upscale (gridSum base (front ++ [difference])).1)
        (upscale (gridSum base (front ++ [difference])).2)) :
      SumsTo base (front ++ [difference]) (points ++ [p])

/-- Both sums behind some differences are on the grid. -/
def SumOnGrid (base : Point) (differences : List (Int32 × Int32)) : Prop :=
  OnGrid (gridSum base differences).1 ∧ OnGrid (gridSum base differences).2

lemma onGrid_gridOf (p : Point) : OnGrid (gridOf p).1 ∧ OnGrid (gridOf p).2 := by
  have := p.x.toNat_lt
  have := p.y.toNat_lt
  simp only [OnGrid, IsCoordinate, upscale_eq, gridOf, shiftRight_coordinateShift]
  omega

/-- A difference leads to a new point where the sums behind it are on the grid. -/
lemma addPoint_eq_ok_iff : addPoint (gridSum base front, points) difference = .ok state ↔
    ∃ p : Point, p.LiesAt (upscale (gridSum base (front ++ [difference])).1)
      (upscale (gridSum base (front ++ [difference])).2) ∧
        state = (gridSum base (front ++ [difference]), points.push p) := by
  simp only [addPoint, bind_eq_ok, pointFromGrid_eq_ok_iff, gridSum_concat]
  refine exists_congr fun p => and_congr_right fun _ => ?_
  constructor
  · rintro ⟨⟩
    rfl
  · rintro rfl
    rfl

/-- A point list is read as far as its sums are on the grid, and each of its points lies where the
sums do. -/
lemma foldlM_addPoint_eq_ok_iff : differences.foldlM addPoint (gridOf base, points) = .ok state ↔
    ∃ more, SumsTo base differences more ∧
      state = (gridSum base differences, points ++ more.toArray) := by
  have start : gridSum base [] = gridOf base := by
    simp only [gridSum, List.map_nil, List.sum_nil, Int.add_zero]
  constructor
  · intro folded
    induction differences using List.reverseRecOn generalizing state with
    | nil =>
      cases folded
      exact ⟨[], .none, by simp [start]⟩
    | append_singleton front difference ih =>
      obtain ⟨before, folded, last⟩ := foldlM_concat_eq_ok.mp folded
      obtain ⟨more, sums, rfl⟩ := ih folded
      obtain ⟨p, here, rfl⟩ := addPoint_eq_ok_iff.mp last
      exact ⟨more ++ [p], sums.more here, by simp⟩
  · rintro ⟨more, sums, rfl⟩
    induction sums with
    | none => simp [start]; rfl
    | more earlier here ih =>
      refine foldlM_concat_eq_ok.mpr ⟨_, ih, addPoint_eq_ok_iff.mpr ⟨_, here, ?_⟩⟩
      simp

/-- Differences whose sums are all on the grid lead to points. -/
lemma exists_sumsTo (fits : ∀ front difference, front ++ [difference] <+: differences →
    SumOnGrid base (front ++ [difference])) : ∃ more, SumsTo base differences more := by
  induction differences using List.reverseRecOn with
  | nil => exact ⟨[], .none⟩
  | append_singleton front difference ih =>
    obtain ⟨more, sums⟩ := ih fun front difference before =>
      fits front difference (before.trans (List.prefix_append _ _))
    obtain ⟨⟨x, hx⟩, ⟨y, hy⟩⟩ := (fits front difference (List.prefix_refl _)).imp
      exists_fromGrid exists_fromGrid
    exact ⟨more ++ [⟨x, y⟩], sums.more ⟨fromGrid_eq_ok_iff.mp hx, fromGrid_eq_ok_iff.mp hy⟩⟩

/-- The first difference behind which a sum is not on the grid is at fault. -/
lemma foldlM_addPoint_failed {behind : List (Int32 × Int32)} {n : ℤ} (points : Array Point)
    (sums : SumsTo base front more)
    (amiss : FirstAmiss OnGrid (gridSum base (front ++ [difference])) n) :
    (front ++ difference :: behind).foldlM addPoint (gridOf base, points) =
      .error (.dangling (.roadPoint n)) := by
  have folded := foldlM_addPoint_eq_ok_iff.mpr ⟨more, sums, Eq.refl (_, points ++ more.toArray)⟩
  rw [gridSum_concat] at amiss
  rw [List.foldlM_append, folded, bind_eq_error]
  refine .inr ⟨_, rfl, ?_⟩
  rw [List.foldlM_cons, addPoint, pointFromGrid_eq_error amiss]
  rfl

/-! ### Rounds -/

/-- The repetition over a point list has made some rounds where as many differences have been read
and all sums were on the grid. -/
lemma roundsTo_pointStep_iff {n : ℕ} :
    RoundsTo neverEnds pointStep data c (gridOf base, points) n c₁ state ↔
      ∃ differences more, Items neverEnds readDifference data c differences c₁ ∧
        differences.length = n ∧ SumsTo base differences more ∧
          state = (gridSum base differences, points ++ more.toArray) := by
  rw [pointStep_eq, roundsTo_putting_iff]
  refine exists_congr fun differences => ?_
  simp only [foldlM_addPoint_eq_ok_iff, exists_and_left]

/-- The points that a point list adds lie at the sums of the differences in its region. -/
lemma exists_sumsTo_of_readPoints (h : (readPoints base points).eval data c = .ok found) :
    ∃ length start differences more c₁, LengthAt data c length start ∧
      Items neverEnds readDifference data ⟨start, start + length⟩ differences c₁ ∧
      SumsTo base differences more ∧ found = points ++ more.toArray := by
  obtain ⟨next, reach, done⟩ := eval_eq_ok_iff.mp h
  obtain ⟨length, start, counted, -, stopped, inner, -⟩ := sized_ends_iff.mp ⟨reach, done⟩
  rw [run_map, run_entries_eq] at inner
  obtain ⟨reach', done'⟩ := inner
  obtain ⟨state, gathered, rfl⟩ := Outcome.map_eq_done done'
  obtain ⟨n, c₁, run, -⟩ := exists_roundsTo_of_ends ⟨reach', gathered⟩
  obtain ⟨differences, more, held, -, sums, rfl⟩ := roundsTo_pointStep_iff.mp run
  exact ⟨length, start, differences, more, c₁, counted, held, sums, rfl⟩

/-- A point list fails at its first sum that is not on the grid. -/
lemma readPoints_failed {length start : ℕ} {behind : List (Int32 × Int32)} {n : ℤ}
    (counted : LengthAt data c length start) (inside : start + length ≤ c.limit)
    (held : Items neverEnds readDifference data ⟨start, start + length⟩
      (front ++ difference :: behind) c₁)
    (fits : ∀ front' difference', front' ++ [difference'] <+: front →
      SumOnGrid base (front' ++ [difference']))
    (amiss : FirstAmiss OnGrid (gridSum base (front ++ [difference])) n) :
    (readPoints base points).eval data c = .error (.dangling (.roadPoint n)) := by
  obtain ⟨more, sums⟩ := exists_sumsTo fits
  refine eval_sized_error counted inside ?_
  have failed := putting_failed held (foldlM_addPoint_failed points sums amiss)
  rw [eval_map, eval, run_entries_eq, pointStep_eq, Outcome.toExcept_map, failed]
  rfl

/-- What a sum is added to is on the grid. -/
lemma OnGrid.isCoordinate {n : ℤ} (inside : OnGrid n) : IsCoordinate n := by
  obtain ⟨nonneg, small⟩ := inside
  rw [upscale_eq] at nonneg small
  exact ⟨by omega, by omega⟩

/-! ### In 64-bit words -/

/-- A coordinate of the coarse grid, in a word, as one of the full grid. -/
def fromGrid64 (n : Int64) : Except DecodeError UInt32 :=
  match toCoordinate64? (upscale64 n) with
  | some value => .ok value
  | none => .error (.dangling (.roadPoint n.toInt))

/-- The point at words of the coarse grid. -/
def pointFromGrid64 (x y : Int64) : Except DecodeError Point := do
  let px ← fromGrid64 x
  let py ← fromGrid64 y
  return ⟨px, py⟩

/-- Where the sums of a point list start, in words. -/
def gridOf64 (p : Point) : Int64 × Int64 :=
  (Int64.ofNat (p.x >>> Format.coordinateShift).toNat,
    Int64.ofNat (p.y >>> Format.coordinateShift).toNat)

/-- Reads a point; sums that leave a word wrap around. -/
def pointStep64 (lead : UInt32) (state : (Int64 × Int64) × Array Point) :
    Decoder ((Int64 × Int64) × Array Point) := do
  let ((x, y), points) := state
  let x := x + (Zigzag.decode32 lead).toInt64
  let dy ← sint32
  let y := y + dy.toInt64
  let point ← ofExcept (pointFromGrid64 x y)
  return ((x, y), points.push point)

/-- Reads a point list; sums that leave a word wrap around. -/
def readPoints64 (base : Point) (points : Array Point) : Decoder (Array Point) :=
  sized (Prod.snd <$> entries (gridOf64 base, points) pointStep64)

/-- Sums in words, with the points found by them. -/
def inWords (state : (Int × Int) × Array Point) : (Int64 × Int64) × Array Point :=
  ((Int64.ofInt state.1.1, Int64.ofInt state.1.2), state.2)

lemma pointFromGrid64_eq {x y : ℤ} {dx dy : Int32} (hx : AddsExactly x dx) (hy : AddsExactly y dy) :
    pointFromGrid64 (Int64.ofInt x + dx.toInt64) (Int64.ofInt y + dy.toInt64) =
      pointFromGrid (x + dx.toInt) (y + dy.toInt) := by
  have exact {n : ℤ} {d : Int32} (h : AddsExactly n d) :
      fromGrid64 (Int64.ofInt n + d.toInt64) = fromGrid (n + d.toInt) := by
    rw [fromGrid64, toCoordinate64?_eq, h.upscale_eq, h.sum_eq]
    rfl
  rw [pointFromGrid64, pointFromGrid, exact hx, exact hy]

/-- From sums on the grid, a point is read in words as it is without them. -/
lemma pointStep64_eq (lead : UInt32) (hx : OnGrid state.1.1) (hy : OnGrid state.1.2) :
    pointStep64 lead (inWords state) = inWords <$> pointStep lead state := by
  obtain ⟨⟨x, y⟩, found⟩ := state
  simp only [pointStep64, pointStep, inWords, map_bind, map_pure]
  congr
  funext dy
  rw [pointFromGrid64_eq (addsExactly_of_isCoordinate hx.isCoordinate _)
    (addsExactly_of_isCoordinate hy.isCoordinate dy), ofInt_add_toInt64, ofInt_add_toInt64]

/-- Behind every point that was read, the sums are on the grid. -/
lemma onGrid_of_pointStep {lead : UInt32} {state' : (Int × Int) × Array Point}
    (h : ((pointStep lead state).run data c).Ends state' c₁) :
    OnGrid state'.1.1 ∧ OnGrid state'.1.2 := by
  rw [pointStep_eq, putting, bind_ends_iff] at h
  obtain ⟨difference, mid, -, h⟩ := h
  obtain ⟨h, -⟩ := ofExcept_ends_iff.mp h
  obtain ⟨p, made, h⟩ := bind_eq_ok.mp h
  cases h
  obtain ⟨hx, hy⟩ := pointFromGrid_eq_ok_iff.mp made
  constructor
  · rw [OnGrid, ← hx]
    exact isCoordinate_toNat p.x
  · rw [OnGrid, ← hy]
    exact isCoordinate_toNat p.y

/-- At every place that the repetition comes to, the sums are on the grid. -/
lemma onGrid_of_roundsTo {n : ℕ}
    (run : RoundsTo neverEnds pointStep data c (gridOf base, points) n c₁ state) :
    OnGrid state.1.1 ∧ OnGrid state.1.2 :=
  run.ensures (P := fun state => OnGrid state.1.1 ∧ OnGrid state.1.2)
    (fun _ _ _ _ _ _ _ h => onGrid_of_pointStep h) (onGrid_gridOf base)

/-- Nothing is lost in words. -/
lemma readPoints64_eq (base : Point) (points : Array Point) :
    readPoints64 base points = readPoints base points := by
  have start : (gridOf64 base, points) = inWords (gridOf base, points) := rfl
  have whole : entries (gridOf64 base, points) pointStep64 =
      inWords <$> entries (gridOf base, points) pointStep := by
    rw [start]
    refine entries_map_of (fun state => OnGrid state.1.1 ∧ OnGrid state.1.2) ?_ ?_ (onGrid_gridOf base)
    · exact fun lead state inside => pointStep64_eq lead inside.1 inside.2
    · exact fun _ _ _ _ _ _ _ h => onGrid_of_pointStep h
  rw [readPoints64, readPoints, whole, Functor.map_map]
  rfl

/-! ### Exactness -/

/-- What it is for the points of a road to be exact, read anywhere, from any base on, behind any
points that there are. -/
structure SumsExactly (data : ByteArray) (c : Cursor) (base : Point) (points : Array Point) :
    Prop where
  /-- The repetition comes to the exact sums of the differences in its way, if they are on the grid
  at every point, and to the points there. -/
  reached n c₁ state : RoundsTo neverEnds pointStep data c (gridOf base, points) n c₁ state ↔
    ∃ differences more, Items neverEnds readDifference data c differences c₁ ∧
      differences.length = n ∧ SumsTo base differences more ∧
      state = (gridSum base differences, points ++ more.toArray)
  /-- To the sums any difference is added exactly. -/
  addsExactly n c₁ state : RoundsTo neverEnds pointStep data c (gridOf base, points) n c₁ state →
    ∀ difference, AddsExactly state.1.1 difference ∧ AddsExactly state.1.2 difference
  /-- The points that are read lie at the sums of the differences in the region. -/
  read found : (readPoints base points).eval data c = .ok found →
    ∃ length start differences more c₁, LengthAt data c length start ∧
      Items neverEnds readDifference data ⟨start, start + length⟩ differences c₁ ∧
      SumsTo base differences more ∧ found = points ++ more.toArray
  /-- Reading fails at the first point of which a sum is not on the grid. -/
  failed length start front difference behind c₁ n : LengthAt data c length start →
    start + length ≤ c.limit →
    Items neverEnds readDifference data ⟨start, start + length⟩ (front ++ difference :: behind) c₁ →
    (∀ front' difference', front' ++ [difference'] <+: front →
      SumOnGrid base (front' ++ [difference'])) →
    FirstAmiss OnGrid (gridSum base (front ++ [difference])) n →
    (readPoints base points).eval data c = .error (.dangling (.roadPoint n))
  /-- In words that wrap around, the same is read. -/
  words : readPoints64 base points = readPoints base points

end RoadRecord

end RoadAtlas
