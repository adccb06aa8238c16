import RoadAtlas.Proofs.Network.BorderReading
import RoadAtlas.Proofs.Network.Nesting
import RoadAtlas.Proofs.Network.PointSums

/-!
Border points as running sums. The points of a line are stored as differences, among fields that
give a base for one of the coordinates or for the road ids, at any place and as often as they like.
A sum counts the differences since the last base of its own. A coordinate is looked at whenever a
point is, so that its sum stays small; the sum of the road ids is one of words and wraps around.

* `LineField`: the fields of the points of a line; `sumSince` is a base with what came since;
* `BorderTrail.Located`: border points where the sums up to their fields are;
* `foldlM_put_eq_ok_iff`, `foldlM_put_failed`: the points of a line are read up to the first sum that
  is no coordinate;
* `BorderTrail.decoder64`: the same reader in words that wrap around, and `decoder64_eq`;
* `running_sums_are_exact` says all this of the points of roads and of border lines.
-/

namespace RoadAtlas

open Decoder

/-! ### The fields of a line -/

/-- A field of the points of a line. -/
inductive LineField where
  | x (value : UInt32)
  | y (value : UInt32)
  | baseId (id : UInt64)
  | point (r : BorderRecord)
  | other

namespace LineField

/-- Reads what a tag leads. -/
def read (t : Tag) : Decoder LineField := do
  match t.field with
  | Format.BorderBlock.x =>
    let value ← varint32
    return .x value
  | Format.BorderBlock.y =>
    let value ← varint32
    return .y value
  | Format.BorderBlock.baseId =>
    let id ← varint
    return .baseId id
  | Format.BorderBlock.point =>
    let record ← BorderRecord.decoder
    return .point record
  | _ =>
    skipField t
    return .other

/-- A base of the horizontal sum. -/
def baseX? : LineField → Option ℤ
  | .x value => some value.toNat
  | _ => none

/-- A base of the vertical sum. -/
def baseY? : LineField → Option ℤ
  | .y value => some value.toNat
  | _ => none

/-- A base of the road ids. -/
def baseId? : LineField → Option Int64
  | .baseId id => some id.toInt64
  | _ => none

/-- What a field adds to the horizontal sum. -/
def addedX : LineField → ℤ
  | .point r => r.dx.toInt
  | _ => 0

/-- What a field adds to the vertical sum. -/
def addedY : LineField → ℤ
  | .point r => r.dy.toInt
  | _ => 0

/-- What a field adds to the road id. -/
def addedId : LineField → Int64
  | .point r => r.idDelta
  | _ => 0

end LineField

/-! ### Sums since a base -/

section Since

variable {ι M : Type} [Add M] (base? : ι → Option M) (added : ι → M) (initial : M)

/-- The last base among some fields, with what the fields behind it add; from `initial` on if there
is no base. -/
def sumSince (fields : List ι) : M :=
  ((fields.reverse.takeWhile fun f => (base? f).isNone).reverse.map added).foldl (· + ·)
    ((fields.reverse.findSome? base?).getD initial)

variable {base? added initial}

/-- A base starts a sum anew, and any other field adds to it. -/
lemma sumSince_concat {fields : List ι} {f : ι} :
    sumSince base? added initial (fields ++ [f]) =
      (base? f).getD (sumSince base? added initial fields + added f) := by
  cases is : base? f <;> simp [sumSince, is]

end Since

/-! ### Points of a line -/

namespace BorderTrail

variable {sectionId : ℕ} {query : Option Area} {trail : BorderTrail} {data : ByteArray}
  {c c₁ : Cursor} {fields front behind : List LineField} {points : List BorderPoint}
  {r : BorderRecord} {n : ℤ} {trail' : BorderTrail}

/-- Goes on by a field that was read. -/
def put (sectionId : ℕ) (query : Option Area) (trail : BorderTrail) :
    LineField → Except DecodeError BorderTrail
  | .x value => .ok { trail with x := value.toNat }
  | .y value => .ok { trail with y := value.toNat }
  | .baseId id => .ok { trail with roadId := id.toInt64 }
  | .point r => trail.advance sectionId query r
  | .other => .ok trail

/-- A field is read as one that is gone on by. -/
lemma step_eq (t : Tag) : step sectionId query t trail = (do
    let field ← LineField.read t
    Decoder.ofExcept (trail.put sectionId query field)) := by
  rw [step]
  split
  next field => simp only [LineField.read, field, bind_assoc, pure_bind]; rfl
  next field => simp only [LineField.read, field, bind_assoc, pure_bind]; rfl
  next field => simp only [LineField.read, field, bind_assoc, pure_bind]; rfl
  next field => simp only [LineField.read, field, bind_assoc, pure_bind]; rfl
  next x y baseId point =>
    simp only [LineField.read, bind_assoc, pure_bind]
    rfl

lemma byTag_step (sectionId : ℕ) (query : Option Area) :
    byTag (step sectionId query) = putting (byTag LineField.read) (put sectionId query) :=
  funext fun lead => funext fun _ => step_eq (Tag.ofWord lead)

lemma coordinate_eq_ok_iff {v : UInt32} : coordinate n = .ok v ↔ (v.toNat : ℤ) = n := by
  rw [← toCoordinate?_eq_some_iff, coordinate]
  cases toCoordinate? n with
  | none => constructor <;> rintro ⟨⟩
  | some w => simp only [Except.ok.injEq, Option.some.injEq]

lemma coordinate_eq_error (outside : ¬ IsCoordinate n) :
    coordinate n = .error (.dangling (.borderPoint n)) := by
  rw [coordinate, toCoordinate?_eq_none outside]

lemma exists_coordinate (inside : IsCoordinate n) : ∃ v, coordinate n = .ok v := by
  have small : n.toNat < 2 ^ 32 := by have := inside.2; omega
  have place : ((UInt32.ofNat n.toNat).toNat : ℤ) = n := by
    rw [UInt32.toNat_ofNat_of_lt' small, Int.toNat_of_nonneg inside.1]
  exact ⟨_, coordinate_eq_ok_iff.mpr place⟩

/-! ### Sums -/

/-- The exact horizontal sum behind some fields. -/
def sumX (fields : List LineField) : ℤ := sumSince LineField.baseX? LineField.addedX 0 fields

/-- The exact vertical sum behind some fields. -/
def sumY (fields : List LineField) : ℤ := sumSince LineField.baseY? LineField.addedY 0 fields

/-- The road id behind some fields, a sum of words. -/
def sumId (fields : List LineField) : Int64 :=
  sumSince LineField.baseId? LineField.addedId 0 fields

/-- Border points that lie where the sums up to their own fields do, one for each field of a
point. -/
inductive Located (sectionId : ℕ) : List LineField → List BorderPoint → Prop
  | none : Located sectionId [] []
  | point {front : List LineField} {points : List BorderPoint} {r : BorderRecord} {location : Point}
      (earlier : Located sectionId front points)
      (here : location.LiesAt (sumX (front ++ [.point r])) (sumY (front ++ [.point r]))) :
      Located sectionId (front ++ [.point r])
        (points ++ [⟨sectionId, sumId (front ++ [.point r]), location, r.direction, r.types⟩])
  | other {front : List LineField} {points : List BorderPoint} {f : LineField}
      (earlier : Located sectionId front points) (apart : ∀ r, f ≠ .point r) :
      Located sectionId (front ++ [f]) points

/-- The sums behind some fields, and of their points those in the query area. -/
def behindFields (query : Option Area) (fields : List LineField) (points : List BorderPoint) :
    BorderTrail where
  x := sumX fields
  y := sumY fields
  roadId := sumId fields
  points := (points.filter fun p => query.all fun area => area.contains p.location).toArray

/-- The sums go on to a point where they are coordinates. -/
lemma advance_eq_ok_iff : trail.advance sectionId query r = .ok trail' ↔
    ∃ location : Point, location.LiesAt (trail.x + r.dx.toInt) (trail.y + r.dy.toInt) ∧
      trail' = ⟨trail.x + r.dx.toInt, trail.y + r.dy.toInt, trail.roadId + r.idDelta,
        if query.all fun area => area.contains location
        then trail.points.push
          ⟨sectionId, trail.roadId + r.idDelta, location, r.direction, r.types⟩
        else trail.points⟩ := by
  simp only [advance, bind_eq_ok, coordinate_eq_ok_iff]
  constructor
  · rintro ⟨x, hx, y, hy, ⟨⟩⟩
    exact ⟨⟨x, y⟩, ⟨hx, hy⟩, rfl⟩
  · rintro ⟨location, ⟨hx, hy⟩, rfl⟩
    exact ⟨location.x, hx, location.y, hy, rfl⟩

/-- Otherwise the first sum that is no coordinate is at fault. -/
lemma advance_eq_error
    (amiss : FirstAmiss IsCoordinate (trail.x + r.dx.toInt, trail.y + r.dy.toInt) n) :
    trail.advance sectionId query r = .error (.dangling (.borderPoint n)) := by
  rcases amiss with ⟨outside, rfl⟩ | ⟨inside, outside, rfl⟩
  · simp only [advance, coordinate_eq_error outside]
    rfl
  · obtain ⟨x, first⟩ := exists_coordinate inside
    simp only [advance, first, coordinate_eq_error outside]
    rfl

lemma sumX_concat (front : List LineField) (f : LineField) :
    sumX (front ++ [f]) = f.baseX?.getD (sumX front + f.addedX) := sumSince_concat

lemma sumY_concat (front : List LineField) (f : LineField) :
    sumY (front ++ [f]) = f.baseY?.getD (sumY front + f.addedY) := sumSince_concat

lemma sumId_concat (front : List LineField) (f : LineField) :
    sumId (front ++ [f]) = f.baseId?.getD (sumId front + f.addedId) := sumSince_concat

/-- From the sums behind some fields, a point is gone on by where the sums behind it are
coordinates. -/
lemma put_point_eq_ok_iff :
    (behindFields query front points).put sectionId query (.point r) = .ok trail ↔
      ∃ location : Point,
        location.LiesAt (sumX (front ++ [.point r])) (sumY (front ++ [.point r])) ∧
          trail = behindFields query (front ++ [.point r])
            (points ++ [⟨sectionId, sumId (front ++ [.point r]), location, r.direction, r.types⟩]) := by
  rw [put, advance_eq_ok_iff]
  refine exists_congr fun location => ?_
  simp only [behindFields, sumX_concat, sumY_concat, sumId_concat, LineField.baseX?,
    LineField.baseY?, LineField.baseId?, LineField.addedX, LineField.addedY, LineField.addedId,
    Option.getD_none, List.filter_append, List.filter_cons, List.filter_nil]
  split
  · rw [List.push_toArray]
  · rw [List.append_nil]

/-- From the sums behind some fields, any field but a point is gone on by. -/
lemma put_other {f : LineField} (apart : ∀ r, f ≠ .point r) :
    (behindFields query front points).put sectionId query f =
      .ok (behindFields query (front ++ [f]) points) := by
  cases f with
  | point r => exact absurd rfl (apart r)
  | x value | y value | baseId value | other =>
    simp only [put, behindFields, sumX_concat, sumY_concat, sumId_concat, LineField.baseX?,
      LineField.baseY?, LineField.baseId?, LineField.addedX, LineField.addedY, LineField.addedId,
      Option.getD_none, Option.getD_some, Int.add_zero, Int64.add_zero]

/-- The points of a line are read as far as their sums are coordinates, and lie where these are. -/
lemma foldlM_put_eq_ok_iff : fields.foldlM (put sectionId query) {} = .ok trail ↔
    ∃ points, Located sectionId fields points ∧ trail = behindFields query fields points := by
  constructor
  · intro folded
    induction fields using List.reverseRecOn generalizing trail with
    | nil =>
      cases folded
      exact ⟨[], .none, rfl⟩
    | append_singleton front f ih =>
      obtain ⟨before, folded, last⟩ := foldlM_concat_eq_ok.mp folded
      obtain ⟨points, located, rfl⟩ := ih folded
      by_cases isPoint : ∃ r, f = .point r
      · obtain ⟨r, rfl⟩ := isPoint
        obtain ⟨location, here, rfl⟩ := put_point_eq_ok_iff.mp last
        exact ⟨_, located.point here, rfl⟩
      · have apart (r : BorderRecord) (is : f = .point r) : False := isPoint ⟨r, is⟩
        rw [put_other apart] at last
        cases last
        exact ⟨points, located.other apart, rfl⟩
  · rintro ⟨points, located, rfl⟩
    induction located with
    | none => rfl
    | point earlier here ih =>
      exact foldlM_concat_eq_ok.mpr ⟨_, ih, put_point_eq_ok_iff.mpr ⟨_, here, rfl⟩⟩
    | other earlier apart ih => exact foldlM_concat_eq_ok.mpr ⟨_, ih, put_other apart⟩

/-- Both sums behind some fields are coordinates. -/
def SumsFit (fields : List LineField) : Prop :=
  IsCoordinate (sumX fields) ∧ IsCoordinate (sumY fields)

/-- Fields of which all points have coordinates for sums lead to points. -/
lemma exists_located (sectionId : ℕ) (fits : ∀ front r, front ++ [.point r] <+: fields →
    SumsFit (front ++ [.point r])) : ∃ points, Located sectionId fields points := by
  induction fields using List.reverseRecOn with
  | nil => exact ⟨[], .none⟩
  | append_singleton front f ih =>
    obtain ⟨points, located⟩ := ih fun earlier r before =>
      fits earlier r (before.trans (List.prefix_append _ _))
    by_cases isPoint : ∃ r, f = .point r
    · obtain ⟨r, rfl⟩ := isPoint
      obtain ⟨⟨x, hx⟩, ⟨y, hy⟩⟩ := (fits front r (List.prefix_refl _)).imp
        exists_coordinate exists_coordinate
      have here : Point.LiesAt ⟨x, y⟩ (sumX (front ++ [.point r])) (sumY (front ++ [.point r])) :=
        ⟨coordinate_eq_ok_iff.mp hx, coordinate_eq_ok_iff.mp hy⟩
      exact ⟨_, located.point here⟩
    · exact ⟨points, located.other fun r is => isPoint ⟨r, is⟩⟩

/-- The first point of which a sum is no coordinate is at fault. -/
lemma foldlM_put_failed (query : Option Area) (located : Located sectionId front points)
    (amiss : FirstAmiss IsCoordinate (sumX (front ++ [.point r]), sumY (front ++ [.point r])) n) :
    (front ++ .point r :: behind).foldlM (put sectionId query) {} =
      .error (.dangling (.borderPoint n)) := by
  have x : sumX (front ++ [.point r]) = sumX front + r.dx.toInt := sumX_concat front _
  have y : sumY (front ++ [.point r]) = sumY front + r.dy.toInt := sumY_concat front _
  have folded := foldlM_put_eq_ok_iff.mpr
    ⟨points, located, Eq.refl (behindFields query front points)⟩
  rw [x, y] at amiss
  rw [List.foldlM_append, folded, bind_eq_error]
  refine .inr ⟨_, rfl, ?_⟩
  rw [List.foldlM_cons, put, advance_eq_error amiss]
  rfl

/-- Whatever field is gone on by, the sums are coordinates if they were. -/
lemma isCoordinate_of_put {f : LineField} (hx : IsCoordinate trail.x) (hy : IsCoordinate trail.y)
    (h : trail.put sectionId query f = .ok trail') :
    IsCoordinate trail'.x ∧ IsCoordinate trail'.y := by
  cases f with
  | x value =>
    cases h
    exact ⟨isCoordinate_toNat value, hy⟩
  | y value =>
    cases h
    exact ⟨hx, isCoordinate_toNat value⟩
  | baseId value =>
    cases h
    exact ⟨hx, hy⟩
  | point r =>
    obtain ⟨location, ⟨px, py⟩, rfl⟩ := advance_eq_ok_iff.mp h
    rw [← px, ← py]
    exact ⟨isCoordinate_toNat location.x, isCoordinate_toNat location.y⟩
  | other =>
    cases h
    exact ⟨hx, hy⟩

/-- Behind every field that was read, the sums are coordinates. -/
lemma isCoordinate_of_step {t : Tag} (hx : IsCoordinate trail.x) (hy : IsCoordinate trail.y)
    (h : ((step sectionId query t trail).run data c).Ends trail' c₁) :
    IsCoordinate trail'.x ∧ IsCoordinate trail'.y := by
  rw [step_eq, bind_ends_iff] at h
  obtain ⟨f, mid, -, h⟩ := h
  exact isCoordinate_of_put hx hy (ofExcept_ends_iff.mp h).1

/-! ### Rounds -/

/-- The repetition over the points of a line has made some rounds where as many fields have been
read and the sums of all points were coordinates. -/
lemma roundsTo_step_iff {rounds : ℕ} :
    RoundsTo endsMessage (byTag (step sectionId query)) data c {} rounds c₁ trail ↔
      ∃ fields points, Items endsMessage (byTag LineField.read) data c fields c₁ ∧
        fields.length = rounds ∧ Located sectionId fields points ∧
          trail = behindFields query fields points := by
  rw [byTag_step, roundsTo_putting_iff]
  refine exists_congr fun fields => ?_
  simp only [foldlM_put_eq_ok_iff, exists_and_left]

/-- At every place that the repetition comes to, the sums are coordinates. -/
lemma isCoordinate_of_roundsTo {rounds : ℕ}
    (run : RoundsTo endsMessage (byTag (step sectionId query)) data c {} rounds c₁ trail) :
    IsCoordinate trail.x ∧ IsCoordinate trail.y :=
  run.ensures (P := fun trail => IsCoordinate trail.x ∧ IsCoordinate trail.y)
    (fun _ _ _ _ _ _ inside h => isCoordinate_of_step inside.1 inside.2 h) ⟨by decide, by decide⟩

/-- The points that are read of a line lie at the sums behind their fields, and are those of them
in the query area. -/
lemma exists_located_of_decoder {found : Array BorderPoint}
    (h : (decoder sectionId query).eval data c = .ok found) :
    ∃ length start fields points c₁, LengthAt data c length start ∧
      Items endsMessage (byTag LineField.read) data ⟨start, start + length⟩ fields c₁ ∧
      Located sectionId fields points ∧
      found = (points.filter fun p => query.all fun area => area.contains p.location).toArray := by
  rw [decoder, eval_map] at h
  obtain ⟨trail, whole, rfl⟩ := map_eq_ok.mp h
  obtain ⟨next, reach, done⟩ := eval_eq_ok_iff.mp whole
  obtain ⟨length, start, counted, -, stopped, inner, -⟩ := sized_ends_iff.mp ⟨reach, done⟩
  rw [run_fields_eq] at inner
  obtain ⟨rounds, c₁, run, -⟩ := exists_roundsTo_of_ends inner
  obtain ⟨fields, points, held, -, located, rfl⟩ := roundsTo_step_iff.mp run
  exact ⟨length, start, fields, points, c₁, counted, held, located, rfl⟩

/-- The points of a line fail at the first of them of which a sum is no coordinate. -/
lemma decoder_failed {length start : ℕ} (counted : LengthAt data c length start)
    (inside : start + length ≤ c.limit)
    (held : Items endsMessage (byTag LineField.read) data ⟨start, start + length⟩
      (front ++ .point r :: behind) c₁)
    (fits : ∀ front' r', front' ++ [.point r'] <+: front → SumsFit (front' ++ [.point r']))
    (amiss : FirstAmiss IsCoordinate (sumX (front ++ [.point r]), sumY (front ++ [.point r])) n) :
    (decoder sectionId query).eval data c = .error (.dangling (.borderPoint n)) := by
  obtain ⟨points, located⟩ := exists_located sectionId fits
  have failed := putting_failed held (foldlM_put_failed query located amiss)
  have whole : (sized (Decoder.fields {} (step sectionId query))).eval data c =
      .error (.dangling (.borderPoint n)) := by
    refine eval_sized_error counted inside ?_
    rw [eval, run_fields_eq, byTag_step, Outcome.toExcept_map, failed]
    rfl
  rw [decoder, eval_map, whole]
  rfl

/-! ### In 64-bit words -/

/-- The sums up to the current point of a line, in words, and the points so far. -/
structure Words where
  x : Int64 := 0
  y : Int64 := 0
  roadId : Int64 := 0
  points : Array BorderPoint := #[]

/-- A border point's coordinate, from a word. -/
def coordinate64 (n : Int64) : Except DecodeError UInt32 :=
  match toCoordinate64? n with
  | some value => .ok value
  | none => .error (.dangling (.borderPoint n.toInt))

/-- Goes on to the next point; sums that leave a word wrap around. -/
def Words.advance (sectionId : ℕ) (query : Option Area) (trail : Words) (r : BorderRecord) :
    Except DecodeError Words := do
  let x := trail.x + r.dx.toInt64
  let y := trail.y + r.dy.toInt64
  let roadId := trail.roadId + r.idDelta
  let location : Point := ⟨← coordinate64 x, ← coordinate64 y⟩
  let kept := query.all fun area => area.contains location
  let point : BorderPoint := ⟨sectionId, roadId, location, r.direction, r.types⟩
  return ⟨x, y, roadId, if kept then trail.points.push point else trail.points⟩

/-- Goes on by a field that was read, in words. -/
def Words.put (sectionId : ℕ) (query : Option Area) (trail : Words) :
    LineField → Except DecodeError Words
  | .x value => .ok { trail with x := Int64.ofNat value.toNat }
  | .y value => .ok { trail with y := Int64.ofNat value.toNat }
  | .baseId id => .ok { trail with roadId := id.toInt64 }
  | .point r => trail.advance sectionId query r
  | .other => .ok trail

/-- Reads a field of the points of a line, in words. -/
def step64 (sectionId : ℕ) (query : Option Area) (t : Tag) (trail : Words) : Decoder Words := do
  let field ← LineField.read t
  Decoder.ofExcept (trail.put sectionId query field)

/-- Reads the points of a line; sums that leave a word wrap around. -/
def decoder64 (sectionId : ℕ) (query : Option Area) : Decoder (Array BorderPoint) :=
  Words.points <$> sized (Decoder.fields {} (step64 sectionId query))

/-- The sums of a trail as words. -/
def inWords (trail : BorderTrail) : Words :=
  ⟨Int64.ofInt trail.x, Int64.ofInt trail.y, trail.roadId, trail.points⟩

lemma coordinate64_eq {d : Int32} (h : AddsExactly n d) :
    coordinate64 (Int64.ofInt n + d.toInt64) = coordinate (n + d.toInt) := by
  rw [coordinate64, toCoordinate64?_eq, h.sum_eq]
  rfl

/-- From sums that are coordinates, a field is gone on by in words as it is without them. -/
lemma put_inWords (hx : IsCoordinate trail.x) (hy : IsCoordinate trail.y) (f : LineField) :
    (inWords trail).put sectionId query f = inWords <$> trail.put sectionId query f := by
  cases f with
  | x value | y value | baseId value | other => rfl
  | point r =>
    simp only [Words.put, put, Words.advance, advance, inWords]
    rw [coordinate64_eq (addsExactly_of_isCoordinate hx r.dx),
      coordinate64_eq (addsExactly_of_isCoordinate hy r.dy)]
    simp only [map_bind, map_pure, ofInt_add_toInt64]
    rfl

/-- Nothing is lost in words. -/
lemma decoder64_eq (sectionId : ℕ) (query : Option Area) :
    decoder64 sectionId query = decoder sectionId query := by
  have start : ({} : Words) = inWords {} := rfl
  have whole : Decoder.fields {} (step64 sectionId query) =
      inWords <$> Decoder.fields {} (step sectionId query) := by
    rw [start]
    refine fields_map_of (fun trail => IsCoordinate trail.x ∧ IsCoordinate trail.y) ?_ ?_
      ⟨by decide, by decide⟩
    · intro t trail inside
      simp only [step64, step_eq, put_inWords inside.1 inside.2, map_bind, map_ofExcept]
    · exact fun _ _ _ _ _ _ inside h => isCoordinate_of_step inside.1 inside.2 h
  rw [decoder64, decoder, whole, sized_map, Functor.map_map]
  rfl

/-! ### Exactness -/

/-- What it is for the points of border lines to be exact, read anywhere, for any query. -/
structure SumsExactly (data : ByteArray) (c : Cursor) (sectionId : ℕ) (query : Option Area) :
    Prop where
  /-- The repetition comes to the exact sums since the bases in force, if they are coordinates at
  every point, and to the points there. -/
  reached n c₁ trail : RoundsTo endsMessage (byTag (step sectionId query)) data c {} n c₁ trail ↔
    ∃ fields points, Items endsMessage (byTag LineField.read) data c fields c₁ ∧
      fields.length = n ∧ Located sectionId fields points ∧
      trail = behindFields query fields points
  /-- To the sums any difference is added exactly. -/
  addsExactly n c₁ trail : RoundsTo endsMessage (byTag (step sectionId query)) data c {} n c₁ trail →
    ∀ difference, AddsExactly trail.x difference ∧ AddsExactly trail.y difference
  /-- The points that are read lie at the sums behind their fields, and are those in the query
  area. -/
  read found : (decoder sectionId query).eval data c = .ok found →
    ∃ length start fields points c₁, LengthAt data c length start ∧
      Items endsMessage (byTag LineField.read) data ⟨start, start + length⟩ fields c₁ ∧
      Located sectionId fields points ∧
      found = (points.filter fun p => query.all fun area => area.contains p.location).toArray
  /-- Reading fails at the first point of which a sum is no coordinate. -/
  failed length start front r behind c₁ n : LengthAt data c length start →
    start + length ≤ c.limit →
    Items endsMessage (byTag LineField.read) data ⟨start, start + length⟩
      (front ++ .point r :: behind) c₁ →
    (∀ front' r', front' ++ [.point r'] <+: front → SumsFit (front' ++ [.point r'])) →
    FirstAmiss IsCoordinate (sumX (front ++ [.point r]), sumY (front ++ [.point r])) n →
    (decoder sectionId query).eval data c = .error (.dangling (.borderPoint n))
  /-- In words that wrap around, the same is read. -/
  words : decoder64 sectionId query = decoder sectionId query

end BorderTrail

/-- The sums of points never leave the range that 64-bit words keep exactly. Wherever the reader of
a point list or of the points of a line has come to, its sums are the exact sums of the differences
since the base in force, and no difference takes them out of bounds or loses a bit of them in words.
The points found lie at the exact sums, on the full grid for roads, and reading fails at the first
point of which a sum is out of range. -/
theorem running_sums_are_exact (data : ByteArray) (c : Cursor) :
    (∀ base points, RoadRecord.SumsExactly data c base points) ∧
      ∀ sectionId query, BorderTrail.SumsExactly data c sectionId query := by
  constructor
  · intro base points
    refine
      { reached := fun n c₁ state => RoadRecord.roundsTo_pointStep_iff
        addsExactly := fun n c₁ state run difference => ?_
        read := fun found => RoadRecord.exists_sumsTo_of_readPoints
        failed := fun _ _ _ _ _ _ _ counted inside held fits amiss =>
          RoadRecord.readPoints_failed counted inside held fits amiss
        words := RoadRecord.readPoints64_eq base points }
    obtain ⟨hx, hy⟩ := RoadRecord.onGrid_of_roundsTo run
    exact ⟨addsExactly_of_isCoordinate hx.isCoordinate difference,
      addsExactly_of_isCoordinate hy.isCoordinate difference⟩
  · intro sectionId query
    refine
      { reached := fun n c₁ trail => BorderTrail.roundsTo_step_iff
        addsExactly := fun n c₁ trail run difference => ?_
        read := fun found => BorderTrail.exists_located_of_decoder
        failed := fun _ _ _ _ _ _ _ counted inside held fits amiss =>
          BorderTrail.decoder_failed counted inside held fits amiss
        words := BorderTrail.decoder64_eq sectionId query }
    obtain ⟨hx, hy⟩ := BorderTrail.isCoordinate_of_roundsTo run
    exact ⟨addsExactly_of_isCoordinate hx difference, addsExactly_of_isCoordinate hy difference⟩

/-- A point of a road one step to the left of the grid. -/
def leftOfGrid : ByteArray := [2, 1, 0].toByteArray

/-- From the base (10, 10), a border point twenty to the left of it. -/
def leftOfBase : ByteArray := [14, 8, 10, 16, 10, 24, 40, 42, 6, 8, 39, 16, 0, 24, 1].toByteArray

/-- Neither a road nor a border line has points to the left of the grid. -/
theorem running_sums_are_exact_leftOfGrid :
    (RoadRecord.readPoints default #[]).eval leftOfGrid ⟨0, 3⟩ =
        .error (.dangling (.roadPoint (-1))) ∧
      (BorderTrail.decoder 0 none).eval leftOfBase ⟨0, 15⟩ =
        .error (.dangling (.borderPoint (-10))) := by
  constructor
  · have counted : LengthAt leftOfGrid ⟨0, 3⟩ 2 1 := ⟨2, ⟨⟨rfl, Nat.zero_le _⟩, rfl⟩, rfl⟩
    have step : Leads neverEnds RoadRecord.readDifference leftOfGrid ⟨1, 3⟩ (-1, 0) ⟨3, 3⟩ :=
      ⟨by decide, 1, ⟨2, 3⟩, ⟨⟨rfl, by decide⟩, rfl⟩, rfl, ⟨⟨rfl, by decide⟩, rfl⟩⟩
    refine ((running_sums_are_exact leftOfGrid ⟨0, 3⟩).1 default #[]).failed 2 1 [] (-1, 0) []
      ⟨3, 3⟩ (-1) counted (by decide) (Items.none.more step) ?_ (.inl ⟨by decide, by decide⟩)
    intro front difference before
    exact absurd (List.prefix_nil.mp before) (List.concat_ne_nil difference front)
  · let r : BorderRecord := { dx := -20, dy := 0, idDelta := 1 }
    have counted : LengthAt leftOfBase ⟨0, 15⟩ 14 1 := ⟨14, ⟨⟨rfl, Nat.zero_le _⟩, rfl⟩, rfl⟩
    have x : Leads endsMessage (byTag LineField.read) leftOfBase ⟨1, 15⟩ (.x 10) ⟨3, 15⟩ :=
      ⟨by decide, 8, ⟨2, 15⟩, ⟨⟨rfl, by decide⟩, rfl⟩, rfl, ⟨⟨rfl, by decide⟩, rfl⟩⟩
    have y : Leads endsMessage (byTag LineField.read) leftOfBase ⟨3, 15⟩ (.y 10) ⟨5, 15⟩ :=
      ⟨by decide, 16, ⟨4, 15⟩, ⟨⟨rfl, by decide⟩, rfl⟩, rfl, ⟨⟨rfl, by decide⟩, rfl⟩⟩
    have id : Leads endsMessage (byTag LineField.read) leftOfBase ⟨5, 15⟩ (.baseId 40) ⟨7, 15⟩ :=
      ⟨by decide, 24, ⟨6, 15⟩, ⟨⟨rfl, by decide⟩, rfl⟩, rfl, ⟨⟨rfl, by decide⟩, rfl⟩⟩
    have record : (BorderRecord.decoder.run leftOfBase ⟨8, 15⟩).Ends r ⟨15, 15⟩ :=
      Outcome.exists_done (by decide +kernel) (by decide +kernel)
    have point : Leads endsMessage (byTag LineField.read) leftOfBase ⟨7, 15⟩ (.point r) ⟨15, 15⟩ :=
      ⟨by decide, 42, ⟨8, 15⟩, ⟨⟨rfl, by decide⟩, rfl⟩, rfl,
        bind_ends_iff.mpr ⟨r, _, record, pure_ends_iff.mpr ⟨rfl, rfl⟩⟩⟩
    refine ((running_sums_are_exact leftOfBase ⟨0, 15⟩).2 0 none).failed 14 1
      [.x 10, .y 10, .baseId 40] r [] ⟨15, 15⟩ (-10) counted (by decide)
      ((((Items.none.more x).more y).more id).more point) ?_ (.inl ⟨by decide, by decide⟩)
    intro front r' before
    have among := before.subset (List.mem_append_right front (List.mem_singleton_self _))
    simp at among

end RoadAtlas
