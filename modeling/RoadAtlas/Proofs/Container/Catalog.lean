import RoadAtlas.Container.Catalog
import RoadAtlas.Proofs.Wire.Folding

/-!
The index of a container and the bodies of its sections. Reading the index passes over the bodies;
of each it takes the name along and nothing else. Sections follow one another, so a body is never
another section's or the index's.

* `SectionEntry.rescan`, `Index.rescan`: the names as they are in other data;
* `Index.step_cases`: a field of the index is a section, or is read by itself;
* `Index.step_gains`, `Index.folds_gains`: where the sections lie that are found on the way;
* `Catalog.read_rescan`: data that agree outside the bodies have the same catalog, up to names.
-/

namespace RoadAtlas

open Decoder

/-! ### Regions -/

/-- A region is decoded alike from data that agree there. -/
lemma Decoder.Local.eval_region {α : Type} {x : Decoder α} (hx : x.Local) {data data' : ByteArray}
    {offset length : ℕ} (agree : AgreeOn data data' offset (offset + length)) :
    (do let c ← Cursor.region data' offset length; x.eval data' c) =
      (do let c ← Cursor.region data offset length; x.eval data c) := by
  rw [Cursor.region_congr agree.size_eq]
  cases h : Cursor.region data offset length with
  | error cause => rfl
  | ok c =>
    obtain ⟨-, rfl⟩ := Cursor.region_eq_ok_iff.mp h
    exact congrArg Outcome.toExcept ((hx ⟨offset, offset + length⟩).run_eq agree)

/-! ### Names -/

lemma skipSectionField_local (t : Tag) : (skipSectionField t).Local := by
  rw [skipSectionField]
  split
  · exact skipBlock_local
  · exact skipField_local t

lemma sectionName_local (kind : SectionKind) : (sectionName kind).Local := by
  have upTo : (fieldsUntil kind.isNameTag () fun t _ => skipSectionField t).Local :=
    fun _ => fieldsUntil_localAt fun t _ _ _ => skipSectionField_local t _
  refine upTo.bind fun found => ?_
  dsimp only
  split
  · exact string_local.bind fun name => pure_local _
  · exact pure_local _

lemma scanName_eq {data data' : ByteArray} {kind : SectionKind} {offset length : ℕ}
    (agree : AgreeOn data data' offset (offset + length)) :
    scanName kind offset length data' = scanName kind offset length data := by
  rw [scanName, scanName, (sectionName_local kind).eval_region agree]

namespace SectionEntry

/-- The section with the name that it has in some data. -/
def rescan (data : ByteArray) (s : SectionEntry) : SectionEntry :=
  { s with name := scanName s.kind s.offset s.length data }

lemma rescan_eq {data data' : ByteArray} {s : SectionEntry}
    (agree : AgreeOn data data' s.offset s.stop) : s.rescan data' = s.rescan data := by
  rw [rescan, rescan, scanName_eq agree]

end SectionEntry

/-! ### Sections of the index -/

namespace Index

variable {data data' : ByteArray} {c next : Cursor}

/-- The index with the names that its sections have in some data. -/
def rescan (data : ByteArray) (index : Index) : Index :=
  { index with sections := index.sections.map (·.rescan data) }

/-- The index with one more section. -/
def push (index : Index) (s : SectionEntry) : Index :=
  { index with sections := index.sections.push s }

lemma rescan_push (index : Index) (s : SectionEntry) :
    (index.push s).rescan data = (index.rescan data).push (s.rescan data) := by
  simp [rescan, push]

lemma run_readSection (kind : SectionKind) (data : ByteArray) (c : Cursor) :
    (readSection kind).run data c = (be32.run data c).andThen fun length c₁ _ =>
      if data.size < c₁.position + length.toNat then
        .failed (.overlongSection kind.label c₁.position length.toNat (data.size - c₁.position)) c₁
      else ((skip length.toNat).run data c₁).map fun _ =>
        ⟨kind, scanName kind c₁.position length.toNat data, c₁.position, length.toNat⟩ := by
  rw [readSection, run_bind]
  congr
  funext length c₁ _
  simp only [run_bind, position, inspect, Outcome.andThen]
  by_cases overlong : data.size < c₁.position + length.toNat
  · rw [if_pos overlong, if_pos overlong]
    rfl
  · rw [if_neg overlong, if_neg overlong]
    simp only [run_bind, Outcome.andThen]
    cases (skip length.toNat).run data c₁ with
    | done _ next reach => rfl
    | failed cause stopped => rfl

/-- A section is its head, and then its body is passed over. -/
lemma readSection_done {kind : SectionKind} {s : SectionEntry} {reach : c.Reaches next}
    (h : (readSection kind).run data c = .done s next reach) :
    ∃ length c₁, ∃ r₁ : c.Reaches c₁, ∃ r₂ : c₁.Reaches next,
      be32.run data c = .done length c₁ r₁ ∧ ¬ data.size < c₁.position + length.toNat ∧
        (skip length.toNat).run data c₁ = .done () next r₂ ∧
        s = ⟨kind, scanName kind c₁.position length.toNat data, c₁.position, length.toNat⟩ := by
  rw [run_readSection] at h
  obtain ⟨length, c₁, r₁, r₂, head, h⟩ := Outcome.andThen_eq_done h
  split at h
  · cases h
  next fits =>
    obtain ⟨_, body, rfl⟩ := Outcome.map_eq_done h
    exact ⟨length, c₁, r₁, r₂, head, fits, body, rfl⟩

/-- A section lies behind its head and ends where reading ends. -/
lemma readSection_place {kind : SectionKind} {s : SectionEntry} {reach : c.Reaches next}
    (h : (readSection kind).run data c = .done s next reach) :
    c.position ≤ s.offset ∧ s.stop = next.position ∧ s.rescan data = s := by
  obtain ⟨length, c₁, r₁, r₂, head, fits, body, rfl⟩ := readSection_done h
  exact ⟨r₁.position_le, (skip_done body).symm, rfl⟩

/-- What is read of a section, apart from its name, stands in its head. -/
lemma readSection_rescan {kind : SectionKind} {s : SectionEntry} {reach : c.Reaches next}
    (h : (readSection kind).run data c = .done s next reach)
    (agree : AgreeOn data data' c.position s.offset) :
    (readSection kind).run data' c = .done (s.rescan data') next reach := by
  obtain ⟨length, c₁, r₁, r₂, head, fits, body, rfl⟩ := readSection_done h
  rw [run_readSection, be32_local.run_done head agree]
  simp only [Outcome.andThen, agree.size_eq, if_neg fits, run_skip_eq agree.size_eq, body]
  rfl

/-- The fields of the index, asked for one after another. -/
lemma step_eq (t : Tag) (index : Index) :
    step t index =
      if t.field = Format.Index.version then
        (fun version => { index with version := some version }) <$> varint32
      else if t.field = Format.Index.created then
        (fun created => { index with created }) <$> varint
      else if t.field = Format.Index.confirmation then
        (fun version => { index with confirmed := index.version = some version }) <$> varint32
      else
        match SectionKind.ofField? t.field with
        | some kind => index.push <$> readSection kind
        | none => (fun _ => index) <$> skipSectionField t := by
  rw [step]
  split
  next field =>
    have version : t.field = Format.Index.version := field
    rw [if_pos version, map_eq_pure_bind]
  next field =>
    have created : t.field = Format.Index.created := field
    rw [if_neg (by rw [field]; decide), if_pos created, map_eq_pure_bind]
  next field =>
    have confirmation : t.field = Format.Index.confirmation := field
    rw [if_neg (by rw [field]; decide), if_neg (by rw [field]; decide), if_pos confirmation,
      map_eq_pure_bind]
  next noVersion noCreated noConfirmation =>
    have version : ¬ t.field = Format.Index.version := noVersion
    have created : ¬ t.field = Format.Index.created := noCreated
    have confirmation : ¬ t.field = Format.Index.confirmation := noConfirmation
    rw [if_neg version, if_neg created, if_neg confirmation]
    cases SectionKind.ofField? t.field with
    | some kind => exact (map_eq_pure_bind _ _).symm
    | none => exact (map_eq_pure_bind _ _).symm

/-- A field of the index is a section, or it is read by itself and leaves the sections alone. -/
lemma step_cases (t : Tag) :
    (∃ kind, ∀ index, step t index = index.push <$> readSection kind) ∨
      ∃ (α : Type) (x : Decoder α) (f : α → Index → Index), x.Local ∧
        (∀ index, step t index = (f · index) <$> x) ∧
        (∀ a index, (f a index).sections = index.sections) ∧
        ∀ a index data, f a (index.rescan data) = (f a index).rescan data := by
  simp only [step_eq]
  by_cases version : t.field = Format.Index.version
  · simp only [if_pos version]
    exact .inr ⟨_, _, fun version index => { index with version := some version }, varint32_local,
      fun _ => rfl, fun _ _ => rfl, fun _ _ _ => rfl⟩
  by_cases created : t.field = Format.Index.created
  · simp only [if_neg version, if_pos created]
    exact .inr ⟨_, _, fun created index => { index with created }, varint_local,
      fun _ => rfl, fun _ _ => rfl, fun _ _ _ => rfl⟩
  by_cases confirmation : t.field = Format.Index.confirmation
  · simp only [if_neg version, if_neg created, if_pos confirmation]
    exact .inr ⟨_, _,
      fun version index => { index with confirmed := index.version = some version }, varint32_local,
      fun _ => rfl, fun _ _ => rfl, fun _ _ _ => rfl⟩
  simp only [if_neg version, if_neg created, if_neg confirmation]
  cases SectionKind.ofField? t.field with
  | some kind => exact .inl ⟨kind, fun _ => rfl⟩
  | none =>
    exact .inr ⟨_, _, fun _ index => index, skipSectionField_local t, fun _ => rfl, fun _ _ => rfl,
      fun _ _ _ => rfl⟩

/-- Between two cursors the index gains some sections, which lie there one after another and have
the names that are found in them. -/
structure Gains (data : ByteArray) (c : Cursor) (index : Index) (new : List SectionEntry)
    (next : Cursor) (index' : Index) : Prop where
  forward : c.position ≤ next.position
  sections : index'.sections.toList = index.sections.toList ++ new
  behind : ∀ s ∈ new, c.position ≤ s.offset
  before : ∀ s ∈ new, s.stop ≤ next.position
  ordered : new.Pairwise fun s u => s.stop ≤ u.offset
  named : ∀ s ∈ new, s.rescan data = s

namespace Gains

variable {index index' index'' : Index} {new new' : List SectionEntry} {last : Cursor}

lemma nothing (forward : c.position ≤ next.position) (sections : index'.sections = index.sections) :
    Gains data c index [] next index' where
  forward := forward
  sections := by rw [sections, List.append_nil]
  behind _ none := nomatch none
  before _ none := nomatch none
  ordered := .nil
  named _ none := nomatch none

lemma trans (h : Gains data c index new next index')
    (h' : Gains data next index' new' last index'') :
    Gains data c index (new ++ new') last index'' where
  forward := h.forward.trans h'.forward
  sections := by rw [h'.sections, h.sections, List.append_assoc]
  behind := List.forall_mem_append.mpr
    ⟨h.behind, fun s hs => h.forward.trans (h'.behind s hs)⟩
  before := List.forall_mem_append.mpr
    ⟨fun s hs => (h.before s hs).trans h'.forward, h'.before⟩
  ordered := List.pairwise_append.mpr ⟨h.ordered, h'.ordered,
    fun s hs u hu => (h.before s hs).trans (h'.behind u hu)⟩
  named := List.forall_mem_append.mpr ⟨h.named, h'.named⟩

end Gains

/-- A field of the index gains what it says, and apart from names it says so in its head. -/
lemma step_gains {t : Tag} {index index' : Index} {reach : c.Reaches next}
    (h : (step t index).run data c = .done index' next reach) :
    ∃ new stop, Gains data c index new next index' ∧ stop ≤ next.position ∧
      (∀ s ∈ new, stop ≤ s.offset) ∧ ∀ data', AgreeOn data data' c.position stop →
        (step t (index.rescan data')).run data' c = .done (index'.rescan data') next reach := by
  rcases step_cases t with ⟨kind, isSection⟩ | ⟨α, x, f, isLocal, isPlain, sections, names⟩
  case inl =>
    rw [isSection, run_map] at h
    obtain ⟨s, read, rfl⟩ := Outcome.map_eq_done h
    obtain ⟨behind, before, named⟩ := readSection_place read
    have stop_le : s.offset ≤ next.position := before ▸ Nat.le_add_right _ _
    refine ⟨[s], s.offset, ?_, stop_le, by simp, fun data' agree => ?_⟩
    · constructor
      case forward => exact reach.position_le
      case sections => simp [push]
      case behind => simpa using behind
      case before => simpa using before.le
      case ordered => simp
      case named => simpa using named
    · rw [isSection, run_map, readSection_rescan read agree, rescan_push]
      rfl
  case inr =>
    rw [isPlain, run_map] at h
    obtain ⟨a, read, rfl⟩ := Outcome.map_eq_done h
    refine ⟨[], next.position, .nothing reach.position_le (sections a index), Nat.le_refl _,
      by simp, fun data' agree => ?_⟩
    rw [isPlain, run_map, isLocal.run_done read agree, ← names]
    rfl

/-- A fold over the index gains the sections that it passes. -/
lemma folds_gains {index index' : Index} (folds : Folds step data c index next index') :
    ∃ new, Gains data c index new next index' := by
  induction folds with
  | @finish c c₁ index t reach first ends => exact ⟨[], .nothing reach.position_le rfl⟩
  | @field c c₁ c₂ next index index₁ index' t reach reach₁ first goes payload rest ih =>
    obtain ⟨new, stop, gains, -⟩ := step_gains payload
    obtain ⟨new', gains'⟩ := ih
    have passed : Gains data c index [] c₁ index := .nothing reach.position_le rfl
    exact ⟨_, passed.trans (gains.trans gains')⟩

end Index

/-! ### Damaged bodies -/

/-- Data of one length that are the same outside the bodies of some sections. -/
structure AgreeOutside (sections : List SectionEntry) (data data' : ByteArray) : Prop where
  size_eq : data'.size = data.size
  byte_eq : ∀ p, (∀ s ∈ sections, ¬ (s.offset ≤ p ∧ p < s.stop)) → data'[p]? = data[p]?

lemma AgreeOutside.mono {few many : List SectionEntry} {data data' : ByteArray}
    (agree : AgreeOutside few data data') (sub : few ⊆ many) : AgreeOutside many data data' where
  size_eq := agree.size_eq
  byte_eq p outside := agree.byte_eq p fun s hs => outside s (sub hs)

lemma AgreeOutside.agreeOn {sections : List SectionEntry} {data data' : ByteArray} {lo hi : ℕ}
    (agree : AgreeOutside sections data data')
    (apart : ∀ s ∈ sections, s.stop ≤ lo ∨ hi ≤ s.offset) : AgreeOn data data' lo hi where
  size_eq := agree.size_eq
  byte_eq p above below := agree.byte_eq p fun s hs inside => by
    rcases apart s hs with earlier | later
    · omega
    · omega

namespace Index

variable {data data' : ByteArray} {c next : Cursor}

/-- The index is read alike from data that agree outside the bodies of its sections, apart from
their names. -/
lemma folds_rescan {index index' : Index} (folds : Folds step data c index next index')
    (agree : AgreeOutside index'.sections.toList data data')
    (before : ∀ s ∈ index.sections.toList, s.stop ≤ c.position) :
    Folds step data' c (index.rescan data') next (index'.rescan data') := by
  induction folds with
  | @finish c c₁ index t reach first ends =>
    have head : AgreeOn data data' c.position c₁.position :=
      agree.agreeOn fun s hs => .inl (before s hs)
    exact .finish (tag_local.run_done first head) ends
  | @field c c₁ c₂ next index index₁ index' t reach reach₁ first goes payload rest ih =>
    obtain ⟨new, stop, gains, stop_le, heads, again⟩ := step_gains payload
    obtain ⟨new', gains'⟩ := folds_gains rest
    have sections : index'.sections.toList = index.sections.toList ++ (new ++ new') :=
      (gains.trans gains').sections
    -- known sections lie before the tag, and those still to be found behind it
    have head : AgreeOn data data' c.position c₁.position := by
      refine agree.agreeOn fun s hs => ?_
      rw [sections] at hs
      rcases List.mem_append.mp hs with known | added
      · exact .inl (before s known)
      · exact .inr ((gains.trans gains').behind s added)
    -- a section that the field itself adds begins where the field is no longer looked at
    have body : AgreeOn data data' c₁.position stop := by
      refine agree.agreeOn fun s hs => ?_
      rw [sections, List.mem_append, List.mem_append] at hs
      rcases hs with known | added | later
      · exact .inl ((before s known).trans reach.position_le)
      · exact .inr (heads s added)
      · exact .inr (stop_le.trans (gains'.behind s later))
    have first' : tag.run data' c = .done t c₁ reach := tag_local.run_done first head
    refine .field first' goes (again data' body) (ih agree fun s hs => ?_)
    rw [gains.sections] at hs
    rcases List.mem_append.mp hs with known | added
    · exact (before s known).trans (reach.position_le.trans reach₁.position_le)
    · exact gains.before s added

lemma check_rescan {index : Index} {catalog : Catalog} (h : index.check = .ok catalog)
    (data : ByteArray) : (index.rescan data).check =
      .ok { catalog with sections := catalog.sections.map (·.rescan data) } := by
  simp only [check, rescan] at h ⊢
  cases given : index.version with
  | none =>
    rw [given] at h
    cases h
  | some version =>
    simp only [given] at h ⊢
    split at h
    next confirmed =>
      cases h
      exact if_pos confirmed
    · cases h

lemma sections_of_check {index : Index} {catalog : Catalog} (h : index.check = .ok catalog) :
    catalog.sections = index.sections := by
  rw [check] at h
  split at h
  · cases h
  · split at h
    · cases h
      rfl
    · cases h

end Index

namespace Catalog

variable {data data' : ByteArray} {catalog : Catalog}

lemma read_eq_ok_iff : read data = .ok catalog ↔
    ∃ index next, Folds Index.step data (.start data) {} next index ∧
      index.check = .ok catalog := by
  rw [read, Index.read]
  constructor
  · intro h
    split at h
    · cases h
    next index found =>
      obtain ⟨next, reach, run⟩ := eval_eq_ok_iff.mp found
      split at h
      · cases h
      next checked =>
        cases h
        exact ⟨index, next, folds_of_run run, checked⟩
  · rintro ⟨index, next, folds, checked⟩
    obtain ⟨reach, run⟩ := folds.ends
    rw [eval_eq_ok_iff.mpr ⟨next, reach, run⟩]
    simp only [checked]

/-- The sections of a catalog lie one behind another and have the names that are found in them. -/
lemma sections_of_read (h : read data = .ok catalog) :
    (catalog.sections.toList.Pairwise fun s u => s.stop ≤ u.offset) ∧
      ∀ s ∈ catalog.sections.toList, s.rescan data = s := by
  obtain ⟨index, next, folds, checked⟩ := read_eq_ok_iff.mp h
  obtain ⟨new, gains⟩ := Index.folds_gains folds
  have all : catalog.sections.toList = new := by
    rw [Index.sections_of_check checked, gains.sections]
    rfl
  exact all ▸ ⟨gains.ordered, gains.named⟩

/-- Data that agree outside the bodies of the sections have the same catalog, with the names that
are found in them. -/
theorem read_rescan (h : read data = .ok catalog)
    (agree : AgreeOutside catalog.sections.toList data data') :
    read data' = .ok { catalog with sections := catalog.sections.map (·.rescan data') } := by
  obtain ⟨index, next, folds, checked⟩ := read_eq_ok_iff.mp h
  have sections := Index.sections_of_check checked
  have again := Index.folds_rescan folds (sections ▸ agree) fun _ none => nomatch none
  have start : Cursor.start data' = Cursor.start data := by
    rw [Cursor.start, Cursor.start, agree.size_eq]
  have empty : Index.rescan data' {} = {} := by simp [Index.rescan]
  rw [empty, ← start] at again
  exact read_eq_ok_iff.mpr ⟨_, next, again, Index.check_rescan checked data'⟩

end Catalog

end RoadAtlas
