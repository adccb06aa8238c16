import RoadAtlas.Network.Border
import RoadAtlas.Proofs.Network.UnknownFields
import RoadAtlas.Proofs.Wire.Relocation

/-!
Unknown fields of records. Each of the messages in a data block or a border block is read field by
field, and a field with a number that the message does not define is passed over by its wire type.

* `RawField`, `RawMessage`: fields and messages as bytes, a field with its number and wire type;
* `Schema`: the fields that a message defines, and `Understands`: a reader that has a meaning for
  them and passes over all others;
* `Decoder.Yields`: what fields with a meaning come to, one after another; a message is found as
  that (`Yields.fields_findsWhole`), whatever stands between them;
* `Encoded`: the messages that are read without regard to where they stand;
* `unknown_fields_are_transparent`: so no message changes its value when unknown fields are put
  between its fields.
-/

namespace RoadAtlas

open Decoder
open RoutingSection (Payload)

/-! ### Messages as bytes -/

/-- A well-formed field: a tag and a payload of its wire type. -/
structure RawField where
  number : ℕ
  wire : WireType
  head : List UInt8
  payload : List UInt8
  valid : FieldNumber number
  lead : TagSpelled head ⟨number, wire.code⟩
  extent : Payload wire payload

namespace RawField

/-- The tag in front of the payload. -/
def tag (f : RawField) : Tag := ⟨f.number, f.wire.code⟩

def bytes (f : RawField) : List UInt8 := f.head ++ f.payload

lemma isEnd_eq_false (f : RawField) : f.tag.isEnd = false :=
  Decoder.isEnd_eq_false f.wire f.valid

end RawField

/-- The fields that a message defines, with their wire types. -/
abbrev Schema := List (ℕ × WireType)

namespace Schema

/-- The numbers of the fields that a message defines. -/
def numbers (schema : Schema) : List ℕ := schema.map Prod.fst

/-- The fields that have a meaning. -/
def known (schema : Schema) (fs : List RawField) : List RawField :=
  fs.filter fun f => f.number ∈ schema.numbers

end Schema

/-- A message behind its length. -/
structure RawMessage where
  head : List UInt8
  fields : List RawField
  count : UInt64
  spells : Varint.Spells head count
  counts : count.toUInt32.toNat = (fields.flatMap RawField.bytes).length

namespace RawMessage

def bytes (m : RawMessage) : List UInt8 := m.head ++ m.fields.flatMap RawField.bytes

/-- The fields that have a meaning have the wire types that the message defines for them. -/
def Follows (m : RawMessage) (schema : Schema) : Prop :=
  ∀ f ∈ m.fields, f.number ∈ schema.numbers → (f.number, f.wire) ∈ schema

instance (m : RawMessage) (schema : Schema) : Decidable (m.Follows schema) :=
  inferInstanceAs (Decidable (∀ f ∈ m.fields,
    f.number ∈ schema.numbers → (f.number, f.wire) ∈ schema))

lemma Follows.listed {m : RawMessage} {schema : Schema} (h : m.Follows schema) {f : RawField}
    (member : f ∈ schema.known m.fields) : (f.number, f.wire) ∈ schema := by
  obtain ⟨present, meant⟩ := List.mem_filter.mp member
  exact h f present (by simpa using meant)

end RawMessage

/-! ### Readers of messages -/

namespace Decoder

variable {α β σ τ : Type} {x : Decoder α} {wire : WireType} {bytes : List UInt8}

/-- Every payload of a wire type is found as something. -/
def Handles (wire : WireType) (x : Decoder α) : Prop :=
  ∀ payload, Payload wire payload → ∃ v, x.Finds payload v

lemma Handles.bind {f : α → Decoder β} (h : x.Handles wire) (hf : ∀ a, ∃ w, (f a).Finds [] w) :
    (x >>= f).Handles wire := by
  intro payload extent
  choose w hw using hf
  obtain ⟨v, found⟩ := h payload extent
  exact ⟨_, found.bind hw⟩

lemma Handles.bind_pure {f : α → β} (h : x.Handles wire) :
    (do let a ← x; return f a : Decoder β).Handles wire :=
  h.bind fun a => ⟨_, pure_finds (f a)⟩

/-- Every payload of a wire type is found as a value. -/
def Accepts (wire : WireType) (x : Decoder α) : Prop :=
  ∀ payload, Payload wire payload → ∃ a, x.Finds payload (.ok a)

lemma Accepts.handles (h : x.Accepts wire) : x.Handles wire := by
  intro payload extent
  obtain ⟨a, found⟩ := h payload extent
  exact ⟨.ok a, found⟩

lemma Accepts.bind_pure {f : α → β} (h : x.Accepts wire) :
    (do let a ← x; return f a : Decoder β).Accepts wire := by
  intro payload extent
  obtain ⟨a, found⟩ := h payload extent
  exact ⟨f a, found.bind fun a => pure_finds (f a)⟩

lemma varint_accepts : varint.Accepts .varint := by
  rintro payload ⟨spells⟩
  exact ⟨_, fun _ => spells_readsAt spells⟩

lemma varint32_accepts : varint32.Accepts .varint := varint_accepts.bind_pure

lemma varint_handles : varint.Handles .varint := varint_accepts.handles

lemma varint32_handles : varint32.Handles .varint := varint32_accepts.handles

lemma string_handles : string.Handles .lengthDelimited := by
  rintro payload ⟨⟩
  next spells counts => exact ⟨_, string_finds spells counts⟩

/-- A region that is read to its end, wherever it lies. -/
lemma sized_handles (relocatable : x.Relocatable) (exhausts : x.Exhausts) :
    (sized x).Handles .lengthDelimited := by
  rintro payload ⟨⟩
  next head body n spells counts =>
    obtain ⟨v, found⟩ := relocatable.exists_findsWhole exhausts body
    exact ⟨v, found.sized spells counts⟩

lemma entries_handles {acc : σ} {enter : UInt32 → σ → Decoder σ}
    (h : ∀ lead acc left, AlikeIn left (enter lead acc) (enter lead acc)) :
    (sized (entries acc enter)).Handles .lengthDelimited :=
  sized_handles (fun _ => .entries h acc) (entries_exhausts enter acc)

lemma packed_handles : packed.Handles .lengthDelimited :=
  entries_handles fun _ _ _ => pure_alikeIn _

/-- A reader of fields that has a meaning for those of a schema and passes over all others. -/
structure Understands (step : Tag → σ → Decoder σ) (schema : Schema) : Prop where
  unknown : ∀ t acc, t.field ∉ schema.numbers → step t acc = (do skipField t; return acc)
  known : ∀ e ∈ schema, ∀ acc, (step ⟨e.1, e.2.code⟩ acc).Handles e.2

/-! ### Fields one after another -/

variable {step : Tag → σ → Decoder σ} {step' : Tag → τ → Decoder τ} {schema : Schema}
  {acc : σ} {v : Verdict σ} {fs fs' : List RawField}

/-- What fields with a meaning come to, one after another: the first that fails decides. -/
inductive Yields (step : Tag → σ → Decoder σ) : σ → List RawField → Verdict σ → Prop
  | nil (acc : σ) : Yields step acc [] (.ok acc)
  | next {acc acc' : σ} {f : RawField} {rest : List RawField} {v : Verdict σ}
      (found : (step f.tag acc).Finds f.payload (.ok acc')) (tail : Yields step acc' rest v) :
      Yields step acc (f :: rest) v
  | stop {acc : σ} {f : RawField} {rest : List RawField} {reference : Option Dangling}
      (found : (step f.tag acc).Finds f.payload (.error reference)) :
      Yields step acc (f :: rest) (.error reference)

/-- A message is found as its first field and what the rest of it comes to behind that. -/
lemma fields_findsWhole_cons {f : RawField} {rest : List UInt8}
    (h : (do let acc ← step f.tag acc; fields acc step : Decoder σ).FindsWhole
      (f.payload ++ rest) v) : (fields acc step).FindsWhole (f.bytes ++ rest) v := by
  have lead : Decoder.tag.Finds f.head (.ok f.tag) := fun _ => f.lead.readsAt
  rw [fields_eq, RawField.bytes, List.append_assoc]
  refine FindsWhole.bind_ok lead ?_
  rw [f.isEnd_eq_false]
  exact h

/-- Fields without a meaning come to nothing. -/
lemma Yields.fields_findsWhole
    (unknown : ∀ t acc, t.field ∉ schema.numbers → step t acc = (do skipField t; return acc))
    (h : Yields step acc (schema.known fs) v) :
    (fields acc step).FindsWhole (fs.flatMap RawField.bytes) v := by
  induction fs generalizing acc with
  | nil =>
    cases h
    exact fun p data _ _ _ => fields_ends step acc data _
  | cons f rest ih =>
    rw [List.flatMap_cons]
    apply fields_findsWhole_cons
    by_cases meant : f.number ∈ schema.numbers
    case neg =>
      rw [Schema.known, List.filter_cons_of_neg (by simpa using meant)] at h
      have passed : (step f.tag acc).Finds f.payload (.ok acc) := by
        rw [unknown f.tag acc meant]
        exact fun _ => f.extent.skipField_readsAt.bind_pure
      exact FindsWhole.bind_ok passed (ih h)
    case pos =>
      rw [Schema.known, List.filter_cons_of_pos (by simpa using meant)] at h
      cases h with
      | next found tail => exact FindsWhole.bind_ok found (ih tail)
      | stop found => exact found.bind_error.findsWhole

/-- Fields that correspond come to corresponding verdicts. -/
lemma exists_yields (g : σ → τ) (h : List.Forall₂ (fun f f' => ∀ acc, ∃ v,
      (step f.tag acc).Finds f.payload v ∧ (step' f'.tag (g acc)).Finds f'.payload (g <$> v))
      fs fs') (acc : σ) : ∃ v, Yields step acc fs v ∧ Yields step' (g acc) fs' (g <$> v) := by
  induction h generalizing acc with
  | nil => exact ⟨.ok acc, .nil acc, .nil (g acc)⟩
  | cons first _ ih =>
    obtain ⟨v, found, found'⟩ := first acc
    cases v with
    | ok acc' =>
      obtain ⟨w, tail, tail'⟩ := ih acc'
      exact ⟨w, .next found tail, .next found' tail'⟩
    | error reference => exact ⟨.error reference, .stop found, .stop found'⟩

/-- Fields that are all found as values come to a value. -/
lemma exists_yields_ok (g : σ → τ) (h : List.Forall₂ (fun f f' => ∀ acc, ∃ acc',
      (step f.tag acc).Finds f.payload (.ok acc') ∧
        (step' f'.tag (g acc)).Finds f'.payload (.ok (g acc'))) fs fs') (acc : σ) :
    ∃ acc', Yields step acc fs (.ok acc') ∧ Yields step' (g acc) fs' (.ok (g acc')) := by
  induction h generalizing acc with
  | nil => exact ⟨acc, .nil acc, .nil (g acc)⟩
  | cons first _ ih =>
    obtain ⟨acc', found, found'⟩ := first acc
    obtain ⟨result, tail, tail'⟩ := ih acc'
    exact ⟨result, .next found tail, .next found' tail'⟩

end Decoder

/-- A message behind its length is found as its fields are. -/
lemma RawMessage.finds {α : Type} {m : RawMessage} {x : Decoder α} {v : Verdict α}
    (h : x.FindsWhole (m.fields.flatMap RawField.bytes) v) : (sized x).Finds m.bytes v :=
  h.sized m.spells m.counts

/-- Two messages with the same fields that have a meaning are found alike. -/
lemma Decoder.Understands.exists_finds {σ : Type} {step : Tag → σ → Decoder σ} {schema : Schema}
    (h : Understands step schema) {m m' : RawMessage} (follows : m.Follows schema)
    (same : schema.known m'.fields = schema.known m.fields) (acc : σ) :
    ∃ v, (sized (fields acc step)).Finds m.bytes v ∧
      (sized (fields acc step)).Finds m'.bytes v := by
  have each : List.Forall₂ (fun f f' => ∀ acc, ∃ v, (step f.tag acc).Finds f.payload v ∧
      (step f'.tag (id acc)).Finds f'.payload (id <$> v)) (schema.known m.fields)
      (schema.known m.fields) := by
    refine List.forall₂_same.mpr fun f member acc => ?_
    obtain ⟨v, found⟩ := h.known _ (follows.listed member) acc f.payload f.extent
    exact ⟨v, found, (id_map v).symm ▸ found⟩
  obtain ⟨v, yields, yields'⟩ := exists_yields id each acc
  rw [id_map] at yields'
  refine ⟨v, RawMessage.finds (yields.fields_findsWhole h.unknown), RawMessage.finds ?_⟩
  exact Yields.fields_findsWhole h.unknown (same ▸ yields')

/-- A message whose fields with a meaning are all found as values is found as a value. -/
lemma Decoder.Understands.exists_finds_ok {σ : Type} {step : Tag → σ → Decoder σ}
    {schema : Schema} (h : Understands step schema) {m : RawMessage}
    (each : ∀ f ∈ schema.known m.fields, ∀ acc, ∃ acc',
      (step f.tag acc).Finds f.payload (.ok acc')) (acc : σ) :
    ∃ result, (sized (fields acc step)).Finds m.bytes (.ok result) := by
  have both : List.Forall₂ (fun f f' => ∀ acc, ∃ acc',
      (step f.tag acc).Finds f.payload (.ok acc') ∧
        (step f'.tag (id acc)).Finds f'.payload (.ok (id acc')))
      (schema.known m.fields) (schema.known m.fields) := by
    refine List.forall₂_same.mpr fun f member acc => ?_
    obtain ⟨acc', found⟩ := each f member acc
    exact ⟨acc', found, found⟩
  obtain ⟨result, yields, -⟩ := exists_yields_ok id both acc
  exact ⟨result, RawMessage.finds (yields.fields_findsWhole h.unknown)⟩

/-! ### The messages -/

/-- The fields of a rule. -/
def Rule.schema : Schema :=
  [(Format.Rule.tag, .lengthDelimited), (Format.Rule.value, .lengthDelimited),
    (Format.Rule.id, .varint)]

/-- A field whose number a reader does not match is passed over. -/
lemma Rule.understands : Understands Rule.step Rule.schema where
  unknown t acc unlisted := by
    rw [step]
    split <;> first | rfl | next listed => exact absurd (listed ▸ by decide) unlisted
  known := by
    simp only [schema, List.forall_mem_cons]
    exact ⟨fun _ => string_handles.bind_pure, fun _ => string_handles.bind_pure,
      fun _ => varint32_handles.bind_pure, List.forall_mem_nil _⟩

/-- The fields of an id table. -/
def BlockTables.idSchema : Schema := [(Format.IdTable.delta, .varint)]

lemma BlockTables.accepts_ids : ∀ e ∈ BlockTables.idSchema, ∀ acc,
    (BlockTables.idStep ⟨e.1, e.2.code⟩ acc).Accepts e.2 := by
  simp only [idSchema, List.forall_mem_cons]
  exact ⟨fun _ => varint_accepts.bind_pure.bind_pure, List.forall_mem_nil _⟩

lemma BlockTables.understands_ids : Understands BlockTables.idStep BlockTables.idSchema where
  unknown t acc unlisted := by
    rw [idStep]
    split <;> first | rfl | next listed => exact absurd (listed ▸ by decide) unlisted
  known e listed acc := (accepts_ids e listed acc).handles

/-- The fields of a restriction. -/
def RestrictionRecord.schema : Schema :=
  [(Format.Restriction.kind, .varint), (Format.Restriction.source, .varint),
    (Format.Restriction.target, .varint)]

lemma RestrictionRecord.accepts : ∀ e ∈ RestrictionRecord.schema, ∀ acc,
    (RestrictionRecord.step ⟨e.1, e.2.code⟩ acc).Accepts e.2 := by
  simp only [schema, List.forall_mem_cons]
  exact ⟨fun _ => varint32_accepts.bind_pure, fun _ => varint32_accepts.bind_pure,
    fun _ => varint32_accepts.bind_pure, List.forall_mem_nil _⟩

lemma RestrictionRecord.understands :
    Understands RestrictionRecord.step RestrictionRecord.schema where
  unknown t acc unlisted := by
    rw [step]
    split <;> first | rfl | next listed => exact absurd (listed ▸ by decide) unlisted
  known e listed acc := (accepts e listed acc).handles

/-- The field of a string table. -/
def BlockTables.stringSchema : Schema := [(1, .lengthDelimited)]

lemma BlockTables.understands_strings : ∃ step, stringTableBody = fields #[] step ∧
    Understands step BlockTables.stringSchema ∧ ∀ wire strings, step ⟨1, wire⟩ strings = do
      let text ← Decoder.string
      return strings.push text := by
  refine ⟨_, rfl, ⟨?_, ?_⟩, fun _ _ => rfl⟩
  case refine_1 =>
    intro t acc unlisted
    split <;> first | rfl | next listed => exact absurd (listed ▸ by decide) unlisted
  case refine_2 =>
    simp only [stringSchema, List.forall_mem_cons]
    exact ⟨fun _ => string_handles.bind_pure, List.forall_mem_nil _⟩

/-- The fields of a road record. -/
def RoadRecord.schema : Schema :=
  [(Format.Road.points, .lengthDelimited), (Format.Road.pointTypes, .lengthDelimited),
    (Format.Road.pointNames, .lengthDelimited), (Format.Road.types, .lengthDelimited),
    (Format.Road.extraTypes, .lengthDelimited), (Format.Road.number, .varint),
    (Format.Road.names, .lengthDelimited)]

namespace RoadRecord

lemma pointStep_alikeIn (lead : UInt32) (state : (Int × Int) × Array Point) (left : ℕ) :
    AlikeIn left (pointStep lead state) (pointStep lead state) := by
  rw [pointStep]
  refine sint32_alikeIn.bind fun dy _ _ _ => ?_
  exact (ofExcept_alikeIn _).bind fun point _ _ _ => pure_alikeIn _

lemma readPoints_handles (base : Point) (points : Array Point) :
    (readPoints base points).Handles .lengthDelimited :=
  sized_handles (fun _ => (AlikeIn.entries pointStep_alikeIn _).map Prod.snd)
    ((entries_exhausts _ _).map Prod.snd)

lemma pointTypesStep_alikeIn (index : UInt32) (types : SortedMap UInt32 (Array UInt32))
    (left : ℕ) : AlikeIn left (pointTypesStep index types) (pointTypesStep index types) := by
  rw [pointTypesStep]
  exact packed_alikeIn.bind fun more _ _ _ => pure_alikeIn _

lemma understands (base : Point) : Understands (step base) schema where
  unknown t acc unlisted := by
    rw [step]
    split <;> first | rfl | next listed => exact absurd (listed ▸ by decide) unlisted
  known := by
    simp only [schema, List.forall_mem_cons]
    refine ⟨fun r => (readPoints_handles base r.points).bind_pure, ?_, ?_,
      fun _ => packed_handles.bind_pure, fun _ => packed_handles.bind_pure,
      fun _ => varint_handles.bind_pure, ?_, List.forall_mem_nil _⟩
    · exact fun r => (entries_handles pointTypesStep_alikeIn).bind_pure
    · refine fun r => (entries_handles fun index names left => ?_).bind_pure
      refine varint32_alikeIn.bind fun tag _ _ _ => ?_
      exact varint32_alikeIn.bind fun text _ _ _ => pure_alikeIn _
    · refine fun r => (entries_handles fun tag names left => ?_).bind_pure
      exact varint32_alikeIn.bind fun text _ _ _ => pure_alikeIn _

end RoadRecord

/-- The fields of a stored border point. -/
def BorderRecord.schema : Schema :=
  [(Format.BorderPoint.dx, .varint), (Format.BorderPoint.dy, .varint),
    (Format.BorderPoint.idDelta, .varint), (Format.BorderPoint.direction, .varint),
    (Format.BorderPoint.types, .lengthDelimited)]

lemma BorderRecord.understands : Understands BorderRecord.step BorderRecord.schema where
  unknown t acc unlisted := by
    rw [step]
    split <;> first | rfl | next listed => exact absurd (listed ▸ by decide) unlisted
  known := by
    simp only [schema, List.forall_mem_cons]
    exact ⟨fun _ => varint32_handles.bind_pure.bind_pure,
      fun _ => varint32_handles.bind_pure.bind_pure, fun _ => varint_handles.bind_pure,
      fun _ => varint_handles.bind_pure.bind_pure, fun _ => packed_handles.bind_pure,
      List.forall_mem_nil _⟩

/-- The messages that are read without regard to where they stand, with the fields that they
define. -/
inductive Encoded : {α : Type} → Decoder α → Schema → Prop
  | rule : Encoded Rule.decoder Rule.schema
  | ids : Encoded BlockTables.readIds BlockTables.idSchema
  | restriction : Encoded RestrictionRecord.decoder RestrictionRecord.schema
  | strings : Encoded stringTable BlockTables.stringSchema
  | road (base : Point) : Encoded (RoadRecord.decoder base) RoadRecord.schema
  | borderPoint : Encoded BorderRecord.decoder BorderRecord.schema

/-- Two messages with the same fields that have a meaning are found alike. -/
lemma Encoded.exists_finds {α : Type} {x : Decoder α} {schema : Schema} (h : Encoded x schema)
    {m m' : RawMessage} (follows : m.Follows schema)
    (same : schema.known m'.fields = schema.known m.fields) :
    ∃ v, x.Finds m.bytes v ∧ x.Finds m'.bytes v := by
  cases h with
  | rule => exact Rule.understands.exists_finds follows same _
  | ids =>
    obtain ⟨v, found, found'⟩ :=
      BlockTables.understands_ids.exists_finds follows same (0, #[])
    rw [BlockTables.readIds, sized_map]
    exact ⟨_, found.map Prod.snd, found'.map Prod.snd⟩
  | restriction => exact RestrictionRecord.understands.exists_finds follows same _
  | strings =>
    obtain ⟨step, body, understands, -⟩ := BlockTables.understands_strings
    rw [stringTable, body]
    exact understands.exists_finds follows same _
  | road base => exact (RoadRecord.understands base).exists_finds follows same _
  | borderPoint => exact BorderRecord.understands.exists_finds follows same _

/-! ### Headers of border lines -/

/-- The fields of the header of a border line. -/
def BorderLine.schema : Schema :=
  [(Format.BorderLine.x, .varint), (Format.BorderLine.y, .varint), (Format.BorderLine.toX, .varint),
    (Format.BorderLine.toY, .varint), (Format.BorderLine.shift, .fixed32)]

/-- The number that four bytes spell, highest first. -/
def wordOf (bytes : List UInt8) : UInt32 :=
  bytes.toByteArray.foldl (fun n b => 256 * n + b.toUInt32) 0

/-- Corresponding fields of a header at `p` and of one that has moved along with all else: shifts
are adjusted to where the points of the line are now. -/
structure Readdressed (place : ℕ → ℕ) (p : ℕ) (f f' : RawField) : Prop where
  number : f'.number = f.number
  wire : f'.wire = f.wire
  payload : if f.number = Format.BorderLine.shift
    then place p + (wordOf f'.payload).toNat = place (p + (wordOf f.payload).toNat)
    else f'.payload = f.payload

namespace BorderLine

/-- The line when the points of all lines have moved. -/
def moved (place : ℕ → ℕ) (line : BorderLine) : BorderLine :=
  { line with pointsOffset := place line.pointsOffset }

lemma unknown_step (start : ℕ) (t : Tag) (line : BorderLine) (unlisted : t.field ∉ schema.numbers) :
    step start t line = (do skipField t; return line) := by
  rw [step]
  split <;> first | rfl | next listed => exact absurd (listed ▸ by decide) unlisted

lemma shift_finds (start : ℕ) {payload : List UInt8} (length : payload.length = 4)
    (line : BorderLine) :
    (step start ⟨Format.BorderLine.shift, WireType.fixed32.code⟩ line).Finds payload
      (.ok { line with pointsOffset := start + (wordOf payload).toNat }) := by
  have four : (take 4).Finds payload (.ok payload.toByteArray) :=
    fun _ => length ▸ take_readsAt payload
  exact (four.bind fun _ => pure_finds _).bind fun _ => pure_finds _

/-- Corresponding fields are read as corresponding values. -/
lemma exists_step_finds {place : ℕ → ℕ} {p : ℕ} {f f' : RawField}
    (listed : (f.number, f.wire) ∈ schema) (adjusted : Readdressed place p f f')
    (line : BorderLine) : ∃ line', (step p f.tag line).Finds f.payload (.ok line') ∧
      (step (place p) f'.tag (line.moved place)).Finds f'.payload (.ok (line'.moved place)) := by
  obtain ⟨number, wire, head, payload, valid, lead, extent⟩ := f
  obtain ⟨number', wire', head', payload', valid', lead', extent'⟩ := f'
  obtain ⟨rfl, rfl, same⟩ := adjusted
  dsimp only [RawField.tag] at *
  have varint_field (n : UInt64) (spells : Varint.Spells payload n) (put : UInt32 → BorderLine) :
      (do let x ← varint32; return put x : Decoder BorderLine).Finds payload
        (.ok (put n.toUInt32)) := fun _ => ((spells_readsAt spells).bind_pure).bind_pure
  simp only [schema, List.mem_cons, Prod.mk.injEq, List.not_mem_nil, or_false] at listed
  rcases listed with ⟨rfl, rfl⟩ | ⟨rfl, rfl⟩ | ⟨rfl, rfl⟩ | ⟨rfl, rfl⟩ | ⟨rfl, rfl⟩
  case inr.inr.inr.inr =>
    rw [if_pos rfl] at same
    cases extent with
    | fixed32 length =>
      cases extent' with
      | fixed32 length' =>
        have moved := shift_finds (place p) length' (line.moved place)
        rw [same] at moved
        exact ⟨_, shift_finds p length line, moved⟩
  all_goals
    rw [if_neg (by decide)] at same
    subst same
    cases extent with
    | varint spells => exact ⟨_, varint_field _ spells _, varint_field _ spells _⟩

/-- A header that has moved, with its shifts adjusted, is read as the same line with its points
moved. -/
lemma exists_readsAt {place : ℕ → ℕ} (origin : place 0 = 0) {p : ℕ} {m m' : RawMessage}
    (follows : m.Follows schema) (adjusted : List.Forall₂ (Readdressed place p)
      (schema.known m.fields) (schema.known m'.fields)) :
    ∃ line, decoder.ReadsAt p m.bytes line ∧
      decoder.ReadsAt (place p) m'.bytes (line.moved place) := by
  have each : List.Forall₂ (fun f f' => ∀ line, ∃ line',
      (step p f.tag line).Finds f.payload (.ok line') ∧
        (step (place p) f'.tag (line.moved place)).Finds f'.payload (.ok (line'.moved place)))
      (schema.known m.fields) (schema.known m'.fields) := by
    refine ((List.forall₂_and_left _ _).mpr ⟨fun f => follows.listed, adjusted⟩).imp ?_
    rintro f f' ⟨listed, adjusted⟩ line
    exact exists_step_finds listed adjusted line
  have start : moved place {} = {} := by rw [moved, origin]
  obtain ⟨line, yields, yields'⟩ := exists_yields_ok (moved place) each {}
  rw [start] at yields'
  have found := RawMessage.finds (yields.fields_findsWhole (unknown_step p))
  have found' := RawMessage.finds (yields'.fields_findsWhole (unknown_step (place p)))
  exact ⟨line, ReadsAt.position_bind (found p), ReadsAt.position_bind (found' (place p))⟩

end BorderLine

/-! ### Points of border lines -/

/-- The fields of the points of a border line. -/
def BorderTrail.schema : Schema :=
  [(Format.BorderBlock.x, .varint), (Format.BorderBlock.y, .varint),
    (Format.BorderBlock.baseId, .varint), (Format.BorderBlock.point, .lengthDelimited)]

/-- Corresponding fields of the points of a line, where a point may have got unknown fields, too. -/
structure Renested (f f' : RawField) : Prop where
  number : f'.number = f.number
  wire : f'.wire = f.wire
  payload : if f.number = Format.BorderBlock.point
    then ∃ n n' : RawMessage, f.payload = n.bytes ∧ f'.payload = n'.bytes ∧
      n.Follows BorderRecord.schema ∧
      BorderRecord.schema.known n'.fields = BorderRecord.schema.known n.fields
    else f'.payload = f.payload

namespace BorderTrail

variable (sectionId : ℕ) (query : Option Area)

lemma unknown_step (t : Tag) (trail : BorderTrail) (unlisted : t.field ∉ schema.numbers) :
    step sectionId query t trail = (do skipField t; return trail) := by
  rw [step]
  split <;> first | rfl | next listed => exact absurd (listed ▸ by decide) unlisted

/-- Corresponding fields are found alike. -/
lemma exists_step_finds {f f' : RawField} (listed : (f.number, f.wire) ∈ schema)
    (same : Renested f f') (trail : BorderTrail) :
    ∃ v, (step sectionId query f.tag trail).Finds f.payload v ∧
      (step sectionId query f'.tag trail).Finds f'.payload v := by
  obtain ⟨number, wire, head, payload, valid, lead, extent⟩ := f
  obtain ⟨number', wire', head', payload', valid', lead', extent'⟩ := f'
  obtain ⟨rfl, rfl, same⟩ := same
  dsimp only [RawField.tag] at *
  simp only [schema, List.mem_cons, Prod.mk.injEq, List.not_mem_nil, or_false] at listed
  rcases listed with ⟨rfl, rfl⟩ | ⟨rfl, rfl⟩ | ⟨rfl, rfl⟩ | ⟨rfl, rfl⟩
  case inr.inr.inr =>
    rw [if_pos rfl] at same
    obtain ⟨n, n', rfl, rfl, follows, same⟩ := same
    obtain ⟨v, found, found'⟩ := Encoded.borderPoint.exists_finds follows same
    exact ⟨_, found.bind fun _ => ofExcept_finds _, found'.bind fun _ => ofExcept_finds _⟩
  all_goals rw [if_neg (by decide)] at same; subst same
  case inl =>
    obtain ⟨v, found⟩ := varint32_handles.bind_pure _ extent
    exact ⟨v, found, found⟩
  case inr.inl =>
    obtain ⟨v, found⟩ := varint32_handles.bind_pure _ extent
    exact ⟨v, found, found⟩
  case inr.inr.inl =>
    obtain ⟨v, found⟩ := varint_handles.bind_pure _ extent
    exact ⟨v, found, found⟩

/-- The points of a line are found alike. -/
lemma exists_finds {m m' : RawMessage} (follows : m.Follows schema)
    (same : List.Forall₂ Renested (schema.known m.fields) (schema.known m'.fields)) :
    ∃ v, (decoder sectionId query).Finds m.bytes v ∧
      (decoder sectionId query).Finds m'.bytes v := by
  have each : List.Forall₂ (fun f f' => ∀ trail, ∃ v,
      (step sectionId query f.tag trail).Finds f.payload v ∧
        (step sectionId query f'.tag (id trail)).Finds f'.payload (id <$> v))
      (schema.known m.fields) (schema.known m'.fields) := by
    refine ((List.forall₂_and_left _ _).mpr ⟨fun f => follows.listed, same⟩).imp ?_
    rintro f f' ⟨listed, same⟩ trail
    obtain ⟨v, found, found'⟩ := exists_step_finds sectionId query listed same trail
    exact ⟨v, found, (id_map v).symm ▸ found'⟩
  obtain ⟨v, yields, yields'⟩ := exists_yields id each {}
  rw [id_map] at yields'
  have unknown := unknown_step sectionId query
  have found := RawMessage.finds (yields.fields_findsWhole unknown)
  have found' := RawMessage.finds (yields'.fields_findsWhole unknown)
  exact ⟨_, found.map points, found'.map points⟩

end BorderTrail

/-! ### All messages -/

/-- Unknown fields are transparent. Two messages of which one has the fields of the other, with
unknown ones put between them, have the same value wherever they stand, or fail for the same
reason. In the header of a border line the shift is adjusted to where the points of the line are
then; in the points of a line, unknown fields may stand within each point as well. -/
theorem unknown_fields_are_transparent :
    (∀ {α : Type} {x : Decoder α} {schema : Schema}, Encoded x schema →
      ∀ m m' : RawMessage, m.Follows schema → schema.known m'.fields = schema.known m.fields →
        ∃ v, x.Finds m.bytes v ∧ x.Finds m'.bytes v) ∧
    (∀ (place : ℕ → ℕ) (p : ℕ) (m m' : RawMessage), place 0 = 0 → m.Follows BorderLine.schema →
      List.Forall₂ (Readdressed place p) (BorderLine.schema.known m.fields)
        (BorderLine.schema.known m'.fields) →
      ∃ line, BorderLine.decoder.ReadsAt p m.bytes line ∧
        BorderLine.decoder.ReadsAt (place p) m'.bytes (line.moved place)) ∧
    (∀ (sectionId : ℕ) (query : Option Area) (m m' : RawMessage), m.Follows BorderTrail.schema →
      List.Forall₂ Renested (BorderTrail.schema.known m.fields)
        (BorderTrail.schema.known m'.fields) →
      ∃ v, (BorderTrail.decoder sectionId query).Finds m.bytes v ∧
        (BorderTrail.decoder sectionId query).Finds m'.bytes v) := by
  refine ⟨?_, ?_, ?_⟩
  · intro α x schema encoded m m' follows same
    exact encoded.exists_finds follows same
  · intro place p m m' origin follows adjusted
    exact BorderLine.exists_readsAt origin follows adjusted
  · intro sectionId query m m' follows same
    exact BorderTrail.exists_finds sectionId query follows same

/-! ### Short messages -/

/-- A small number is spelled by one byte. -/
lemma spells_small {n : ℕ} (small : n < 128) :
    Varint.Spells [UInt8.ofNat n] (UInt64.ofNat n) := by
  have written : Wire.varint (UInt64.ofNat n) = [UInt8.ofNat n] := by
    rw [Wire.varint, UInt64.toNat_ofNat_of_lt' (by simp [UInt64.size]; omega), Varint.encode,
      if_pos small]
  exact written ▸ Varint.spells_varint _

/-- A number is its own low half. -/
lemma toNat_low_half {n : ℕ} (short : n < 2 ^ 32) : (UInt64.ofNat n).toUInt32.toNat = n := by
  simpa using short

lemma fieldNumber_small {number : ℕ} (small : 0 < number ∧ number < 16) : FieldNumber number :=
  ⟨small.1, by omega⟩

/-- The tag of a field with a small number takes one byte. -/
lemma tagSpelled_small {number : ℕ} (small : 0 < number ∧ number < 16) (wire : WireType) :
    TagSpelled [UInt8.ofNat (number * 8 + wire.code)] ⟨number, wire.code⟩ := by
  have code := code_lt wire
  refine ⟨_, spells_small (by omega), ?_⟩
  rw [Tag.ofWord, toNat_low_half (by omega)]
  congr 1 <;> omega

/-- A field with a tag of one byte. -/
def RawField.ofPayload (number : ℕ) (wire : WireType) (payload : List UInt8)
    (small : 0 < number ∧ number < 16) (extent : Payload wire payload) : RawField where
  number := number
  wire := wire
  head := [UInt8.ofNat (number * 8 + wire.code)]
  payload := payload
  valid := fieldNumber_small small
  lead := tagSpelled_small small wire
  extent := extent

/-- Some fields as a message with a length of one byte. -/
def RawMessage.ofFields (fs : List RawField)
    (small : (fs.flatMap RawField.bytes).length < 128) : RawMessage where
  head := [UInt8.ofNat (fs.flatMap RawField.bytes).length]
  fields := fs
  count := UInt64.ofNat (fs.flatMap RawField.bytes).length
  spells := spells_small small
  counts := toNat_low_half (by omega)

/-- A number in a field. -/
def RawField.ofNumber (number n : ℕ) (small : 0 < number ∧ number < 16) (short : n < 128) :
    RawField :=
  .ofPayload number .varint [UInt8.ofNat n] small (.varint (spells_small short))

/-- A word in a field. -/
def RawField.ofWord (number : ℕ) (n : UInt32) (small : 0 < number ∧ number < 16) : RawField :=
  .ofPayload number .fixed32 (Wire.be32 n) small (.fixed32 (Wire.length_be32 n))

/-- A message in a field. -/
def RawField.ofMessage (number : ℕ) (m : RawMessage) (small : 0 < number ∧ number < 16) :
    RawField :=
  .ofPayload number .lengthDelimited m.bytes small (.lengthDelimited m.spells m.counts)

/-- Fields that none of the messages defines: eight bytes, and a region of two. -/
def strayFields : List RawField :=
  [.ofPayload 6 .fixed64 [0, 1, 2, 3, 4, 5, 6, 7] (by decide) (.fixed64 rfl),
    .ofPayload 15 .lengthDelimited ([2] ++ [8, 1]) (by decide)
      (.lengthDelimited (spells_small (by decide : 2 < 128)) rfl)]

/-- A difference of ids. -/
def idField : RawField := .ofNumber 1 2 (by decide) (by decide)

/-- The sideways difference of a border point. -/
def pointField : RawField := .ofNumber 1 6 (by decide) (by decide)

/-- The start of a border line, and how far it goes. -/
def lineFields : List RawField :=
  [.ofNumber 1 10 (by decide) (by decide), .ofNumber 3 30 (by decide) (by decide)]

/-- Where the points of the line are. -/
def shiftField (shift : UInt32) : RawField := .ofWord 7 shift (by decide)

/-- An id table without and with other fields. -/
def plainIds : RawMessage := .ofFields [idField, idField] (by decide)

def paddedIds : RawMessage :=
  .ofFields (strayFields ++ idField :: strayFields ++ [idField]) (by decide)

/-- A header without and with other fields, past which its shift leads then. -/
def plainHeader : RawMessage := .ofFields (lineFields ++ [shiftField 40]) (by decide)

def paddedHeader : RawMessage :=
  .ofFields (lineFields ++ strayFields ++ [shiftField 53]) (by decide)

/-- A border point without and with other fields. -/
def plainPoint : RawMessage := .ofFields [pointField] (by decide)

def paddedPoint : RawMessage := .ofFields (strayFields ++ [pointField]) (by decide)

/-- The points of a line, without and with other fields. -/
def plainPoints : RawMessage := .ofFields [.ofMessage 5 plainPoint (by decide)] (by decide)

def paddedPointField : RawField := .ofMessage 5 paddedPoint (by decide)

def paddedPoints : RawMessage := .ofFields (paddedPointField :: strayFields) (by decide)

/-- What stood behind the header stands thirteen bytes further. -/
def behindHeader (n : ℕ) : ℕ := if n < 70 then n else n + 13

theorem unknown_fields_are_transparent_samples :
    (∃ v, BlockTables.readIds.Finds plainIds.bytes v ∧
      BlockTables.readIds.Finds paddedIds.bytes v) ∧
    (∃ line, BorderLine.decoder.ReadsAt 60 plainHeader.bytes line ∧
      BorderLine.decoder.ReadsAt 60 paddedHeader.bytes (line.moved behindHeader)) ∧
    ∃ v, (BorderTrail.decoder 0 none).Finds plainPoints.bytes v ∧
      (BorderTrail.decoder 0 none).Finds paddedPoints.bytes v := by
  obtain ⟨records, header, trail⟩ := unknown_fields_are_transparent
  refine ⟨?_, ?_, ?_⟩
  · exact records .ids plainIds paddedIds (by decide) rfl
  · refine header behindHeader 60 plainHeader paddedHeader rfl (by decide) ?_
    exact .cons ⟨rfl, rfl, rfl⟩ (.cons ⟨rfl, rfl, rfl⟩ (.cons ⟨rfl, rfl, rfl⟩ .nil))
  · refine trail 0 none plainPoints paddedPoints (by decide) ?_
    exact .cons ⟨rfl, rfl, plainPoint, paddedPoint, rfl, rfl, by decide, rfl⟩ .nil

end RoadAtlas
