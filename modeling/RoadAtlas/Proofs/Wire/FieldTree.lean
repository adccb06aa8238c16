import RoadAtlas.Container.Catalog
import RoadAtlas.Proofs.Wire.Message

/-!
Messages of any shape, read back as they were written. A message is a forest: its fields are
values, or messages of their own in one of the two framings that announce a nested region. A reader
of such a message is told in advance, field by field, whether to read the field or to pass it over,
and for a nested message what to do with each field inside.

* `FieldValue`, `MessageField`: the values and the fields of messages, with the bytes that they are
  written as;
* `Reading`: what a reader has learned of a field;
* `Plan.decodeAll`: the reader with a plan for each field; `Plan.Suits` says that a plan has for a
  field the read that matches it, and `Plan.mask` forgets what the plan passes over;
* `FieldValue.readsAt`, `FieldValue.skip_readsAt`: a value is read as what was written, and passing
  it over consumes as much;
* `Plan.decodeAll_writeAll`: every plan that suits a message reads what it does not pass over, and
  stops at the end of the message.
-/

namespace RoadAtlas

open Decoder

variable {α : Type} {p : ℕ}

/-! ### Framings and values -/

/-- How a nested region announces its length: as a message behind a varint, or as a block behind a
big-endian word. -/
inductive Framing where
  | message
  | block
  deriving DecidableEq, Repr

namespace Framing

/-- The wire type in the tag of a nested region. -/
def wire : Framing → WireType
  | message => .lengthDelimited
  | block => .fixed32

/-- A region as the payload of its field. -/
def payload (body : List UInt8) : Framing → List UInt8
  | message => Wire.sized body
  | block => Wire.be32 (UInt32.ofNat body.length) ++ body

/-- The field of a nested region. -/
def write (number : ℕ) (body : List UInt8) : Framing → List UInt8
  | message => Wire.messageField number body
  | block => Wire.blockField number body

/-- Decodes a nested region. -/
def decoder (x : Decoder α) : Framing → Decoder α
  | message => sized x
  | block => blockSized x

lemma write_eq (framing : Framing) (number : ℕ) (body : List UInt8) :
    framing.write number body = Wire.tag number framing.wire ++ framing.payload body := by
  cases framing with
  | message => rfl
  | block => exact List.append_assoc ..

/-- What fills its region is read behind the length of the region. -/
lemma decoder_readsAt (framing : Framing) {x : Decoder α} {body : List UInt8} {a : α}
    (h : ∀ q, x.FillsAt q body a) (small : body.length < 2 ^ 32) :
    (framing.decoder x).ReadsAt p (framing.payload body) a := by
  cases framing with
  | message => exact (h _).sized small
  | block => exact (h _).blockSized small

/-- A nested region is passed over as a whole. -/
lemma skip_readsAt (framing : Framing) (number : ℕ) {body : List UInt8}
    (small : body.length < 2 ^ 32) :
    (skipSectionField ⟨number, framing.wire.code⟩).ReadsAt p (framing.payload body) () := by
  cases framing with
  | message =>
    have counts : (UInt64.ofNat body.length).toUInt32.toNat = body.length := by
      simpa using small
    exact skipField_sized_readsAt number (Varint.spells_varint _) counts
  | block => exact skipBlock_readsAt small

end Framing

/-- A value that a field holds. -/
inductive FieldValue where
  | number (n : UInt64)
  | truth (b : Bool)
  | int32 (n : Int32)
  | int64 (n : Int64)
  | bytes (body : ByteArray)
  | text (s : String)
  | numbers (ns : Array UInt32)
  | block (body : ByteArray)

/-- The kinds of values, each with a read of its own. -/
inductive FieldKind where
  | number
  | truth
  | int32
  | int64
  | bytes
  | text
  | numbers
  | block
  deriving DecidableEq, Repr

/-- Reads a value of a kind. The body of a block is what is left of its region. -/
def FieldKind.decoder : FieldKind → Decoder FieldValue
  | number => FieldValue.number <$> varint
  | truth => FieldValue.truth <$> bool
  | int32 => FieldValue.int32 <$> sint32
  | int64 => FieldValue.int64 <$> sint64
  | bytes => FieldValue.bytes <$> Decoder.bytes
  | text => FieldValue.text <$> string
  | numbers => FieldValue.numbers <$> packed
  | block => FieldValue.block <$> blockSized (remaining >>= take)

namespace FieldValue

def kind : FieldValue → FieldKind
  | number _ => .number
  | truth _ => .truth
  | int32 _ => .int32
  | int64 _ => .int64
  | bytes _ => .bytes
  | text _ => .text
  | numbers _ => .numbers
  | block _ => .block

/-- The wire type in the tag of a value. -/
def wire : FieldValue → WireType
  | number _ | truth _ | int32 _ | int64 _ => .varint
  | bytes _ | text _ | numbers _ => .lengthDelimited
  | block _ => .fixed32

/-- The bytes that the length of a value counts, none for a number. -/
def body : FieldValue → List UInt8
  | number _ | truth _ | int32 _ | int64 _ => []
  | bytes body | block body => body.toList
  | text s => Wire.utf8 s
  | numbers ns => Wire.packed ns.toList

/-- What stands behind the tag of a value. -/
def payload : FieldValue → List UInt8
  | number n => Wire.varint n
  | truth b => Wire.varint (if b then 1 else 0)
  | int32 n => Wire.varint32 (Zigzag.encode32 n)
  | int64 n => Wire.varint (Zigzag.encode64 n)
  | bytes body => Wire.sized body.toList
  | text s => Wire.sized (Wire.utf8 s)
  | numbers ns => Wire.sized (Wire.packed ns.toList)
  | block body => Framing.payload body.toList .block

/-- The field of a value. -/
def write (number : ℕ) : FieldValue → List UInt8
  | .number n => Wire.varintField number n
  | truth b => Wire.boolField number b
  | int32 n => Wire.sint32Field number n
  | int64 n => Wire.sint64Field number n
  | bytes body => Wire.bytesField number body.toList
  | text s => Wire.stringField number s
  | numbers ns => Wire.packedField number ns.toList
  | block body => Wire.blockField number body.toList

lemma write_eq (v : FieldValue) (number : ℕ) :
    v.write number = Wire.tag number v.wire ++ v.payload := by
  cases v with
  | block body => exact Framing.write_eq .block number body.toList
  | _ => rfl

/-- The read that matches a value gives the value back. -/
lemma readsAt (v : FieldValue) (small : v.body.length < 2 ^ 32) :
    v.kind.decoder.ReadsAt p v.payload v := by
  cases v with
  | number n => exact (varint_readsAt n).map _
  | truth b => exact (bool_readsAt b).map _
  | int32 n => exact (sint32_readsAt n).map _
  | int64 n => exact (sint64_readsAt n).map _
  | bytes body =>
    have h := bytes_readsAt (p := p) (show body.toList.length < 2 ^ 32 from small)
    rw [toByteArray_toList] at h
    exact h.map _
  | text s => exact (string_readsAt small).map _
  | numbers ns => exact (packed_readsAt small).map _
  | block body =>
    have h := Framing.decoder_readsAt (p := p) .block (fun q => remaining_fillsAt body.toList) small
    rw [toByteArray_toList] at h
    exact h.map _

/-- A value is passed over as a whole. -/
lemma skip_readsAt (v : FieldValue) (number : ℕ) (small : v.body.length < 2 ^ 32) :
    (skipSectionField ⟨number, v.wire.code⟩).ReadsAt p v.payload () := by
  cases v with
  | number _ | truth _ | int64 _ =>
    exact skipField_varint_readsAt number (Varint.spells_varint _)
  | int32 n =>
    exact skipField_varint_readsAt number (Varint.spells_varint (Zigzag.encode32 n).toUInt64)
  | bytes _ | text _ | numbers _ => exact Framing.skip_readsAt .message number small
  | block _ => exact Framing.skip_readsAt .block number small

end FieldValue

/-! ### Messages -/

/-- A field of a message: a value, or a nested message. -/
inductive MessageField where
  | leaf (number : ℕ) (value : FieldValue)
  | nested (number : ℕ) (framing : Framing) (fields : List MessageField)

namespace MessageField

mutual

/-- The written field. -/
def write : MessageField → List UInt8
  | leaf number value => value.write number
  | nested number framing fields => framing.write number (writeAll fields)

/-- The written fields of a message, in their order. -/
def writeAll : List MessageField → List UInt8
  | [] => []
  | f :: rest => write f ++ writeAll rest

end

mutual

/-- The field has a number that a tag has room for, and every length in it fits in 32 bits. -/
def Storable : MessageField → Prop
  | leaf number value => FieldNumber number ∧ value.body.length < 2 ^ 32
  | nested number _ fields =>
    FieldNumber number ∧ (writeAll fields).length < 2 ^ 32 ∧ StorableAll fields

/-- Every field of a message is storable. -/
def StorableAll : List MessageField → Prop
  | [] => True
  | f :: rest => Storable f ∧ StorableAll rest

end

mutual

/-- Whether a field is storable is computed. -/
def decideStorable : (f : MessageField) → Decidable f.Storable
  | leaf _ _ => instDecidableAnd
  | nested _ _ fields =>
    have := decideStorableAll fields
    instDecidableAnd

/-- Whether every field of a message is storable is computed. -/
def decideStorableAll : (fields : List MessageField) → Decidable (StorableAll fields)
  | [] => instDecidableTrue
  | f :: rest =>
    have := decideStorable f
    have := decideStorableAll rest
    instDecidableAnd

end

instance : DecidablePred StorableAll := decideStorableAll

/-- The number in the tag of a field. -/
def number : MessageField → ℕ
  | leaf number _ => number
  | nested number _ _ => number

/-- The wire type in the tag of a field. -/
def wire : MessageField → WireType
  | leaf _ value => value.wire
  | nested _ framing _ => framing.wire

/-- The tag that a reader meets before a field. -/
def tag (f : MessageField) : Tag := ⟨f.number, f.wire.code⟩

/-- What stands behind the tag of a field. -/
def payload : MessageField → List UInt8
  | leaf _ value => value.payload
  | nested _ framing fields => framing.payload (writeAll fields)

end MessageField

namespace MessageField

lemma write_eq (f : MessageField) : f.write = Wire.tag f.number f.wire ++ f.payload := by
  cases f with
  | leaf number value => exact value.write_eq number
  | nested number framing fields => exact framing.write_eq number (writeAll fields)

lemma Storable.fieldNumber {f : MessageField} (h : f.Storable) : FieldNumber f.number := by
  cases f <;> exact h.1

/-- A field is passed over as a whole. -/
lemma skip_readsAt {f : MessageField} (h : f.Storable) :
    (skipSectionField f.tag).ReadsAt p f.payload () := by
  cases f with
  | leaf number value => exact value.skip_readsAt number h.2
  | nested number framing fields => exact framing.skip_readsAt number h.2.1

end MessageField

/-! ### Readings and plans -/

/-- What a reader has learned of a field: the tag, if it passed the field over; else its value as
well, or for a nested message its fields and the tag at which they ended. -/
inductive Reading where
  | passed (t : Tag)
  | value (t : Tag) (v : FieldValue)
  | message (t : Tag) (fields : List Reading) (stop : Tag)

/-- What to do with a field: pass it over, read it as a value of a kind, or enter the nested message
with a plan for each of its fields. -/
inductive Plan where
  | pass
  | read (kind : FieldKind)
  | enter (framing : Framing) (plans : List Plan)

/-- The tag that led a field. -/
def Reading.tag : Reading → Tag
  | passed t => t
  | value t _ => t
  | message t _ _ => t

namespace MessageField

mutual

/-- What there is to learn of a field. -/
def reading : MessageField → Reading
  | f@(leaf _ value) => .value f.tag value
  | f@(nested _ _ fields) => .message f.tag (readingAll fields) .finish

/-- What there is to learn of a message. -/
def readingAll : List MessageField → List Reading
  | [] => []
  | f :: rest => reading f :: readingAll rest

end

mutual

/-- The plan that reads the whole of a field. -/
def plan : MessageField → Plan
  | leaf _ value => .read value.kind
  | nested _ framing fields => .enter framing (planAll fields)

/-- The plan that reads the whole of a message. -/
def planAll : List MessageField → List Plan
  | [] => []
  | f :: rest => plan f :: planAll rest

end

end MessageField

namespace Plan

mutual

/-- Follows a plan for the field behind a tag. -/
def decoder : Plan → Tag → Decoder Reading
  | pass, t => do
    skipSectionField t
    return .passed t
  | read kind, t => Reading.value t <$> kind.decoder
  | enter framing plans, t => do
    let inner ← framing.decoder (decodeAll plans)
    return .message t inner.1 inner.2

/-- Follows a plan for each field of a message, then reads the tag behind them. -/
def decodeAll : List Plan → Decoder (List Reading × Tag)
  | [] => do
    let stop ← tag
    return ([], stop)
  | plan :: rest => do
    let t ← tag
    let first ← plan.decoder t
    let later ← decodeAll rest
    return (first :: later.1, later.2)

end

mutual

/-- Wherever the plan reads, it has the read that matches what was written. -/
def Suits : Plan → MessageField → Prop
  | pass, _ => True
  | read kind, .leaf _ value => value.kind = kind
  | enter framing plans, .nested _ framing' fields => framing' = framing ∧ SuitsAll plans fields
  | _, _ => False

/-- The plans suit the fields one by one. -/
def SuitsAll : List Plan → List MessageField → Prop
  | [], [] => True
  | plan :: plans, f :: fields => Suits plan f ∧ SuitsAll plans fields
  | _, _ => False

end

mutual

/-- The plan that reads the whole of a field suits it. -/
lemma suits_plan : ∀ f : MessageField, f.plan.Suits f
  | .leaf _ _ => rfl
  | .nested _ _ fields => ⟨rfl, suitsAll_planAll fields⟩

lemma suitsAll_planAll : ∀ fields : List MessageField,
    SuitsAll (MessageField.planAll fields) fields
  | [] => trivial
  | f :: rest => ⟨suits_plan f, suitsAll_planAll rest⟩

end

mutual

/-- What is left of a reading when the fields that the plan passes over are forgotten. -/
def mask : Plan → Reading → Reading
  | pass, reading => .passed reading.tag
  | enter _ plans, .message t fields stop => .message t (maskAll plans fields) stop
  | _, reading => reading

/-- What is left of the readings of a message. -/
def maskAll : List Plan → List Reading → List Reading
  | plan :: plans, reading :: readings => mask plan reading :: maskAll plans readings
  | _, readings => readings

end

mutual

/-- The plan that reads the whole of a field forgets nothing. -/
lemma mask_plan : ∀ f : MessageField, f.plan.mask f.reading = f.reading
  | .leaf _ _ => rfl
  | .nested _ _ fields => by
    rw [MessageField.plan, MessageField.reading, mask, maskAll_planAll fields]

lemma maskAll_planAll : ∀ fields : List MessageField,
    maskAll (MessageField.planAll fields) (MessageField.readingAll fields) =
      MessageField.readingAll fields
  | [] => rfl
  | f :: rest => by
    rw [MessageField.planAll, MessageField.readingAll, maskAll, mask_plan f, maskAll_planAll rest]

end

/-! ### Following a plan -/

mutual

/-- A plan that suits a field reads what it does not pass over. -/
lemma decoder_readsAt : ∀ (plan : Plan) (f : MessageField), plan.Suits f → f.Storable → ∀ p,
    (plan.decoder f.tag).ReadsAt p f.payload (plan.mask f.reading)
  | pass, f, _, storable, p => by
    have tag : f.reading.tag = f.tag := by cases f <;> rfl
    rw [mask, tag]
    exact (MessageField.skip_readsAt storable).bind_pure
  | read kind, .leaf number value, suits, storable, p => by
    rw [← (show value.kind = kind from suits)]
    exact (value.readsAt storable.2).map _
  | enter framing plans, .nested number _ fields, suits, storable, p => by
    obtain ⟨rfl, inside⟩ := suits
    obtain ⟨-, small, stored⟩ := storable
    have inner := decodeAll_fillsAt plans fields inside stored
    exact (Framing.decoder_readsAt _ inner small).bind_pure

/-- Plans that suit a message read what they do not pass over, and meet the end of the message. -/
lemma decodeAll_fillsAt : ∀ (plans : List Plan) (fields : List MessageField),
    SuitsAll plans fields → MessageField.StorableAll fields → ∀ p,
    (decodeAll plans).FillsAt p (MessageField.writeAll fields)
      (maskAll plans (MessageField.readingAll fields), .finish)
  | [], [], _, _, p => (tag_fillsAt p).map fun stop => ([], stop)
  | plan :: plans, f :: fields, suits, storable, p => by
    obtain ⟨first, later⟩ := suits
    obtain ⟨here, behind⟩ := storable
    rw [MessageField.writeAll, f.write_eq, List.append_assoc]
    refine FillsAt.bind (tag_readsAt f.wire here.fieldNumber.2) ?_
    refine FillsAt.bind (decoder_readsAt plan f first here _) ?_
    exact (decodeAll_fillsAt plans fields later behind _).map fun rest =>
      (plan.mask f.reading :: rest.1, rest.2)

end

/-- A written message is read back field by field, value by value, up to its end. If any of its
fields are passed over instead, at whatever depth, the others are read as before. -/
theorem decodeAll_writeAll (fields : List MessageField)
    (storable : MessageField.StorableAll fields)
    (small : (MessageField.writeAll fields).length < positionBound) :
    let data := (MessageField.writeAll fields).toByteArray
    ((decodeAll (MessageField.planAll fields)).run data (.start data)).Ends
        (MessageField.readingAll fields, .finish) ⟨data.size, data.size⟩ ∧
      ∀ plans, SuitsAll plans fields → ((decodeAll plans).run data (.start data)).Ends
        (maskAll plans (MessageField.readingAll fields), .finish) ⟨data.size, data.size⟩ := by
  intro data
  have size : data.size = (MessageField.writeAll fields).length := List.size_toByteArray
  have held : Holds data 0 (MessageField.writeAll fields) := holds_append [] _
  have followed : ∀ plans, SuitsAll plans fields → ((decodeAll plans).run data (.start data)).Ends
      (maskAll plans (MessageField.readingAll fields), .finish) ⟨data.size, data.size⟩ := by
    intro plans suits
    have h := decodeAll_fillsAt plans fields suits storable 0 data (size ▸ small)
      (by simp only [size, Nat.zero_add, Nat.le_refl]) held
    rwa [Nat.zero_add, ← size] at h
  refine ⟨?_, followed⟩
  have whole := followed _ (suitsAll_planAll fields)
  rwa [maskAll_planAll] at whole

/-- A message with numbers at their extremes, a text in a block in a message, and a list. -/
def sampleFields : List MessageField :=
  [.leaf 1 (.number 0xffffffffffffffff),
    .nested 2 .message
      [.leaf 1 (.int32 (-2147483648)), .nested 536870911 .block [.leaf 3 (.text "é")],
        .leaf 4 (.truth true)],
    .leaf 5 (.numbers #[0, 300, 4294967295])]

/-- Passes over the first field and over the block. -/
def samplePlans : List Plan :=
  [.pass, .enter .message [.read .int32, .pass, .read .truth], .read .numbers]

theorem decodeAll_writeAll_sample :
    let data := (MessageField.writeAll sampleFields).toByteArray
    ((decodeAll samplePlans).run data (.start data)).Ends
      ([.passed ⟨1, 0⟩,
        .message ⟨2, 2⟩
          [.value ⟨1, 0⟩ (.int32 (-2147483648)), .passed ⟨536870911, 5⟩,
            .value ⟨4, 0⟩ (.truth true)] .finish,
        .value ⟨5, 2⟩ (.numbers #[0, 300, 4294967295])], .finish) ⟨data.size, data.size⟩ :=
  (decodeAll_writeAll sampleFields (by decide +kernel) (by decide +kernel)).2 samplePlans
    ⟨trivial, ⟨rfl, rfl, trivial, rfl, trivial⟩, rfl, trivial⟩

end Plan

end RoadAtlas
