import RoadAtlas.Wire.Scalar

/-!
Messages: sequences of fields, each led by a tag that holds a field number and a wire type.

* `Tag` is a decoded tag, `WireType` the wire types whose extent is known;
* `rounds` repeats "read a number, then what it leads" to the end of a region. Each round consumes
  at least one byte, so the repetition ends; a round may use that fact (`fieldRounds` hands it on);
* `fields` and `fieldsUntil` fold over the fields of a message, `entries` over values that fill a
  region; `fields_eq` and its companions unfold one round;
* `skipField` passes over a field nobody asked for;
* `packed` and `stringTable` are the two lists of scalars of the format.
-/

namespace RoadAtlas

/-! ### Tags -/

/-- How the extent of a field's payload is known. -/
inductive WireType where
  | varint
  | fixed64
  | lengthDelimited
  | fixed32
  deriving DecidableEq, Repr

namespace WireType

/-- The number of a wire type in a tag. -/
def code : WireType → Nat
  | varint => 0
  | fixed64 => 1
  | lengthDelimited => 2
  | fixed32 => 5

/-- The wire type with a number. -/
def ofCode? (code : Nat) : Option WireType :=
  match code with
  | 0 => some varint
  | 1 => some fixed64
  | 2 => some lengthDelimited
  | 5 => some fixed32
  | _ => none

theorem ofCode?_code (w : WireType) : ofCode? w.code = some w := by
  cases w <;> rfl

end WireType

/-- What leads a field. Field number 0 stands for the end of the message. -/
structure Tag where
  field : Nat
  wire : Nat
  deriving DecidableEq, Repr

namespace Tag

/-- The end of a message. -/
def finish : Tag := ⟨0, 0⟩

def isEnd (t : Tag) : Bool := t.field == 0

/-- The tag that a 32-bit number stands for. -/
def ofWord (lead : UInt32) : Tag := ⟨lead.toNat / 8, lead.toNat % 8⟩

/-- The number that stands for a field of a wire type; what exceeds 32 bits is lost. -/
def word (field : Nat) (wire : WireType) : UInt32 :=
  UInt32.ofNat (field * 8 + wire.code)

/-- The tag announces a payload of the given wire type. -/
def has (t : Tag) (wire : WireType) : Bool := t.wire == wire.code

end Tag

namespace Decoder

variable {α σ : Type}

/-! ### Repetition -/

/-- Repeats to the end of the region that `start` is in, or to a number on which `ends` holds: read
a number, then let `step` read what it leads. The number on which it ended comes with the result, 0
at the end of the region. -/
def rounds (ends : UInt32 → Bool) (data : ByteArray) (start : Cursor) (acc : σ)
    (step : UInt32 → σ → (c : Cursor) → start.Precedes c → Outcome σ c) :
    Outcome (σ × UInt32) start :=
  if start.atLimit then .done (acc, 0) start (.refl start)
  else
    match h : varint32.run data start with
    | .failed cause stopped => .failed cause stopped
    | .done lead c reach =>
      if ends lead then .done (acc, lead) c reach
      else
        have before : start.Precedes c := varint32_precedes h
        match step lead acc c before with
        | .failed cause stopped => .failed cause stopped
        | .done acc c' reach' =>
          have before' : start.Precedes c' := before.trans_reaches reach'
          have := before'.remaining_lt
          match rounds ends data c' acc fun lead acc c'' later =>
              step lead acc c'' (before'.reaches.trans_precedes later) with
          | .failed cause stopped => .failed cause stopped
          | .done result c'' reach'' => .done result c'' (before'.reaches.trans reach'')
termination_by start.remaining

/-- Repeats over the fields of a message that starts at `start`. -/
def fieldRounds (data : ByteArray) (start : Cursor) (acc : σ)
    (step : Tag → σ → (c : Cursor) → start.Precedes c → Outcome σ c) : Outcome σ start :=
  (rounds (fun lead => (Tag.ofWord lead).isEnd) data start acc
    fun lead => step (Tag.ofWord lead)).map Prod.fst

/-- Folds over the fields of a message: `step` reads the payload of each. -/
def fields (acc : σ) (step : Tag → σ → Decoder σ) : Decoder σ := ⟨fun data c =>
  fieldRounds data c acc fun tag acc c' _ => (step tag acc).run data c'⟩

/-- Folds over the fields before the first tag on which `stop` holds, and gives that tag too. -/
def fieldsUntil (stop : Tag → Bool) (acc : σ) (step : Tag → σ → Decoder σ) : Decoder (σ × Tag) :=
  ⟨fun data c =>
    (rounds (fun lead => (Tag.ofWord lead).isEnd || stop (Tag.ofWord lead)) data c acc
      fun lead acc c' _ => (step (Tag.ofWord lead) acc).run data c').map fun (acc, lead) =>
        (acc, Tag.ofWord lead)⟩

/-- Folds over the values that fill a region: `step` gets the number that leads each. -/
def entries (acc : σ) (step : UInt32 → σ → Decoder σ) : Decoder σ := ⟨fun data c =>
  (rounds (fun _ => false) data c acc fun lead acc c' _ =>
    (step lead acc).run data c').map Prod.fst⟩

/-! ### Single fields -/

/-- The tag of the next field, the end of the message at the end of its region. -/
def tag : Decoder Tag := ⟨fun data c =>
  if c.atLimit then .done .finish c (.refl c)
  else (varint32.run data c).map Tag.ofWord⟩

/-- Passes over the payload of a field. -/
def skipField (t : Tag) : Decoder Unit := do
  match WireType.ofCode? t.wire with
  | some .varint =>
    let _ ← varint
  | some .fixed64 => skip 8
  | some .fixed32 => skip 4
  | some .lengthDelimited =>
    let length ← varint32
    skip length.toNat
  | none =>
    let here ← position
    fail (.unknownWireType t.field t.wire here)

/-- Passes over a block behind a big-endian length. -/
def skipBlock : Decoder Unit := do
  let length ← be32
  skip length.toNat

/-! ### Repetition, unfolded once -/

/-- One round, as a decoder. -/
theorem rounds_eq (ends : UInt32 → Bool) (data : ByteArray) (c : Cursor) (acc : σ)
    (step : UInt32 → σ → Decoder σ) :
    rounds ends data c acc (fun lead acc c' _ => (step lead acc).run data c') =
      if c.atLimit then .done (acc, 0) c (.refl c)
      else (varint32.run data c).andThen fun lead c' _ =>
        if ends lead then .done (acc, lead) c' (.refl c')
        else ((step lead acc).run data c').andThen fun acc c'' _ =>
          rounds ends data c'' acc fun lead acc c' _ => (step lead acc).run data c' := by
  rw [rounds]
  split
  · rfl
  · split
    next cause stopped hv => rw [hv]; rfl
    next lead c' reach hv =>
      simp only [hv, Outcome.andThen]
      by_cases stop : ends lead = true
      · simp [stop]
      · simp only [stop, Bool.false_eq_true, ↓reduceIte]
        cases (step lead acc).run data c' with
        | failed cause stopped => rfl
        | done acc' c'' reach' =>
          simp only
          generalize rounds _ data c'' acc' _ = o
          cases o <;> rfl

theorem run_fieldsUntil (stop : Tag → Bool) (acc : σ) (step : Tag → σ → Decoder σ)
    (data : ByteArray) (c : Cursor) :
    (fieldsUntil stop acc step).run data c =
      (rounds (fun lead => (Tag.ofWord lead).isEnd || stop (Tag.ofWord lead)) data c acc
        fun lead acc c' _ => (step (Tag.ofWord lead) acc).run data c').map fun (acc, lead) =>
          (acc, Tag.ofWord lead) := rfl

theorem run_entries (acc : σ) (step : UInt32 → σ → Decoder σ) (data : ByteArray) (c : Cursor) :
    (entries acc step).run data c =
      (rounds (fun _ => false) data c acc fun lead acc c' _ =>
        (step lead acc).run data c').map Prod.fst := rfl

/-- A message up to `stop` is its next field and the rest, or ends at the next tag. -/
theorem fieldsUntil_eq (stop : Tag → Bool) (acc : σ) (step : Tag → σ → Decoder σ) :
    fieldsUntil stop acc step = (do
      let t ← tag
      if t.isEnd || stop t then return (acc, t)
      let acc ← step t acc
      fieldsUntil stop acc step) := by
  ext data c
  rw [run_bind, run_fieldsUntil, rounds_eq _ _ _ _ fun lead => step (Tag.ofWord lead), tag]
  simp only
  split
  next limit => simp [Outcome.map, Outcome.andThen, Tag.finish, Tag.ofWord, Tag.isEnd]
  next limit =>
    cases varint32.run data c with
    | failed cause stopped => rfl
    | done lead c' reach =>
      simp only [Outcome.map, Outcome.andThen]
      by_cases ends : ((Tag.ofWord lead).isEnd || stop (Tag.ofWord lead)) = true
      · simp only [ends, ↓reduceIte]
        rfl
      · simp only [ends, Bool.false_eq_true, ↓reduceIte]
        rw [run_bind]
        cases (step (Tag.ofWord lead) acc).run data c' with
        | failed cause stopped => rfl
        | done acc' c'' reach' =>
          simp only [Outcome.andThen, Outcome.map, run_fieldsUntil]
          generalize rounds _ data c'' acc' _ = o
          cases o <;> rfl

theorem fields_eq_map_fieldsUntil (acc : σ) (step : Tag → σ → Decoder σ) :
    fields acc step = Prod.fst <$> fieldsUntil (fun _ => false) acc step := by
  ext data c
  rw [run_map, fields, fieldsUntil]
  simp only [fieldRounds, Bool.or_false]
  generalize rounds _ data c acc _ = o
  cases o <;> rfl

/-- A message is its next field and the rest of the message, or at its end. -/
theorem fields_eq (acc : σ) (step : Tag → σ → Decoder σ) :
    fields acc step = (do
      let t ← tag
      if t.isEnd then return acc
      let acc ← step t acc
      fields acc step) := by
  simp only [fields_eq_map_fieldsUntil]
  rw [fieldsUntil_eq]
  simp only [Bool.or_false, map_bind]
  congr
  funext t
  split <;> simp

/-- A region is its next entry and the rest of the region, or empty. -/
theorem entries_eq (acc : σ) (step : UInt32 → σ → Decoder σ) :
    entries acc step = (do
      let left ← remaining
      if left = 0 then return acc
      let lead ← varint32
      let acc ← step lead acc
      entries acc step) := by
  ext data c
  rw [run_bind, run_entries, rounds_eq, remaining]
  have empty : c.atLimit = true ↔ c.remaining = 0 := by
    simp only [Cursor.atLimit, decide_eq_true_eq, Cursor.remaining]
    omega
  simp only [Outcome.andThen, empty]
  split
  next => rfl
  next =>
    rw [run_bind]
    cases varint32.run data c with
    | failed cause stopped => rfl
    | done lead c' reach =>
      simp only [Bool.false_eq_true, ↓reduceIte, Outcome.andThen]
      rw [run_bind]
      cases (step lead acc).run data c' with
      | failed cause stopped => rfl
      | done acc' c'' reach' =>
        simp only [Outcome.andThen, Outcome.map, run_entries]
        generalize rounds _ data c'' acc' _ = o
        cases o <;> rfl

/-! ### Lists of scalars -/

/-- The numbers that fill a sized region. -/
def packed : Decoder (Array UInt32) :=
  sized (entries #[] fun n ns => pure (ns.push n))

/-- The strings of a string table, field 1 each. -/
def stringTableBody : Decoder (Array String) :=
  fields #[] fun t strings =>
    match t.field with
    | 1 => do
      let text ← string
      return strings.push text
    | _ => do
      skipField t
      return strings

/-- A string table in a sized region. -/
def stringTable : Decoder (Array String) := sized stringTableBody

end Decoder

end RoadAtlas
