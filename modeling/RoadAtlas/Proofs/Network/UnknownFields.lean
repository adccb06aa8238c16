import RoadAtlas.Proofs.Container.Writing
import RoadAtlas.Proofs.Network.Legible

/-!
Unknown fields of a section. A field that a section has no meaning for is passed over by its wire
type. That is the whole field for a number, eight bytes and a field with a length, but of a block
only the four bytes of its length are passed over, and its body is read as further fields.

* `RoutingSection.UnknownField`: the fields of other numbers, in each of the forms that fields of a
  section have;
* `RoutingSection.PassedOver`: bytes that are passed over, field by field, without blocks;
* `SectionField`, `SectionDraft.frontFields`: what stands in front of the data blocks, field by
  field, and `SectionDraft.writeWith`, which puts bytes between two fields;
* `RoutingSection.read_writeWith`: such bytes change neither the rules nor the outline of a section
  if they are an unknown field whose body, if it is a block, is passed over as well;
* `RuleTable.read_unknownBlock`: other blocks do.
-/

namespace RoadAtlas

open Decoder

namespace RoutingSection

variable {σ τ : Type} {p : ℕ} {bytes body : List UInt8} {number : ℕ} {wire : WireType}

/-! ### Fields of other numbers -/

/-- The fields that a section has a meaning for. -/
def knownNumbers : List ℕ :=
  [Format.Section.name, Format.Section.rule, Format.Section.box, Format.Section.basemapBox,
    Format.Section.block, Format.Section.border, Format.Section.basemapBorder]

/-- A number of a field that a section has no meaning for. -/
structure UnknownNumber (number : ℕ) : Prop where
  valid : FieldNumber number
  unknown : number ∉ knownNumbers

/-- The payloads of a wire type. -/
inductive Payload : WireType → List UInt8 → Prop
  | varint {bytes : List UInt8} {n : UInt64} (spells : Varint.Spells bytes n) :
      Payload .varint bytes
  | fixed64 {bytes : List UInt8} (length : bytes.length = 8) : Payload .fixed64 bytes
  | lengthDelimited {head body : List UInt8} {n : UInt64} (spells : Varint.Spells head n)
      (counts : n.toUInt32.toNat = body.length) : Payload .lengthDelimited (head ++ body)
  | fixed32 {bytes : List UInt8} (length : bytes.length = 4) : Payload .fixed32 bytes

/-- Fields of other numbers, passed over one by one by their wire types. -/
inductive PassedOver : List UInt8 → Prop
  | nil : PassedOver []
  | field {number : ℕ} {wire : WireType} {head payload rest : List UInt8}
      (unknown : UnknownNumber number) (lead : TagSpelled head ⟨number, wire.code⟩)
      (extent : Payload wire payload) (tail : PassedOver rest) :
      PassedOver (head ++ payload ++ rest)

/-- A field of another number, in one of the forms that fields of a section have: with a payload of
its wire type, or a block with a body in `bodies`. -/
inductive UnknownField (bodies : List UInt8 → Prop) : List UInt8 → Prop
  | plain {number : ℕ} {wire : WireType} {head payload : List UInt8}
      (unknown : UnknownNumber number) (lead : TagSpelled head ⟨number, wire.code⟩)
      (extent : Payload wire payload) (noBlock : wire ≠ .fixed32) :
      UnknownField bodies (head ++ payload)
  | block {number : ℕ} {head body : List UInt8} (unknown : UnknownNumber number)
      (lead : TagSpelled head ⟨number, WireType.fixed32.code⟩) (sized : body.length < 2 ^ 32)
      (inner : bodies body) :
      UnknownField bodies (head ++ Wire.be32 (UInt32.ofNat body.length) ++ body)

/-- An unknown field is passed over if the body of a block is. -/
lemma UnknownField.passedOver (h : UnknownField PassedOver bytes) : PassedOver bytes := by
  cases h with
  | @plain number wire head payload unknown lead extent noBlock =>
    rw [← List.append_nil (head ++ payload)]
    exact .field unknown lead extent .nil
  | block unknown lead sized inner =>
    exact .field unknown lead (.fixed32 (Wire.length_be32 _)) inner

lemma Payload.skipField_readsAt (h : Payload wire bytes) :
    (skipField ⟨number, wire.code⟩).ReadsAt p bytes () := by
  cases h with
  | varint spells => exact skipField_varint_readsAt number spells
  | fixed64 length =>
    have eight : (skip 8).ReadsAt p bytes () := length ▸ skip_readsAt bytes
    exact eight
  | lengthDelimited spells counts => exact skipField_sized_readsAt number spells counts
  | fixed32 length =>
    have four : (skip 4).ReadsAt p bytes () := length ▸ skip_readsAt bytes
    exact four

/-- A repetition over fields that passes over those of other numbers keeps what it has read. -/
lemma PassedOver.carries {x : σ → Decoder τ} {k : σ → Tag → Decoder τ} {acc : σ}
    (h : PassedOver bytes) (hx : ∀ acc, x acc = tag >>= k acc)
    (hk : ∀ (acc : σ) (t : Tag), UnknownNumber t.field →
      k acc t = (do skipField t; return acc) >>= x) : Carries x p acc bytes acc := by
  induction h generalizing p with
  | nil => exact Carries.nil acc
  | field unknown lead extent tail ih =>
    exact (Carries.tagged lead (hx acc) (hk acc _ unknown)
      extent.skipField_readsAt.bind_pure).trans ih

/-! ### The two readers -/

/-- The numbers that have a meaning, told from one that has none. -/
lemma UnknownNumber.ne (h : UnknownNumber number) :
    number ≠ Format.Section.name ∧ number ≠ Format.Section.rule ∧ number ≠ Format.Section.box ∧
      number ≠ Format.Section.basemapBox ∧ number ≠ Format.Section.block ∧
      number ≠ Format.Section.border ∧ number ≠ Format.Section.basemapBorder := by
  simpa [knownNumbers] using h.unknown

lemma UnknownNumber.isEnd_eq_false {t : Tag} (h : UnknownNumber t.field) : t.isEnd = false := by
  simp only [Tag.isEnd, beq_eq_false_iff_ne, ne_eq]
  exact Nat.ne_of_gt h.valid.1

lemma step_unknown {t : Tag} (h : UnknownNumber t.field) (s : RoutingSection) :
    step t s = (do skipField t; return s) := by
  obtain ⟨number, wire⟩ := t
  obtain ⟨name, rule, box, basemapBox, block, border, basemapBorder⟩ := h.ne
  rw [step]
  split <;> first | rfl | contradiction

lemma passedOver_carries (h : PassedOver bytes) (s : RoutingSection) :
    Carries (fields · step) p s bytes s :=
  h.carries (fun acc => fields_eq acc step) fun acc t unknown => by
    simp [unknown.isEnd_eq_false, step_unknown unknown]

end RoutingSection

namespace RuleTable

open RoutingSection (UnknownNumber PassedOver Payload)

variable {p : ℕ} {bytes body : List UInt8} {table : RuleTable}

lemma step_unknown {t : Tag} (h : UnknownNumber t.field) (table : RuleTable) :
    step t table = (do skipField t; return table) := by
  obtain ⟨number, wire⟩ := t
  obtain ⟨name, rule, box, basemapBox, block, border, basemapBorder⟩ := h.ne
  rw [step]
  split <;> first | rfl | contradiction

/-- Reads the fields in front of the data blocks, with a table to start from. -/
def upToBlocks (table : RuleTable) : Decoder (RuleTable × Tag) :=
  fieldsUntil (fun t => t.field == Format.Section.block) table step

lemma upToBlocks_eq (table : RuleTable) : upToBlocks table = (do
    let t ← tag
    if t.isEnd || t.field == Format.Section.block then return (table, t)
    let table ← step t table
    upToBlocks table) := fieldsUntil_eq _ table step

lemma passedOver_carries (h : PassedOver bytes) (table : RuleTable) :
    Carries upToBlocks p table bytes table :=
  h.carries upToBlocks_eq fun acc t unknown => by
    obtain ⟨-, -, -, -, block, -⟩ := unknown.ne
    simp [unknown.isEnd_eq_false, block, step_unknown unknown]

/-- A field that is not a data block carries the rules from one table to another. -/
lemma field_carries {number : ℕ} {wire : WireType} {table' : RuleTable}
    (valid : FieldNumber number) (block : number ≠ Format.Section.block)
    (h : (step ⟨number, wire.code⟩ table).ReadsAt (p + (Wire.tag number wire).length) bytes
      table') : Carries upToBlocks p table (Wire.tag number wire ++ bytes) table' :=
  Carries.fieldUntil valid (by simp [block]) h

/-- Behind the other fields, rules are read to the first data block or to the end. -/
lemma upToBlocks_ends (table : RuleTable) (bodies : List (List UInt8)) {data : ByteArray}
    {limit : ℕ} (small : data.size < positionBound) (below : limit ≤ data.size)
    (held : Holds data p (bodies.flatMap fun body => SectionDraft.blockTag ++ body))
    (last : p + (bodies.flatMap fun body => SectionDraft.blockTag ++ body).length = limit) :
    ∃ t next, ((upToBlocks table).run data ⟨p, limit⟩).Ends (table, t) next := by
  obtain ⟨t, next, ends, first⟩ : ∃ t next, (t.isEnd || t.field == Format.Section.block) = true ∧
      (tag.run data ⟨p, limit⟩).Ends t next := by
    cases bodies with
    | nil =>
      rw [List.flatMap_nil, List.length_nil, Nat.add_zero] at last
      subst last
      refine ⟨.finish, ⟨p, p⟩, rfl, .refl _, ?_⟩
      simp only [tag, Cursor.atLimit, Nat.le_refl, decide_true, ↓reduceIte]
    | cons body rest =>
      rw [List.flatMap_cons, List.append_assoc] at last held
      have lead : tag.ReadsAt p SectionDraft.blockTag
          ⟨Format.Section.block, WireType.lengthDelimited.code⟩ := tag_readsAt _ (by decide)
      rw [List.length_append] at last
      exact ⟨_, _, rfl, lead data limit small below held.left (by omega)⟩
  exact ⟨t, next, fieldsUntil_ends_of_stop first ends⟩

end RuleTable

/-! ### Written fields -/

/-- A field in front of the data blocks. -/
inductive SectionField where
  | name (text : String)
  | rule (place : ℕ) (tag value : String)
  | box (body : List UInt8)
  | basemapBox (body : List UInt8)
  | border (body : List UInt8)

namespace SectionField

/-- The written field. -/
def write : SectionField → List UInt8
  | name text => Wire.stringField Format.Section.name text
  | rule place tag value =>
    Wire.messageField Format.Section.rule
      (Wire.stringField Format.Rule.tag tag ++ Wire.stringField Format.Rule.value value ++
        Wire.varintField Format.Rule.id (UInt64.ofNat place))
  | box body => Wire.blockField Format.Section.box body
  | basemapBox body => Wire.blockField Format.Section.basemapBox body
  | border body => Wire.blockField Format.Section.border body

/-- The rules with what a field adds to them. -/
def addRule (table : RuleTable) : SectionField → RuleTable
  | rule _ tag value => table.push tag value
  | _ => table

/-- A field with a block is passed over by the reader of the rules. -/
lemma block_carries {p number : ℕ} {body : List UInt8} {table : RuleTable}
    (sized : (Wire.blockField number body).length < 2 ^ 32)
    (known : number = Format.Section.box ∨ number = Format.Section.basemapBox ∨
      number = Format.Section.border) :
    Carries RuleTable.upToBlocks p table (Wire.blockField number body) table := by
  rw [BoxDraft.length_blockField] at sized
  have short : body.length < 2 ^ 32 := by omega
  have skipped {q : ℕ} : skipBlock.ReadsAt q _ () := skipBlock_readsAt short
  rw [Wire.blockField, Wire.blockHeader, List.append_assoc]
  rcases known with rfl | rfl | rfl <;>
    exact RuleTable.field_carries (by decide) (by decide) skipped.bind_pure

/-- The rules are carried through every field. -/
lemma carries_rules {p : ℕ} (f : SectionField) (sized : f.write.length < 2 ^ 32)
    (table : RuleTable) : Carries RuleTable.upToBlocks p table f.write (addRule table f) := by
  cases f with
  | name text =>
    have short := (length_le_bytesField Format.Section.name (Wire.utf8 text)).trans_lt sized
    have payload : RoutingSection.Payload .lengthDelimited (Wire.sized (Wire.utf8 text)) := by
      refine .lengthDelimited (Varint.spells_varint _) ?_
      simpa using short
    exact RuleTable.field_carries (by decide) (by decide) payload.skipField_readsAt.bind_pure
  | rule place tag value =>
    have short := (length_le_bytesField Format.Section.rule _).trans_lt sized
    exact RuleTable.field_carries (by decide) (by decide) (Rule.decoder_readsAt short).bind_pure
  | box body => exact block_carries sized (.inl rfl)
  | basemapBox body => exact block_carries sized (.inr (.inl rfl))
  | border body => exact block_carries sized (.inr (.inr rfl))

end SectionField

/-! ### Outlines of sections -/

/-- What a section says apart from where its boxes and its border are. -/
structure SectionOutline where
  name : String
  rules : RuleTable
  boxes : List Box
  basemap : List Box

/-- The name, the rules and the boxes of a section, the boxes without their offsets. -/
def RoutingSection.outline (s : RoutingSection) : SectionOutline :=
  ⟨s.name, s.rules, Box.outlineAll s.boxes.toList, Box.outlineAll s.basemap.toList⟩

namespace SectionField

open RoutingSection (step outline addBox addBasemapBox)

/-- The message of a box in a field is legible. -/
def HoldsLegible : SectionField → Prop
  | box body | basemapBox body =>
    ∀ area, Legible (fields · (Box.fullStep area)) Box.outline body
  | _ => True

/-- A field with a root of a box forest is legible when the message of the box is. -/
lemma root_legible {number : ℕ} {body : List UInt8} (push : RoutingSection → Box → RoutingSection)
    (vpush : SectionOutline → Box → SectionOutline) (valid : FieldNumber number)
    (sized : (Wire.blockField number body).length < 2 ^ 32)
    (reads : ∀ acc, step ⟨number, WireType.fixed32.code⟩ acc = do
      let box ← Box.readRoot
      return push acc box)
    (shown : ∀ acc box, outline (push acc box) = vpush (outline acc) box.outline)
    (h : ∀ area, Legible (fields · (Box.fullStep area)) Box.outline body) :
    Legible (fields · step) outline (Wire.blockField number body) := by
  rw [BoxDraft.length_blockField] at sized
  choose admits effect acts using h
  exact ⟨_, _, Box.block_acts push vpush (fun _ => default) (fun _ => default) valid (by omega)
    reads (fun _ => rfl) shown acts⟩

/-- Every field is legible if the box in it is. -/
lemma legible (f : SectionField) (sized : f.write.length < 2 ^ 32) (boxes : f.HoldsLegible) :
    Legible (fields · step) outline f.write := by
  cases f with
  | name text =>
    exact ⟨_, fun v => { v with name := text }, .of_carries (fun s => { s with name := text })
      (fun _ => rfl) fun _ _ => RoutingSection.name_field_carries sized⟩
  | rule place tag value =>
    refine ⟨_, fun v => { v with rules := v.rules.push tag value },
      .of_carries (fun s => { s with rules := s.rules.push tag value }) (fun _ => rfl)
        fun _ _ => ?_⟩
    exact Carries.bytesField (by decide) sized fun small => (Rule.decoder_readsAt small).bind_pure
  | box body =>
    refine root_legible addBox (fun v box => { v with boxes := v.boxes ++ [box] }) (by decide) sized
      (fun _ => rfl) (fun acc box => ?_) boxes
    simp [addBox, outline, Box.outlineAll_append, Box.outlineAll]
  | basemapBox body =>
    refine root_legible addBasemapBox (fun v box => { v with basemap := v.basemap ++ [box] })
      (by decide) sized (fun _ => rfl) (fun acc box => ?_) boxes
    simp [addBasemapBox, outline, Box.outlineAll_append, Box.outlineAll]
  | border body =>
    rw [write, BoxDraft.length_blockField] at sized
    have short : body.length < 2 ^ 32 := by omega
    refine ⟨fun _ => True, id, ⟨fun _ _ _ _ _ => trivial, fun p acc _ => ?_⟩⟩
    -- where the border lies is kept, but the outline does not show it
    exact ⟨{ acc with border := some _ }, rfl, RoutingSection.border_field_carries short⟩

end SectionField

namespace SectionDraft

/-- The written rules, the first of which has the place `place`. -/
def ruleFields (place : ℕ) : List (String × String) → List SectionField
  | [] => []
  | rule :: rest => .rule place rule.1 rule.2 :: ruleFields (place + 1) rest

/-- What stands in front of the data blocks, field by field. -/
def frontFields (d : SectionDraft) : List SectionField :=
  let boxes := BoxDraft.writeAll Format.Section.box default d.writeHead.length d.places d.boxes
  .name d.name :: (ruleFields 0 d.rules ++
    (BoxDraft.bodies Format.Section.box default d.writeHead.length d.places d.boxes).map .box ++
    (BoxDraft.bodies Format.Section.basemapBox default (d.writeHead.length + boxes.1.length)
      boxes.2 d.basemap).map .basemapBox ++
    if d.border.isEmpty then [] else [.border (writeBorder d.border)])

/-- The section with some bytes in front of one of its fields, or behind the last one that is in
front of the data blocks. -/
def writeWith (d : SectionDraft) (i : ℕ) (extra : List UInt8) : List UInt8 :=
  (d.frontFields.take i).flatMap SectionField.write ++ extra ++
    (d.frontFields.drop i).flatMap SectionField.write ++
    d.blockBodies.flatMap fun body => blockTag ++ body

variable {d : SectionDraft}

lemma flatMap_ruleFields : ∀ {rules : List (String × String)} {place : ℕ},
    (ruleFields place rules).flatMap SectionField.write = writeRules place rules
  | [], _ => rfl
  | rule :: rest, place => by
    rw [ruleFields, List.flatMap_cons, flatMap_ruleFields, writeRules, SectionField.write]

/-- Field by field, the front of a section is what is written. -/
lemma flatMap_frontFields (d : SectionDraft) :
    d.frontFields.flatMap SectionField.write = d.writeFront d.places := by
  have border : (if d.border.isEmpty then []
      else [SectionField.border (writeBorder d.border)]).flatMap SectionField.write =
        d.writeBorderField := by
    rw [writeBorderField, RoadDraft.unlessEmpty]
    split <;> simp [SectionField.write]
  rw [frontFields, List.flatMap_cons, List.flatMap_append, List.flatMap_append, List.flatMap_append,
    List.flatMap_map, List.flatMap_map, flatMap_ruleFields, border, writeFront, writeHead,
    writeBoxes]
  simp only [SectionField.write, List.append_assoc, ← BoxDraft.writeAll_eq_flatMap]

/-- With nothing put into it, a section is what is written. -/
lemma writeWith_nil (d : SectionDraft) (i : ℕ) : d.writeWith i [] = d.write := by
  rw [writeWith, List.append_nil, ← List.flatMap_append, List.take_append_drop,
    flatMap_frontFields, write]

lemma mem_ruleFields {f : SectionField} : ∀ {rules : List (String × String)} {place : ℕ},
    f ∈ ruleFields place rules → ∃ place tag value, f = .rule place tag value
  | [], _, h => absurd h List.not_mem_nil
  | rule :: rest, place, h => by
    rcases List.mem_cons.mp h with rfl | later
    · exact ⟨_, _, _, rfl⟩
    · exact mem_ruleFields later

lemma foldl_addRule_ruleFields : ∀ {rules : List (String × String)} {place : ℕ}
    {table : RuleTable}, (ruleFields place rules).foldl SectionField.addRule table =
      rules.foldl (fun t (tag, value) => t.push tag value) table
  | [], _, _ => rfl
  | rule :: rest, place, table => by
    rw [ruleFields, List.foldl_cons, foldl_addRule_ruleFields, List.foldl_cons]
    rfl

/-- Fields without rules leave a table as it is. -/
lemma foldl_addRule_map {field : List UInt8 → SectionField} {table : RuleTable}
    (keep : ∀ body, SectionField.addRule table (field body) = table) (bodies : List (List UInt8)) :
    (bodies.map field).foldl SectionField.addRule table = table := by
  rw [List.foldl_map]
  induction bodies with
  | nil => rfl
  | cons body rest ih => rw [List.foldl_cons, keep, ih]

/-- The rules in front of the data blocks are those of the draft. -/
lemma foldl_addRule_frontFields (d : SectionDraft) :
    d.frontFields.foldl SectionField.addRule {} = RuleTable.ofPairs d.rules := by
  rw [frontFields, List.foldl_cons, List.foldl_append, List.foldl_append, List.foldl_append,
    foldl_addRule_ruleFields, foldl_addRule_map fun _ => rfl, foldl_addRule_map fun _ => rfl]
  split <;> rfl

lemma frontFields_sized (small : d.write.length < 2 ^ 32) :
    ∀ f ∈ d.frontFields, f.write.length < 2 ^ 32 := by
  intro f hf
  have inside := length_le_flatMap SectionField.write hf
  rw [flatMap_frontFields] at inside
  rw [write, List.length_append] at small
  omega

/-- The boxes in front of the data blocks are legible. -/
lemma frontFields_holdsLegible (small : d.write.length < 2 ^ 32) :
    ∀ f ∈ d.frontFields, f.HoldsLegible := by
  intro f hf
  have sized := frontFields_sized small f hf
  simp only [frontFields, List.mem_cons, List.mem_append, List.mem_map] at hf
  rcases hf with rfl | ((rule | ⟨body, hbody, rfl⟩) | ⟨body, hbody, rfl⟩) | border
  · trivial
  · obtain ⟨place, tag, value, rfl⟩ := mem_ruleFields rule
    trivial
  · rw [SectionField.write, BoxDraft.length_blockField] at sized
    exact BoxDraft.bodies_legible d.boxes body hbody (by omega)
  · rw [SectionField.write, BoxDraft.length_blockField] at sized
    exact BoxDraft.bodies_legible d.basemap body hbody (by omega)
  · split at border
    · exact absurd border List.not_mem_nil
    · obtain rfl := List.mem_singleton.mp border
      trivial

end SectionDraft

/-! ### Reading what is put between -/

open RoutingSection (PassedOver UnknownField step outline)

variable {d : SectionDraft} {front extra : List UInt8} {bodies : List (List UInt8)}
  {data : ByteArray} {entry : SectionEntry}

/-- What carries the rules up to the data blocks gives the rules of the section. -/
lemma RuleTable.read_eq_ok_of_carries {table : RuleTable} (addressable : data.size < positionBound)
    (stores : entry.Stores data
      (.routing, front ++ bodies.flatMap fun body => SectionDraft.blockTag ++ body))
    (h : ∀ p, Carries upToBlocks p {} front table) : read entry data = .ok table := by
  have inside := stores.inside
  obtain ⟨held, rest, last⟩ := stores.holds_append
  obtain ⟨t, next, ends⟩ := upToBlocks_ends table bodies addressable inside rest last
  have whole := (h entry.offset data _ addressable inside held (by omega) _ _).mpr ends
  have found : (decoder.run data ⟨entry.offset, entry.stop⟩).Ends table next := by
    rw [decoder, run_map]
    exact whole.map
  exact SectionEntry.decode_eq_ok_iff.mpr ⟨stores.kind, inside, found.toExcept_eq⟩

open Classical in
/-- What acts on the outline gives the outline of the section, or the section cannot be read. -/
lemma RoutingSection.outline_of_acts {admits : SectionOutline → Prop}
    {effect : SectionOutline → SectionOutline} (id : ℕ) (addressable : data.size < positionBound)
    (stores : entry.Stores data
      (.routing, front ++ bodies.flatMap fun body => SectionDraft.blockTag ++ body))
    (acts : Acts (fields · step) outline front admits effect) :
    (read id entry data).toOption.map outline =
      if admits ⟨entry.name, {}, [], []⟩ then some (effect ⟨entry.name, {}, [], []⟩) else none := by
  have inside := stores.inside
  obtain ⟨held, rest, last⟩ := stores.holds_append
  by_cases admitted : admits ⟨entry.name, {}, [], []⟩
  · obtain ⟨s, shown, carried⟩ := acts.carries entry.offset
      { id, name := entry.name, offset := entry.offset, length := entry.length } admitted
    have filled : ((fields s step).run data _).Ends s _ :=
      blocks_fillsAt bodies data addressable (last ▸ inside) rest
    rw [last] at filled
    have whole := (carried data _ addressable inside held (by omega) _ _).mpr filled
    have found : read id entry data = .ok s :=
      SectionEntry.decode_eq_ok_iff.mpr ⟨stores.kind, inside, whole.toExcept_eq⟩
    rw [if_pos admitted, found]
    exact congrArg some shown
  · rw [if_neg admitted]
    cases found : read id entry data with
    | error cause => rfl
    | ok s =>
      obtain ⟨-, -, decoded⟩ := SectionEntry.decode_eq_ok_iff.mp found
      obtain ⟨next, reach, run⟩ := eval_eq_ok_iff.mp decoded
      exact absurd (acts.admitted addressable inside held (by omega) ⟨reach, run⟩) admitted

namespace SectionDraft

/-- Fields carry the rules one after another. -/
lemma fields_carry_rules {fields : List SectionField}
    (sized : ∀ f ∈ fields, f.write.length < 2 ^ 32) (p : ℕ) (table : RuleTable) :
    Carries RuleTable.upToBlocks p table (fields.flatMap SectionField.write)
      (fields.foldl SectionField.addRule table) :=
  Carries.foldl fun f hf _ table => f.carries_rules (sized f hf) table

/-- Up to the data blocks, the rules of a section are read past what is passed over. -/
lemma writeWith_carries_rules (small : d.write.length < 2 ^ 32) (passed : PassedOver extra)
    (i p : ℕ) : Carries RuleTable.upToBlocks p {}
      ((d.frontFields.take i).flatMap SectionField.write ++ extra ++
        (d.frontFields.drop i).flatMap SectionField.write) (RuleTable.ofPairs d.rules) := by
  have sized := frontFields_sized small
  have before : Carries RuleTable.upToBlocks p {}
      ((d.frontFields.take i).flatMap SectionField.write) _ :=
    fields_carry_rules (fun f hf => sized f (List.mem_of_mem_take hf)) p {}
  have behind (q : ℕ) (table : RuleTable) : Carries RuleTable.upToBlocks q table
      ((d.frontFields.drop i).flatMap SectionField.write) _ :=
    fields_carry_rules (fun f hf => sized f (List.mem_of_mem_drop hf)) q table
  have all := (before.trans (RuleTable.passedOver_carries passed _)).trans (behind _ _)
  rwa [← List.foldl_append, List.take_append_drop, foldl_addRule_frontFields] at all

/-- What is passed over does not change how the fields around it act on the outline. -/
lemma writeWith_acts (small : d.write.length < 2 ^ 32) (i : ℕ) :
    ∃ admits effect, ∀ {extra : List UInt8}, PassedOver extra →
      Acts (fields · step) outline
        ((d.frontFields.take i).flatMap SectionField.write ++ extra ++
          (d.frontFields.drop i).flatMap SectionField.write) admits effect := by
  have legible : ∀ f ∈ d.frontFields, Legible (fields · step) outline f.write := fun f hf =>
    f.legible (frontFields_sized small f hf) (frontFields_holdsLegible small f hf)
  obtain ⟨admits, effect, before⟩ := Legible.flatMap fun f (hf : f ∈ d.frontFields.take i) =>
    legible f (List.mem_of_mem_take hf)
  obtain ⟨admits', effect', behind⟩ := Legible.flatMap fun f (hf : f ∈ d.frontFields.drop i) =>
    legible f (List.mem_of_mem_drop hf)
  have passes {extra : List UInt8} (passed : PassedOver extra) :
      Acts (fields · step) outline extra (fun _ => True) id :=
    .of_carries id (fun _ => rfl) fun _ s => RoutingSection.passedOver_carries passed s
  exact ⟨_, _, fun passed => (before.append (passes passed)).append behind⟩

end SectionDraft

/-- A section into which an unknown field is put, whose body is passed over if it is a block, has
the same rules, and the same name and boxes up to where the boxes are, or neither can be read. -/
theorem RoutingSection.read_writeWith (id i : ℕ) {data' : ByteArray} {entry' : SectionEntry}
    (small : d.write.length < 2 ^ 32) (unknown : UnknownField PassedOver extra)
    (addressable : data.size < positionBound) (addressable' : data'.size < positionBound)
    (plain : entry.Stores data (.routing, d.write))
    (changed : entry'.Stores data' (.routing, d.writeWith i extra))
    (named : entry'.name = entry.name) :
    RuleTable.read entry data = .ok (RuleTable.ofPairs d.rules) ∧
      RuleTable.read entry' data' = .ok (RuleTable.ofPairs d.rules) ∧
      (read id entry' data').toOption.map outline = (read id entry data).toOption.map outline := by
  rw [← d.writeWith_nil i] at plain
  refine ⟨?_, ?_, ?_⟩
  · exact RuleTable.read_eq_ok_of_carries addressable plain
      (SectionDraft.writeWith_carries_rules small .nil i)
  · exact RuleTable.read_eq_ok_of_carries addressable' changed
      (SectionDraft.writeWith_carries_rules small unknown.passedOver i)
  · obtain ⟨admits, effect, acts⟩ := SectionDraft.writeWith_acts small i
    rw [outline_of_acts id addressable plain (acts .nil),
      outline_of_acts id addressable' changed (acts unknown.passedOver), named]

/-- A section with a rule and a box in a box. -/
def plainSample : SectionDraft where
  name := "n"
  rules := [("oneway", "yes")]
  boxes := [{ area := ⟨0, 0, 4096, 4096⟩, children := [{ area := ⟨32, 64, 1024, 2048⟩ }] }]

/-- A block of number 6 that holds a number of number 9. -/
def passedBlock : List UInt8 := Wire.blockField 6 (Wire.varintField 9 300)

/-- The sample with the block between its rule and its box. -/
theorem RoutingSection.read_writeWith_plainSample :
    RuleTable.read ⟨.routing, "", 0, plainSample.write.length⟩ plainSample.write.toByteArray =
        .ok (RuleTable.ofPairs [("oneway", "yes")]) ∧
      RuleTable.read ⟨.routing, "", 0, (plainSample.writeWith 2 passedBlock).length⟩
        (plainSample.writeWith 2 passedBlock).toByteArray =
          .ok (RuleTable.ofPairs [("oneway", "yes")]) ∧
      (read 0 ⟨.routing, "", 0, (plainSample.writeWith 2 passedBlock).length⟩
        (plainSample.writeWith 2 passedBlock).toByteArray).toOption.map outline =
      (read 0 ⟨.routing, "", 0, plainSample.write.length⟩
        plainSample.write.toByteArray).toOption.map outline := by
  have stores (body : List UInt8) : (SectionEntry.mk .routing "" 0 body.length).Stores
      body.toByteArray (.routing, body) := by
    simpa using SectionEntry.stores_toByteArray .routing "" [] body []
  have inner : PassedOver (Wire.varintField 9 300) := by
    rw [← List.append_nil (Wire.varintField 9 300)]
    exact .field ⟨by decide, by decide⟩ (tagSpelled_tag .varint (by decide))
      (.varint (Varint.spells_varint _)) .nil
  have block : UnknownField PassedOver passedBlock :=
    .block ⟨by decide, by decide⟩ (tagSpelled_tag .fixed32 (by decide)) (by decide +kernel) inner
  exact RoutingSection.read_writeWith 0 2 (by decide +kernel) block (by decide +kernel)
    (by decide +kernel) (stores _) (stores _) rfl

/-- A section with nothing but a name. -/
def namedSample : SectionDraft where
  name := "n"

/-- A block of number 6 whose body looks like an empty rule. -/
def ruleLikeBlock : List UInt8 := Wire.blockField 6 [18, 0]

/-- A block that a section has no meaning for is not passed over: both readers find the rule that
its body looks like. -/
theorem RuleTable.read_unknownBlock :
    UnknownField (fun _ => True) ruleLikeBlock ∧
      read ⟨.routing, "", 0, 3⟩ namedSample.write.toByteArray = .ok {} ∧
      read ⟨.routing, "", 0, 10⟩ (namedSample.writeWith 1 ruleLikeBlock).toByteArray =
        .ok (ofPairs [("", "")]) ∧
      ∃ s, RoutingSection.read 0 ⟨.routing, "", 0, 10⟩
        (namedSample.writeWith 1 ruleLikeBlock).toByteArray = .ok s ∧
          s.rules = ofPairs [("", "")] := by
  have unknown : RoutingSection.UnknownNumber 6 := ⟨by decide, by decide⟩
  refine ⟨.block unknown (tagSpelled_tag .fixed32 (by decide)) (by decide) trivial,
    by decide +kernel, by decide +kernel, ?_⟩
  have ⟨s, found, rules⟩ : ∃ s ∈ (RoutingSection.read 0 ⟨.routing, "", 0, 10⟩
      (namedSample.writeWith 1 ruleLikeBlock).toByteArray).toOption,
        s.rules = ofPairs [("", "")] := by decide +kernel
  exact ⟨s, eq_ok_of_mem_toOption found, rules⟩

end RoadAtlas
