import RoadAtlas.Proofs.Network.BlockLoading
import RoadAtlas.Proofs.Network.RecordFields

/-!
Blocks put together from their fields. A block is a record of what its fields hold, one by one, and
no reference is resolved before all of them are read. So a table may stand before, between or behind
the records that refer to it.

* `BlockPart`: a well-formed field of a block; only a record may fail to be read
  (`BlockPart.exists_finds`);
* `Rearranges`: the same fields in another order, which keeps the records and the restrictions in
  theirs;
* `BlockField.readWith_findsWhole`: both readers of a block, `Block.decoder` and
  `BlockTables.decoder`, are found as what they make of its fields one by one;
* `Rearranges.exists_block_findsWhole`, `Rearranges.exists_tables_findsWhole`: other orders of the
  fields are read as the same block, or fail for the same reason, and have the same tables.
-/

namespace RoadAtlas

open Decoder

/-! ### Parts of a block -/

/-- The numbers of the fields that a block defines. -/
def blockNumbers : List ℕ :=
  [Format.Block.road, Format.Block.idTable, Format.Block.restriction, Format.Block.stringTable]

/-- The payload of a field is a text behind its length. -/
def RawField.IsText (f : RawField) : Prop :=
  ∃ head n text, Varint.Spells head n ∧ n.toUInt32.toNat = (Wire.utf8 text).length ∧
    f.payload = head ++ Wire.utf8 text

/-- A well-formed field of a block: a record, a table or a restriction, each a message whose fields
have the wire types that it defines for them, or a field without a meaning. -/
inductive BlockPart (f : RawField) : Prop
  | record (number : f.number = Format.Block.road) (m : RawMessage) (payload : f.payload = m.bytes)
      (follows : m.Follows RoadRecord.schema)
  | ids (number : f.number = Format.Block.idTable) (m : RawMessage) (payload : f.payload = m.bytes)
      (follows : m.Follows BlockTables.idSchema)
  | restriction (number : f.number = Format.Block.restriction) (m : RawMessage)
      (payload : f.payload = m.bytes) (follows : m.Follows RestrictionRecord.schema)
  | strings (number : f.number = Format.Block.stringTable) (m : RawMessage)
      (payload : f.payload = m.bytes)
      (texts : ∀ g ∈ BlockTables.stringSchema.known m.fields, g.IsText)
  | other (unlisted : f.number ∉ blockNumbers)

/-- The fields with a number. -/
def standing (number : ℕ) (fs : List RawField) : List RawField :=
  fs.filter fun f => f.number = number

lemma standing_cons_of_eq {number : ℕ} {f : RawField} {fs : List RawField}
    (here : f.number = number) : standing number (f :: fs) = f :: standing number fs :=
  List.filter_cons_of_pos (decide_eq_true here)

lemma standing_cons_of_ne {number : ℕ} {f : RawField} {fs : List RawField}
    (elsewhere : f.number ≠ number) : standing number (f :: fs) = standing number fs :=
  List.filter_cons_of_neg (by simpa using elsewhere)

/-- The same fields in another order, in which the records follow each other as before, and so do
the restrictions. There is at most one table of each kind. -/
structure Rearranges (fs fs' : List RawField) : Prop where
  perm : fs'.Perm fs
  records : standing Format.Block.road fs' = standing Format.Block.road fs
  restrictions : standing Format.Block.restriction fs' = standing Format.Block.restriction fs
  oneIdTable : (standing Format.Block.idTable fs).length ≤ 1
  oneStringTable : (standing Format.Block.stringTable fs).length ≤ 1

/-! ### What the parts hold -/

/-- An id table is read as some ids. -/
lemma BlockTables.exists_readIds_finds {m : RawMessage}
    (follows : m.Follows BlockTables.idSchema) : ∃ ids, readIds.Finds m.bytes (.ok ids) := by
  obtain ⟨state, found⟩ := understands_ids.exists_finds_ok
    (fun f member acc => accepts_ids _ (follows.listed member) acc f.payload f.extent) (0, #[])
  rw [readIds, sized_map]
  exact ⟨_, found.map Prod.snd⟩

/-- A restriction is read as one. -/
lemma RestrictionRecord.exists_finds {m : RawMessage}
    (follows : m.Follows RestrictionRecord.schema) : ∃ r, decoder.Finds m.bytes (.ok r) :=
  understands.exists_finds_ok
    (fun f member acc => accepts _ (follows.listed member) acc f.payload f.extent) {}

/-- A string table whose strings are texts is read as them. -/
lemma BlockTables.exists_stringTable_finds {m : RawMessage}
    (texts : ∀ g ∈ BlockTables.stringSchema.known m.fields, g.IsText) :
    ∃ strings, stringTable.Finds m.bytes (.ok strings) := by
  obtain ⟨step, body, understands, reads⟩ := understands_strings
  rw [stringTable, body]
  refine understands.exists_finds_ok (fun f member acc => ?_) _
  have number : f.number = 1 := by
    simpa [stringSchema, Schema.numbers] using (List.mem_filter.mp member).2
  obtain ⟨head, n, text, spells, counts, payload⟩ := texts f member
  have found := string_finds spells counts
  rw [fromUTF8?_utf8] at found
  refine ⟨acc.push text, ?_⟩
  rw [RawField.tag, number, reads, payload]
  exact found.bind fun text => pure_finds (acc.push text)

/-- A record is found as something. -/
lemma RoadRecord.exists_finds (base : Point) {m : RawMessage}
    (follows : m.Follows RoadRecord.schema) : ∃ v, (decoder base).Finds m.bytes v := by
  obtain ⟨v, found, -⟩ := (Encoded.road base).exists_finds follows rfl
  exact ⟨v, found⟩

/-! ### Readers of parts -/

namespace BlockField

/-- What a part of a block holds goes with its number. -/
def StandsIn (number : ℕ) : BlockField → Prop
  | record _ => number = Format.Block.road
  | ids _ => number = Format.Block.idTable
  | restriction _ => number = Format.Block.restriction
  | strings _ => number = Format.Block.stringTable
  | other => True

/-- Reads a part of a block for its tables, and passes over a record. -/
def tableDecoder (t : Tag) : Decoder BlockField :=
  if t.field = Format.Block.road then (fun _ => other) <$> skipField t else decoder default t

lemma decoder_unlisted (base : Point) {t : Tag} (unlisted : t.field ∉ blockNumbers) :
    decoder base t = (fun _ => other) <$> skipField t := by
  rw [decoder]
  split <;> first | rfl | next listed => exact absurd (listed ▸ by decide) unlisted

end BlockField

variable {f : RawField} {fs fs' : List RawField}

/-- What the reader of a kind of part makes of one. -/
lemma RawField.exists_finds_of_map {α : Type} {x : Decoder α} {put : α → BlockField} {base : Point}
    {v : Verdict α} (reads : BlockField.decoder base f.tag = put <$> x)
    (found : x.Finds f.payload v) (ok : f.number ≠ Format.Block.road → ∃ a, v = .ok a)
    (stands : ∀ a, (put a).StandsIn f.number) :
    ∃ v, (BlockField.decoder base f.tag).Finds f.payload v ∧
      (f.number ≠ Format.Block.road → ∃ b, v = .ok b) ∧
      ∀ b, v = .ok b → b.StandsIn f.number := by
  rw [reads]
  refine ⟨_, found.map put, fun other => ?_, fun b read => ?_⟩
  · obtain ⟨a, rfl⟩ := ok other
    exact ⟨put a, rfl⟩
  · obtain ⟨a, -, rfl⟩ := map_eq_ok.mp read
    exact stands a

/-- The verdict on a part of a block: only a record may fail. -/
lemma BlockPart.exists_finds (h : BlockPart f) (base : Point) :
    ∃ v, (BlockField.decoder base f.tag).Finds f.payload v ∧
      (f.number ≠ Format.Block.road → ∃ b, v = .ok b) ∧
      ∀ b, v = .ok b → b.StandsIn f.number := by
  cases h with
  | record number m payload follows =>
    obtain ⟨v, found⟩ := RoadRecord.exists_finds base follows
    rw [← payload] at found
    have reads : BlockField.decoder base f.tag = BlockField.record <$> RoadRecord.decoder base := by
      rw [RawField.tag, number]
      rfl
    exact f.exists_finds_of_map reads found (absurd number) fun _ => number
  | ids number m payload follows =>
    obtain ⟨table, found⟩ := BlockTables.exists_readIds_finds follows
    rw [← payload] at found
    have reads : BlockField.decoder base f.tag = BlockField.ids <$> BlockTables.readIds := by
      rw [RawField.tag, number]
      rfl
    exact f.exists_finds_of_map reads found (fun _ => ⟨_, rfl⟩) fun _ => number
  | restriction number m payload follows =>
    obtain ⟨r, found⟩ := RestrictionRecord.exists_finds follows
    rw [← payload] at found
    have reads : BlockField.decoder base f.tag =
        BlockField.restriction <$> RestrictionRecord.decoder := by
      rw [RawField.tag, number]
      rfl
    exact f.exists_finds_of_map reads found (fun _ => ⟨_, rfl⟩) fun _ => number
  | strings number m payload texts =>
    obtain ⟨table, found⟩ := BlockTables.exists_stringTable_finds texts
    rw [← payload] at found
    have reads : BlockField.decoder base f.tag = BlockField.strings <$> stringTable := by
      rw [RawField.tag, number]
      rfl
    exact f.exists_finds_of_map reads found (fun _ => ⟨_, rfl⟩) fun _ => number
  | other unlisted =>
    have skipped : (skipField f.tag).Finds f.payload (.ok ()) :=
      fun _ => f.extent.skipField_readsAt
    exact f.exists_finds_of_map (BlockField.decoder_unlisted base unlisted) skipped
      (fun _ => ⟨_, rfl⟩) fun _ => trivial

/-- A record is found as something, and is not empty. -/
lemma BlockPart.exists_record_finds (h : BlockPart f) (road : f.number = Format.Block.road)
    (base : Point) : f.payload ≠ [] ∧ ∃ v, (RoadRecord.decoder base).Finds f.payload v := by
  cases h with
  | record number m payload follows =>
    have lead := List.length_pos_iff.mp m.spells.complete.length_pos
    rw [payload, RawMessage.bytes]
    exact ⟨List.append_ne_nil_of_left_ne_nil lead _, RoadRecord.exists_finds base follows⟩
  | ids number | restriction number | strings number => cases road.symm.trans number
  | other unlisted => exact absurd (road ▸ by decide) unlisted

/-- Read for the tables, no part fails. -/
lemma BlockPart.exists_table_finds (h : BlockPart f) :
    ∃ b : BlockField, (BlockField.tableDecoder f.tag).Finds f.payload (.ok b) ∧
      b.StandsIn f.number := by
  rw [BlockField.tableDecoder]
  split
  next =>
    have skipped : (skipField f.tag).Finds f.payload (.ok ()) :=
      fun _ => f.extent.skipField_readsAt
    exact ⟨.other, skipped.map _, trivial⟩
  next other =>
    obtain ⟨v, found, table, stands⟩ := h.exists_finds default
    obtain ⟨b, rfl⟩ := table other
    exact ⟨b, found, stands b rfl⟩

/-! ### Fields one after another -/

namespace BlockField

/-- Reads a field and puts what it holds behind what there is. -/
def gather (D : Tag → Decoder BlockField) (t : Tag) (known : List BlockField) :
    Decoder (List BlockField) := do
  let field ← D t
  return known ++ [field]

/-- Reads fields in the order in which they stand. -/
def readWith (D : Tag → Decoder BlockField) : Decoder (List BlockField) := fields [] (gather D)

variable {D : Tag → Decoder BlockField} {w : RawField → Verdict BlockField}

/-- Fields behind others are found one by one, and the first that fails decides. -/
lemma gather_findsWhole (each : ∀ f ∈ fs, (D f.tag).Finds f.payload (w f))
    (known : List BlockField) : (fields known (gather D)).FindsWhole (fs.flatMap RawField.bytes)
      ((known ++ ·) <$> fs.mapM w) := by
  induction fs generalizing known with
  | nil =>
    intro p data _ _ _
    rw [List.mapM_nil, map_pure, List.append_nil]
    exact fields_ends _ known data p
  | cons f rest ih =>
    rw [List.forall_mem_cons] at each
    obtain ⟨first, later⟩ := each
    rw [List.flatMap_cons, List.mapM_cons]
    apply fields_findsWhole_cons
    have gathered : (gather D f.tag known).Finds f.payload
        (w f >>= fun b => .ok (known ++ [b])) := first.bind fun b => pure_finds (known ++ [b])
    cases verdict : w f with
    | error reference =>
      rw [verdict] at gathered
      have failed : (do let acc ← gather D f.tag known; fields acc (gather D)).Finds
          (f.payload ++ rest.flatMap RawField.bytes) (.error reference) := gathered.bind_error
      exact failed.findsWhole
    | ok b =>
      rw [verdict] at gathered
      have rests : (known ++ [b] ++ ·) <$> rest.mapM w =
          (known ++ ·) <$> (do let bs ← rest.mapM w; return b :: bs) := by
        rw [bind_pure_comp, Functor.map_map]
        simp only [List.append_assoc, List.singleton_append]
      have tail := ih later (known ++ [b])
      rw [rests] at tail
      exact FindsWhole.bind_ok gathered tail

lemma readWith_findsWhole (each : ∀ f ∈ fs, (D f.tag).Finds f.payload (w f)) :
    (readWith D).FindsWhole (fs.flatMap RawField.bytes) (fs.mapM w) := by
  have whole := gather_findsWhole each []
  simp only [List.nil_append, id_map'] at whole
  exact whole

lemma readAll_eq (base : Point) : readAll base = readWith (decoder base) := rfl

end BlockField

namespace BlockTables

/-- A step reads a part for its tables and adds it. -/
lemma step_eq (t : Tag) (known : List BlockField) :
    step t (BlockField.tables known) =
      BlockField.tables <$> BlockField.gather BlockField.tableDecoder t known := by
  have added (field : BlockField) : BlockField.tables (known ++ [field]) =
      ((BlockField.block known).add field).tables := by
    rw [Block.add_block]
    rfl
  rw [BlockField.gather, bind_pure_comp, Functor.map_map]
  simp only [added]
  rw [step, BlockField.tableDecoder]
  split
  case h_4 noIds noRestriction noStrings =>
    have passed : (if t.field = Format.Block.road then (fun _ => BlockField.other) <$> skipField t
        else BlockField.decoder default t) = (fun _ => BlockField.other) <$> skipField t := by
      split
      next => rfl
      next noRoad =>
        refine BlockField.decoder_unlisted default ?_
        simp only [blockNumbers, List.mem_cons, List.not_mem_nil, or_false, not_or]
        exact ⟨noRoad, noIds, noRestriction, noStrings⟩
    rw [passed, Functor.map_map, bind_pure_comp]
    rfl
  all_goals
    next table =>
    rw [if_neg (by rw [table]; decide), BlockField.decoder, table]
    simp only [Functor.map_map, bind_pure_comp]
    rfl

/-- The tables of a block are those that its parts make up. -/
lemma decoder_eq : decoder = BlockField.tables <$> BlockField.readWith BlockField.tableDecoder :=
  fields_map step_eq []

end BlockTables

/-! ### Rearranged fields -/

/-- Two orders of at most one element are the same. -/
lemma eq_of_perm_of_length_le_one {α : Type} {l l' : List α} (h : l'.Perm l) (one : l.length ≤ 1) :
    l' = l := by
  match l, one with
  | [], _ => exact h.eq_nil
  | [a], _ => exact h.eq_singleton

/-- The fields of each number stand in the same order. -/
lemma Rearranges.standing_eq (h : Rearranges fs fs') {number : ℕ}
    (listed : number ∈ blockNumbers) : standing number fs' = standing number fs := by
  have perm (n : ℕ) : (standing n fs').Perm (standing n fs) := h.perm.filter _
  simp only [blockNumbers, List.mem_cons, List.not_mem_nil, or_false] at listed
  rcases listed with rfl | rfl | rfl | rfl
  · exact h.records
  · exact eq_of_perm_of_length_le_one (perm _) h.oneIdTable
  · exact h.restrictions
  · exact eq_of_perm_of_length_le_one (perm _) h.oneStringTable

/-- What is picked from some parts is picked from those of its number. -/
lemma filterMap_map_standing {γ : Type} {g : RawField → BlockField} {pick : BlockField → Option γ}
    {number : ℕ} (others : ∀ f ∈ fs, f.number ≠ number → pick (g f) = none) :
    (fs.map g).filterMap pick = ((standing number fs).map g).filterMap pick := by
  induction fs with
  | nil => rfl
  | cons f rest ih =>
    rw [List.forall_mem_cons] at others
    rw [List.map_cons]
    by_cases here : f.number = number
    · rw [standing_cons_of_eq here, List.map_cons, List.filterMap_cons, List.filterMap_cons,
        ih others.2]
    · rw [standing_cons_of_ne here, List.filterMap_cons_none (others.1 here), ih others.2]

open BlockField in
/-- Other orders of the fields make up the same block. -/
lemma Rearranges.block_eq (h : Rearranges fs fs') {g : RawField → BlockField}
    (stands : ∀ f ∈ fs, (g f).StandsIn f.number) :
    BlockField.block (fs'.map g) = BlockField.block (fs.map g) := by
  have picked {γ : Type} {pick : BlockField → Option γ} {number : ℕ}
      (listed : number ∈ blockNumbers)
      (only : ∀ b : BlockField, ∀ n, b.StandsIn n → n ≠ number → pick b = none) :
      (fs'.map g).filterMap pick = (fs.map g).filterMap pick := by
    rw [filterMap_map_standing fun f member => only _ _ (stands f (h.perm.mem_iff.mp member)),
      filterMap_map_standing fun f member => only _ _ (stands f member), h.standing_eq listed]
  have records : (fs'.map g).filterMap record? = (fs.map g).filterMap record? := by
    refine picked (by decide : Format.Block.road ∈ blockNumbers) fun b n stands other => ?_
    cases b <;> first | rfl | exact absurd stands other
  have ids : (fs'.map g).filterMap ids? = (fs.map g).filterMap ids? := by
    refine picked (by decide : Format.Block.idTable ∈ blockNumbers) fun b n stands other => ?_
    cases b <;> first | rfl | exact absurd stands other
  have restrictions : (fs'.map g).filterMap restriction? = (fs.map g).filterMap restriction? := by
    refine picked (by decide : Format.Block.restriction ∈ blockNumbers) fun b n stands other => ?_
    cases b <;> first | rfl | exact absurd stands other
  have strings : (fs'.map g).filterMap strings? = (fs.map g).filterMap strings? := by
    refine picked (by decide : Format.Block.stringTable ∈ blockNumbers) fun b n stands other => ?_
    cases b <;> first | rfl | exact absurd stands other
  rw [block, block, tables, tables, BlockField.records, BlockField.records, records, ids,
    restrictions, strings]

/-- What a record holds decides whether the parts are read, and all other parts can be read. -/
lemma mapM_standing {w : RawField → Verdict BlockField} {g : RawField → BlockField}
    (held : ∀ f ∈ fs, ∀ b, w f = .ok b → b = g f)
    (others : ∀ f ∈ fs, f.number ≠ Format.Block.road → w f = .ok (g f)) :
    fs.mapM w = (fun _ => fs.map g) <$> (standing Format.Block.road fs).mapM w := by
  induction fs with
  | nil => rfl
  | cons f rest ih =>
    rw [List.forall_mem_cons] at held others
    rw [List.mapM_cons, ih held.2 others.2]
    by_cases road : f.number = Format.Block.road
    · rw [standing_cons_of_eq road, List.mapM_cons]
      cases first : w f with
      | error reference => rfl
      | ok b =>
        rw [held.1 b first]
        cases (standing Format.Block.road rest).mapM w <;> rfl
    · rw [standing_cons_of_ne road, others.1 road]
      cases (standing Format.Block.road rest).mapM w <;> rfl

/-- Other orders of parts that are found come to the same block, or fail for the same reason. -/
lemma Rearranges.mapM_block_eq (h : Rearranges fs fs') {w : RawField → Verdict BlockField}
    (others : ∀ f ∈ fs, f.number ≠ Format.Block.road → ∃ b, w f = .ok b)
    (stands : ∀ f ∈ fs, ∀ b, w f = .ok b → b.StandsIn f.number) :
    BlockField.block <$> fs'.mapM w = BlockField.block <$> fs.mapM w := by
  let g (f : RawField) : BlockField := (w f).toOption.getD .other
  have held (f : RawField) (b : BlockField) (ok : w f = .ok b) : b = g f := by
    simp only [g, ok, Except.toOption, Option.getD_some]
  have kept (f : RawField) (member : f ∈ fs) : (g f).StandsIn f.number := by
    cases ok : w f with
    | ok b => exact held f b ok ▸ stands f member b ok
    | error reference => simp only [g, ok, Except.toOption, Option.getD_none, BlockField.StandsIn]
  have read (f : RawField) (member : f ∈ fs) (other : f.number ≠ Format.Block.road) :
      w f = .ok (g f) := by
    obtain ⟨b, ok⟩ := others f member other
    rw [ok, held f b ok]
  have read' (f : RawField) (member : f ∈ fs') (other : f.number ≠ Format.Block.road) :
      w f = .ok (g f) := read f (h.perm.mem_iff.mp member) other
  calc BlockField.block <$> fs'.mapM w
      = (fun _ => BlockField.block (fs'.map g)) <$> (standing Format.Block.road fs').mapM w := by
        rw [mapM_standing (fun f _ => held f) read', Functor.map_map]
    _ = (fun _ => BlockField.block (fs.map g)) <$> (standing Format.Block.road fs).mapM w := by
        rw [h.block_eq kept, h.records]
    _ = BlockField.block <$> fs.mapM w := by
        rw [mapM_standing (fun f _ => held f) read, Functor.map_map]

/-- Other orders of the parts of a block are found as the same block. -/
lemma Rearranges.exists_block_findsWhole (h : Rearranges fs fs') (parts : ∀ f ∈ fs, BlockPart f)
    (base : Point) : ∃ v, (Block.decoder base).FindsWhole (fs.flatMap RawField.bytes) v ∧
      (Block.decoder base).FindsWhole (fs'.flatMap RawField.bytes) v := by
  choose! w found others stands using fun f member => (parts f member).exists_finds base
  have read := BlockField.readWith_findsWhole found
  have read' := BlockField.readWith_findsWhole fun f member => found f (h.perm.mem_iff.mp member)
  rw [Block.decoder_eq, BlockField.readAll_eq]
  refine ⟨_, read.map BlockField.block, ?_⟩
  rw [← h.mapM_block_eq others stands]
  exact read'.map BlockField.block

/-- Where each part is found as something that goes with its number, other orders of the parts come
to the same block. -/
lemma Rearranges.exists_findsWhole_ok (h : Rearranges fs fs') {D : Tag → Decoder BlockField}
    (each : ∀ f ∈ fs, ∃ b : BlockField, (D f.tag).Finds f.payload (.ok b) ∧ b.StandsIn f.number) :
    ∃ b, (BlockField.block <$> BlockField.readWith D).FindsWhole (fs.flatMap RawField.bytes)
        (.ok b) ∧
      (BlockField.block <$> BlockField.readWith D).FindsWhole (fs'.flatMap RawField.bytes)
        (.ok b) := by
  have : Nonempty BlockField := ⟨.other⟩
  choose! g found stands using each
  have read := BlockField.readWith_findsWhole found
  have read' := BlockField.readWith_findsWhole fun f member => found f (h.perm.mem_iff.mp member)
  rw [mapM_eq_map fun _ _ => rfl] at read read'
  refine ⟨BlockField.block (fs.map g), read.map BlockField.block, ?_⟩
  rw [← h.block_eq stands]
  exact read'.map BlockField.block

/-- Other orders of the parts of a block whose records can be read are read as the same block. -/
lemma Rearranges.exists_block_findsWhole_ok (h : Rearranges fs fs') (parts : ∀ f ∈ fs, BlockPart f)
    {base : Point} (readable : ∀ f ∈ standing Format.Block.road fs,
      ∃ r, (RoadRecord.decoder base).Finds f.payload (.ok r)) :
    ∃ b, (Block.decoder base).FindsWhole (fs.flatMap RawField.bytes) (.ok b) ∧
      (Block.decoder base).FindsWhole (fs'.flatMap RawField.bytes) (.ok b) := by
  rw [Block.decoder_eq, BlockField.readAll_eq]
  refine h.exists_findsWhole_ok fun f member => ?_
  by_cases road : f.number = Format.Block.road
  case pos =>
    obtain ⟨r, found⟩ := readable f (List.mem_filter.mpr ⟨member, decide_eq_true road⟩)
    have reads : BlockField.decoder base f.tag = BlockField.record <$> RoadRecord.decoder base := by
      rw [RawField.tag, road]
      rfl
    exact ⟨.record r, reads ▸ found.map BlockField.record, road⟩
  case neg =>
    obtain ⟨v, found, other, stands⟩ := (parts f member).exists_finds base
    obtain ⟨b, rfl⟩ := other road
    exact ⟨b, found, stands b rfl⟩

/-- Other orders of the parts of a block are read as the same tables. -/
lemma Rearranges.exists_tables_findsWhole (h : Rearranges fs fs') (parts : ∀ f ∈ fs, BlockPart f) :
    ∃ tables, BlockTables.decoder.FindsWhole (fs.flatMap RawField.bytes) (.ok tables) ∧
      BlockTables.decoder.FindsWhole (fs'.flatMap RawField.bytes) (.ok tables) := by
  obtain ⟨b, read, read'⟩ :=
    h.exists_findsWhole_ok fun f member => (parts f member).exists_table_finds
  have tables : BlockTables.decoder =
      Block.tables <$> BlockField.block <$> BlockField.readWith BlockField.tableDecoder := by
    rw [BlockTables.decoder_eq, Functor.map_map]
    rfl
  rw [tables]
  exact ⟨b.tables, read.map Block.tables, read'.map Block.tables⟩

end RoadAtlas
