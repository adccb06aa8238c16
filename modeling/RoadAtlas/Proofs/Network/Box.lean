import Mathlib.Data.List.Forall2
import RoadAtlas.Network.Box
import RoadAtlas.Network.Writing
import RoadAtlas.Proofs.Wire.Message

/-!
Box trees read back. A written box is read as a box of the same shape with the same areas, and where
it has a data block, the box points at the place that was given to the block when it was written.

* `BoxDraft.Mirrors`, `BoxDraft.MirrorsAll`: a box has the shape and the areas of a draft;
* `BoxDraft.write_length_congr`: how long a written box is does not depend on where it stands or
  where its blocks are;
* `BoxDraft.write_reads`, `BoxDraft.writeAll_reads`: by induction on the tree and its forests, what
  is written is read as a tree that mirrors it, and the places are taken in the order of the blocks;
* `BoxDraft.MirrorsAll.forall₂_blocks`: the boxes with data are the boxes of the blocks, in order.
-/

namespace RoadAtlas

open Decoder

/-! ### Coordinates -/

/-- Coordinates below 2³¹ differ by a 32-bit integer. -/
lemma coordinateDelta_toInt {a b : UInt32} (ha : a.toNat < 2 ^ 31) (hb : b.toNat < 2 ^ 31) :
    (coordinateDelta a b).toInt = (a.toNat : Int) - b.toNat :=
  Int32.toInt_ofInt_of_le (by omega) (by omega)

lemma toCoordinate?_toNat (x : UInt32) : toCoordinate? x.toNat = some x := by
  have := x.toNat_lt
  rw [toCoordinate?, if_pos (by omega), Int.toNat_natCast, UInt32.ofNat_toNat]

/-! ### Trees of the same shape -/

/-- All edges lie on the grid. -/
structure Area.OnGrid (a : Area) : Prop where
  left : a.left.toNat < 2 ^ 31
  top : a.top.toNat < 2 ^ 31
  right : a.right.toNat < 2 ^ 31
  bottom : a.bottom.toNat < 2 ^ 31

lemma Area.default_onGrid : (default : Area).OnGrid := by
  constructor <;> decide

namespace BoxDraft

mutual

/-- The edges of a box and its descendants lie on the grid. -/
def OnGrid : BoxDraft → Prop
  | ⟨area, _, children⟩ => area.OnGrid ∧ OnGridAll children

/-- The edges of some boxes and their descendants lie on the grid. -/
def OnGridAll : List BoxDraft → Prop
  | [] => True
  | d :: rest => d.OnGrid ∧ OnGridAll rest

end

mutual

/-- A box has the area of a draft and children that mirror the draft's; it has no data where the
draft has no block, and is related to the block where the draft has one. -/
def Mirrors (R : BlockDraft → Box → Prop) : BoxDraft → Box → Prop
  | ⟨area, block, children⟩, box =>
    box.area = area ∧ (block.elim (box.hasData = false) fun b => R b box) ∧
      MirrorsAll R children box.children

/-- Boxes mirror drafts one by one. -/
def MirrorsAll (R : BlockDraft → Box → Prop) : List BoxDraft → List Box → Prop
  | [], boxes => boxes = []
  | d :: rest, boxes => ∃ box more, boxes = box :: more ∧ d.Mirrors R box ∧ MirrorsAll R rest more

end

mutual

/-- What holds of the blocks and their boxes may be weakened. -/
lemma Mirrors.imp {R S : BlockDraft → Box → Prop} :
    ∀ {d : BoxDraft} {box : Box}, (∀ e ∈ d.blocks, ∀ box, R e.2 box → S e.2 box) →
      d.Mirrors R box → d.Mirrors S box
  | ⟨area, block, children⟩, box, h, ⟨same, data, below⟩ => by
    rw [blocks] at h
    refine ⟨same, ?_, MirrorsAll.imp (fun e he => h e (List.mem_append_right _ he)) below⟩
    cases block with
    | none => exact data
    | some b => exact h (area, b) (by simp) box data

lemma MirrorsAll.imp {R S : BlockDraft → Box → Prop} :
    ∀ {ds : List BoxDraft} {boxes : List Box},
      (∀ e ∈ blocksAll ds, ∀ box, R e.2 box → S e.2 box) →
        MirrorsAll R ds boxes → MirrorsAll S ds boxes
  | [], _, _, h => h
  | d :: rest, _, h, ⟨box, more, split, first, later⟩ => by
    rw [blocksAll] at h
    exact ⟨box, more, split, first.imp fun e he => h e (List.mem_append_left _ he),
      later.imp fun e he => h e (List.mem_append_right _ he)⟩

end

mutual

/-- The boxes with data are those of the draft's blocks, in order. -/
lemma Mirrors.forall₂_blocks {R : BlockDraft → Box → Prop}
    (hasData : ∀ b box, R b box → box.hasData = true) :
    ∀ {d : BoxDraft} {box : Box}, d.Mirrors R box →
      List.Forall₂ (fun e box => box.area = e.1 ∧ R e.2 box) d.blocks
        (box.preorder.filter Box.hasData)
  | ⟨area, block, children⟩, ⟨area', offset, length, shift, below⟩, ⟨same, data, more⟩ => by
    have later := MirrorsAll.forall₂_blocks hasData more
    rw [blocks, Box.preorder, List.filter_cons]
    cases block with
    | none =>
      rw [Option.elim_none] at data
      simpa [data] using later
    | some b =>
      rw [Option.elim_some] at data
      rw [if_pos (hasData b _ data)]
      exact .cons ⟨same, data⟩ later

lemma MirrorsAll.forall₂_blocks {R : BlockDraft → Box → Prop}
    (hasData : ∀ b box, R b box → box.hasData = true) :
    ∀ {ds : List BoxDraft} {boxes : List Box}, MirrorsAll R ds boxes →
      List.Forall₂ (fun e box => box.area = e.1 ∧ R e.2 box) (blocksAll ds)
        ((Box.preorderAll boxes).filter Box.hasData)
  | [], _, rfl => .nil
  | d :: rest, _, ⟨box, more, rfl, first, later⟩ => by
    rw [blocksAll, Box.preorderAll, List.filter_append]
    exact List.rel_append (first.forall₂_blocks hasData) (later.forall₂_blocks hasData)

end

/-! ### Lengths -/

lemma length_blockHeader (field n m : ℕ) :
    (Wire.blockHeader field n).length = (Wire.blockHeader field m).length := by
  simp only [Wire.blockHeader, List.length_append, Wire.length_be32]

lemma length_blockField (field : ℕ) (body : List UInt8) :
    (Wire.blockField field body).length = (Wire.blockHeader field 0).length + body.length := by
  rw [Wire.blockField, List.length_append, length_blockHeader field _ 0]

lemma length_writeShift (block : Option BlockDraft) (start start' : ℕ) (places places' : List ℕ) :
    (writeShift start places block).length = (writeShift start' places' block).length := by
  cases block with
  | none => rfl
  | some b => simp only [writeShift, List.length_append, Wire.length_be32]

mutual

/-- How long a written box is does not depend on where it stands and where its blocks are. -/
lemma write_length_congr : ∀ (d : BoxDraft) (base : Area) (start start' : ℕ)
    (places places' : List ℕ),
    (d.write base start places).1.length = (d.write base start' places').1.length
  | ⟨area, block, children⟩, base, start, start', places, places' => by
    rw [write, write]
    simp only [List.length_append]
    rw [length_writeShift block start start' places places',
      writeAll_length_congr children _ _ _ _ _ _]

lemma writeAll_length_congr : ∀ (ds : List BoxDraft) (field : ℕ) (base : Area) (start start' : ℕ)
    (places places' : List ℕ), (writeAll field base start places ds).1.length =
      (writeAll field base start' places' ds).1.length
  | [], _, _, _, _, _, _ => by rw [writeAll, writeAll]
  | d :: rest, field, base, start, start', places, places' => by
    rw [writeAll, writeAll]
    simp only [List.length_append, length_blockField]
    rw [write_length_congr d _ _ _ _ _, writeAll_length_congr rest _ _ _ _ _ _]

end

end BoxDraft

/-! ### The fields of a box -/

namespace Box

variable {p : ℕ} {base : Area} {acc : Box}

/-- Reads a field of a box, a child included. -/
def fullStep (base : Area) (t : Tag) (b : Box) : Decoder Box :=
  if t.field = Format.Box.child then childStep b (decoder b.area) else step base t b

lemma decoder_eq_fields (base : Area) (b : Box) : decoder base b = fields b (fullStep base) :=
  decoder_eq base b

/-- An edge is read as the sum of the enclosing box's edge and the distance from it. -/
lemma edge_readsAt {outer value : UInt32} (hb : outer.toNat < 2 ^ 31) (hv : value.toNat < 2 ^ 31) :
    (edge outer).ReadsAt p (Wire.varint32 (Zigzag.encode32 (coordinateDelta value outer)))
      value := by
  refine (sint32_readsAt _).bind_nil ?_
  have sum : (outer.toNat : Int) + ((value.toNat : Int) - outer.toNat) = value.toNat := by omega
  rw [coordinateDelta_toInt hv hb, sum, toCoordinate?_toNat]
  exact pure_readsAt value

/-- The edges of a box are read one by one. -/
lemma edges_carry {area : Area} (hb : base.OnGrid) (ha : area.OnGrid) :
    Carries (fields · (fullStep base)) p acc (BoxDraft.writeEdges base area)
      { acc with area } := by
  have left {q : ℕ} {acc : Box} : Carries (fields · (fullStep base)) q acc
      (Wire.sint32Field Format.Box.left (coordinateDelta area.left base.left))
      { acc with area := { acc.area with left := area.left } } :=
    Carries.field (by decide) (edge_readsAt hb.left ha.left).bind_pure
  have right {q : ℕ} {acc : Box} : Carries (fields · (fullStep base)) q acc
      (Wire.sint32Field Format.Box.right (coordinateDelta area.right base.right))
      { acc with area := { acc.area with right := area.right } } :=
    Carries.field (by decide) (edge_readsAt hb.right ha.right).bind_pure
  have top {q : ℕ} {acc : Box} : Carries (fields · (fullStep base)) q acc
      (Wire.sint32Field Format.Box.top (coordinateDelta area.top base.top))
      { acc with area := { acc.area with top := area.top } } :=
    Carries.field (by decide) (edge_readsAt hb.top ha.top).bind_pure
  have bottom {q : ℕ} {acc : Box} : Carries (fields · (fullStep base)) q acc
      (Wire.sint32Field Format.Box.bottom (coordinateDelta area.bottom base.bottom))
      { acc with area := { acc.area with bottom := area.bottom } } :=
    Carries.field (by decide) (edge_readsAt hb.bottom ha.bottom).bind_pure
  exact ((left.trans right).trans top).trans bottom

/-- A block is read with its position and its length. -/
lemma block_readsAt {α : Type} {f : ℕ → ℕ → Decoder α} {body : List UInt8} {a : α}
    (small : body.length < 2 ^ 32) (h : (f (p + 4) body.length).FillsAt (p + 4) body a) :
    (do
      let length ← be32
      let offset ← position
      within length.toNat (f offset length.toNat) : Decoder α).ReadsAt p
        (Wire.be32 (UInt32.ofNat body.length) ++ body) a := by
  refine (be32_readsAt _).bind (ReadsAt.position_bind ?_)
  rw [UInt32.toNat_ofNat_of_lt' small]
  exact h.within

/-- A message whose fields of a number are read as boxes relative to `base`: each goes to where
`push` puts it, as long as `I` holds, and `I` goes on to hold. -/
structure TakenBy {σ τ : Type} (x : σ → Decoder τ) (field : ℕ) (base : Area) (I : σ → Prop)
    (push : σ → Box → σ) : Prop where
  carries : ∀ {p : ℕ} {acc : σ} {body : List UInt8} {box : Box}, I acc → body.length < 2 ^ 32 →
    (decoder base ⟨base, p + (Wire.blockHeader field 0).length, body.length, 0, []⟩).FillsAt
      (p + (Wire.blockHeader field 0).length) body box →
    Carries x p acc (Wire.blockField field body) (push acc box)
  keeps : ∀ {acc : σ} {box : Box}, I acc → I (push acc box)

/-- A box with a further child behind its own. -/
def addChild (b child : Box) : Box := { b with children := b.children ++ [child] }

lemma foldl_addChild (children : List Box) (b : Box) :
    children.foldl addChild b = { b with children := b.children ++ children } := by
  induction children generalizing b with
  | nil =>
    cases b
    simp
  | cons child rest ih =>
    rw [List.foldl_cons, ih]
    simp [addChild]

/-- A block field whose step reads a block. -/
lemma blockField_carries {σ : Type} {step : Tag → σ → Decoder σ} {push : σ → Box → σ} {acc : σ}
    {field : ℕ} {body : List UInt8} {box : Box} (valid : FieldNumber field)
    (reads : step ⟨field, WireType.fixed32.code⟩ acc = do
      let box ← (do
        let length ← be32
        let offset ← position
        within length.toNat (decoder base ⟨base, offset, length.toNat, 0, []⟩))
      return push acc box)
    (small : body.length < 2 ^ 32)
    (h : (decoder base ⟨base, p + (Wire.blockHeader field 0).length, body.length, 0, []⟩).FillsAt
      (p + (Wire.blockHeader field 0).length) body box) :
    Carries (fields · step) p acc (Wire.blockField field body) (push acc box) := by
  have header : p + (Wire.blockHeader field 0).length =
      p + (Wire.tag field .fixed32).length + 4 := by
    rw [Wire.blockHeader, List.length_append, Wire.length_be32]
    omega
  rw [header] at h
  rw [Wire.blockField, Wire.blockHeader, List.append_assoc]
  refine Carries.field valid ?_
  rw [reads]
  exact (block_readsAt (f := fun offset length => decoder base ⟨base, offset, length, 0, []⟩)
    small h).bind_pure

/-- The children of a box are read relative to its area. -/
lemma addChild_takenBy (base area : Area) :
    TakenBy (fields · (fullStep base)) Format.Box.child area (fun b => b.area = area) addChild where
  carries := by
    intro p acc body box same small h
    refine blockField_carries (by decide) ?_ small h
    rw [← same]
    simp [fullStep, childStep, addChild]
  keeps := by
    intro acc box same
    exact same

/-- The distance to a data block is read as it was written. -/
lemma shift_carries {start place : ℕ} {places : List ℕ} {b : BlockDraft} :
    Carries (fields · (fullStep base)) p acc
      (BoxDraft.writeShift start (place :: places) (some b))
      { acc with shift := UInt32.ofNat (place - start) } :=
  Carries.field (by decide) (be32_readsAt _).bind_pure

/-- What is listed of a box comes before what is listed of its descendants. -/
lemma filterMap_preorder {α : Type} (f : Box → Option α) (b : Box) :
    b.preorder.filterMap f = (f b).toList ++ (preorderAll b.children).filterMap f := by
  cases b with
  | mk area offset length shift children =>
    rw [preorder, List.filterMap_cons]
    cases f ⟨area, offset, length, shift, children⟩ <;> rfl

/-- A box that lies before a place points at it. -/
lemma dataPosition?_eq {b : Box} {origin start place : ℕ} (offset : b.offset = origin + start)
    (shift : b.shift = UInt32.ofNat (place - start)) (before : start < place)
    (small : place < 2 ^ 32) : b.dataPosition? = some (origin + place) := by
  have distance : b.shift.toNat = place - start := by
    rw [shift, UInt32.toNat_ofNat_of_lt' (by simp [UInt32.size]; omega)]
  have apart : b.shift ≠ 0 := by
    intro zero
    rw [zero, UInt32.toNat_zero] at distance
    omega
  rw [dataPosition?, if_neg apart, distance, offset]
  congr 1
  omega

end Box

/-! ### Trees -/

namespace BoxDraft

/-- A box points at the place of a block. -/
def PointsAt (P : ℕ → Area × BlockDraft → Prop) (origin : ℕ) (b : BlockDraft) (box : Box) : Prop :=
  ∃ place, P place (box.area, b) ∧ box.dataPosition? = some (origin + place)

variable {P : ℕ → Area × BlockDraft → Prop} {origin stop : ℕ}

lemma writeEdges_length_pos (base area : Area) : 0 < (writeEdges base area).length := by
  have := tag_length_pos Format.Box.left .varint
  simp only [writeEdges, Wire.sint32Field, List.length_append]
  omega

lemma forall₂_append_split {α β : Type} {R : α → β → Prop} {items : List α} {front back : List β}
    (h : List.Forall₂ R items (front ++ back)) :
    ∃ first later, items = first ++ later ∧ List.Forall₂ R first front ∧
      List.Forall₂ R later back :=
  ⟨_, _, (List.take_append_drop front.length items).symm, List.forall₂_take_append _ _ _ h,
    List.forall₂_drop_append _ _ _ h⟩

/-- What a box writes before its children. -/
def writeOwn (base area : Area) (start : ℕ) (places : List ℕ) (block : Option BlockDraft) :
    List UInt8 :=
  writeEdges base area ++ writeShift start places block

/-- A box writes its own fields and then its children. -/
lemma write_inv {base area : Area} {start : ℕ} {places left : List ℕ} {block : Option BlockDraft}
    {children : List BoxDraft} {bytes : List UInt8}
    (h : write base start places ⟨area, block, children⟩ = (bytes, left)) :
    ∃ nested, writeAll Format.Box.child area
        (start + (writeOwn base area start places block).length) (laterPlaces places block)
        children = (nested, left) ∧
      bytes = writeOwn base area start places block ++ nested := by
  rw [write] at h
  cases h
  exact ⟨_, rfl, rfl⟩

/-- A forest is written tree by tree. -/
lemma writeAll_cons_inv {field : ℕ} {base : Area} {start : ℕ} {places left : List ℕ}
    {d : BoxDraft} {rest : List BoxDraft} {bytes : List UInt8}
    (h : writeAll field base start places (d :: rest) = (bytes, left)) :
    ∃ body mid more,
      d.write base (start + (Wire.blockHeader field 0).length) places = (body, mid) ∧
      writeAll field base (start + (Wire.blockField field body).length) mid rest = (more, left) ∧
      bytes = Wire.blockField field body ++ more := by
  rw [writeAll] at h
  cases h
  exact ⟨_, _, _, rfl, rfl, rfl⟩

/-- What a box writes before its children is read as its area and, if it has a block, the distance
to the block's place. -/
lemma own_carries (origin start length : ℕ) {base area : Area} {ps : List ℕ} (later : List ℕ)
    {block : Option BlockDraft} (hb : base.OnGrid) (ha : area.OnGrid)
    (hplaces : List.Forall₂ P ps (block.map fun b => (area, b)).toList)
    (beyond : ∀ {place b}, P place b → start < place ∧ place < 2 ^ 32) :
    laterPlaces (ps ++ later) block = later ∧ ∃ shift : UInt32,
      Carries (fields · (Box.fullStep base)) (origin + start)
        ⟨base, origin + start, length, 0, []⟩ (writeOwn base area start (ps ++ later) block)
        ⟨area, origin + start, length, shift, []⟩ ∧
      ∀ box : Box, box.area = area → box.offset = origin + start → box.shift = shift →
        (block.elim (box.hasData = false) fun b => PointsAt P origin b box) ∧
          box.dataPosition?.toList = ps.map (origin + ·) := by
  cases block with
  | none =>
    obtain rfl : ps = [] := List.forall₂_nil_right_iff.mp hplaces
    refine ⟨rfl, 0, ?_, fun box _ _ none => ?_⟩
    · rw [writeOwn, writeShift, List.append_nil]
      exact Box.edges_carry hb ha
    · simp [Box.hasData, Box.dataPosition?, none]
  | some b =>
    obtain ⟨place, rest, placed, hrest, rfl⟩ := List.forall₂_cons_right_iff.mp hplaces
    obtain rfl : rest = [] := List.forall₂_nil_right_iff.mp hrest
    obtain ⟨before, small⟩ := beyond placed
    refine ⟨rfl, UInt32.ofNat (place - start), ?_, fun box same offset shift => ?_⟩
    · exact (Box.edges_carry hb ha).trans Box.shift_carries
    · have points := Box.dataPosition?_eq offset shift before small
      refine ⟨⟨place, ?_, points⟩, by simp [points]⟩
      rwa [same]

mutual

/-- A written box is read as a box that mirrors it, and its blocks take the first places. -/
lemma write_reads (origin : ℕ) (stop_lt : stop < 2 ^ 32)
    (beyond : ∀ {place b}, P place b → stop ≤ place ∧ place < 2 ^ 32) :
    ∀ (d : BoxDraft) (length : ℕ) {base : Area} {start : ℕ} {ps later left : List ℕ}
      {bytes : List UInt8},
      base.OnGrid → d.OnGrid → List.Forall₂ P ps d.blocks →
      d.write base start (ps ++ later) = (bytes, left) → start + bytes.length ≤ stop →
      left = later ∧ ∃ box : Box,
        (Box.decoder base ⟨base, origin + start, length, 0, []⟩).FillsAt (origin + start) bytes
          box ∧
        d.Mirrors (PointsAt P origin) box ∧
        box.preorder.filterMap Box.dataPosition? = ps.map (origin + ·)
  | ⟨area, block, children⟩, length, base, start, ps, later, left, bytes, hb, hd, hplaces, written,
      fits => by
    obtain ⟨ha, hchildren⟩ := hd
    rw [blocks] at hplaces
    -- the box takes the first place for its own block, its children take those behind
    obtain ⟨mine, theirs, rfl, hmine, htheirs⟩ := forall₂_append_split hplaces
    rw [List.append_assoc] at written
    obtain ⟨nested, hnested, rfl⟩ := write_inv written
    rw [List.length_append] at fits
    obtain ⟨hlater, shift, hown, data⟩ :=
      own_carries origin start length (theirs ++ later) hb ha hmine fun placed => by
        have edges := writeEdges_length_pos base area
        have := beyond placed
        rw [writeOwn, List.length_append] at fits
        omega
    rw [hlater] at hnested
    obtain ⟨hleft, below, hbelow, mirrors, positions⟩ := writeAll_reads origin stop_lt beyond
      children ⟨area, origin + start, length, shift, []⟩ (Box.addChild_takenBy base area) rfl ha
      hchildren htheirs hnested (by omega)
    rw [Box.foldl_addChild, List.nil_append, ← Nat.add_assoc] at hbelow
    let box : Box := ⟨area, origin + start, length, shift, below⟩
    obtain ⟨hdata, own⟩ := data box rfl rfl rfl
    refine ⟨hleft, box, ?_, ⟨rfl, hdata, mirrors⟩, ?_⟩
    · rw [Box.decoder_eq_fields]
      exact (hown.trans hbelow).fields_fillsAt
    · rw [Box.filterMap_preorder, own, positions, List.map_append]

lemma writeAll_reads (origin : ℕ) (stop_lt : stop < 2 ^ 32)
    (beyond : ∀ {place b}, P place b → stop ≤ place ∧ place < 2 ^ 32) :
    ∀ (ds : List BoxDraft) {σ τ : Type} {x : σ → Decoder τ} {field : ℕ} {base : Area}
      {I : σ → Prop} {push : σ → Box → σ} (acc : σ) {start : ℕ} {ps later left : List ℕ}
      {bytes : List UInt8},
      Box.TakenBy x field base I push → I acc → base.OnGrid → OnGridAll ds →
      List.Forall₂ P ps (blocksAll ds) →
      writeAll field base start (ps ++ later) ds = (bytes, left) → start + bytes.length ≤ stop →
      left = later ∧ ∃ boxes : List Box,
        Carries x (origin + start) acc bytes (boxes.foldl push acc) ∧
        MirrorsAll (PointsAt P origin) ds boxes ∧
        (Box.preorderAll boxes).filterMap Box.dataPosition? = ps.map (origin + ·)
  | [], σ, τ, x, field, base, I, push, acc, start, ps, later, left, bytes, _, _, _, _, hplaces,
      written, _ => by
    rw [blocksAll] at hplaces
    obtain rfl : ps = [] := List.forall₂_nil_right_iff.mp hplaces
    rw [writeAll] at written
    cases written
    exact ⟨rfl, [], Carries.nil acc, rfl, rfl⟩
  | d :: rest, σ, τ, x, field, base, I, push, acc, start, ps, later, left, bytes, taken, hacc, hb,
      hds, hplaces, written, fits => by
    obtain ⟨hd, hrest⟩ := hds
    rw [blocksAll] at hplaces
    obtain ⟨mine, theirs, rfl, hmine, htheirs⟩ := forall₂_append_split hplaces
    rw [List.append_assoc] at written
    obtain ⟨body, mid, more, hbody, hmore, rfl⟩ := writeAll_cons_inv written
    rw [List.length_append] at fits
    have size := length_blockField field body
    obtain ⟨rfl, box, hbox, mirrors, first⟩ :=
      write_reads origin stop_lt beyond d body.length hb hd hmine hbody (by omega)
    rw [← Nat.add_assoc] at hbox
    obtain ⟨hleft, boxes, hboxes, all, later⟩ := writeAll_reads origin stop_lt beyond rest
      (push acc box) taken (taken.keeps hacc) hb hrest htheirs hmore (by omega)
    rw [← Nat.add_assoc] at hboxes
    refine ⟨hleft, box :: boxes, (taken.carries hacc (by omega) hbox).trans hboxes,
      ⟨box, boxes, rfl, mirrors, all⟩, ?_⟩
    rw [Box.preorderAll, List.filterMap_append, first, later, List.map_append]

end

end BoxDraft

end RoadAtlas
