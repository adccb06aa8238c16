import RoadAtlas.Proofs.Network.Section

/-!
Bytes that are read alike wherever they stand. What a box is read as depends on where it stands,
since boxes keep their offsets; apart from those it does not. So some bytes act on a view of what
has been read: the view says whether reading gets past them, and what it is behind them.

* `Decoder.Acts`, `Decoder.Legible`: bytes that act on a view, and that some action is there;
* `Acts.append`, `Legible.flatMap`: actions follow each other as the bytes do;
* `Box.outline`: a box without its offsets;
* `Box.block_acts`: a block with a box acts on what the box is put into;
* `BoxDraft.write_legible`: by induction on the tree, a written box is legible, whatever its edges
  are.
-/

namespace RoadAtlas

open Decoder

namespace Decoder

variable {α σ τ ν ι : Type} {bytes more : List UInt8}

/-- Wherever the bytes stand, a repetition gets past them only with an accumulator whose view is
admitted, and then their effect on the view is the one given. -/
structure Acts (x : σ → Decoder τ) (view : σ → ν) (bytes : List UInt8) (admits : ν → Prop)
    (effect : ν → ν) : Prop where
  admitted : ∀ {p : ℕ} {acc : σ} {data : ByteArray} {limit : ℕ} {value : τ} {next : Cursor},
    data.size < positionBound → limit ≤ data.size → Holds data p bytes →
    p + bytes.length ≤ limit → ((x acc).run data ⟨p, limit⟩).Ends value next → admits (view acc)
  carries : ∀ (p : ℕ) (acc : σ), admits (view acc) →
    ∃ acc', view acc' = effect (view acc) ∧ Carries x p acc bytes acc'

namespace Acts

variable {x : σ → Decoder τ} {view : σ → ν} {admits admits' : ν → Prop} {effect effect' : ν → ν}

/-- Bytes that carry every accumulator. -/
lemma of_carries (f : σ → σ) (shown : ∀ acc, view (f acc) = effect (view acc))
    (h : ∀ p acc, Carries x p acc bytes (f acc)) : Acts x view bytes (fun _ => True) effect where
  admitted _ _ _ _ _ := trivial
  carries p acc _ := ⟨f acc, shown acc, h p acc⟩

lemma append (h : Acts x view bytes admits effect) (h' : Acts x view more admits' effect') :
    Acts x view (bytes ++ more) (fun v => admits v ∧ admits' (effect v)) (effect' ∘ effect) where
  admitted := by
    intro p acc data limit value next small below held inside ends
    rw [List.length_append, ← Nat.add_assoc] at inside
    have within : p + bytes.length ≤ limit := by omega
    have first := h.admitted small below held.left within ends
    obtain ⟨acc', shown, carried⟩ := h.carries p acc first
    have later := (carried data limit small below held.left within value next).mp ends
    exact ⟨first, shown ▸ h'.admitted small below held.right inside later⟩
  carries := by
    rintro p acc ⟨first, later⟩
    obtain ⟨acc', shown, carried⟩ := h.carries p acc first
    obtain ⟨acc'', shown', carried'⟩ := h'.carries (p + bytes.length) acc' (shown ▸ later)
    exact ⟨acc'', by rw [shown', shown, Function.comp_apply], carried.trans carried'⟩

end Acts

/-- The bytes are read alike wherever they stand, as far as the view shows. -/
def Legible (x : σ → Decoder τ) (view : σ → ν) (bytes : List UInt8) : Prop :=
  ∃ admits effect, Acts x view bytes admits effect

namespace Legible

variable {x : σ → Decoder τ} {view : σ → ν}

lemma nil : Legible x view [] :=
  ⟨fun _ => True, id, .of_carries id (fun _ => rfl) fun _ acc => Carries.nil acc⟩

lemma append (h : Legible x view bytes) (h' : Legible x view more) :
    Legible x view (bytes ++ more) := by
  obtain ⟨admits, effect, acts⟩ := h
  obtain ⟨admits', effect', acts'⟩ := h'
  exact ⟨_, _, acts.append acts'⟩

lemma flatMap {write : ι → List UInt8} {items : List ι}
    (h : ∀ item ∈ items, Legible x view (write item)) : Legible x view (items.flatMap write) := by
  induction items with
  | nil => exact nil
  | cons item rest ih =>
    rw [List.flatMap_cons]
    exact (h item List.mem_cons_self).append (ih fun i hi => h i (List.mem_cons_of_mem _ hi))

end Legible

/-! ### Fields -/

variable {step : Tag → σ → Decoder σ} {view : σ → ν} {number : ℕ} {wire : WireType}

/-- Behind the tag of a field a message goes on with the payload of the field. -/
lemma fields_ends_iff {acc value : σ} {p limit : ℕ} {data : ByteArray} {next : Cursor}
    (valid : FieldNumber number) (small : data.size < positionBound) (below : limit ≤ data.size)
    (held : Holds data p (Wire.tag number wire ++ bytes))
    (inside : p + (Wire.tag number wire ++ bytes).length ≤ limit) :
    ((fields acc step).run data ⟨p, limit⟩).Ends value next ↔
      ((do let acc ← step ⟨number, wire.code⟩ acc; fields acc step).run data
        ⟨p + (Wire.tag number wire).length, limit⟩).Ends value next := by
  rw [List.length_append] at inside
  rw [fields_eq, run_bind]
  refine ((tag_readsAt wire valid.2) data limit small below held.left
    (by omega)).andThen_iff.trans ?_
  simp only [isEnd_eq_false wire valid, Bool.false_eq_true, ↓reduceIte]

/-- Nowhere does a decoder get past the bytes. -/
def Refuses (y : Decoder α) (bytes : List UInt8) : Prop :=
  ∀ {p : ℕ} {data : ByteArray} {limit : ℕ} {a : α} {next : Cursor}, data.size < positionBound →
    limit ≤ data.size → Holds data p bytes → p + bytes.length ≤ limit →
    ¬ (y.run data ⟨p, limit⟩).Ends a next

/-- A field is legible if its payload is the same wherever it stands, or cannot be read at all. -/
lemma Legible.field {payload : Decoder α} {f : α → σ → σ} (valid : FieldNumber number)
    (reads : ∀ acc, step ⟨number, wire.code⟩ acc = (do let a ← payload; return f a acc))
    (h : (∃ a, ∀ p, payload.ReadsAt p bytes a) ∨ Refuses payload bytes)
    (shown : ∀ a, ∃ effect : ν → ν, ∀ acc, view (f a acc) = effect (view acc)) :
    Legible (fields · step) view (Wire.tag number wire ++ bytes) := by
  rcases h with ⟨a, read⟩ | refused
  · obtain ⟨effect, shown⟩ := shown a
    refine ⟨_, effect, .of_carries (f a) shown fun p acc => Carries.field valid ?_⟩
    rw [reads]
    exact (read _).bind_pure
  · refine ⟨fun _ => False, id, ⟨?_, fun _ _ none => none.elim⟩⟩
    intro p acc data limit value next small below held inside ends
    obtain ⟨_, done⟩ := (fields_ends_iff valid small below held inside).mp ends
    obtain ⟨acc', mid, r, r', payload, -⟩ := bind_done done
    rw [reads] at payload
    obtain ⟨a, here, -⟩ := bind_pure_done payload
    rw [List.length_append, ← Nat.add_assoc] at inside
    exact refused small below held.right inside ⟨_, here⟩

end Decoder

/-! ### Boxes without their offsets -/

namespace Box

mutual

/-- A box without its offset and those of its descendants. -/
def outline : Box → Box
  | ⟨area, _, length, shift, children⟩ => ⟨area, 0, length, shift, outlineAll children⟩

/-- Some boxes without their offsets. -/
def outlineAll : List Box → List Box
  | [] => []
  | b :: rest => b.outline :: outlineAll rest

end

lemma outline_eq (b : Box) :
    b.outline = ⟨b.area, 0, b.length, b.shift, outlineAll b.children⟩ := by
  cases b
  rw [outline]

lemma outlineAll_append (bs more : List Box) :
    outlineAll (bs ++ more) = outlineAll bs ++ outlineAll more := by
  induction bs with
  | nil => rfl
  | cons b rest ih => rw [List.cons_append, outlineAll, outlineAll, ih, List.cons_append]

/-- A distance is an edge, wherever it stands, or leads out of the coordinates. -/
lemma edge_legible (outer : UInt32) (delta : Int32) :
    (∃ value, ∀ p, (edge outer).ReadsAt p (Wire.varint32 (Zigzag.encode32 delta)) value) ∨
      Refuses (edge outer) (Wire.varint32 (Zigzag.encode32 delta)) := by
  cases found : toCoordinate? (outer.toNat + delta.toInt) with
  | some value =>
    refine .inl ⟨value, fun p => (sint32_readsAt delta).bind_nil ?_⟩
    rw [found]
    exact pure_readsAt value
  | none =>
    refine .inr ?_
    intro p data limit value next small below held inside ends
    rw [edge, run_bind] at ends
    have failed := (sint32_readsAt delta data limit small below held inside).andThen_iff.mp ends
    rw [found] at failed
    obtain ⟨_, ⟨⟩⟩ := failed

variable {wbase rbase : Area}

/-- A field with an edge is legible, whichever edge it is. -/
lemma edge_field_legible {number : ℕ} {outer : UInt32} {delta : Int32} (valid : FieldNumber number)
    (put : Area → UInt32 → Area)
    (reads : ∀ acc, fullStep rbase ⟨number, WireType.varint.code⟩ acc = do
      let value ← edge outer
      return { acc with area := put acc.area value }) :
    Legible (fields · (fullStep rbase)) outline (Wire.sint32Field number delta) :=
  Legible.field valid reads (edge_legible outer delta) fun value =>
    ⟨fun b => { b with area := put b.area value }, fun b => by simp [outline_eq]⟩

/-- The edges of a box are legible, whatever they are relative to. -/
lemma edges_legible (area : Area) :
    Legible (fields · (fullStep rbase)) outline (BoxDraft.writeEdges wbase area) := by
  refine ((Legible.append ?left ?right).append ?top).append ?bottom
  case left => exact edge_field_legible (by decide) (fun a v => { a with left := v }) fun _ => rfl
  case right => exact edge_field_legible (by decide) (fun a v => { a with right := v }) fun _ => rfl
  case top => exact edge_field_legible (by decide) (fun a v => { a with top := v }) fun _ => rfl
  case bottom =>
    exact edge_field_legible (by decide) (fun a v => { a with bottom := v }) fun _ => rfl

/-- A block is read by reading its box in the region of the block. -/
lemma block_ends {α : Type} {f : ℕ → ℕ → Decoder α} {body : List UInt8} {data : ByteArray}
    {p limit : ℕ} {a : α} {next : Cursor} (small : data.size < positionBound)
    (below : limit ≤ data.size) (sized : body.length < 2 ^ 32)
    (held : Holds data p (Wire.be32 (UInt32.ofNat body.length) ++ body))
    (inside : p + (4 + body.length) ≤ limit)
    (ends : ((do
      let length ← be32
      let offset ← position
      within length.toNat (f offset length.toNat) : Decoder α).run data ⟨p, limit⟩).Ends a next) :
    ∃ last, ((f (p + 4) body.length).run data ⟨p + 4, p + 4 + body.length⟩).Ends a last := by
  rw [run_bind] at ends
  have head := be32_readsAt _ data limit small below held.left (by rw [Wire.length_be32]; omega)
  have behind := head.andThen_iff.mp ends
  rw [UInt32.toNat_ofNat_of_lt' sized, run_bind, Wire.length_be32] at behind
  have start : (position.run data ⟨p + 4, limit⟩).Ends (p + 4) ⟨p + 4, limit⟩ := ⟨.refl _, rfl⟩
  obtain ⟨_, region⟩ := start.andThen_iff.mp behind
  obtain ⟨last, reach, read, -⟩ := (within_done region).2
  exact ⟨last, reach, read⟩

/-- A block with a box acts on what the box is put into, provided that the fields of the box act on
its outline. The box is read relative to an area that the view shows. -/
lemma block_acts {σ ν : Type} {step : Tag → σ → Decoder σ} {view : σ → ν} {number : ℕ}
    {body : List UInt8} {admits : Area → Box → Prop} {effect : Area → Box → Box}
    (push : σ → Box → σ) (vpush : ν → Box → ν) (base : σ → Area) (vbase : ν → Area)
    (valid : FieldNumber number) (sized : body.length < 2 ^ 32)
    (reads : ∀ acc, step ⟨number, WireType.fixed32.code⟩ acc = do
      let box ← (do
        let length ← be32
        let offset ← position
        within length.toNat (decoder (base acc) ⟨base acc, offset, length.toNat, 0, []⟩))
      return push acc box)
    (baseShown : ∀ acc, base acc = vbase (view acc))
    (pushShown : ∀ acc box, view (push acc box) = vpush (view acc) box.outline)
    (inner : ∀ area, Acts (fields · (fullStep area)) outline body (admits area) (effect area)) :
    Acts (fields · step) view (Wire.blockField number body)
      (fun v => admits (vbase v) ⟨vbase v, 0, body.length, 0, []⟩)
      (fun v => vpush v (effect (vbase v) ⟨vbase v, 0, body.length, 0, []⟩)) where
  admitted := by
    intro p acc data limit value next small below held inside ends
    rw [Wire.blockField, Wire.blockHeader, List.append_assoc] at held inside
    obtain ⟨_, done⟩ := (fields_ends_iff valid small below held inside).mp ends
    obtain ⟨acc', mid, r, r', payload, -⟩ := bind_done done
    rw [reads] at payload
    obtain ⟨box, block, -⟩ := bind_pure_done payload
    rw [List.length_append, List.length_append, Wire.length_be32, ← Nat.add_assoc] at inside
    obtain ⟨last, read⟩ := block_ends (f := fun offset length =>
      decoder (base acc) ⟨base acc, offset, length, 0, []⟩) small below sized held.right inside
      ⟨_, block⟩
    rw [decoder_eq_fields] at read
    have admitted := (inner (base acc)).admitted small (by omega) held.right.right
      (by rw [Wire.length_be32]) read
    rwa [outline_eq, outlineAll, baseShown] at admitted
  carries := by
    intro p acc admitted
    have admitted' : admits (base acc) (outline ⟨base acc, p + (Wire.blockHeader number 0).length,
        body.length, 0, []⟩) := by
      rw [outline_eq, outlineAll, baseShown]
      exact admitted
    obtain ⟨box, shown, carried⟩ := (inner (base acc)).carries _ _ admitted'
    refine ⟨push acc box, ?_, ?_⟩
    · rw [pushShown, shown, outline_eq, outlineAll, baseShown]
    · refine blockField_carries valid (reads acc) sized ?_
      rw [decoder_eq_fields]
      exact carried.fields_fillsAt

end Box

/-! ### Written boxes -/

namespace BoxDraft

/-- The messages of some boxes, the first of which starts its block at `start`. -/
def bodies (field : ℕ) (base : Area) (start : ℕ) (places : List ℕ) :
    List BoxDraft → List (List UInt8)
  | [] => []
  | d :: rest =>
    let written := d.write base (start + (Wire.blockHeader field 0).length) places
    written.1 :: bodies field base (start + (Wire.blockField field written.1).length) written.2 rest

/-- A forest is written as one block for each message. -/
lemma writeAll_eq_flatMap {field : ℕ} {base : Area} : ∀ {ds : List BoxDraft} {start : ℕ}
    {places : List ℕ}, (writeAll field base start places ds).1 =
      (bodies field base start places ds).flatMap (Wire.blockField field)
  | [], _, _ => by rw [writeAll, bodies, List.flatMap_nil]
  | d :: rest, start, places => by
    rw [bodies, List.flatMap_cons, ← writeAll_eq_flatMap, writeAll]

/-- The distance to a data block is legible. -/
lemma shift_legible {rbase : Area} {start : ℕ} {places : List ℕ} (block : Option BlockDraft) :
    Legible (fields · (Box.fullStep rbase)) Box.outline (writeShift start places block) := by
  cases block with
  | none => exact .nil
  | some b =>
    have read : ∃ shift, ∀ p, be32.ReadsAt p (Wire.be32 (UInt32.ofNat (places.headD 0 - start)))
        shift := ⟨_, fun _ => be32_readsAt _⟩
    exact Legible.field (by decide) (fun _ => rfl) (.inl read) fun shift =>
      ⟨fun b => { b with shift }, fun b => by simp [Box.outline_eq]⟩

/-- A block in which a child lies is legible when the message of the child is. -/
lemma child_legible {rbase : Area} {body : List UInt8} (sized : body.length < 2 ^ 32)
    (h : ∀ area, Legible (fields · (Box.fullStep area)) Box.outline body) :
    Legible (fields · (Box.fullStep rbase)) Box.outline
      (Wire.blockField Format.Box.child body) := by
  choose admits effect acts using h
  refine ⟨_, _, Box.block_acts Box.addChild Box.addChild Box.area Box.area (by decide) sized
    (fun acc => ?_) (fun acc => ?_) (fun acc child => ?_) acts⟩
  · simp [Box.fullStep, Box.childStep, Box.addChild]
  · rw [Box.outline_eq]
  · rw [Box.addChild, Box.outline_eq, Box.outlineAll_append, Box.outline_eq acc]
    rfl

mutual

/-- A written box is legible, whatever its edges are and whatever they are taken to be relative
to. -/
lemma write_legible : ∀ (d : BoxDraft) {wbase : Area} {start : ℕ} {places : List ℕ},
    (d.write wbase start places).1.length < 2 ^ 32 → ∀ rbase,
      Legible (fields · (Box.fullStep rbase)) Box.outline (d.write wbase start places).1
  | ⟨area, block, children⟩, wbase, start, places, sized, rbase => by
    have written : write wbase start places ⟨area, block, children⟩ =
      ((write wbase start places ⟨area, block, children⟩).1,
        (write wbase start places ⟨area, block, children⟩).2) := rfl
    obtain ⟨nested, hnested, split⟩ := write_inv written
    rw [split, List.length_append] at sized
    rw [split, writeOwn]
    refine ((Box.edges_legible area).append (shift_legible block)).append ?_
    obtain rfl : _ = nested := congrArg Prod.fst hnested
    rw [writeAll_eq_flatMap] at sized ⊢
    refine Legible.flatMap fun body hbody => ?_
    have inside := length_le_flatMap (Wire.blockField Format.Box.child) hbody
    rw [length_blockField] at inside
    have sized' : body.length < 2 ^ 32 := by omega
    exact child_legible sized' (bodies_legible children body hbody sized')

lemma bodies_legible : ∀ (ds : List BoxDraft) {field : ℕ} {wbase : Area} {start : ℕ}
    {places : List ℕ}, ∀ body ∈ bodies field wbase start places ds, body.length < 2 ^ 32 →
      ∀ rbase, Legible (fields · (Box.fullStep rbase)) Box.outline body
  | [], _, _, _, _, body, hbody => by
    rw [bodies] at hbody
    exact absurd hbody List.not_mem_nil
  | d :: rest, field, wbase, start, places, body, hbody => by
    rw [bodies] at hbody
    rcases List.mem_cons.mp hbody with rfl | later
    · exact write_legible d
    · exact bodies_legible rest body later

end

end BoxDraft

end RoadAtlas
