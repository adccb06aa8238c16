import RoadAtlas.Proofs.Network.Border

/-!
How nested regions are left. A message ends at the limit of its region or behind a tag of field 0,
wherever that stands. Then the limit of the region around it is in force again, but the cursor is
where the message ended: what a region holds behind a tag of field 0 is read once more, as part of
the enclosing message.

* `Decoder.EndsMessage`: a tag of field 0 ends in front of a cursor;
* `Decoder.StopsAtTag`: so do all successes of a decoder that end before the limit;
* `Decoder.LeavesRegion`: the same of a decoder that reads the extent of its region first;
* `Nested` lists the nested messages of a routing section, of which all do this;
* `RoutingSection.nested_leavesRegion`: a message that no tag of field 0 ends early is left at the
  end of its region, and `Rule.decoder_leaves_rest` is about one that is ended early.
-/

namespace RoadAtlas

open Decoder

namespace Decoder

variable {α β σ : Type} {data : ByteArray} {c next : Cursor}

/-! ### Ends of messages -/

/-- A tag of field 0 stands at or behind a position and ends at a cursor, in the cursor's region. -/
def EndsMessage (data : ByteArray) (lo : ℕ) (next : Cursor) : Prop :=
  ∃ (before : Cursor) (lead : UInt32) (reach : before.Reaches next), lo ≤ before.position ∧
    varint32.run data before = .done lead next reach ∧ (Tag.ofWord lead).isEnd = true

lemma EndsMessage.mono {lo lo' : ℕ} (h : EndsMessage data lo next) (below : lo' ≤ lo) :
    EndsMessage data lo' next := by
  obtain ⟨before, lead, reach, above, run, ends⟩ := h
  exact ⟨before, lead, reach, below.trans above, run, ends⟩

/-- A success ends in the region, and if it ends before the limit, behind a tag of field 0. -/
def StopsAtTag (x : Decoder α) : Prop :=
  ∀ ⦃data : ByteArray⦄ ⦃c : Cursor⦄ ⦃a : α⦄ ⦃next : Cursor⦄ ⦃reach : c.Reaches next⦄,
    c.position ≤ c.limit → x.run data c = .done a next reach → next.position ≤ c.limit ∧
      (next.position < c.limit → EndsMessage data c.position next)

lemma StopsAtTag.map {x : Decoder α} (hx : x.StopsAtTag) (f : α → β) : (f <$> x).StopsAtTag := by
  intro data c b next reach inside h
  rw [run_map] at h
  obtain ⟨a, ha, -⟩ := Outcome.map_eq_done h
  exact hx inside ha

/-- The last tag of a message is its end or has field 0. -/
lemma tag_stopsAtTag {t : Tag} {reach : c.Reaches next} (h : tag.run data c = .done t next reach)
    (ends : t.isEnd = true) (before : next.position < c.limit) :
    EndsMessage data c.position next := by
  simp only [tag] at h
  split at h
  next limit =>
    cases h
    simp only [Cursor.atLimit, decide_eq_true_eq] at limit
    omega
  next =>
    obtain ⟨lead, hlead, rfl⟩ := Outcome.map_eq_done h
    exact ⟨c, lead, reach, Nat.le_refl _, hlead, ends⟩

lemma fields_stopsAtTag {step : Tag → σ → Decoder σ} {acc : σ}
    (h : ∀ t acc, (step t acc).Local) : (fields acc step).StopsAtTag := by
  intro data c result next reach inside done
  have folds := folds_of_run done
  clear done reach
  induction folds with
  | finish first ends =>
    exact ⟨(tag_local _).position_le inside first, tag_stopsAtTag first ends⟩
  | @field c c₁ c₂ next acc acc₁ result t reach₁ reach₂ first goes payload rest ih =>
    have inside₁ := (tag_local c).position_le inside first
    rw [← reach₁.limit_eq] at inside₁
    have inside₂ := (h t acc c₁).position_le inside₁ payload
    have behind := reach₁.trans reach₂
    rw [← reach₂.limit_eq] at inside₂
    obtain ⟨within, ends⟩ := ih inside₂
    rw [behind.limit_eq] at within ends
    exact ⟨within, fun before => (ends before).mono behind.position_le⟩

/-! ### Nested regions -/

/-- A region whose length a header gives is left at its end, or in it behind a tag of field 0. -/
def LeavesRegion (header : Decoder UInt32) (x : Decoder α) : Prop :=
  ∀ ⦃data : ByteArray⦄ ⦃c : Cursor⦄ ⦃a : α⦄ ⦃next : Cursor⦄ ⦃reach : c.Reaches next⦄,
    x.run data c = .done a next reach →
      ∃ (length : UInt32) (start : Cursor) (r : c.Reaches start),
        header.run data c = .done length start r ∧ start.position + length.toNat ≤ c.limit ∧
        next.position ≤ start.position + length.toNat ∧
        (next.position < start.position + length.toNat →
          EndsMessage data start.position ⟨next.position, start.position + length.toNat⟩)

/-- What stops at the end of its region or at a tag leaves the region there. -/
lemma StopsAtTag.within_done {x : Decoder α} (hx : x.StopsAtTag) {length : ℕ} {a : α}
    {reach : c.Reaches next} (h : (within length x).run data c = .done a next reach) :
    c.position + length ≤ c.limit ∧ next.position ≤ c.position + length ∧
      (next.position < c.position + length →
        EndsMessage data c.position ⟨next.position, c.position + length⟩) := by
  obtain ⟨inside, c₁, reach₁, run, same⟩ := Decoder.within_done h
  obtain ⟨before, ends⟩ := hx (Nat.le_add_right _ _) run
  have here : c₁ = ⟨next.position, c.position + length⟩ :=
    calc c₁ = ⟨c₁.position, c₁.limit⟩ := rfl
      _ = ⟨next.position, c.position + length⟩ := by rw [same, reach₁.limit_eq]
  rw [← here, same]
  exact ⟨Nat.le_of_not_lt inside, before, ends⟩

/-- A region right behind its header. -/
lemma StopsAtTag.leavesRegion {header : Decoder UInt32} {x : UInt32 → Decoder α}
    (hx : ∀ length, (x length).StopsAtTag) :
    LeavesRegion header (header >>= fun length => within length.toNat (x length)) := by
  intro data c a next reach h
  obtain ⟨length, start, r, r', head, h⟩ := bind_done h
  obtain ⟨fits, before, ends⟩ := (hx length).within_done h
  rw [r.limit_eq] at fits
  exact ⟨length, start, r, head, fits, before, ends⟩

lemma StopsAtTag.sized {x : Decoder α} (hx : x.StopsAtTag) : LeavesRegion varint32 (sized x) :=
  StopsAtTag.leavesRegion fun _ => hx

end Decoder

/-! ### Messages of a routing section -/

/-- What is made of a value does not matter for where its region is left. -/
lemma Decoder.LeavesRegion.bind_pure {α β : Type} {header : Decoder UInt32} {x : Decoder α}
    (hx : LeavesRegion header x) (f : α → β) :
    LeavesRegion header (do let a ← x; return f a : Decoder β) := by
  intro data c b next reach h
  obtain ⟨a, ha, -⟩ := bind_pure_done h
  exact hx ha

lemma Box.decoder_stopsAtTag (base : Area) (b : Box) : (Box.decoder base b).StopsAtTag := by
  rw [Box.decoder_eq]
  refine fields_stopsAtTag fun t b => ?_
  split
  · exact Box.childStep_local b
  · exact Box.step_local base t b

/-- A block whose box is read relative to an area. -/
lemma Box.block_leavesRegion (base : Area) :
    LeavesRegion be32 (do
      let length ← be32
      let offset ← position
      within length.toNat (Box.decoder base { area := base, offset, length := length.toNat })) := by
  intro data c b next reach h
  obtain ⟨length, start, r, r', head, h⟩ := bind_done h
  obtain ⟨offset, _, r₁, r₂, ⟨⟩, h⟩ := bind_done h
  obtain ⟨fits, before, ends⟩ := (Box.decoder_stopsAtTag _ _).within_done h
  rw [r.limit_eq] at fits
  exact ⟨length, start, r, head, fits, before, ends⟩

lemma stringTableBody_stopsAtTag : stringTableBody.StopsAtTag := by
  obtain ⟨step, body, steps⟩ := stringTableBody_eq
  rw [body]
  exact fields_stopsAtTag steps

lemma BorderLine.decoder_leavesRegion : LeavesRegion varint32 BorderLine.decoder := by
  intro data c line next reach h
  obtain ⟨start, _, r, r', ⟨⟩, h⟩ := bind_done h
  exact (fields_stopsAtTag (BorderLine.step_local _)).sized h

/-- The messages that are nested in a routing section, each with the header of its region. -/
inductive Nested : {α : Type} → Decoder UInt32 → Decoder α → Prop
  | rule : Nested varint32 Rule.decoder
  | root : Nested be32 Box.readRoot
  | child (b : Box) : Nested be32 (b.childStep (Box.decoder b.area))
  | ids : Nested varint32 BlockTables.readIds
  | restriction : Nested varint32 RestrictionRecord.decoder
  | road (corner : Point) : Nested varint32 (RoadRecord.decoder corner)
  | strings : Nested varint32 stringTable
  | line : Nested varint32 BorderLine.decoder
  | point : Nested varint32 BorderRecord.decoder

/-- Every nested message leaves its region at the end of the region, or in it behind a tag of
field 0. -/
lemma Nested.leavesRegion {α : Type} {header : Decoder UInt32} {x : Decoder α}
    (nested : Nested header x) : LeavesRegion header x := by
  cases nested with
  | rule => exact (fields_stopsAtTag Rule.step_local).sized
  | root => exact Box.block_leavesRegion default
  | child b =>
    have h := (Box.block_leavesRegion b.area).bind_pure fun child : Box =>
      { b with children := b.children ++ [child] }
    rw [Box.childStep]
    simpa only [bind_assoc] using h
  | ids => exact ((fields_stopsAtTag BlockTables.idStep_local).map Prod.snd).sized
  | restriction => exact (fields_stopsAtTag RestrictionRecord.step_local).sized
  | road corner => exact (fields_stopsAtTag (RoadRecord.step_local corner)).sized
  | strings => exact stringTableBody_stopsAtTag.sized
  | line => exact BorderLine.decoder_leavesRegion
  | point => exact (fields_stopsAtTag BorderRecord.step_local).sized

lemma Outcome.exists_done {α : Type} {c next : Cursor} {o : Outcome α c} {a : α}
    (value : o.toExcept = .ok a) (place : o.cursor = next) : ∃ reach, o = .done a next reach := by
  cases o with
  | done b stop reach =>
    cases value
    cases place
    exact ⟨reach, rfl⟩
  | failed cause stopped => cases value

/-- From the cursor `c` a nested message is read that leaves the cursor at `next`. Its region starts
at `start`, and the message is not ended by a tag of field 0 before the region is. -/
structure ReadsWhole {α : Type} (header : Decoder UInt32) (x : Decoder α) (data : ByteArray)
    (c start next : Cursor) (length : UInt32) : Prop where
  head : ∃ reach, header.run data c = .done length start reach
  body : ∃ a reach, x.run data c = .done a next reach
  notEarly : next.position < start.position + length.toNat →
    ¬ EndsMessage data start.position ⟨next.position, start.position + length.toNat⟩

namespace ReadsWhole

variable {α : Type} {header : Decoder UInt32} {x : Decoder α} {data : ByteArray}
  {c start next : Cursor} {length : UInt32}

/-- Such a message leaves the cursor at the end of its region. -/
lemma next_eq (reads : ReadsWhole header x data c start next length) (nested : Nested header x) :
    next = ⟨start.position + length.toNat, c.limit⟩ := by
  obtain ⟨r, head⟩ := reads.head
  obtain ⟨a, reach, body⟩ := reads.body
  obtain ⟨length', start', r', head', -, before, ends⟩ := nested.leavesRegion body
  obtain ⟨rfl, rfl⟩ : length = length' ∧ start = start' := by
    rw [head] at head'
    cases head'
    exact ⟨rfl, rfl⟩
  have last : next.position = start.position + length.toNat :=
    Nat.le_antisymm before (Nat.le_of_not_lt fun early => reads.notEarly early (ends early))
  calc next = ⟨next.position, next.limit⟩ := rfl
    _ = ⟨start.position + length.toNat, c.limit⟩ := by rw [last, reach.limit_eq]

/-- A message that is read up to the end of its region is not ended early. -/
lemma of_run {a : α} (head : (header.run data c).toExcept = .ok length)
    (begins : (header.run data c).cursor = start) (body : (x.run data c).toExcept = .ok a)
    (stops : (x.run data c).cursor = next)
    (last : start.position + length.toNat ≤ next.position) :
    ReadsWhole header x data c start next length where
  head := Outcome.exists_done head begins
  body := ⟨a, Outcome.exists_done body stops⟩
  notEarly early := absurd early (Nat.not_lt_of_le last)

end ReadsWhole

/-- A nested message that no tag of field 0 ends early is left exactly at the end of its region; what
follows is read the same, whatever the region holds. -/
theorem RoutingSection.nested_leavesRegion {α : Type} {header : Decoder UInt32} {x : Decoder α}
    (nested : Nested header x) {data : ByteArray} {c start next : Cursor} {length : UInt32}
    (reads : ReadsWhole header x data c start next length) :
    next = ⟨start.position + length.toNat, c.limit⟩ ∧
      ∀ (data' : ByteArray) (next' : Cursor),
        AgreeOn data data' (start.position + length.toNat) c.limit →
        ReadsWhole header x data' c start next' length →
        ∀ {β : Type} (y : Decoder β), y.Local → y.eval data' next' = y.eval data next := by
  refine ⟨reads.next_eq nested, ?_⟩
  intro data' next' agree reads' β y hy
  rw [reads'.next_eq nested, reads.next_eq nested]
  exact congrArg Outcome.toExcept ((hy _).run_eq agree)

/-- A rule for a tag `h` in front of the tag of another rule. -/
def ruleSample (value : UInt8) : ByteArray := ⟨#[6, 26, 1, 104, 42, 1, value, 18]⟩

/-- The tag behind a rule is read, whatever the value of the rule is. -/
theorem RoutingSection.nested_leavesRegion_ruleSample :
    ReadsWhole varint32 Rule.decoder (ruleSample 98) ⟨0, 8⟩ ⟨1, 8⟩ ⟨7, 8⟩ 6 ∧
      tag.eval (ruleSample 99) ⟨7, 8⟩ = tag.eval (ruleSample 98) ⟨7, 8⟩ := by
  have reads : ReadsWhole varint32 Rule.decoder (ruleSample 98) ⟨0, 8⟩ ⟨1, 8⟩ ⟨7, 8⟩ 6 :=
    .of_run (a := ("h", "b")) (by decide +kernel) (by decide +kernel) (by decide +kernel)
      (by decide +kernel) (by decide)
  have reads' : ReadsWhole varint32 Rule.decoder (ruleSample 99) ⟨0, 8⟩ ⟨1, 8⟩ ⟨7, 8⟩ 6 :=
    .of_run (a := ("h", "c")) (by decide +kernel) (by decide +kernel) (by decide +kernel)
      (by decide +kernel) (by decide)
  have agree : AgreeOn (ruleSample 98) (ruleSample 99) 7 8 := by
    refine ⟨rfl, fun i above below => ?_⟩
    obtain rfl : i = 7 := by omega
    rfl
  exact ⟨reads, (nested_leavesRegion .rule reads).2 _ _ agree reads' tag tag_local⟩

/-- A rule whose region holds a tag of field 0 and then the bytes of a field: the rule ends at the
tag, and the bytes behind it are read as a rule of their own. -/
theorem Rule.decoder_leaves_rest :
    (¬ ∀ (data : ByteArray) (c : Cursor) (pair : String × String) (length : UInt32),
      (Rule.decoder.run data c).toExcept = .ok pair →
      (varint32.run data c).toExcept = .ok length →
      (Rule.decoder.run data c).cursor.position =
        (varint32.run data c).cursor.position + length.toNat) ∧
    RuleTable.read ⟨.routing, "", 0, 5⟩ ⟨#[0x12, 3, 0, 0x12, 0]⟩ =
      .ok (RuleTable.ofPairs [("", ""), ("", "")]) := by
  refine ⟨fun exact => ?_, by decide +kernel⟩
  have left := exact ⟨#[3, 0, 0x12, 0]⟩ ⟨0, 4⟩ ("", "") 3 (by decide +kernel) (by decide +kernel)
  exact absurd left (by decide +kernel)

end RoadAtlas
