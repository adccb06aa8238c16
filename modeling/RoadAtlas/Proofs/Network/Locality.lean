import RoadAtlas.Network.Block
import RoadAtlas.Proofs.Wire.Folding

/-!
What the decoders of a routing section look at: the region they are in, and nothing else. The boxes
that a section is read with lie in the section too, so their data blocks do not lead out of it at
the front; the limit of the section keeps them from leading out at the end.

* `RuleTable.decoder_local`, `RoutingSection.decoder_local`, `Block.decoder_local`, …: the decoders
  are local;
* `Box.Behind`: a box tree that lies behind a position, as every tree does that is read from there;
* `RoutingSection.LiesAt`: a section with its boxes and its border box at a place;
* `RoutingSection.decodeBlock_eq`: a data block depends on the bytes of its section alone.
-/

namespace RoadAtlas

open Decoder

/-! ### Rules -/

namespace Rule

lemma step_local (t : Tag) (pair : String × String) : (step t pair).Local := by
  rw [step]
  split
  · exact string_local.bind fun _ => pure_local _
  · exact string_local.bind fun _ => pure_local _
  · exact varint32_local.bind fun _ => pure_local _
  · exact (skipField_local t).bind fun _ => pure_local _

lemma decoder_local : decoder.Local := (fields_local step_local).sized

end Rule

namespace RuleTable

lemma step_local (t : Tag) (table : RuleTable) : (step t table).Local := by
  rw [step]
  split
  · exact Rule.decoder_local.bind fun _ => pure_local _
  · exact skipBlock_local.bind fun _ => pure_local _
  · exact skipBlock_local.bind fun _ => pure_local _
  · exact skipBlock_local.bind fun _ => pure_local _
  · exact skipBlock_local.bind fun _ => pure_local _
  · exact (skipField_local t).bind fun _ => pure_local _

lemma decoder_local : decoder.Local :=
  Local.map (fun _ => fieldsUntil_localAt fun t table c _ => step_local t table c) Prod.fst

end RuleTable

/-! ### Boxes -/

namespace Box

lemma edge_local (base : UInt32) : (edge base).Local := by
  refine sint32_local.bind fun delta => ?_
  split
  · exact pure_local _
  · exact fail_local _

lemma step_local (base : Area) (t : Tag) (b : Box) : (step base t b).Local := by
  rw [step]
  split
  · exact (edge_local _).bind fun _ => pure_local _
  · exact (edge_local _).bind fun _ => pure_local _
  · exact (edge_local _).bind fun _ => pure_local _
  · exact (edge_local _).bind fun _ => pure_local _
  · exact be32_local.bind fun _ => pure_local _
  · exact (skipField_local t).bind fun _ => pure_local _

lemma decoder_local (base : Area) (b : Box) : (decoder base b).Local := by
  intro c
  -- a child has fewer bytes left than the box around it
  induction left : c.remaining using Nat.strong_induction_on generalizing base b c with
  | _ left ih =>
    subst left
    rw [decoder_eq]
    refine fields_localAt fun t b c₁ before => ?_
    split
    · refine (be32_local c₁).bind fun _ length c₂ reach _ => ?_
      refine (position_local c₂).bind fun _ offset c₃ reach' here => ?_
      cases here
      refine LocalAt.bind (LocalAt.within fun inside => ?_) fun _ _ _ _ _ => pure_local _ _
      exact ih _ ((before.trans_reaches reach).nested_remaining_lt inside) _ _ _ rfl
    · exact step_local base t b c₁

lemma childStep_local (b : Box) : (childStep b (decoder b.area)).Local :=
  be32_local.bind fun length => position_local.bind fun _ =>
    ((decoder_local _ _).within length.toNat).bind fun _ => pure_local _

lemma readRoot_local : readRoot.Local :=
  be32_local.bind fun length => position_local.bind fun _ =>
    (decoder_local _ _).within length.toNat

end Box

/-! ### Sections -/

/-- To decode a routing section is to decode the region that it lies in. -/
lemma SectionEntry.decode_eq_ok_iff {α : Type} {t : SectionEntry} {x : Decoder α}
    {data : ByteArray} {a : α} : t.decode x data = .ok a ↔
      t.kind = .routing ∧ t.stop ≤ data.size ∧ x.eval data ⟨t.offset, t.stop⟩ = .ok a := by
  rw [decode, cursor]
  by_cases kind : t.kind = .routing
  · rw [if_neg (not_not_intro kind)]
    cases found : Cursor.region data t.offset t.length with
    | ok c =>
      obtain ⟨inside, rfl⟩ := Cursor.region_eq_ok_iff.mp found
      simp only [kind, stop, inside, true_and, bind, Except.bind]
      cases x.eval data ⟨t.offset, t.offset + t.length⟩ with
      | ok value => simp
      | error cause => simp
    | error cause =>
      have outside : ¬ t.stop ≤ data.size := fun inside => by
        rw [Cursor.region_eq_ok_iff.mpr ⟨inside, rfl⟩] at found
        cases found
      simp [outside, bind, Except.bind]
  · rw [if_pos kind]
    simp [kind]

namespace RoutingSection

lemma decode_eq_ok_iff {α : Type} {s : RoutingSection} {result : Except DecodeError α} {a : α} :
    s.decode result = .ok a ↔ result = .ok a := by
  cases result with
  | error cause => exact ⟨nofun, nofun⟩
  | ok value => exact ⟨fun h => by cases h; rfl, fun h => by cases h; rfl⟩

lemma readRegion_local : readRegion.Local :=
  be32_local.bind fun length => position_local.bind fun _ =>
    (skip_local length.toNat).bind fun _ => pure_local _

lemma step_local (t : Tag) (s : RoutingSection) : (step t s).Local := by
  rw [step]
  split
  · exact string_local.bind fun _ => pure_local _
  · exact Rule.decoder_local.bind fun _ => pure_local _
  · exact Box.readRoot_local.bind fun _ => pure_local _
  · exact Box.readRoot_local.bind fun _ => pure_local _
  · exact readRegion_local.bind fun _ => pure_local _
  · exact readRegion_local.bind fun _ => pure_local _
  · exact remaining_local.bind fun rest => (skip_local rest).bind fun _ => pure_local _
  · exact (skipField_local t).bind fun _ => pure_local _

lemma decoder_local (s : RoutingSection) : (decoder s).Local := fields_local step_local

end RoutingSection

/-! ### Data blocks -/

namespace RoadRecord

lemma pointStep_local (lead : UInt32) (state : (Int × Int) × Array Point) :
    (pointStep lead state).Local :=
  sint32_local.bind fun _ => (ofExcept_local _).bind fun _ => pure_local _

lemma readPoints_local (base : Point) (points : Array Point) : (readPoints base points).Local :=
  ((entries_local pointStep_local).map Prod.snd).sized

lemma pointTypesStep_local (index : UInt32) (types : SortedMap UInt32 (Array UInt32)) :
    (pointTypesStep index types).Local :=
  packed_local.bind fun _ => pure_local _

lemma step_local (base : Point) (t : Tag) (r : RoadRecord) : (step base t r).Local := by
  rw [step]
  split
  · exact (readPoints_local _ _).bind fun _ => pure_local _
  · exact (entries_local pointTypesStep_local).sized.bind fun _ => pure_local _
  · exact packed_local.bind fun _ => pure_local _
  · exact packed_local.bind fun _ => pure_local _
  · exact varint_local.bind fun _ => pure_local _
  · refine (Local.sized (entries_local fun index names => ?_)).bind fun _ => pure_local _
    exact varint32_local.bind fun _ => varint32_local.bind fun _ => pure_local _
  · refine (Local.sized (entries_local fun tag names => ?_)).bind fun _ => pure_local _
    exact varint32_local.bind fun _ => pure_local _
  · exact (skipField_local t).bind fun _ => pure_local _

lemma decoder_local (base : Point) : (decoder base).Local := (fields_local (step_local base)).sized

end RoadRecord

namespace RestrictionRecord

lemma step_local (t : Tag) (r : RestrictionRecord) : (step t r).Local := by
  rw [step]
  split
  · exact varint32_local.bind fun _ => pure_local _
  · exact varint32_local.bind fun _ => pure_local _
  · exact varint32_local.bind fun _ => pure_local _
  · exact (skipField_local t).bind fun _ => pure_local _

lemma decoder_local : decoder.Local := (fields_local step_local).sized

end RestrictionRecord

namespace BlockTables

lemma idStep_local (t : Tag) (state : Int64 × Array Int64) : (idStep t state).Local := by
  rw [idStep]
  split
  · exact sint64_local.bind fun _ => pure_local _
  · exact (skipField_local t).bind fun _ => pure_local _

lemma readIds_local : readIds.Local := ((fields_local idStep_local).map Prod.snd).sized

lemma step_local (t : Tag) (tables : BlockTables) : (step t tables).Local := by
  rw [step]
  split
  · exact readIds_local.bind fun _ => pure_local _
  · exact RestrictionRecord.decoder_local.bind fun _ => pure_local _
  · exact stringTable_local.bind fun _ => pure_local _
  · exact (skipField_local t).bind fun _ => pure_local _

lemma decoder_local : decoder.Local := fields_local step_local

end BlockTables

lemma Block.decoder_local (base : Point) : (Block.decoder base).Local := by
  refine fields_local fun t b => ?_
  rw [step]
  split
  · exact (RoadRecord.decoder_local base).bind fun _ => pure_local _
  · exact (BlockTables.step_local t _).bind fun _ => pure_local _

/-! ### Where boxes lie -/

namespace Box

lemma preorderAll_append (bs more : List Box) :
    preorderAll (bs ++ more) = preorderAll bs ++ preorderAll more := by
  induction bs with
  | nil => rfl
  | cons b rest ih => rw [List.cons_append, preorderAll, preorderAll, ih, List.append_assoc]

lemma mem_preorderAll_iff {d : Box} {bs : List Box} :
    d ∈ preorderAll bs ↔ ∃ b ∈ bs, d ∈ b.preorder := by
  induction bs with
  | nil => simp [preorderAll]
  | cons b rest ih => simp [preorderAll, ih]

/-- The box and all its descendants lie at or behind a position. -/
def Behind (lo : ℕ) (b : Box) : Prop := ∀ d ∈ b.preorder, lo ≤ d.offset

lemma behind_iff {lo : ℕ} {b : Box} :
    b.Behind lo ↔ lo ≤ b.offset ∧ ∀ d ∈ preorderAll b.children, lo ≤ d.offset := by
  obtain ⟨area, offset, length, shift, children⟩ := b
  rw [Behind, preorder, List.forall_mem_cons]

lemma behind_leaf {lo offset length : ℕ} {area : Area} (h : lo ≤ offset) :
    Behind lo { area, offset, length } :=
  behind_iff.mpr ⟨h, fun _ none => nomatch none⟩

lemma Behind.addChild {lo : ℕ} {b child : Box} (h : b.Behind lo) (h' : child.Behind lo) :
    Behind lo { b with children := b.children ++ [child] } := by
  obtain ⟨own, children⟩ := behind_iff.mp h
  refine behind_iff.mpr ⟨own, ?_⟩
  rw [preorderAll_append, List.forall_mem_append]
  refine ⟨children, ?_⟩
  rwa [preorderAll, preorderAll, List.append_nil]

/-- A field other than a child leaves a box where it is, with its children. -/
lemma step_done {base : Area} {t : Tag} {b b' : Box} {data : ByteArray} {c next : Cursor}
    {reach : c.Reaches next} (h : (step base t b).run data c = .done b' next reach) :
    b'.offset = b.offset ∧ b'.children = b.children := by
  rw [step] at h
  split at h
  all_goals
    obtain ⟨_, -, rfl⟩ := bind_pure_done h
    exact ⟨rfl, rfl⟩

/-- A box that is read from behind a position lies behind it. -/
lemma decoder_behind {lo : ℕ} {data : ByteArray} {base : Area} {b b' : Box} {c next : Cursor}
    {reach : c.Reaches next} (h : (decoder base b).run data c = .done b' next reach)
    (behind : lo ≤ c.position) (hb : b.Behind lo) : b'.Behind lo := by
  induction left : c.remaining using Nat.strong_induction_on generalizing base b b' c next with
  | _ left ih =>
    subst left
    rw [decoder_eq] at h
    refine (folds_of_run h).ensures (fun t b₁ c₁ b₂ c₂ reach₁ before hb₁ payload => ?_) hb
    split at payload
    · obtain ⟨length, c₃, r₃, _, head, payload⟩ := bind_done payload
      obtain ⟨_, _, _, _, ⟨⟩, payload⟩ := bind_done payload
      obtain ⟨child, region, rfl⟩ := bind_pure_done payload
      obtain ⟨inside, c₄, r₄, run, -⟩ := within_done region
      have here : lo ≤ c₃.position := behind.trans (before.reaches.trans r₃).position_le
      have smaller := (before.trans_reaches r₃).nested_remaining_lt inside
      exact hb₁.addChild (ih _ smaller run here (behind_leaf here) rfl)
    · obtain ⟨offset, children⟩ := step_done payload
      rw [behind_iff, offset, children]
      exact behind_iff.mp hb₁

lemma readRoot_behind {lo : ℕ} {data : ByteArray} {b : Box} {c next : Cursor}
    {reach : c.Reaches next} (h : readRoot.run data c = .done b next reach)
    (behind : lo ≤ c.position) : b.Behind lo := by
  obtain ⟨length, c₁, r₁, _, head, h⟩ := bind_done h
  obtain ⟨_, _, _, _, ⟨⟩, h⟩ := bind_done h
  obtain ⟨-, c₂, r₂, run, -⟩ := within_done h
  have here : lo ≤ c₁.position := behind.trans r₁.position_le
  exact decoder_behind run here (behind_leaf here)

end Box

namespace RoutingSection

/-- The section is at a place, and all its boxes and its border box lie at or behind its first
byte. -/
structure LiesAt (offset length : ℕ) (s : RoutingSection) : Prop where
  offset_eq : s.offset = offset
  length_eq : s.length = length
  boxes : ∀ b ∈ s.boxes.toList, b.Behind offset
  basemap : ∀ b ∈ s.basemap.toList, b.Behind offset
  border : ∀ region, s.border = some region → offset ≤ region.offset

/-- A block that is passed over lies behind the cursor. -/
lemma readRegion_behind {data : ByteArray} {c next : Cursor} {region : Region}
    {reach : c.Reaches next} (h : readRegion.run data c = .done region next reach) :
    c.position ≤ region.offset := by
  obtain ⟨_, _, r, _, -, h⟩ := bind_done h
  obtain ⟨_, _, _, _, ⟨⟩, h⟩ := bind_done h
  obtain ⟨_, -, rfl⟩ := bind_pure_done h
  exact r.position_le

lemma decoder_liesAt {s s' : RoutingSection} {data : ByteArray} {c next : Cursor}
    {reach : c.Reaches next} (h : (decoder s).run data c = .done s' next reach)
    (hs : s.LiesAt c.position s.length) : s'.LiesAt c.position s.length := by
  refine (folds_of_run h).ensures (fun t s₁ c₁ s₂ c₂ reach₁ before hs₁ payload => ?_) hs
  rw [step] at payload
  split at payload
  case h_3 =>
    obtain ⟨b, root, rfl⟩ := bind_pure_done payload
    have new := Box.readRoot_behind root before.reaches.position_le
    refine { hs₁ with boxes := ?_ }
    rw [Array.toList_push, List.forall_mem_append]
    exact ⟨hs₁.boxes, by simpa using new⟩
  case h_4 =>
    obtain ⟨b, root, rfl⟩ := bind_pure_done payload
    have new := Box.readRoot_behind root before.reaches.position_le
    refine { hs₁ with basemap := ?_ }
    rw [Array.toList_push, List.forall_mem_append]
    exact ⟨hs₁.basemap, by simpa using new⟩
  case h_5 =>
    obtain ⟨region, border, rfl⟩ := bind_pure_done payload
    refine { hs₁ with border := ?_ }
    rintro _ ⟨⟩
    exact before.reaches.position_le.trans (readRegion_behind border)
  case h_7 =>
    obtain ⟨_, _, _, _, -, payload⟩ := bind_done payload
    obtain ⟨_, -, rfl⟩ := bind_pure_done payload
    exact hs₁
  all_goals
    obtain ⟨_, -, rfl⟩ := bind_pure_done payload
    exact { hs₁ with }

/-! ### Data blocks of a section -/

variable {s : RoutingSection} {b : Box} {data data' : ByteArray}

lemma blockCursor_congr (size : data'.size = data.size) (s : RoutingSection) (b : Box) :
    s.blockCursor b data' = s.blockCursor b data := by
  simp only [blockCursor, cursor, Cursor.region_congr size, Cursor.seek, overrun_eq size]

/-- A data block is read behind its box, up to the end of the section. -/
lemma blockCursor_ok {c : Cursor} (h : s.blockCursor b data = .ok c) :
    b.offset ≤ c.position ∧ c.limit = s.offset + s.length := by
  rw [blockCursor, Box.dataPosition?] at h
  split at h
  · cases h
  next position found =>
    split at found
    · cases found
    · cases found
      cases inside : s.cursor data with
      | error cause =>
        rw [inside] at h
        cases h
      | ok whole =>
        obtain ⟨-, rfl⟩ := Cursor.region_eq_ok_iff.mp inside
        rw [inside] at h
        simp only [bind, Except.bind, Cursor.seek] at h
        split at h
        · cases h
        · cases h
          exact ⟨Nat.le_add_right _ _, rfl⟩

/-- Where the data block of a box is in a section that the box lies in, the bytes of the section are
read. -/
lemma evalBlock_eq {α : Type} {x : Decoder α} (hx : x.Local)
    (agree : AgreeOn data data' s.offset (s.offset + s.length)) (behind : s.offset ≤ b.offset) :
    (s.blockCursor b data' >>= fun c => x.eval data' c) =
      s.blockCursor b data >>= fun c => x.eval data c := by
  rw [blockCursor_congr agree.size_eq]
  cases found : s.blockCursor b data with
  | error cause => rfl
  | ok c =>
    obtain ⟨lower, upper⟩ := blockCursor_ok found
    exact congrArg Outcome.toExcept ((hx c).run_eq (agree.mono (behind.trans lower) upper.le))

/-- The data block of a box that lies in a section is decoded from the bytes of the section. -/
lemma decodeBlock_eq {α : Type} {x : Decoder α} (hx : x.Local)
    (agree : AgreeOn data data' s.offset (s.offset + s.length)) (behind : s.offset ≤ b.offset) :
    s.decodeBlock b x data' = s.decodeBlock b x data :=
  evalBlock_eq hx.sized agree behind

end RoutingSection

end RoadAtlas
