import RoadAtlas.Proofs.Network.Access
import RoadAtlas.Proofs.Pool

/-!
Roads of an area. A query enters a box only if the box intersects its area, and so leaves out what
lies below a box that does not. When every box covers its children, nothing that is left out
intersects the area either, so the query finds the boxes that looking at every box would find.

* `Area.Covers` and `Box.Tiered` say of areas and of box forests that edges lie within edges;
* `Box.intersectingAll_eq_filter`: what a query finds is what filtering all boxes finds;
* `Box.decoder_ascends`: boxes are read in file order, each at a place of its own;
* `RoutingSection.loadRoads_eq_filtered`: loading an area is loading its boxes, whatever the pool.
-/

namespace RoadAtlas

open Decoder

/-! ### Areas in areas -/

namespace Area

/-- The edges of an area lie within those of another one. -/
structure Covers (a b : Area) : Prop where
  left : a.left ≤ b.left
  right : b.right ≤ a.right
  top : a.top ≤ b.top
  bottom : b.bottom ≤ a.bottom

instance (a b : Area) : Decidable (a.Covers b) :=
  decidable_of_iff (a.left ≤ b.left ∧ b.right ≤ a.right ∧ a.top ≤ b.top ∧ b.bottom ≤ a.bottom)
    ⟨fun ⟨left, right, top, bottom⟩ => ⟨left, right, top, bottom⟩,
      fun h => ⟨h.left, h.right, h.top, h.bottom⟩⟩

variable {a b c : Area}

lemma Covers.refl (a : Area) : a.Covers a :=
  ⟨UInt32.le_refl _, UInt32.le_refl _, UInt32.le_refl _, UInt32.le_refl _⟩

lemma Covers.trans (h : a.Covers b) (h' : b.Covers c) : a.Covers c where
  left := UInt32.le_trans h.left h'.left
  right := UInt32.le_trans h'.right h.right
  top := UInt32.le_trans h.top h'.top
  bottom := UInt32.le_trans h'.bottom h.bottom

/-- What an area in another one intersects, the other one does too, also where `query` has its edges
the wrong way round. -/
lemma Covers.intersects {query : Area} (h : a.Covers b) (meets : b.intersects query = true) :
    a.intersects query = true := by
  simp only [Area.intersects, Bool.and_eq_true, decide_eq_true_eq] at meets ⊢
  obtain ⟨⟨⟨left, right⟩, top⟩, bottom⟩ := meets
  exact ⟨⟨⟨UInt32.le_trans h.left left, UInt32.le_trans right h.right⟩,
    UInt32.le_trans h.top top⟩, UInt32.le_trans bottom h.bottom⟩

end Area

/-! ### Boxes of a query -/

namespace Box

/-- Every box of a forest covers its children. -/
def Tiered (bs : List Box) : Prop :=
  ∀ b ∈ preorderAll bs, ∀ child ∈ b.children, b.area.Covers child.area

instance (bs : List Box) : Decidable (Tiered bs) :=
  inferInstanceAs (Decidable (∀ b ∈ preorderAll bs, ∀ child ∈ b.children,
    b.area.Covers child.area))

/-- The box has a data block and intersects an area. -/
def isWanted (query : Area) (b : Box) : Bool := b.hasData && b.area.intersects query

lemma tiered_cons {b : Box} {bs : List Box} : Tiered (b :: bs) ↔
    (∀ child ∈ b.children, b.area.Covers child.area) ∧ Tiered b.children ∧ Tiered bs := by
  obtain ⟨area, offset, length, shift, children⟩ := b
  simp only [Tiered, preorderAll, preorder, List.cons_append, List.forall_mem_cons,
    List.forall_mem_append]

mutual

/-- A box covers all boxes below it. -/
lemma covers_of_mem_preorder {d : Box} : ∀ {b : Box}, Tiered [b] → d ∈ b.preorder →
    b.area.Covers d.area
  | ⟨area, offset, length, shift, children⟩, tiered, h => by
    obtain ⟨own, below, -⟩ := tiered_cons.mp tiered
    rw [preorder] at h
    rcases List.mem_cons.mp h with rfl | deeper
    · exact .refl area
    · exact covers_of_mem_preorderAll own below deeper

lemma covers_of_mem_preorderAll {a : Area} {d : Box} : ∀ {bs : List Box},
    (∀ b ∈ bs, a.Covers b.area) → Tiered bs → d ∈ preorderAll bs → a.Covers d.area
  | [], _, _, h => nomatch h
  | b :: rest, covered, tiered, h => by
    rw [List.forall_mem_cons] at covered
    obtain ⟨own, below, later⟩ := tiered_cons.mp tiered
    rw [preorderAll] at h
    rcases List.mem_append.mp h with first | behind
    · exact covered.1.trans (covers_of_mem_preorder (tiered_cons.mpr ⟨own, below, nofun⟩) first)
    · exact covers_of_mem_preorderAll covered.2 later behind

end

mutual

/-- Where boxes cover their children, no box is left out that a query wants. -/
lemma intersecting_eq_filter (query : Area) : ∀ {b : Box}, Tiered [b] →
    b.intersecting query = b.preorder.filter (isWanted query)
  | ⟨area, offset, length, shift, children⟩, tiered => by
    obtain ⟨own, below, -⟩ := tiered_cons.mp tiered
    rw [intersecting, preorder, List.filter_cons]
    by_cases meets : area.intersects query = true
    · simp only [meets, ↓reduceIte, isWanted, Bool.and_true,
        intersectingAll_eq_filter query below]
      split <;> rfl
    · -- whatever lies below would have to intersect the area too
      have none : ∀ d ∈ preorderAll children, ¬ isWanted query d = true := by
        intro d hd wanted
        have covers := covers_of_mem_preorderAll own below hd
        exact meets (covers.intersects (Bool.and_eq_true_iff.mp wanted).2)
      simp only [meets, Bool.false_eq_true, ↓reduceIte, isWanted, Bool.and_false]
      exact (List.filter_eq_nil_iff.mpr none).symm

lemma intersectingAll_eq_filter (query : Area) : ∀ {bs : List Box}, Tiered bs →
    intersectingAll query bs = (preorderAll bs).filter (isWanted query)
  | [], _ => rfl
  | b :: rest, tiered => by
    obtain ⟨own, below, later⟩ := tiered_cons.mp tiered
    rw [intersectingAll, preorderAll, List.filter_append,
      intersecting_eq_filter query (tiered_cons.mpr ⟨own, below, nofun⟩),
      intersectingAll_eq_filter query later]

end

end Box

/-! ### Boxes in file order -/

/-- Positions that ascend, each one after the one before it, up to a last one at most. -/
def AscendTo (last : ℕ) (positions : List ℕ) : Prop :=
  positions.Pairwise (· < ·) ∧ ∀ p ∈ positions, p ≤ last

namespace AscendTo

variable {last last' : ℕ} {positions more : List ℕ}

lemma mono (h : AscendTo last positions) (behind : last ≤ last') : AscendTo last' positions :=
  ⟨h.1, fun p hp => (h.2 p hp).trans behind⟩

lemma append (h : AscendTo last positions) (h' : AscendTo last' more)
    (behind : ∀ p ∈ more, last < p) (onward : last ≤ last') :
    AscendTo last' (positions ++ more) := by
  refine ⟨List.pairwise_append.mpr ⟨h.1, h'.1, fun p hp q hq => ?_⟩, ?_⟩
  · exact Nat.lt_of_le_of_lt (h.2 p hp) (behind q hq)
  · exact List.forall_mem_append.mpr ⟨(h.mono onward).2, h'.2⟩

end AscendTo

namespace Box

/-- Where a box and its descendants start. -/
def positions (b : Box) : List ℕ := b.preorder.map offset

/-- Where some boxes and their descendants start. -/
def positionsAll (bs : List Box) : List ℕ := (preorderAll bs).map offset

lemma positions_eq (b : Box) : b.positions = b.offset :: positionsAll b.children := by
  obtain ⟨area, offset, length, shift, children⟩ := b
  rw [positions, preorder, List.map_cons, positionsAll]

lemma positionsAll_concat (bs : List Box) (b : Box) :
    positionsAll (bs ++ [b]) = positionsAll bs ++ b.positions := by
  rw [positionsAll, preorderAll_append, List.map_append, preorderAll, preorderAll, List.append_nil,
    positionsAll, positions]

lemma positions_addChild (b child : Box) :
    positions { b with children := b.children ++ [child] } = b.positions ++ child.positions := by
  rw [positions_eq, positionsAll_concat, positions_eq b, List.cons_append]

lemma ascendTo_leaf {area : Area} {length : ℕ} (offset : ℕ) :
    AscendTo offset (positions { area, offset, length }) := by
  rw [positions_eq, positionsAll, preorderAll, List.map_nil]
  exact ⟨List.pairwise_singleton _ _, fun p hp => (List.mem_singleton.mp hp).le⟩

lemma Behind.le_of_mem_positions {lo p : ℕ} {b : Box} (h : b.Behind lo) (hp : p ∈ b.positions) :
    lo ≤ p := by
  obtain ⟨d, hd, rfl⟩ := List.mem_map.mp hp
  exact h d hd

variable {data : ByteArray} {base : Area} {b b' : Box} {c next : Cursor} {reach : c.Reaches next}

/-- A box that is read has its descendants behind each other, all in front of what follows it. -/
lemma decoder_ascends (h : (decoder base b).run data c = .done b' next reach)
    (ascends : AscendTo c.position b.positions) : AscendTo next.position b'.positions := by
  induction left : c.remaining using Nat.strong_induction_on generalizing base b b' c next with
  | _ left ih =>
    subst left
    rw [decoder_eq] at h
    have folded : c.Reaches next ∧ AscendTo next.position b'.positions := by
      refine (folds_of_run h).ensuresAt
        (P := fun c₀ b => c.Reaches c₀ ∧ AscendTo c₀.position b.positions) ?_ ?_
        ⟨.refl c, ascends⟩
      · exact fun _ _ _ onward here => ⟨here.1.trans onward, here.2.mono onward.position_le⟩
      · intro t b₁ c₀ c₁ b₂ c₂ reach₁ before here payload
        obtain ⟨along, known⟩ := here
        have before' := along.trans_precedes before
        refine ⟨before'.reaches.trans reach₁, ?_⟩
        split at payload
        · obtain ⟨length, c₃, r₃, _, head, payload⟩ := bind_done payload
          obtain ⟨_, _, _, _, ⟨⟩, payload⟩ := bind_done payload
          obtain ⟨child, region, rfl⟩ := bind_pure_done payload
          obtain ⟨inside, c₄, r₄, run, stops⟩ := within_done region
          have smaller := (before'.trans_reaches r₃).nested_remaining_lt inside
          have own := ih _ smaller run (ascendTo_leaf _) rfl
          have behind := decoder_behind run (Nat.le_refl _) (behind_leaf (Nat.le_refl _))
          -- the tag and the length of the child stand between what came before and the child
          have apart : c₀.position < c₃.position :=
            Nat.lt_of_lt_of_le before.position_lt r₃.position_le
          rw [← stops] at own
          rw [positions_addChild]
          exact known.append own
            (fun p hp => Nat.lt_of_lt_of_le apart (behind.le_of_mem_positions hp))
            (before.reaches.trans reach₁).position_le
        · obtain ⟨offset, children⟩ := step_done payload
          rw [positions_eq, offset, children, ← positions_eq]
          exact known.mono (before.reaches.trans reach₁).position_le
    exact folded.2

/-- A root that is read lies behind the cursor, and its descendants in front of what follows it. -/
lemma readRoot_ascends (h : readRoot.run data c = .done b next reach) :
    AscendTo next.position b.positions := by
  obtain ⟨length, c₁, r₁, _, head, h⟩ := bind_done h
  obtain ⟨_, _, _, _, ⟨⟩, h⟩ := bind_done h
  obtain ⟨-, c₂, r₂, run, stops⟩ := within_done h
  rw [stops]
  exact decoder_ascends run (ascendTo_leaf _)

end Box

namespace RoutingSection

/-- A field other than a box for detailed roads leaves these boxes as they are. -/
lemma step_boxes {t : Tag} {s s' : RoutingSection} {data : ByteArray} {c next : Cursor}
    {reach : c.Reaches next} (h : (step t s).run data c = .done s' next reach) :
    s'.boxes = s.boxes ∨
      ∃ root, Box.readRoot.run data c = .done root next reach ∧ s'.boxes = s.boxes.push root := by
  rw [step] at h
  split at h
  case h_3 =>
    obtain ⟨root, read, rfl⟩ := bind_pure_done h
    exact .inr ⟨root, read, rfl⟩
  case h_7 =>
    obtain ⟨_, _, _, _, ⟨⟩, h⟩ := bind_done h
    obtain ⟨_, -, rfl⟩ := bind_pure_done h
    exact .inl rfl
  all_goals
    obtain ⟨_, -, rfl⟩ := bind_pure_done h
    exact .inl rfl

/-- The boxes of a section are read in file order. -/
lemma decoder_ascends {s s' : RoutingSection} {data : ByteArray} {c next : Cursor}
    {reach : c.Reaches next} (h : (decoder s).run data c = .done s' next reach)
    (ascends : AscendTo c.position (Box.positionsAll s.boxes.toList)) :
    AscendTo next.position (Box.positionsAll s'.boxes.toList) := by
  refine (folds_of_run h).ensuresAt
    (P := fun c s => AscendTo c.position (Box.positionsAll s.boxes.toList)) ?_ ?_ ascends
  · exact fun _ _ _ onward here => here.mono onward.position_le
  · intro t s₁ c₀ c₁ s₂ c₂ reach₁ before known payload
    have onward := (before.reaches.trans reach₁).position_le
    rcases step_boxes payload with same | ⟨root, read, pushed⟩
    · rw [same]
      exact known.mono onward
    · have behind := Box.readRoot_behind read (Nat.le_refl _)
      rw [pushed, Array.toList_push, Box.positionsAll_concat]
      exact known.append (Box.readRoot_ascends read)
        (fun p hp => Nat.lt_of_lt_of_le before.position_lt (behind.le_of_mem_positions hp)) onward

/-- No two boxes of a section that is read start at one place, and each comes in front of those
behind it in the file. -/
lemma pairwise_preorderAll {id : ℕ} {entry : SectionEntry} {data : ByteArray} {s : RoutingSection}
    (found : read id entry data = .ok s) :
    (Box.preorderAll s.boxes.toList).Pairwise fun b b' => b.offset < b'.offset := by
  obtain ⟨-, -, decoded⟩ := SectionEntry.decode_eq_ok_iff.mp found
  obtain ⟨next, reach, run⟩ := eval_eq_ok_iff.mp decoded
  have ascends := decoder_ascends run ⟨List.Pairwise.nil, nofun⟩
  exact List.pairwise_map.mp ascends.1

end RoutingSection

/-! ### Loading -/

namespace RoutingSection

variable {s : RoutingSection} {data : ByteArray} {query : Area}

/-- The boxes for detailed roads with a data block that intersect an area, in file order. -/
def wantedBoxes (s : RoutingSection) (query : Area) : List Box :=
  (Box.preorderAll s.boxes.toList).filter (Box.isWanted query)

/-- Loading an area is loading the boxes that it wants. -/
lemma loadRoads_eq (tiered : Box.Tiered s.boxes.toList) (pool : Pool ContainerError) :
    s.loadRoads query false data pool =
      List.flatten <$> pool.collect ((s.wantedBoxes query).map fun b => s.loadBlock b data) := by
  rw [loadRoads, areaTasks, Box.intersectingAll_eq_filter query tiered, wantedBoxes]
  rfl

/-- The roads of an area are the roads of all boxes that have a data block and intersect the area,
box after box in file order: they are loaded if the roads of every such box are. Otherwise loading
fails as it does for one of these boxes, and with a single worker for the first one whose roads
cannot be loaded. -/
theorem loadRoads_eq_filtered {id : ℕ} {entry : SectionEntry} (found : read id entry data = .ok s)
    (tiered : Box.Tiered s.boxes.toList) (query : Area) (pool : Pool ContainerError) :
    ((s.wantedBoxes query).Pairwise fun b b' => b.offset < b'.offset) ∧
      ((∃ roads, s.loadRoads query false data pool = .ok roads) ↔
        ∀ b ∈ s.wantedBoxes query, ∃ roads, s.loadBlock b data = .ok roads) ∧
      (∀ roads, s.loadRoads query false data pool = .ok roads ↔
        ∃ groups, List.Forall₂ (fun b group => s.loadBlock b data = .ok group)
          (s.wantedBoxes query) groups ∧ groups.flatten = roads) ∧
      (∀ cause, s.loadRoads query false data pool = .error cause →
        ∃ b ∈ s.wantedBoxes query, s.loadBlock b data = .error cause) ∧
      (pool.workers = 1 → ∀ cause, s.loadRoads query false data pool = .error cause ↔
        ∃ before b after, s.wantedBoxes query = before ++ b :: after ∧
          (∀ a ∈ before, ∃ roads, s.loadBlock a data = .ok roads) ∧
          s.loadBlock b data = .error cause) := by
  refine ⟨(pairwise_preorderAll found).filter _, ?_, fun roads => ?_, fun cause failed => ?_,
    fun alone cause => ?_⟩
  · rw [loadRoads_eq tiered, exists_map_eq_ok_iff, Pool.exists_collect_eq_ok_iff,
      List.forall_mem_map]
  · rw [loadRoads_eq tiered, map_eq_ok]
    simp only [Pool.collect_map_eq_ok_iff]
  · rw [loadRoads_eq tiered, map_eq_error] at failed
    obtain ⟨b, hb, fails⟩ := List.mem_map.mp (Pool.mem_of_collect_eq_error failed)
    exact ⟨b, hb, fails⟩
  · rw [loadRoads_eq tiered, map_eq_error, Pool.collect_map_of_single alone, mapM_eq_error_iff]

/-- A section behind a first byte of other data: a box with an empty block, and behind it a box in a
box, both with a block that starts with a tag of no wire type. -/
def twoBadBlocks : ByteArray :=
  [0, 0x1d, 0, 0, 0, 9, 0x10, 100, 0x20, 100, 0x2d, 0, 0, 0, 36, 0x1d, 0, 0, 0, 21, 0x10, 100, 0x20,
    100, 0x2d, 0, 0, 0, 23, 0x3d, 0, 0, 0, 7, 0x08, 20, 0x2d, 0, 0, 0, 11, 0x2d, 0, 1, 0x0f, 1,
    0x0f].toByteArray

/-- Two queries with their left and right edges swapped. The first one intersects the outer one of
two boxes and not the inner one. The second one finds two bad blocks, of which a single worker
reports the first and two workers may report the second. -/
theorem loadRoads_eq_filtered_swappedEdges :
    (∃ s, read 4 ⟨.routing, "", 1, threeBlocks.write.length⟩ (0 :: threeBlocks.write).toByteArray =
        .ok s ∧
      (s.wantedBoxes ⟨2000, 100, 1500, 200⟩).map Box.area = [⟨0, 0, 4096, 4096⟩] ∧
      ∃ roads, s.loadRoads ⟨2000, 100, 1500, 200⟩ false (0 :: threeBlocks.write).toByteArray =
        .ok roads) ∧
    ∃ s, read 4 ⟨.routing, "", 1, 46⟩ twoBadBlocks = .ok s ∧
      s.loadRoads ⟨40, 0, 20, 60⟩ false twoBadBlocks .single =
        .error (.corruptSection "" 1 (.unknownWireType 1 7 45)) ∧
      (∃ before b after, s.wantedBoxes ⟨40, 0, 20, 60⟩ = before ++ b :: after ∧
        (∀ a ∈ before, ∃ roads, s.loadBlock a twoBadBlocks = .ok roads) ∧
        s.loadBlock b twoBadBlocks = .error (.corruptSection "" 1 (.unknownWireType 1 7 45))) ∧
      s.loadRoads ⟨40, 0, 20, 60⟩ false twoBadBlocks (.preferring 2) =
        .error (.corruptSection "" 1 (.unknownWireType 1 7 47)) ∧
      ∃ b ∈ s.wantedBoxes ⟨40, 0, 20, 60⟩, s.loadBlock b twoBadBlocks =
        .error (.corruptSection "" 1 (.unknownWireType 1 7 47)) := by
  constructor
  · have reads : ∃ s ∈ (read 4 ⟨.routing, "", 1, threeBlocks.write.length⟩
        (0 :: threeBlocks.write).toByteArray).toOption, Box.Tiered s.boxes.toList ∧
          (s.wantedBoxes ⟨2000, 100, 1500, 200⟩).map Box.area = [⟨0, 0, 4096, 4096⟩] ∧
          ∀ b ∈ s.wantedBoxes ⟨2000, 100, 1500, 200⟩,
            (s.loadBlock b (0 :: threeBlocks.write).toByteArray).isOk := by decide +kernel
    obtain ⟨s, found, tiered, wanted, loads⟩ := reads
    have found := eq_ok_of_mem_toOption found
    obtain ⟨-, success, -⟩ := loadRoads_eq_filtered found tiered ⟨2000, 100, 1500, 200⟩ .single
    refine ⟨s, found, wanted, success.mpr fun b hb => ?_⟩
    have loaded := loads b hb
    cases block : s.loadBlock b (0 :: threeBlocks.write).toByteArray with
    | ok roads => exact ⟨roads, rfl⟩
    | error cause => simp [block, Except.isOk, Except.toBool] at loaded
  · have reads : ∃ s ∈ (read 4 ⟨.routing, "", 1, 46⟩ twoBadBlocks).toOption,
        Box.Tiered s.boxes.toList ∧
          List.length <$> s.loadRoads ⟨40, 0, 20, 60⟩ false twoBadBlocks .single =
            .error (.corruptSection "" 1 (.unknownWireType 1 7 45)) ∧
          List.length <$> s.loadRoads ⟨40, 0, 20, 60⟩ false twoBadBlocks (.preferring 2) =
            .error (.corruptSection "" 1 (.unknownWireType 1 7 47)) := by decide +kernel
    obtain ⟨s, found, tiered, first, later⟩ := reads
    have found := eq_ok_of_mem_toOption found
    obtain ⟨-, -, -, -, ofSingle⟩ := loadRoads_eq_filtered found tiered ⟨40, 0, 20, 60⟩ .single
    obtain ⟨-, -, -, ofTwo, -⟩ :=
      loadRoads_eq_filtered found tiered ⟨40, 0, 20, 60⟩ (.preferring 2)
    have first := map_eq_error.mp first
    have later := map_eq_error.mp later
    exact ⟨s, found, first, (ofSingle rfl _).mp first, later, ofTwo _ later⟩

/-- With two workers, loading may fail as for the second one of the bad blocks. -/
theorem loadRoads_reports_laterBlock :
    ∃ s, read 4 ⟨.routing, "", 1, 46⟩ twoBadBlocks = .ok s ∧ Box.Tiered s.boxes.toList ∧
      (s.wantedBoxes ⟨40, 0, 20, 60⟩).map (fun b => List.length <$> s.loadBlock b twoBadBlocks) =
        [.ok 0, .error (.corruptSection "" 1 (.unknownWireType 1 7 45)),
          .error (.corruptSection "" 1 (.unknownWireType 1 7 47))] ∧
      s.loadRoads ⟨40, 0, 20, 60⟩ false twoBadBlocks (.preferring 2) =
        .error (.corruptSection "" 1 (.unknownWireType 1 7 47)) := by
  have reads : ∃ s ∈ (read 4 ⟨.routing, "", 1, 46⟩ twoBadBlocks).toOption,
      Box.Tiered s.boxes.toList ∧
      (s.wantedBoxes ⟨40, 0, 20, 60⟩).map (fun b => List.length <$> s.loadBlock b twoBadBlocks) =
        [.ok 0, .error (.corruptSection "" 1 (.unknownWireType 1 7 45)),
          .error (.corruptSection "" 1 (.unknownWireType 1 7 47))] ∧
      List.length <$> s.loadRoads ⟨40, 0, 20, 60⟩ false twoBadBlocks (.preferring 2) =
        .error (.corruptSection "" 1 (.unknownWireType 1 7 47)) := by decide +kernel
  obtain ⟨s, found, tiered, blocks, later⟩ := reads
  exact ⟨s, eq_ok_of_mem_toOption found, tiered, blocks, map_eq_error.mp later⟩

end RoutingSection

end RoadAtlas
