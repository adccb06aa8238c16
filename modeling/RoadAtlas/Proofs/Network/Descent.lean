import RoadAtlas.Proofs.Network.Box
import RoadAtlas.Proofs.Network.Locality
import RoadAtlas.Proofs.Wire.Consumption

/-!
The descent into the boxes of a box. A box is entered behind its number and its length, and its
region is smaller than what was left in front of them. So there are no more levels of boxes than a
region has bytes, and a box tree has no more boxes than bytes.

* `Box.Announces`: a box is announced at a cursor, and a region is its own;
* `Box.decoderTo`: the boxes of so many levels, and `decoderTo_eq`: what lies deeper does not matter;
* `Box.Descends` says both of a box;
* `Box.decoder_paysAt`: a box tree is paid for by the bytes that it is read from.
-/

namespace RoadAtlas

open Decoder

namespace Box

variable {data : ByteArray} {c c' inner : Cursor} {base : Area} {b : Box}

/-! ### Levels -/

/-- The number of a child stands at a cursor, then a length, and behind it the region of the child,
for which there is room. -/
def Announces (data : ByteArray) (c inner : Cursor) : Prop :=
  ∃ lead c₁ length c₂, (varint32.run data c).Ends lead c₁ ∧
    (Tag.ofWord lead).field = Format.Box.child ∧ (be32.run data c₁).Ends length c₂ ∧
    c₂.position + length.toNat ≤ c₂.limit ∧
    inner = ⟨c₂.position, c₂.position + length.toNat⟩

lemma Announces.remaining_lt (announces : Announces data c inner) :
    inner.remaining < c.remaining := by
  obtain ⟨lead, c₁, length, c₂, ⟨_, head⟩, -, ⟨reach, -⟩, room, rfl⟩ := announces
  exact ((varint32_precedes head).trans_reaches reach).nested_remaining_lt (Nat.not_lt_of_le room)

/-- Reads a box and so many levels of boxes below it. Boxes that lie deeper are read by `deeper`. -/
def decoderTo (deeper : Area → Box → Decoder Box) : ℕ → Area → Box → Decoder Box
  | 0, base, b => deeper base b
  | levels + 1, base, b => fields b fun t b =>
      if t.field = Format.Box.child then childStep b (decoderTo deeper levels b.area)
      else step base t b

/-- To read a child, no more is needed than readers of regions smaller than what was left in front
of it. -/
lemma childStep_run_congr {read read' : Box → Decoder Box} (before : c.Precedes c')
    (same : ∀ child inner, inner.remaining < c.remaining →
      (read child).run data inner = (read' child).run data inner) :
    (childStep b read).run data c' = (childStep b read').run data c' := by
  rw [childStep, childStep]
  refine run_bind_congr fun length c₁ reach _ => run_bind_congr fun offset c₂ _ here => ?_
  cases here
  have entered (child : Box) :
      (within length.toNat (read child)).run data c₁ =
        (within length.toNat (read' child)).run data c₁ := by
    simp only [within]
    split
    next => rfl
    next room => rw [same child _ ((before.trans_reaches reach).nested_remaining_lt room)]
  rw [run_bind, run_bind, entered]

/-- There are no more levels than bytes: what would be done below does not matter. -/
lemma decoderTo_eq (deeper : Area → Box → Decoder Box) {levels : ℕ} (enough : c.remaining < levels) :
    (decoderTo deeper levels base b).run data c = (decoder base b).run data c := by
  induction levels generalizing base b c with
  | zero => exact absurd enough (Nat.not_lt_zero _)
  | succ levels ih =>
    rw [decoderTo, decoder_eq]
    refine run_fields_congr fun t b c' before => ?_
    split
    · exact childStep_run_congr before fun child inner smaller =>
        ih (Nat.lt_of_lt_of_le smaller (Nat.le_of_lt_succ enough))
    · rfl

/-- A box is read by a descent that comes to its end. -/
structure Descends (data : ByteArray) (base : Area) (b : Box) (c : Cursor) : Prop where
  /-- A child is entered with fewer bytes than were left in front of it. -/
  smaller : ∀ n c₁ b₁ inner,
    RoundsTo endsMessage (byTag (fullStep base)) data c b n c₁ b₁ → Announces data c₁ inner →
      inner.remaining < c₁.remaining ∧ n + inner.remaining < c.remaining
  /-- With more levels than there are bytes, nothing is left to do below. -/
  levels : ∀ deeper levels, c.remaining < levels →
    (decoderTo deeper levels base b).run data c = (decoder base b).run data c

lemma descends (data : ByteArray) (base : Area) (b : Box) (c : Cursor) :
    b.Descends data base c where
  smaller n c₁ b₁ inner run announces := by
    have fewer := announces.remaining_lt
    have spent := run.add_remaining_le
    exact ⟨fewer, by omega⟩
  levels deeper _ enough := decoderTo_eq deeper enough

/-! ### Boxes -/

lemma length_preorder (b : Box) : b.preorder.length = 1 + (preorderAll b.children).length := by
  obtain ⟨area, offset, length, shift, children⟩ := b
  rw [preorder, List.length_cons, Nat.add_comm]

lemma length_preorder_addChild (b child : Box) :
    ({ b with children := b.children ++ [child] } : Box).preorder.length =
      b.preorder.length + child.preorder.length := by
  rw [length_preorder, length_preorder b, preorderAll_append, List.length_append, preorderAll,
    preorderAll, List.append_nil, Nat.add_assoc]

/-- Every box below a box is paid for by its number, and the box itself by what there was before. -/
lemma decoder_paysAt (base : Area) (b : Box) :
    (decoder base b).PaysAt data c b.preorder.length fun b => b.preorder.length := by
  induction left : c.remaining using Nat.strong_induction_on generalizing base b c with
  | _ left ih =>
    subst left
    rw [decoder_eq]
    refine fields_paysAt (fun t b c₁ before => ?_) b
    split
    · refine paysAt_behind fun length c₂ counted => paysAt_behind fun offset c₃ here => ?_
      obtain ⟨reach, -⟩ := counted
      obtain ⟨-, ⟨⟩⟩ := here
      -- a child weighs one box before it is read, for which its number pays
      let leaf : Box := { area := b.area, offset := c₂.position, length := length.toNat }
      have child : (within length.toNat (decoder b.area leaf)).PaysAt data c₂ leaf.preorder.length
          fun b => b.preorder.length := by
        refine PaysAt.within fun room => ih _ ?_ b.area leaf rfl
        exact (before.trans_reaches reach).nested_remaining_lt (Nat.not_lt_of_le room)
      exact (child.beside b.preorder.length).bind_pure fun child =>
        (length_preorder_addChild b child).le
    · refine paysAt_of_le fun b' next other => ?_
      obtain ⟨reach, done⟩ := other
      rw [length_preorder, (step_done done).2, ← length_preorder]
      exact Nat.le_succ _

lemma readRoot_paysAt : readRoot.PaysAt data c 1 fun b => b.preorder.length :=
  paysAt_behind fun length _ _ => paysAt_behind fun offset _ _ => PaysAt.within fun _ =>
    decoder_paysAt default { area := default, offset, length := length.toNat }

end Box

end RoadAtlas
