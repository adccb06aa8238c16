import RoadAtlas.Proofs.Wire.Lengths

/-!
Where decoding stops. A failure may leave bytes consumed, or a region narrowed that nobody gives
back, but it stops in the region that it was given, as a success does; and what is read in one piece
is consumed as a whole or not at all.

* `Cursor.Encloses`: a place inside the region of a cursor, or in a narrower one;
* `Decoder.Contained`: wherever decoding stops, it is at or behind its start and inside its region;
* `Contained.bind`, `Contained.within`, `fields_contained`, …: what is made of contained decoders is
  contained;
* `Decoder.StaysOnFailure`: decoders that consume everything or nothing.
-/

namespace RoadAtlas

/-! ### Places inside a region -/

namespace Cursor

/-- A place at or behind `c`, in the region of `c` or in a narrower one. -/
structure Encloses (c c' : Cursor) : Prop where
  position_le : c.position ≤ c'.position
  inside : c'.position ≤ c'.limit
  limit_le : c'.limit ≤ c.limit

lemma Encloses.refl {c : Cursor} (inside : c.position ≤ c.limit) : c.Encloses c :=
  ⟨le_rfl, inside, le_rfl⟩

lemma Encloses.trans {c c₁ c₂ : Cursor} (h : c.Encloses c₁) (h' : c₁.Encloses c₂) :
    c.Encloses c₂ :=
  ⟨h.position_le.trans h'.position_le, h'.inside, h'.limit_le.trans h.limit_le⟩

end Cursor

namespace Decoder

variable {α β σ : Type} {data : ByteArray} {c : Cursor}

/-- From a place in its region, the decoder stops in that region. -/
def ContainedAt (x : Decoder α) (data : ByteArray) (c : Cursor) : Prop :=
  c.position ≤ c.limit → c.Encloses (x.run data c).cursor

/-- Wherever the decoder stops, it has not left its region. -/
def Contained (x : Decoder α) : Prop := ∀ data c, x.ContainedAt data c

lemma pure_contained (a : α) : (pure a : Decoder α).Contained := fun _ _ => .refl

lemma fail_contained (cause : DecodeError) : (fail cause : Decoder α).Contained := fun _ _ => .refl

lemma position_contained : position.Contained := fun _ _ => .refl

lemma remaining_contained : remaining.Contained := fun _ _ => .refl

lemma inspect_contained (f : ByteArray → α) : (inspect f).Contained := fun _ _ => .refl

/-- What goes on from a place in the region stops there too. -/
lemma ContainedAt.bind {x : Decoder α} {f : α → Decoder β} (hx : x.ContainedAt data c)
    (hf : ∀ a mid reach, x.run data c = .done a mid reach → (f a).ContainedAt data mid) :
    (x >>= f).ContainedAt data c := by
  intro inside
  have first := hx inside
  rw [run_bind]
  cases run : x.run data c with
  | failed cause stopped => rwa [run] at first
  | done a mid reach =>
    rw [run] at first
    have later := first.trans (hf a mid reach run first.inside)
    rw [Outcome.andThen]
    cases second : (f a).run data mid with
    | failed cause stopped => rwa [second] at later
    | done b next reach' => rwa [second] at later

lemma Contained.bind {x : Decoder α} {f : α → Decoder β} (hx : x.Contained)
    (hf : ∀ a, (f a).Contained) : (x >>= f).Contained :=
  fun data c => (hx data c).bind fun a mid _ _ => hf a data mid

lemma Contained.map {x : Decoder α} (hx : x.Contained) (f : α → β) : (f <$> x).Contained := by
  rw [← bind_pure_comp]
  exact hx.bind fun a => pure_contained (f a)

/-- A nested region is left with the outer limit, or stopped in with its own. -/
lemma Contained.within {x : Decoder α} (hx : x.Contained) (length : ℕ) :
    (within length x).Contained := by
  intro data c inside
  rw [Decoder.within]
  dsimp only
  split
  · exact .refl inside
  next room =>
    have inner := hx data ⟨c.position, c.position + length⟩ (Nat.le_add_right _ _)
    have narrower := Nat.le_of_not_lt room
    cases run : x.run data ⟨c.position, c.position + length⟩ with
    | failed cause stopped =>
      rw [run] at inner
      exact ⟨inner.position_le, inner.inside, inner.limit_le.trans narrower⟩
    | done a next reach =>
      rw [run] at inner
      exact ⟨inner.position_le, (inner.inside.trans inner.limit_le).trans narrower, le_rfl⟩

/-! ### Scalars and messages -/

lemma byte_contained : byte.Contained := by
  intro data c inside
  rw [byte]
  dsimp only
  split
  · exact .refl inside
  next ahead => exact ⟨Nat.le_succ _, Nat.lt_of_not_le ahead, le_rfl⟩

lemma take_contained (length : ℕ) : (take length).Contained := by
  intro data c inside
  rw [take]
  dsimp only
  split
  · exact .refl inside
  · split
    · exact .refl inside
    next room => exact ⟨Nat.le_add_right _ _, Nat.le_of_not_lt room, le_rfl⟩

lemma skip_contained (length : ℕ) : (skip length).Contained :=
  (take_contained length).bind fun _ => pure_contained _

lemma varintBytes_contained (start : ℕ) : ∀ left, (varintBytes start left).Contained
  | 0 => fail_contained _
  | left + 1 => by
    refine byte_contained.bind fun b => ?_
    split
    · exact (varintBytes_contained start left).bind fun _ => pure_contained _
    · exact pure_contained _

lemma varint_contained : varint.Contained :=
  position_contained.bind fun start =>
    (varintBytes_contained start _).bind fun _ => pure_contained _

lemma varint32_contained : varint32.Contained := varint_contained.bind fun _ => pure_contained _

lemma be32_contained : be32.Contained := (take_contained 4).bind fun _ => pure_contained _

lemma bytes_contained : bytes.Contained :=
  varint32_contained.bind fun length => take_contained length.toNat

lemma string_contained : string.Contained := by
  refine position_contained.bind fun start => bytes_contained.bind fun encoded => ?_
  split
  · exact pure_contained _
  · exact fail_contained _

lemma Contained.sized {x : Decoder α} (hx : x.Contained) : (sized x).Contained :=
  varint32_contained.bind fun length => hx.within length.toNat

lemma tag_contained : tag.Contained := by
  intro data c
  by_cases ended : c.atLimit = true
  · simp only [ContainedAt, tag, if_pos ended]
    exact .refl
  · have word := (varint32_contained.map Tag.ofWord) data c
    simp only [ContainedAt, run_map] at word
    simp only [ContainedAt, tag, if_neg ended]
    exact word

lemma fields_contained {step : Tag → σ → Decoder σ} (h : ∀ t acc, (step t acc).Contained)
    (acc : σ) : (fields acc step).Contained := by
  intro data c
  induction left : c.remaining using Nat.strong_induction_on generalizing c acc with
  | _ left ih =>
    subst left
    rw [fields_eq]
    refine (tag_contained data c).bind fun t c₁ reach first => ?_
    split
    · exact pure_contained _ data c₁
    next goes =>
      refine (h t acc data c₁).bind fun acc₁ c₂ reach₁ _ => ?_
      exact ih _ ((tag_precedes first goes).trans_reaches reach₁).remaining_lt acc₁ c₂ rfl

lemma entries_contained {step : UInt32 → σ → Decoder σ} (h : ∀ lead acc, (step lead acc).Contained)
    (acc : σ) : (entries acc step).Contained := by
  intro data c
  induction left : c.remaining using Nat.strong_induction_on generalizing c acc with
  | _ left ih =>
    subst left
    rw [entries_eq]
    refine (remaining_contained data c).bind fun left c₀ reach₀ here => ?_
    cases here
    split
    · exact pure_contained _ data c
    · refine (varint32_contained data c).bind fun lead c₁ reach first => ?_
      refine (h lead acc data c₁).bind fun acc₁ c₂ reach₁ _ => ?_
      exact ih _ ((varint32_precedes first).trans_reaches reach₁).remaining_lt acc₁ c₂ rfl

lemma skipField_contained (t : Tag) : (skipField t).Contained := by
  rw [skipField]
  split
  · exact varint_contained.bind fun _ => pure_contained _
  · exact skip_contained 8
  · exact skip_contained 4
  · exact varint32_contained.bind fun length => skip_contained length.toNat
  · exact position_contained.bind fun _ => fail_contained _

lemma skipBlock_contained : skipBlock.Contained :=
  be32_contained.bind fun length => skip_contained length.toNat

lemma packed_contained : packed.Contained :=
  (entries_contained (fun _ _ => pure_contained _) _).sized

lemma stringTableBody_contained : stringTableBody.Contained := by
  refine fields_contained (fun t strings => ?_) _
  split
  · exact string_contained.bind fun text => pure_contained _
  · exact (skipField_contained t).bind fun _ => pure_contained _

lemma stringTable_contained : stringTable.Contained := stringTableBody_contained.sized

/-! ### Failures on the spot -/

/-- The decoder consumes everything or nothing. -/
def StaysOnFailure (x : Decoder α) : Prop :=
  ∀ data c cause stopped, x.run data c = .failed cause stopped → stopped = c

lemma take_staysOnFailure (length : ℕ) : (take length).StaysOnFailure := by
  intro data c cause stopped fails
  simp only [take] at fails
  split at fails
  · cases fails
    rfl
  · split at fails
    · cases fails
      rfl
    · cases fails

lemma StaysOnFailure.bind_pure {x : Decoder α} (h : x.StaysOnFailure) (f : α → β) :
    (do let a ← x; return f a : Decoder β).StaysOnFailure := by
  intro data c cause stopped fails
  rw [bind_pure_comp, run_map] at fails
  cases run : x.run data c with
  | done a next reach =>
    rw [run] at fails
    cases fails
  | failed cause' stopped' =>
    rw [run] at fails
    cases fails
    exact h data c cause stopped run

lemma skip_staysOnFailure (length : ℕ) : (skip length).StaysOnFailure :=
  (take_staysOnFailure length).bind_pure _

lemma be32_staysOnFailure : be32.StaysOnFailure := (take_staysOnFailure 4).bind_pure _

end Decoder

end RoadAtlas
