import RoadAtlas.Proofs.Wire.Lengths
import RoadAtlas.Proofs.Wire.Rounds

/-!
What is read is paid for by the bytes that are consumed. A repetition is over after no more rounds
than its region has bytes. Where no round adds more to what has been gathered than one, for its
number, and what the bytes behind the number pay for, the whole repetition is paid for by its bytes.

* `Decoder.IsOver`: a repetition has come to its end, and `repeatAt_isOver` says that all do;
* `Decoder.PaysAt`: the bytes that are consumed pay for what a value weighs more than before;
* `PaysAt.bind`, `PaysAt.within`, …: what is made of decoders that pay does so too;
* `RoundsTo.pays`, `fields_paysAt`, `entries_paysAt`: a repetition pays with the numbers of its
  rounds;
* `PaysAt.le_of_eval`: there is no more than there are bytes up to where reading ends.
-/

namespace RoadAtlas

namespace Decoder

variable {α β σ : Type} {data : ByteArray} {c c₁ : Cursor} {before : ℕ} {weight : α → ℕ}

/-! ### Ends of repetitions -/

section Ends

variable {ends : UInt32 → Bool} {step : UInt32 → σ → Decoder σ} {acc : σ}

/-- After no more rounds than the region has bytes there is no further round, and the answer is what
has been gathered, or a failure. -/
def IsOver (ends : UInt32 → Bool) (step : UInt32 → σ → Decoder σ) (data : ByteArray) (c : Cursor)
    (acc : σ) (answer : Except DecodeError σ) : Prop :=
  ∃ n c₁ acc₁, n ≤ c.remaining ∧ RoundsTo ends step data c acc n c₁ acc₁ ∧
    Stops ends step data c₁ acc₁ ∧ (answer = .ok acc₁ ∨ ∃ cause, answer = .error cause)

lemma repeatAt_isOver (ends : UInt32 → Bool) (step : UInt32 → σ → Decoder σ) (data : ByteArray)
    (c : Cursor) (acc : σ) :
    IsOver ends step data c acc ((repeatAt ends step data c acc).map Prod.fst).toExcept := by
  obtain ⟨n, c₁, acc₁, run, stops⟩ := exists_stops ends step data c acc
  have few : n ≤ c.remaining := (Nat.le_add_right _ _).trans run.add_remaining_le
  refine ⟨n, c₁, acc₁, few, run, stops, ?_⟩
  rw [(run.endsAs.map Prod.fst).1]
  rcases stops.cases with ⟨lead, next, there⟩ | ⟨cause, stopped, there⟩
  · exact .inl (there.map (f := Prod.fst)).toExcept_eq
  · rw [there]
    exact .inr ⟨cause, rfl⟩

/-- What is gathered up to a certain tag is gathered by a repetition, too. -/
lemma run_fieldsUntil_eq (stop : Tag → Bool) (acc : σ) (step : Tag → σ → Decoder σ)
    (data : ByteArray) (c : Cursor) : (Prod.fst <$> fieldsUntil stop acc step).run data c =
      (repeatAt (fun lead => endsMessage lead || byTag stop lead) (byTag step) data c acc).map
        Prod.fst := by
  have whole : (fieldsUntil stop acc step).run data c =
      (repeatAt (fun lead => endsMessage lead || byTag stop lead) (byTag step) data c acc).map
        fun found => (found.1, Tag.ofWord found.2) := rfl
  rw [run_map, whole]
  cases repeatAt (fun lead => endsMessage lead || byTag stop lead) (byTag step) data c acc <;> rfl

end Ends

/-! ### Payment -/

/-- From a cursor, the bytes that are consumed pay for what the value weighs more than before. -/
def PaysAt (x : Decoder α) (data : ByteArray) (c : Cursor) (before : ℕ) (weight : α → ℕ) : Prop :=
  ∀ ⦃a next⦄, (x.run data c).Ends a next → weight a + c.position ≤ before + next.position

lemma paysAt_of_le {x : Decoder α}
    (light : ∀ a next, (x.run data c).Ends a next → weight a ≤ before) :
    x.PaysAt data c before weight :=
  fun a next ends => Nat.add_le_add (light a next ends) ends.choose.position_le

lemma paysAt_pure {a : α} (light : weight a ≤ before) :
    (pure a : Decoder α).PaysAt data c before weight := by
  refine paysAt_of_le fun b next ends => ?_
  obtain ⟨rfl, -⟩ := pure_ends_iff.mp ends
  exact light

lemma PaysAt.bind {x : Decoder α} {f : α → Decoder β} {weight' : β → ℕ}
    (hx : x.PaysAt data c before weight)
    (hf : ∀ a mid, (x.run data c).Ends a mid → (f a).PaysAt data mid (weight a) weight') :
    (x >>= f).PaysAt data c before weight' := by
  intro b next ends
  obtain ⟨a, mid, first, later⟩ := bind_ends_iff.mp ends
  have := hx first
  have := hf a mid first later
  omega

/-- What is read and weighs nothing may stand in front. -/
lemma paysAt_behind {x : Decoder β} {f : β → Decoder α}
    (hf : ∀ b mid, (x.run data c).Ends b mid → (f b).PaysAt data mid before weight) :
    (x >>= f).PaysAt data c before weight := by
  have still : x.PaysAt data c before fun _ => before := paysAt_of_le fun _ _ _ => Nat.le_refl _
  exact still.bind hf

namespace PaysAt

variable {x : Decoder α}

lemma mono {before' : ℕ} (hx : x.PaysAt data c before weight) (more : before ≤ before') :
    x.PaysAt data c before' weight :=
  fun _ _ ends => (hx ends).trans (Nat.add_le_add_right more _)

/-- What is made of a value weighs no more than the value. -/
lemma bind_pure {f : α → β} {weight' : β → ℕ} (hx : x.PaysAt data c before weight)
    (light : ∀ a, weight' (f a) ≤ weight a) :
    (do let a ← x; return f a : Decoder β).PaysAt data c before weight' :=
  hx.bind fun a _ _ => paysAt_pure (light a)

lemma map {f : α → β} {weight' : β → ℕ} (hx : x.PaysAt data c before weight)
    (light : ∀ a, weight' (f a) ≤ weight a) : (f <$> x).PaysAt data c before weight' := by
  rw [← bind_pure_comp]
  exact hx.bind_pure light

/-- What there is besides stays as it is. -/
lemma beside (hx : x.PaysAt data c before weight) (more : ℕ) :
    x.PaysAt data c (more + before) fun a => more + weight a := by
  intro a next ends
  have paid := hx ends
  show more + weight a + c.position ≤ more + before + next.position
  omega

lemma within {length : ℕ} (hx : c.position + length ≤ c.limit →
      x.PaysAt data ⟨c.position, c.position + length⟩ before weight) :
    (within length x).PaysAt data c before weight := by
  intro a next ends
  obtain ⟨room, stopped, inner, rfl⟩ := within_ends_iff.mp ends
  have paid := hx room inner
  exact paid

lemma sized (hx : ∀ c, x.PaysAt data c before weight) : (sized x).PaysAt data c before weight :=
  paysAt_behind fun _ mid _ => within fun _ => hx ⟨mid.position, _⟩

/-- There is no more of a value than there are bytes up to where reading may end. -/
lemma le_of_eval {a : α} {last : ℕ} (hx : x.PaysAt data c before weight)
    (h : x.eval data c = .ok a)
    (kept : ∀ next, (x.run data c).Ends a next → next.position ≤ last) :
    weight a + c.position ≤ before + last := by
  obtain ⟨next, ends⟩ := eval_eq_ok_iff.mp h
  exact (hx ends).trans (Nat.add_le_add_left (kept next ends) _)

end PaysAt

/-! ### Where regions are left -/

lemma within_position_le {x : Decoder α} {length : ℕ} {a : α} (hl : x.Local)
    (h : ((within length x).run data c).Ends a c₁) : c₁.position ≤ c.position + length := by
  obtain ⟨-, stopped, ⟨reach, inner⟩, rfl⟩ := within_ends_iff.mp h
  have last := (hl _).position_le (Nat.le_add_right _ _) inner
  exact last

lemma sized_position_le {x : Decoder α} {a : α} (hl : x.Local)
    (h : ((sized x).run data c).Ends a c₁) : c₁.position ≤ c.limit := by
  obtain ⟨length, start, -, room, stopped, ⟨reach, inner⟩, rfl⟩ := sized_ends_iff.mp h
  have last := (hl _).position_le (Nat.le_add_right _ _) inner
  exact last.trans room

/-! ### Repetitions -/

section Repetitions

variable {ends : UInt32 → Bool} {weight : σ → ℕ} {acc : σ}

/-- Where every round pays with its number and what it consumes itself, so do any rounds. -/
lemma RoundsTo.pays {step : UInt32 → σ → Decoder σ} {n : ℕ} {acc₁ : σ}
    (run : RoundsTo ends step data c acc n c₁ acc₁)
    (each : ∀ lead acc c', c.Precedes c' →
      (step lead acc).PaysAt data c' (weight acc + 1) weight) :
    weight acc₁ + c.position ≤ weight acc + c₁.position := by
  induction run with
  | start => exact Nat.le_refl _
  | more earlier last ih =>
    obtain ⟨lead, mid, ⟨reach, head⟩, -, payload⟩ := last.reads
    have ahead := varint32_precedes head
    have paid := each lead _ mid (earlier.reaches.trans_precedes ahead) payload
    have := ahead.position_lt
    omega

lemma repeatAt_pays {step : UInt32 → σ → Decoder σ} {result : σ} {next : Cursor}
    (h : ((repeatAt ends step data c acc).map Prod.fst).Ends result next)
    (each : ∀ lead acc c', c.Precedes c' →
      (step lead acc).PaysAt data c' (weight acc + 1) weight) :
    weight result + c.position ≤ weight acc + next.position := by
  obtain ⟨n, c₁, run, reach⟩ := exists_roundsTo_of_ends h
  exact (run.pays each).trans (Nat.add_le_add_left reach.position_le _)

lemma fields_paysAt {step : Tag → σ → Decoder σ}
    (each : ∀ t acc c', c.Precedes c' → (step t acc).PaysAt data c' (weight acc + 1) weight)
    (acc : σ) : (fields acc step).PaysAt data c (weight acc) weight := by
  intro result next ends
  rw [run_fields_eq] at ends
  exact repeatAt_pays ends fun lead => each (Tag.ofWord lead)

lemma fieldsUntil_paysAt {stop : Tag → Bool} {step : Tag → σ → Decoder σ}
    (each : ∀ t acc c', c.Precedes c' → (step t acc).PaysAt data c' (weight acc + 1) weight)
    (acc : σ) : (Prod.fst <$> fieldsUntil stop acc step).PaysAt data c (weight acc) weight := by
  intro result next ends
  rw [run_fieldsUntil_eq] at ends
  exact repeatAt_pays ends fun lead => each (Tag.ofWord lead)

lemma entries_paysAt {step : UInt32 → σ → Decoder σ}
    (each : ∀ lead acc c', c.Precedes c' →
      (step lead acc).PaysAt data c' (weight acc + 1) weight)
    (acc : σ) : (entries acc step).PaysAt data c (weight acc) weight := by
  intro result next ends
  rw [run_entries_eq] at ends
  exact repeatAt_pays ends each

end Repetitions

end Decoder

end RoadAtlas
