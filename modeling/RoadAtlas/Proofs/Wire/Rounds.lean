import RoadAtlas.Proofs.Traversal
import RoadAtlas.Proofs.Wire.Folding

/-!
Repetitions, round by round. A round reads a number and what it leads; a repetition makes as many
rounds as it can, until the region ends, a number ends it, or a read fails.

* `Decoder.Leads`: a number that does not end the repetition, and what it leads;
* `Decoder.RoundsTo`: some rounds, one after another. Each leaves less of the region, so there are
  no more than there are bytes (`RoundsTo.add_remaining_le`), and every repetition comes to a place
  where it `Stops` (`exists_stops`);
* `RoundsTo.endsAs`: what a repetition answers is what it answers from any place it comes to;
* `Decoder.putting`: a round that reads an item and puts it to what there is, which may fail. Such a
  repetition folds the items that the bytes hold (`roundsTo_putting_iff`, `putting_failed`);
* `repeatAt_map`: a repetition on other accumulators, which follows this one step by step;
* `fields_map`: a fold whose steps are those of another one, changed, is that fold, changed.
-/

namespace RoadAtlas

/-! ### Answers -/

/-- Two outcomes hold the same value or cause and leave the same cursor, wherever they began. -/
def Outcome.EndsAs {α : Type} {c c' : Cursor} (o : Outcome α c) (o' : Outcome α c') : Prop :=
  o.toExcept = o'.toExcept ∧ o.cursor = o'.cursor

lemma Outcome.toExcept_map {α β : Type} {c : Cursor} (f : α → β) (o : Outcome α c) :
    (o.map f).toExcept = f <$> o.toExcept := by
  cases o <;> rfl

namespace Outcome.EndsAs

variable {α β : Type} {c c' c'' : Cursor} {o : Outcome α c} {o' : Outcome α c'}
  {o'' : Outcome α c''}

lemma refl (o : Outcome α c) : o.EndsAs o := ⟨rfl, rfl⟩

lemma trans (h : o.EndsAs o') (h' : o'.EndsAs o'') : o.EndsAs o'' :=
  ⟨h.1.trans h'.1, h.2.trans h'.2⟩

lemma map (h : o.EndsAs o') (f : α → β) : (o.map f).EndsAs (o'.map f) := by
  obtain ⟨value, place⟩ := h
  cases o <;> cases o' <;> cases value <;> cases place <;> exact ⟨rfl, rfl⟩

/-- What goes on behind a success ends as it does from there. -/
lemma of_ends {a : α} (h : o.Ends a c') (f : α → (c' : Cursor) → Outcome β c') :
    (o.andThen fun a c' _ => f a c').EndsAs (f a c') := by
  obtain ⟨reach, rfl⟩ := h
  rw [Outcome.andThen]
  cases f a c' <;> exact ⟨rfl, rfl⟩

end Outcome.EndsAs

namespace Decoder

variable {α σ τ ι : Type} {ends : UInt32 → Bool} {step : UInt32 → σ → Decoder σ}
  {data : ByteArray} {c c₁ c₂ : Cursor} {acc acc₁ acc₂ : σ} {n : ℕ}

/-! ### Single rounds -/

/-- Inside the region a number is read that does not end the repetition, and then what it leads. -/
structure Leads (ends : UInt32 → Bool) (read : UInt32 → Decoder α) (data : ByteArray) (c : Cursor)
    (a : α) (c₁ : Cursor) : Prop where
  inside : c.position < c.limit
  reads : ∃ lead mid, (varint32.run data c).Ends lead mid ∧ ends lead = false ∧
    ((read lead).run data mid).Ends a c₁

/-- A round leads from one place, and what has been gathered there, to the next. -/
abbrev Round (ends : UInt32 → Bool) (step : UInt32 → σ → Decoder σ) (data : ByteArray)
    (c : Cursor) (acc : σ) (c₁ : Cursor) (acc₁ : σ) : Prop :=
  Leads ends (fun lead => step lead acc) data c acc₁ c₁

/-- No further round can be made. -/
def Stops (ends : UInt32 → Bool) (step : UInt32 → σ → Decoder σ) (data : ByteArray) (c : Cursor)
    (acc : σ) : Prop :=
  ∀ c₁ acc₁, ¬ Round ends step data c acc c₁ acc₁

/-- The repetition as it goes on from a place, with what has been gathered there. -/
abbrev repeatAt (ends : UInt32 → Bool) (step : UInt32 → σ → Decoder σ) (data : ByteArray)
    (c : Cursor) (acc : σ) : Outcome (σ × UInt32) c :=
  rounds ends data c acc fun lead acc c _ => (step lead acc).run data c

/-- Nothing ends a repetition before its region does. -/
abbrev neverEnds (_ : UInt32) : Bool := false

/-- A message ends at the number of a tag that ends it. -/
abbrev endsMessage (lead : UInt32) : Bool := (Tag.ofWord lead).isEnd

/-- What is done at a tag, by the number of the tag. -/
abbrev byTag {β : Type} (f : Tag → β) (lead : UInt32) : β := f (Tag.ofWord lead)

lemma run_entries_eq (acc : σ) (step : UInt32 → σ → Decoder σ) (data : ByteArray) (c : Cursor) :
    (entries acc step).run data c = (repeatAt neverEnds step data c acc).map Prod.fst := rfl

lemma run_fields_eq (acc : σ) (step : Tag → σ → Decoder σ) (data : ByteArray) (c : Cursor) :
    (fields acc step).run data c = (repeatAt endsMessage (byTag step) data c acc).map Prod.fst :=
  rfl

namespace Leads

variable {read : UInt32 → Decoder α} {a : α}

lemma precedes (h : Leads ends read data c a c₁) : c.Precedes c₁ := by
  obtain ⟨lead, mid, ⟨reach, head⟩, -, ⟨reach₁, -⟩⟩ := h.reads
  exact (varint32_precedes head).trans_reaches reach₁

/-- A round leaves less of the region. -/
lemma remaining_lt (h : Leads ends read data c a c₁) : c₁.remaining < c.remaining :=
  h.precedes.remaining_lt

end Leads

/-- Inside its region, a repetition is its next number and what that leads. -/
lemma repeatAt_eq (inside : c.position < c.limit) :
    repeatAt ends step data c acc = (varint32.run data c).andThen fun lead c' _ =>
      if ends lead then .done (acc, lead) c' (.refl c')
      else ((step lead acc).run data c').andThen fun acc c'' _ =>
        repeatAt ends step data c'' acc := by
  have before : ¬ c.atLimit = true := by
    simp only [Cursor.atLimit, decide_eq_true_eq]
    exact Nat.not_le_of_lt inside
  rw [repeatAt, rounds_eq, if_neg before]

/-- A repetition ends as it does from behind its first round. -/
lemma Leads.endsAs (round : Round ends step data c acc c₁ acc₁) :
    (repeatAt ends step data c acc).EndsAs (repeatAt ends step data c₁ acc₁) := by
  obtain ⟨lead, mid, head, goes, payload⟩ := round.reads
  rw [repeatAt_eq round.inside]
  refine (Outcome.EndsAs.of_ends head fun lead c => if ends lead then _ else _).trans ?_
  simp only [goes, Bool.false_eq_true, ↓reduceIte]
  exact .of_ends payload fun acc c => repeatAt ends step data c acc

/-- Where no further round can be made, a repetition answers with what has been gathered, or
fails. -/
lemma Stops.cases (stops : Stops ends step data c acc) :
    (∃ lead next, (repeatAt ends step data c acc).Ends (acc, lead) next) ∨
      ∃ cause stopped, repeatAt ends step data c acc = .failed cause stopped := by
  by_cases inside : c.position < c.limit
  · rw [repeatAt_eq inside]
    cases head : varint32.run data c with
    | failed cause stopped => exact .inr ⟨cause, stopped, rfl⟩
    | done lead mid reach =>
      rw [Outcome.andThen]
      cases last : ends lead with
      | true => exact .inl ⟨lead, mid, _, rfl⟩
      | false =>
        cases payload : (step lead acc).run data mid with
        | failed cause stopped => exact .inr ⟨cause, stopped, by simp [Outcome.andThen]⟩
        | done acc₁ c₁ reach₁ =>
          exact absurd ⟨inside, lead, mid, ⟨reach, head⟩, last, ⟨reach₁, payload⟩⟩ (stops c₁ acc₁)
  · have limit : c.atLimit = true := by
      simp only [Cursor.atLimit, decide_eq_true_eq]
      exact Nat.le_of_not_lt inside
    rw [repeatAt, rounds_eq, if_pos limit]
    exact .inl ⟨0, c, _, rfl⟩

/-! ### Rounds in a row -/

/-- From a place on, so many rounds are made, one after another. -/
inductive RoundsTo (ends : UInt32 → Bool) (step : UInt32 → σ → Decoder σ) (data : ByteArray)
    (c : Cursor) (acc : σ) : ℕ → Cursor → σ → Prop
  | start : RoundsTo ends step data c acc 0 c acc
  | more {n : ℕ} {c₁ c₂ : Cursor} {acc₁ acc₂ : σ} (earlier : RoundsTo ends step data c acc n c₁ acc₁)
      (last : Round ends step data c₁ acc₁ c₂ acc₂) : RoundsTo ends step data c acc (n + 1) c₂ acc₂

namespace RoundsTo

lemma reaches (run : RoundsTo ends step data c acc n c₁ acc₁) : c.Reaches c₁ := by
  induction run with
  | start => exact .refl c
  | more earlier last ih => exact ih.trans last.precedes.reaches

/-- Every round takes a byte at least. -/
lemma add_remaining_le (run : RoundsTo ends step data c acc n c₁ acc₁) :
    n + c₁.remaining ≤ c.remaining := by
  induction run with
  | start => exact Nat.le_of_eq (Nat.zero_add _)
  | more earlier last ih =>
    have := last.remaining_lt
    omega

/-- A repetition ends as it does from any place that it comes to. -/
lemma endsAs (run : RoundsTo ends step data c acc n c₁ acc₁) :
    (repeatAt ends step data c acc).EndsAs (repeatAt ends step data c₁ acc₁) := by
  induction run with
  | start => exact .refl _
  | more earlier last ih => exact ih.trans last.endsAs

/-- What holds of what has been gathered, and goes on to hold after every step, holds at every
place. -/
lemma ensures {P : σ → Prop} (run : RoundsTo ends step data c acc n c₁ acc₁)
    (keeps : ∀ lead acc data c acc₁ c₁, P acc → ((step lead acc).run data c).Ends acc₁ c₁ → P acc₁)
    (initially : P acc) : P acc₁ := by
  induction run with
  | start => exact initially
  | more earlier last ih =>
    obtain ⟨lead, mid, -, -, payload⟩ := last.reads
    exact keeps lead _ _ _ _ _ ih payload

end RoundsTo

/-- Every repetition comes to a place where no further round can be made. -/
lemma exists_stops (ends : UInt32 → Bool) (step : UInt32 → σ → Decoder σ) (data : ByteArray)
    (c : Cursor) (acc : σ) : ∃ n c₁ acc₁, RoundsTo ends step data c acc n c₁ acc₁ ∧
      Stops ends step data c₁ acc₁ := by
  -- from every place it comes to, by the bytes that are left there
  suffices further : ∀ left n c₁ acc₁, c₁.remaining = left →
      RoundsTo ends step data c acc n c₁ acc₁ →
        ∃ n c₂ acc₂, RoundsTo ends step data c acc n c₂ acc₂ ∧ Stops ends step data c₂ acc₂ from
    further _ 0 c acc rfl .start
  intro left
  induction left using Nat.strong_induction_on with
  | _ left ih =>
    rintro n c₁ acc₁ rfl run
    by_cases more : ∃ c₂ acc₂, Round ends step data c₁ acc₁ c₂ acc₂
    · obtain ⟨c₂, acc₂, round⟩ := more
      exact ih _ round.remaining_lt (n + 1) c₂ acc₂ rfl (run.more round)
    · exact ⟨n, c₁, acc₁, run, fun c₂ acc₂ round => more ⟨c₂, acc₂, round⟩⟩

/-- What a repetition answers with was gathered at a place that it came to. -/
lemma exists_roundsTo_of_ends {result : σ} {next : Cursor}
    (h : ((repeatAt ends step data c acc).map Prod.fst).Ends result next) :
    ∃ n c₁, RoundsTo ends step data c acc n c₁ result ∧ c₁.Reaches next := by
  obtain ⟨n, c₁, acc₁, run, stops⟩ := exists_stops ends step data c acc
  obtain ⟨value, place⟩ := run.endsAs.map Prod.fst
  obtain ⟨reach, answered⟩ := h
  rw [answered] at value place
  rcases stops.cases with ⟨lead, last, reach₁, there⟩ | ⟨cause, stopped, there⟩
  · rw [there] at value place
    cases value
    cases place
    exact ⟨n, c₁, run, reach₁⟩
  · rw [there] at value
    cases value

/-! ### Items -/

variable {read : UInt32 → Decoder ι} {put : σ → ι → Except DecodeError σ} {items : List ι}

/-- A round that reads an item and puts it to what has been gathered. -/
def putting (read : UInt32 → Decoder ι) (put : σ → ι → Except DecodeError σ) (lead : UInt32)
    (acc : σ) : Decoder σ := do
  let item ← read lead
  ofExcept (put acc item)

/-- The items that the bytes between two places hold, each behind the number that leads it. -/
inductive Items (ends : UInt32 → Bool) (read : UInt32 → Decoder ι) (data : ByteArray) (c : Cursor) :
    List ι → Cursor → Prop
  | none : Items ends read data c [] c
  | more {items : List ι} {item : ι} {c₁ c₂ : Cursor} (earlier : Items ends read data c items c₁)
      (next : Leads ends read data c₁ item c₂) : Items ends read data c (items ++ [item]) c₂

lemma ofExcept_ends_iff {e : Except DecodeError α} {a : α} :
    ((ofExcept e).run data c).Ends a c₁ ↔ e = .ok a ∧ c₁ = c := by
  cases e with
  | ok b =>
    constructor
    · rintro ⟨reach, done⟩
      cases done
      exact ⟨rfl, rfl⟩
    · rintro ⟨same, rfl⟩
      cases same
      exact ⟨.refl _, rfl⟩
  | error cause =>
    constructor
    · rintro ⟨reach, done⟩
      cases done
    · rintro ⟨same, -⟩
      cases same

/-- A round of such a repetition takes an item that can be put to what there is. -/
lemma round_putting_iff : Round ends (putting read put) data c acc c₁ acc₁ ↔
    ∃ item, Leads ends read data c item c₁ ∧ put acc item = .ok acc₁ := by
  constructor
  · rintro ⟨inside, lead, mid, head, goes, payload⟩
    obtain ⟨item, last, found, answered⟩ := bind_ends_iff.mp payload
    obtain ⟨kept, rfl⟩ := ofExcept_ends_iff.mp answered
    exact ⟨item, ⟨inside, lead, mid, head, goes, found⟩, kept⟩
  · rintro ⟨item, ⟨inside, lead, mid, head, goes, found⟩, kept⟩
    exact ⟨inside, lead, mid, head, goes,
      bind_ends_iff.mpr ⟨item, c₁, found, ofExcept_ends_iff.mpr ⟨kept, rfl⟩⟩⟩

/-- Such a repetition has made some rounds where as many items have been put, one by one, to what
there was. -/
lemma roundsTo_putting_iff : RoundsTo ends (putting read put) data c acc n c₁ acc₁ ↔
    ∃ items, Items ends read data c items c₁ ∧ items.length = n ∧
      items.foldlM put acc = .ok acc₁ := by
  constructor
  · intro run
    induction run with
    | start => exact ⟨[], .none, rfl, rfl⟩
    | more earlier last ih =>
      obtain ⟨items, held, rfl, folded⟩ := ih
      obtain ⟨item, next, kept⟩ := round_putting_iff.mp last
      exact ⟨items ++ [item], held.more next, List.length_append,
        foldlM_concat_eq_ok.mpr ⟨_, folded, kept⟩⟩
  · rintro ⟨items, held, rfl, folded⟩
    induction held generalizing acc₁ with
    | none =>
      cases folded
      exact .start
    | more earlier next ih =>
      obtain ⟨before, folded, kept⟩ := foldlM_concat_eq_ok.mp folded
      rw [List.length_append]
      exact (ih folded).more (round_putting_iff.mpr ⟨_, next, kept⟩)

/-- Such a repetition fails as the first item does that cannot be put to what there is. -/
lemma putting_failed {cause : DecodeError} (held : Items ends read data c items c₁)
    (fails : items.foldlM put acc = .error cause) :
    (repeatAt ends (putting read put) data c acc).toExcept = .error cause := by
  induction held with
  | none => cases fails
  | @more items item c₁ c₂ earlier next ih =>
    rcases foldlM_concat_eq_error.mp fails with before | ⟨acc₁, folded, here⟩
    · exact ih before
    · have run : RoundsTo ends (putting read put) data c acc items.length c₁ acc₁ :=
        roundsTo_putting_iff.mpr ⟨items, earlier, rfl, folded⟩
      obtain ⟨inside, lead, mid, ⟨reach, head⟩, goes, ⟨reach₁, found⟩⟩ := next
      rw [run.endsAs.1, repeatAt_eq inside, head]
      simp only [Outcome.andThen, goes, Bool.false_eq_true, ↓reduceIte, putting, run_bind, found,
        here]
      rfl

/-! ### Other accumulators -/

section Changed

variable {f : σ → τ} {step' : UInt32 → τ → Decoder τ} (Inv : σ → Prop)

/-- Where every step of a repetition does what a step of another one does, changed, so does the whole,
wherever it comes to and as long as what is gathered meets a condition that every step keeps. -/
lemma repeatAt_map (follows : ∀ lead acc c', c.Precedes c' → Inv acc →
      (step' lead (f acc)).run data c' = ((step lead acc).run data c').map f)
    (keeps : ∀ lead acc data c acc₁ c₁, Inv acc → ((step lead acc).run data c).Ends acc₁ c₁ →
      Inv acc₁) (initially : Inv acc) :
    repeatAt ends step' data c (f acc) = (repeatAt ends step data c acc).map (Prod.map f id) := by
  induction left : c.remaining using Nat.strong_induction_on generalizing c acc with
  | _ left ih =>
    subst left
    rw [repeatAt, repeatAt, rounds_eq, rounds_eq]
    split
    next => rfl
    next =>
      cases head : varint32.run data c with
      | failed cause stopped => rfl
      | done lead mid reach =>
        have ahead := varint32_precedes head
        simp only [Outcome.andThen]
        cases last : ends lead with
        | true => rfl
        | false =>
          simp only [Bool.false_eq_true, ↓reduceIte, follows lead acc mid ahead initially]
          cases payload : (step lead acc).run data mid with
          | failed cause stopped => rfl
          | done acc₁ c₁ reach₁ =>
            have behind := ahead.trans_reaches reach₁
            have kept := keeps lead acc data mid acc₁ c₁ initially ⟨reach₁, payload⟩
            have later := ih _ behind.remaining_lt
              (fun lead acc c' further => follows lead acc c' (behind.reaches.trans_precedes further))
              kept rfl
            simp only [repeatAt] at later
            simp only [Outcome.map, later]
            generalize rounds ends data c₁ acc₁ _ = o
            cases o <;> rfl

lemma entries_map_of (follows : ∀ lead acc, Inv acc → step' lead (f acc) = f <$> step lead acc)
    (keeps : ∀ lead acc data c acc₁ c₁, Inv acc → ((step lead acc).run data c).Ends acc₁ c₁ →
      Inv acc₁) (initially : Inv acc) : entries (f acc) step' = f <$> entries acc step := by
  ext data c
  have same : repeatAt neverEnds step' data c (f acc) =
      (repeatAt neverEnds step data c acc).map (Prod.map f id) := by
    refine repeatAt_map Inv (fun lead acc c' _ met => ?_) keeps initially
    rw [follows lead acc met, run_map]
  rw [run_map, run_entries_eq, run_entries_eq, same]
  cases repeatAt neverEnds step data c acc <;> rfl

end Changed

section Fields

variable {f : σ → τ} {step : Tag → σ → Decoder σ} {step' : Tag → τ → Decoder τ}

lemma run_fields_map (Inv : σ → Prop) (follows : ∀ t acc c', c.Precedes c' → Inv acc →
      (step' t (f acc)).run data c' = ((step t acc).run data c').map f)
    (keeps : ∀ t acc data c acc₁ c₁, Inv acc → ((step t acc).run data c).Ends acc₁ c₁ → Inv acc₁)
    (initially : Inv acc) :
    (fields (f acc) step').run data c = ((fields acc step).run data c).map f := by
  have same : repeatAt endsMessage (byTag step') data c (f acc) =
      (repeatAt endsMessage (byTag step) data c acc).map (Prod.map f id) :=
    repeatAt_map Inv (fun lead => follows (Tag.ofWord lead)) (fun lead => keeps (Tag.ofWord lead))
      initially
  rw [run_fields_eq, run_fields_eq, same]
  cases repeatAt endsMessage (byTag step) data c acc <;> rfl

lemma fields_map_of (Inv : σ → Prop)
    (follows : ∀ t acc, Inv acc → step' t (f acc) = f <$> step t acc)
    (keeps : ∀ t acc data c acc₁ c₁, Inv acc → ((step t acc).run data c).Ends acc₁ c₁ → Inv acc₁)
    (initially : Inv acc) : fields (f acc) step' = f <$> fields acc step := by
  ext data c
  rw [run_map]
  refine run_fields_map Inv (fun t acc c' _ met => ?_) keeps initially
  rw [follows t acc met, run_map]

/-- A fold may as well be made with other accumulators and changed behind it, if every step of the
one is a step of the other, changed. -/
lemma fields_map (commutes : ∀ t acc, step' t (f acc) = f <$> step t acc) (acc : σ) :
    fields (f acc) step' = f <$> fields acc step :=
  fields_map_of (fun _ => True) (fun t acc _ => commutes t acc) (fun _ _ _ _ _ _ _ _ => trivial)
    trivial

/-- Steps that do the same wherever a fold can come to make the same fold. -/
lemma run_fields_congr {step' : Tag → σ → Decoder σ}
    (same : ∀ t acc c', c.Precedes c' → (step' t acc).run data c' = (step t acc).run data c') :
    (fields acc step').run data c = (fields acc step).run data c := by
  have unchanged (c : Cursor) (o : Outcome σ c) : o.map id = o := by cases o <;> rfl
  rw [← unchanged c ((fields acc step).run data c)]
  refine run_fields_map (f := id) (fun _ => True) (fun t acc c' before _ => ?_)
    (fun _ _ _ _ _ _ _ _ => trivial) trivial
  rw [unchanged]
  exact same t acc c' before

end Fields

end Decoder

end RoadAtlas
