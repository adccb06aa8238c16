import RoadAtlas.Proofs.Wire.Locality
import RoadAtlas.Proofs.Wire.Reading

/-!
Messages that are read to their end, field by field.

* `Decoder.Folds`: the fields of a message, one after another, up to its end;
* `folds_of_run`, `Folds.ends`: these are the successful folds over a message;
* `fieldsUntil_ends_of_stop`, `fieldsUntil_ends_of_field`: a fold up to a certain tag, step by step;
* `within_map`, `sized_map`: a change of the value commutes with a nested region.
-/

namespace RoadAtlas

namespace Decoder

variable {σ : Type} {step : Tag → σ → Decoder σ} {data : ByteArray} {c next : Cursor}
  {acc result : σ}

/-! ### Successes taken apart -/

lemma bind_done {α β : Type} {x : Decoder α} {f : α → Decoder β} {b : β} {reach : c.Reaches next}
    (h : (x >>= f).run data c = .done b next reach) :
    ∃ a mid, ∃ r : c.Reaches mid, ∃ r' : mid.Reaches next,
      x.run data c = .done a mid r ∧ (f a).run data mid = .done b next r' := by
  rw [run_bind] at h
  exact Outcome.andThen_eq_done h

lemma bind_pure_done {α β : Type} {x : Decoder α} {f : α → β} {b : β} {reach : c.Reaches next}
    (h : (do let a ← x; return f a : Decoder β).run data c = .done b next reach) :
    ∃ a, x.run data c = .done a next reach ∧ b = f a := by
  rw [bind_pure_comp, run_map] at h
  obtain ⟨a, ha, rfl⟩ := Outcome.map_eq_done h
  exact ⟨a, ha, rfl⟩

lemma bind_ends_iff {α β : Type} {x : Decoder α} {f : α → Decoder β} {b : β} :
    ((x >>= f).run data c).Ends b next ↔
      ∃ a mid, (x.run data c).Ends a mid ∧ ((f a).run data mid).Ends b next := by
  constructor
  · rintro ⟨reach, done⟩
    obtain ⟨a, mid, r, r', first, later⟩ := bind_done done
    exact ⟨a, mid, ⟨r, first⟩, r', later⟩
  · rintro ⟨a, mid, first, later⟩
    rw [run_bind]
    exact first.andThen fun _ => later

lemma pure_ends_iff {α : Type} {a b : α} : ((pure a : Decoder α).run data c).Ends b next ↔
    b = a ∧ next = c := by
  constructor
  · rintro ⟨reach, ⟨⟩⟩
    exact ⟨rfl, rfl⟩
  · rintro ⟨rfl, rfl⟩
    exact ⟨.refl _, rfl⟩

/-- What is read in a nested region is read inside the region around it, and left where it
stopped. -/
lemma within_done {α : Type} {x : Decoder α} {length : ℕ} {a : α} {reach : c.Reaches next}
    (h : (within length x).run data c = .done a next reach) :
    ¬ c.limit < c.position + length ∧
      ∃ c₁ reach₁, x.run data { c with limit := c.position + length } = .done a c₁ reach₁ ∧
        next.position = c₁.position := by
  simp only [within] at h
  split at h
  · cases h
  next inside =>
    cases run : x.run data { c with limit := c.position + length } with
    | failed cause stopped =>
      rw [run] at h
      cases h
    | done b c₁ reach₁ =>
      rw [run] at h
      cases h
      exact ⟨inside, c₁, reach₁, rfl, rfl⟩

/-- To pass over some bytes is to go on behind them. -/
lemma skip_done {length : ℕ} {reach : c.Reaches next}
    (h : (skip length).run data c = .done () next reach) : next.position = c.position + length := by
  simp only [skip, run_bind, take] at h
  split at h
  · cases h
  · split at h
    · cases h
    · cases h
      rfl

/-- A value that was found can be told from the outcome alone. -/
lemma eq_ok_of_mem_toOption {ε α : Type} {x : Except ε α} {a : α} (h : a ∈ x.toOption) :
    x = .ok a := by
  cases x with
  | error cause => cases h
  | ok b => rw [Option.some.inj h]

/-! ### Successful folds -/

/-- The successful folds over a message: a tag that ends it, or a field and the rest. -/
inductive Folds (step : Tag → σ → Decoder σ) (data : ByteArray) : Cursor → σ → Cursor → σ → Prop
  | finish {c c₁ : Cursor} {acc : σ} {t : Tag} {reach : c.Reaches c₁}
      (first : tag.run data c = .done t c₁ reach) (ends : t.isEnd = true) :
      Folds step data c acc c₁ acc
  | field {c c₁ c₂ next : Cursor} {acc acc₁ result : σ} {t : Tag} {reach : c.Reaches c₁}
      {reach₁ : c₁.Reaches c₂} (first : tag.run data c = .done t c₁ reach)
      (goes : ¬ t.isEnd = true) (payload : (step t acc).run data c₁ = .done acc₁ c₂ reach₁)
      (rest : Folds step data c₂ acc₁ next result) : Folds step data c acc next result

lemma Folds.ends (folds : Folds step data c acc next result) :
    ((fields acc step).run data c).Ends result next := by
  induction folds with
  | finish first ends =>
    rw [fields_eq, run_bind, first]
    simp only [Outcome.andThen, if_pos ends]
    exact ⟨_, rfl⟩
  | field first goes payload rest ih =>
    obtain ⟨r, hr⟩ := ih
    rw [fields_eq, run_bind, first]
    simp only [Outcome.andThen, if_neg goes, run_bind, payload, hr]
    exact ⟨_, rfl⟩

lemma folds_of_run {reach : c.Reaches next}
    (h : (fields acc step).run data c = .done result next reach) :
    Folds step data c acc next result := by
  induction left : c.remaining using Nat.strong_induction_on generalizing c acc with
  | _ left ih =>
    subst left
    rw [fields_eq] at h
    obtain ⟨t, c₁, r, r₁, first, h⟩ := bind_done h
    split at h
    next ends =>
      cases h
      exact .finish first ends
    next goes =>
      obtain ⟨acc₁, c₂, r₂, r₃, payload, h⟩ := bind_done h
      have before := (tag_precedes first goes).trans_reaches r₂
      exact .field first goes payload (ih _ before.remaining_lt h rfl)

/-- What holds of an accumulator and the place that a fold has come to, and goes on to hold after a
field and further on, holds of the result. -/
lemma Folds.ensuresAt {P : Cursor → σ → Prop} (folds : Folds step data c acc next result)
    (onward : ∀ ⦃acc c₀ c₁⦄, Cursor.Reaches c₀ c₁ → P c₀ acc → P c₁ acc)
    (h : ∀ ⦃t acc c₀ c₁ acc₁ c₂⦄ ⦃reach : Cursor.Reaches c₁ c₂⦄, c₀.Precedes c₁ → P c₀ acc →
      (step t acc).run data c₁ = .done acc₁ c₂ reach → P c₂ acc₁) (initially : P c acc) :
    P next result := by
  induction folds with
  | @finish c c₁ acc t reach first ends => exact onward reach initially
  | field first goes payload rest ih => exact ih (h (tag_precedes first goes) initially payload)

/-- What holds of an accumulator, and goes on to hold after a field that is read from behind `c`,
holds of the result. -/
lemma Folds.ensures {P : σ → Prop} (folds : Folds step data c acc next result)
    (h : ∀ ⦃t acc c₁ acc₁ c₂⦄ ⦃reach : Cursor.Reaches c₁ c₂⦄, c.Precedes c₁ → P acc →
      (step t acc).run data c₁ = .done acc₁ c₂ reach → P acc₁) (initially : P acc) : P result := by
  have ensured : c.Reaches next ∧ P result := by
    refine folds.ensuresAt (P := fun c₀ acc => c.Reaches c₀ ∧ P acc) ?_ ?_ ⟨.refl c, initially⟩
    · exact fun _ _ _ reach here => ⟨here.1.trans reach, here.2⟩
    · intro t acc c₀ c₁ acc₁ c₂ reach before here payload
      have behind := here.1.trans_precedes before
      exact ⟨behind.reaches.trans reach, h behind here.2 payload⟩
  exact ensured.2

/-- A fold up to a certain tag ends with the tag that it stops at. -/
lemma fieldsUntil_ends_of_stop {stop : Tag → Bool} {t : Tag}
    (first : (tag.run data c).Ends t next) (stops : (t.isEnd || stop t) = true) :
    ((fieldsUntil stop acc step).run data c).Ends (acc, t) next := by
  rw [fieldsUntil_eq, run_bind]
  refine first.andThen fun _ => ?_
  simp only [stops, ↓reduceIte]
  exact ⟨.refl _, rfl⟩

/-- A fold up to a certain tag goes on behind a field in front of it. -/
lemma fieldsUntil_ends_of_field {stop : Tag → Bool} {t : Tag} {c₁ c₂ : Cursor} {acc₁ : σ}
    {result : σ × Tag} (first : (tag.run data c).Ends t c₁) (goes : (t.isEnd || stop t) = false)
    (payload : ((step t acc).run data c₁).Ends acc₁ c₂)
    (rest : ((fieldsUntil stop acc₁ step).run data c₂).Ends result next) :
    ((fieldsUntil stop acc step).run data c).Ends result next := by
  rw [fieldsUntil_eq, run_bind]
  refine first.andThen fun _ => ?_
  simp only [goes, Bool.false_eq_true, ↓reduceIte, run_bind]
  exact payload.andThen fun _ => rest

lemma eval_eq_ok_iff {α : Type} {x : Decoder α} {a : α} :
    x.eval data c = .ok a ↔ ∃ next reach, x.run data c = .done a next reach := by
  rw [eval]
  cases x.run data c with
  | done b next reach =>
    constructor
    · rintro ⟨⟩
      exact ⟨next, reach, rfl⟩
    · rintro ⟨next, reach, ⟨⟩⟩
      rfl
  | failed cause stopped =>
    constructor
    · rintro ⟨⟩
    · rintro ⟨next, reach, ⟨⟩⟩

/-! ### Changed values -/

section Changed

variable {α β : Type}

lemma eval_map (f : α → β) (x : Decoder α) (data : ByteArray) (c : Cursor) :
    (f <$> x).eval data c = f <$> x.eval data c := by
  rw [eval, eval, run_map]
  cases x.run data c with
  | done a next reach => rfl
  | failed cause stopped => rfl

lemma within_map (f : α → β) (length : ℕ) (x : Decoder α) :
    within length (f <$> x) = f <$> within length x := by
  ext data c
  rw [run_map]
  simp only [within, run_map]
  split
  · rfl
  · cases x.run data { c with limit := c.position + length } <;> rfl

lemma sized_map (f : α → β) (x : Decoder α) : sized (f <$> x) = f <$> sized x := by
  simp only [sized, within_map, map_bind]

lemma map_ofExcept (f : α → β) (e : Except DecodeError α) :
    f <$> ofExcept e = ofExcept (f <$> e) := by
  cases e <;> rfl

end Changed

/-! ### What goes on -/

lemma run_bind_congr {α β : Type} {x : Decoder α} {f g : α → Decoder β}
    (h : ∀ a mid reach, x.run data c = .done a mid reach →
      (f a).run data mid = (g a).run data mid) :
    (x >>= f).run data c = (x >>= g).run data c := by
  rw [run_bind, run_bind]
  cases first : x.run data c with
  | failed cause stopped => rfl
  | done a mid reach => simp only [Outcome.andThen, h a mid reach first]

end Decoder

end RoadAtlas
