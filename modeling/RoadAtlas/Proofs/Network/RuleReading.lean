import RoadAtlas.Proofs.Network.Nesting

/-!
Two readers of one section. `RuleTable.read` reads the rules of a section and passes over everything
else; `RoutingSection.read` reads the rules too, and decodes what the other passes over. The readers
find the same rules as long as they leave each field at the same place.

* `Decoder.ComesBy`: the fields that a fold over a message comes by;
* `RoutingSection.InStep`: a field that both readers leave at the same place: a name is a string,
  and a box ends with its block;
* `RoutingSection.step_rules`, `RoutingSection.folds_rules`: the step of one reader gives the step
  of the other, and by induction on the fields so do their runs;
* `RuleTable.read_eq_of_inStep`: the two readers agree on the rules;
* `RuleTable.read_outOfStep`: they may disagree behind a field that they leave at different places.
-/

namespace RoadAtlas

open Decoder

namespace Decoder

variable {α β σ : Type} {step : Tag → σ → Decoder σ} {data : ByteArray} {c next : Cursor}
  {acc result : σ}

/-- A fold over a message comes by the field `t`, whose payload begins at `start` and behind which
it goes on at `stop`. -/
inductive ComesBy (step : Tag → σ → Decoder σ) (data : ByteArray) (t : Tag) (start stop : Cursor) :
    Cursor → σ → Prop
  | here {c : Cursor} {acc acc₁ : σ} {reach : c.Reaches start} {reach₁ : start.Reaches stop}
      (first : tag.run data c = .done t start reach) (goes : ¬ t.isEnd = true)
      (payload : (step t acc).run data start = .done acc₁ stop reach₁) :
      ComesBy step data t start stop c acc
  | later {c c₁ c₂ : Cursor} {acc acc₁ : σ} {u : Tag} {reach : c.Reaches c₁}
      {reach₁ : c₁.Reaches c₂} (first : tag.run data c = .done u c₁ reach)
      (goes : ¬ u.isEnd = true) (payload : (step u acc).run data c₁ = .done acc₁ c₂ reach₁)
      (rest : ComesBy step data t start stop c₂ acc₁) : ComesBy step data t start stop c acc

/-- The first field that a fold comes by is the next one, and the others are behind it. -/
lemma ComesBy.cases_next {t u : Tag} {c₁ c₂ start stop : Cursor} {acc₁ : σ}
    (comesBy : ComesBy step data t start stop c acc) (first : (tag.run data c).Ends u c₁)
    (payload : ((step u acc).run data c₁).Ends acc₁ c₂) :
    (t = u ∧ start = c₁ ∧ stop = c₂) ∨ ComesBy step data t start stop c₂ acc₁ := by
  cases comesBy with
  | here first' goes payload' =>
    obtain ⟨rfl, rfl⟩ := first.unique ⟨_, first'⟩
    obtain ⟨rfl, rfl⟩ := payload.unique ⟨_, payload'⟩
    exact .inl ⟨rfl, rfl, rfl⟩
  | later first' goes payload' rest =>
    obtain ⟨rfl, rfl⟩ := first.unique ⟨_, first'⟩
    obtain ⟨rfl, rfl⟩ := payload.unique ⟨_, payload'⟩
    exact .inr rest

/-- At the end of a region the message ends. -/
lemma isEnd_of_atLimit {t : Tag} {reach : c.Reaches next} (ended : c.atLimit = true)
    (h : tag.run data c = .done t next reach) : t.isEnd = true := by
  simp only [tag, ended, ↓reduceIte] at h
  cases h
  rfl

/-- At the end of its region a fold comes by no field. -/
lemma not_comesBy_of_atLimit {t : Tag} {start stop : Cursor} (ended : c.atLimit = true) :
    ¬ ComesBy step data t start stop c acc := by
  intro comesBy
  cases comesBy with
  | here first goes payload => exact goes (isEnd_of_atLimit ended first)
  | later first goes payload rest => exact goes (isEnd_of_atLimit ended first)

/-- At the end of its region a fold is what has been read. -/
lemma Folds.eq_of_atLimit (folds : Folds step data c acc next result) (ended : c.atLimit = true) :
    result = acc := by
  cases folds with
  | finish first ends => rfl
  | field first goes payload rest => exact absurd (isEnd_of_atLimit ended first) goes

/-! ### What is read and what is passed over -/

/-- A decoder that answers with what another one read ends where that one does. -/
lemma bind_pure_ends {x : Decoder α} {f : α → β} {a : α} (h : (x.run data c).Ends a next) :
    ((do let a ← x; return f a : Decoder β).run data c).Ends (f a) next := by
  rw [run_bind]
  exact h.andThen fun _ => ⟨.refl _, rfl⟩

lemma exists_ends {o : Outcome α c} (ok : o.toExcept.isOk = true) (place : o.cursor = next) :
    ∃ a, o.Ends a next := by
  cases o with
  | done a stop reach =>
    cases place
    exact ⟨a, reach, rfl⟩
  | failed cause stopped => cases ok

/-- A string is passed over as a field with a length. -/
lemma skipField_ends_of_string {t : Tag} {text : String} {reach : c.Reaches next}
    (wire : t.has .lengthDelimited = true) (h : string.run data c = .done text next reach) :
    ((skipField t).run data c).Ends () next := by
  have delimited : WireType.ofCode? t.wire = some .lengthDelimited := by
    rw [beq_iff_eq.mp wire]
    rfl
  obtain ⟨start, _, r, r', ⟨⟩, h⟩ := bind_done h
  obtain ⟨encoded, mid, r₁, r₂, hbytes, h⟩ := bind_done h
  obtain ⟨length, c₁, r₃, r₄, hlength, htake⟩ := bind_done hbytes
  have stays : next = mid := by
    split at h
    · cases h
      rfl
    · cases h
  subst stays
  have passed : ((skip length.toNat).run data c₁).Ends () next := by
    rw [skip, run_bind, htake]
    exact ⟨_, rfl⟩
  rw [skipField, delimited, run_bind, hlength]
  exact Outcome.Ends.andThen ⟨r₃, rfl⟩ fun _ => passed

/-- Bytes inside the region can be passed over. -/
lemma skip_ends {length : ℕ} (addressable : data.size < positionBound) (below : c.limit ≤ data.size)
    (inside : c.position + length ≤ c.limit) :
    ((skip length).run data c).Ends () ⟨c.position + length, c.limit⟩ := by
  have bounded : ¬ positionBound ≤ c.position + length := by omega
  have within : ¬ c.limit < c.position + length := by omega
  rw [skip, run_bind, take]
  simp only [bounded, within, ↓reduceIte]
  exact ⟨_, rfl⟩

end Decoder

/-! ### Fields in step -/

namespace RoutingSection

variable {data : ByteArray} {c next : Cursor} {s s' : RoutingSection} {t : Tag}

/-- Both readers leave the field at the same place: a name has the wire type of a string, and a box
ends with the block that it lies in. -/
structure InStep (data : ByteArray) (t : Tag) (start stop : Cursor) : Prop where
  name : t.field = Format.Section.name → t.has .lengthDelimited = true
  box : t.field = Format.Section.box ∨ t.field = Format.Section.basemapBox →
    ∀ length body, (be32.run data start).Ends length body →
      stop.position = body.position + length.toNat

/-- A box that ends with its block is passed over as a block. -/
lemma skipBlock_ends_of_readRoot {box : Box} {reach : c.Reaches next}
    (addressable : data.size < positionBound) (below : c.limit ≤ data.size)
    (h : Box.readRoot.run data c = .done box next reach)
    (last : ∀ length body, (be32.run data c).Ends length body →
      next.position = body.position + length.toNat) :
    (skipBlock.run data c).Ends () next := by
  obtain ⟨length, body, r, head, fits, -, -⟩ := Nested.root.leavesRegion h
  have stops : next = ⟨body.position + length.toNat, body.limit⟩ :=
    calc next = ⟨next.position, next.limit⟩ := rfl
      _ = ⟨body.position + length.toNat, body.limit⟩ := by
        rw [last length body ⟨r, head⟩, reach.limit_eq, r.limit_eq]
  rw [skipBlock, run_bind, stops]
  refine Outcome.Ends.andThen ⟨r, head⟩ fun _ => ?_
  rw [← r.limit_eq] at below fits
  exact skip_ends addressable below fits

/-- A border box is passed over as a block. -/
lemma skipBlock_ends_of_readRegion {region : Region} {reach : c.Reaches next}
    (h : readRegion.run data c = .done region next reach) :
    (skipBlock.run data c).Ends () next := by
  obtain ⟨length, body, r, r', head, h⟩ := bind_done h
  obtain ⟨offset, _, r₁, r₂, ⟨⟩, h⟩ := bind_done h
  obtain ⟨_, passed, -⟩ := bind_pure_done h
  rw [skipBlock, run_bind]
  exact Outcome.Ends.andThen ⟨r, head⟩ fun _ => ⟨_, passed⟩

/-- A field in front of the data blocks that is in step changes the rules alike for both readers. -/
lemma step_rules {reach : c.Reaches next} (addressable : data.size < positionBound)
    (below : c.limit ≤ data.size) (h : (step t s).run data c = .done s' next reach)
    (before : t.field ≠ Format.Section.block) (inStep : InStep data t c next) :
    ((RuleTable.step t s.rules).run data c).Ends s'.rules next := by
  obtain ⟨field, wire⟩ := t
  rw [step] at h
  dsimp only at h before
  -- what the step of the rule table does in each case, behind what it reads or passes over
  have passes {x : Decoder Unit} (hx : (x.run data c).Ends () next) :
      ((do x; return s.rules : Decoder RuleTable).run data c).Ends s.rules next :=
    bind_pure_ends hx
  split at h
  case h_1 =>
    obtain ⟨name, read, rfl⟩ := bind_pure_done h
    exact passes (skipField_ends_of_string (inStep.name rfl) read)
  case h_2 =>
    obtain ⟨pair, read, rfl⟩ := bind_pure_done h
    have found : (Rule.decoder.run data c).Ends pair next := ⟨_, read⟩
    exact bind_pure_ends found
  case h_3 =>
    obtain ⟨box, read, rfl⟩ := bind_pure_done h
    exact passes (skipBlock_ends_of_readRoot addressable below read (inStep.box (.inl rfl)))
  case h_4 =>
    obtain ⟨box, read, rfl⟩ := bind_pure_done h
    exact passes (skipBlock_ends_of_readRoot addressable below read (inStep.box (.inr rfl)))
  case h_5 =>
    obtain ⟨region, read, rfl⟩ := bind_pure_done h
    exact passes (skipBlock_ends_of_readRegion read)
  case h_6 =>
    obtain ⟨region, read, rfl⟩ := bind_pure_done h
    exact passes (skipBlock_ends_of_readRegion read)
  case h_7 => exact absurd rfl before
  case h_8 noName noRule noBox noBasemapBox noBorder noBasemapBorder _ =>
    obtain ⟨_, passed, rfl⟩ := bind_pure_done h
    rw [RuleTable.step]
    split
    case h_1 same => exact absurd same noRule
    case h_2 same => exact absurd same noBox
    case h_3 same => exact absurd same noBasemapBox
    case h_4 same => exact absurd same noBorder
    case h_5 same => exact absurd same noBasemapBorder
    case h_6 => exact passes ⟨_, passed⟩

/-- The first data block takes the rest of the section along. -/
lemma step_block {reach : c.Reaches next} (block : t.field = Format.Section.block)
    (h : (step t s).run data c = .done s' next reach) : s' = s ∧ next.atLimit = true := by
  obtain ⟨field, wire⟩ := t
  cases block
  obtain ⟨rest, _, r, r', ⟨⟩, h⟩ := bind_done h
  obtain ⟨_, passed, rfl⟩ := bind_pure_done h
  have last := skip_done passed
  have same := reach.limit_eq
  refine ⟨rfl, ?_⟩
  simp only [Cursor.atLimit, decide_eq_true_eq, Cursor.remaining] at last ⊢
  omega

/-- Where all fields are in step, reading the section gives the rules that reading the rules alone
gives. -/
lemma folds_rules (addressable : data.size < positionBound)
    (folds : Folds step data c s next s') (below : c.limit ≤ data.size)
    (inStep : ∀ t start stop, ComesBy step data t start stop c s → InStep data t start stop) :
    ∃ t stop, ((fieldsUntil (fun t => t.field == Format.Section.block) s.rules
      RuleTable.step).run data c).Ends (s'.rules, t) stop := by
  induction folds with
  | @finish c c₁ s t reach first ends =>
    exact ⟨t, c₁, fieldsUntil_ends_of_stop ⟨reach, first⟩ (by rw [ends, Bool.true_or])⟩
  | @field c c₁ c₂ next s s₁ s' t reach reach₁ first goes payload rest ih =>
    rw [← reach.limit_eq] at below
    by_cases block : t.field = Format.Section.block
    · obtain ⟨rfl, ended⟩ := step_block block payload
      obtain rfl := rest.eq_of_atLimit ended
      have stops : (t.isEnd || t.field == Format.Section.block) = true := by simp [block]
      exact ⟨t, c₁, fieldsUntil_ends_of_stop ⟨reach, first⟩ stops⟩
    · have here := step_rules addressable below payload block
        (inStep t c₁ c₂ (.here first goes payload))
      obtain ⟨u, stop, later⟩ := ih (reach₁.limit_eq ▸ below) fun t start stop comesBy =>
        inStep t start stop (.later first goes payload comesBy)
      have on : (t.isEnd || t.field == Format.Section.block) = false := by simp [goes, block]
      exact ⟨u, stop, fieldsUntil_ends_of_field ⟨reach, first⟩ on here later⟩

/-- All fields of a section that its reader comes by are in step. -/
def AllInStep (id : ℕ) (entry : SectionEntry) (data : ByteArray) : Prop :=
  ∀ t start stop, ComesBy step data t start stop ⟨entry.offset, entry.stop⟩
    { id, name := entry.name, offset := entry.offset, length := entry.length } →
      InStep data t start stop

end RoutingSection

namespace RuleTable

/-- When a section is read, and both readers leave each of its fields at the same place, then
reading its rules alone succeeds as well and gives the same table. -/
theorem read_eq_of_inStep {id : ℕ} {entry : SectionEntry} {data : ByteArray} {s : RoutingSection}
    (addressable : data.size < positionBound) (found : RoutingSection.read id entry data = .ok s)
    (inStep : RoutingSection.AllInStep id entry data) : read entry data = .ok s.rules := by
  obtain ⟨kind, inside, decoded⟩ := SectionEntry.decode_eq_ok_iff.mp found
  obtain ⟨next, reach, run⟩ := eval_eq_ok_iff.mp decoded
  obtain ⟨t, stop, rules⟩ :=
    RoutingSection.folds_rules addressable (folds_of_run run) inside inStep
  refine SectionEntry.decode_eq_ok_iff.mpr ⟨kind, inside, ?_⟩
  rw [eval, decoder, run_map]
  exact rules.map.toExcept_eq

/-- A section with a name, an empty box and a rule. -/
def inStepSample : ByteArray :=
  ⟨#[10, 1, 110, 29, 0, 0, 0, 0, 18, 6, 26, 1, 104, 42, 1, 98]⟩

/-- The fields of the sample are in step. -/
lemma inStepSample_allInStep :
    RoutingSection.AllInStep 0 ⟨.routing, "", 0, 16⟩ inStepSample := by
  intro t start stop comesBy
  have length : (be32.run inStepSample ⟨4, 16⟩).Ends 0 ⟨8, 16⟩ :=
    Outcome.exists_done (by decide +kernel) (by decide +kernel)
  have name : (string.run inStepSample ⟨1, 16⟩).Ends "n" ⟨3, 16⟩ :=
    Outcome.exists_done (by decide +kernel) (by decide +kernel)
  obtain ⟨box, root⟩ : ∃ box, (Box.readRoot.run inStepSample ⟨4, 16⟩).Ends box ⟨8, 16⟩ :=
    exists_ends (by decide +kernel) (by decide +kernel)
  have rule : (Rule.decoder.run inStepSample ⟨9, 16⟩).Ends ("h", "b") ⟨16, 16⟩ :=
    Outcome.exists_done (by decide +kernel) (by decide +kernel)
  have nameTag : (tag.run inStepSample ⟨0, 16⟩).Ends ⟨1, 2⟩ ⟨1, 16⟩ :=
    Outcome.exists_done (by decide +kernel) (by decide +kernel)
  have boxTag : (tag.run inStepSample ⟨3, 16⟩).Ends ⟨3, 5⟩ ⟨4, 16⟩ :=
    Outcome.exists_done (by decide +kernel) (by decide +kernel)
  have ruleTag : (tag.run inStepSample ⟨8, 16⟩).Ends ⟨2, 2⟩ ⟨9, 16⟩ :=
    Outcome.exists_done (by decide +kernel) (by decide +kernel)
  rcases comesBy.cases_next nameTag (bind_pure_ends name) with ⟨rfl, rfl, rfl⟩ | comesBy
  · exact ⟨fun _ => rfl, fun box => absurd box (by decide)⟩
  rcases comesBy.cases_next boxTag (bind_pure_ends root) with ⟨rfl, rfl, rfl⟩ | comesBy
  · refine ⟨by decide, fun _ length' body head => ?_⟩
    obtain ⟨rfl, rfl⟩ := length.unique head
    rfl
  rcases comesBy.cases_next ruleTag (bind_pure_ends rule) with ⟨rfl, rfl, rfl⟩ | comesBy
  · exact ⟨by decide, fun box => absurd box (by decide)⟩
  exact absurd comesBy (not_comesBy_of_atLimit rfl)

theorem read_eq_of_inStep_sample :
    ∃ s, RoutingSection.read 0 ⟨.routing, "", 0, 16⟩ inStepSample = .ok s ∧
      read ⟨.routing, "", 0, 16⟩ inStepSample = .ok s.rules := by
  have ⟨s, found, _⟩ : ∃ s ∈ (RoutingSection.read 0 ⟨.routing, "", 0, 16⟩
      inStepSample).toOption, True := by decide +kernel
  have found := eq_ok_of_mem_toOption found
  exact ⟨s, found, read_eq_of_inStep (by decide) found inStepSample_allInStep⟩

/-- The readers disagree behind a name that is not a string, which one of them reads as a string and
the other passes over by its wire type, and behind a box that a tag of field 0 ends in front of the
end of its block. -/
theorem read_outOfStep :
    (∃ s, RoutingSection.read 0 ⟨.routing, "", 0, 4⟩ ⟨#[8, 2, 18, 0]⟩ = .ok s ∧
      read ⟨.routing, "", 0, 4⟩ ⟨#[8, 2, 18, 0]⟩ ≠ .ok s.rules) ∧
    ∃ s, RoutingSection.read 0 ⟨.routing, "", 0, 8⟩ ⟨#[29, 0, 0, 0, 3, 0, 18, 0]⟩ = .ok s ∧
      read ⟨.routing, "", 0, 8⟩ ⟨#[29, 0, 0, 0, 3, 0, 18, 0]⟩ ≠ .ok s.rules := by
  have ⟨s, found, differs⟩ :
    ∃ s ∈ (RoutingSection.read 0 ⟨.routing, "", 0, 4⟩ ⟨#[8, 2, 18, 0]⟩).toOption,
      read ⟨.routing, "", 0, 4⟩ ⟨#[8, 2, 18, 0]⟩ ≠ .ok s.rules := by decide +kernel
  have ⟨s', found', differs'⟩ :
    ∃ s ∈ (RoutingSection.read 0 ⟨.routing, "", 0, 8⟩ ⟨#[29, 0, 0, 0, 3, 0, 18, 0]⟩).toOption,
      read ⟨.routing, "", 0, 8⟩ ⟨#[29, 0, 0, 0, 3, 0, 18, 0]⟩ ≠ .ok s.rules := by decide +kernel
  exact ⟨⟨s, eq_ok_of_mem_toOption found, differs⟩, s', eq_ok_of_mem_toOption found', differs'⟩

end RuleTable

end RoadAtlas
