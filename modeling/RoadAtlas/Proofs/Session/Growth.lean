import Mathlib.Data.Finset.Card
import RoadAtlas.Proofs.Session.Steps

/-!
What a session keeps while it works. Nothing that it has found out is given up but the results, and
these only when a parameter is set; so a ruleset that is evaluated again for the same types asks for
the same values.

* `Session.Grows`: a session of which nothing is given up answers as it did;
* `Session.settleAll_leaves`, `Session.readAll_leaves`: what finding universal ids and reading values
  have nothing to do with;
* `Session.SettledFor`: nothing is left to be found out for a ruleset.
-/

namespace RoadAtlas

namespace Session

/-- The values that a ruleset asks for when it is evaluated for some types of a section. -/
def valuesFor (s : Session) (kind : RulesetKind) (sectionId : ℕ) (types : List UInt32) :
    List (ℕ × Quantity) :=
  s.valuesAsked (s.profile.ruleset kind) (s.universalSet sectionId types)

lemma valuesFor_congr {s : Session} {kind : RulesetKind} {sectionId : ℕ}
    {types types' : List UInt32} (same : ∀ type, type ∈ types ↔ type ∈ types') :
    s.valuesFor kind sectionId types = s.valuesFor kind sectionId types' := by
  have sets : s.universalSet sectionId types = s.universalSet sectionId types' :=
    TypeSet.ext_mem fun id => by
      simp only [universalSet, TypeSet.mem_ofList, List.mem_filterMap, same]
  rw [valuesFor, valuesFor, sets]

/-! ### Sessions that give nothing up -/

/-- The value of a registered id does not depend on what else is registered. -/
lemma valueGiven_eq_of_extends {s s' : Session} (registry : s.registry.Extends s'.registry)
    (values : s'.values = s.values) {id : ℕ} (registered : s.registry.pair? id ≠ none)
    (quantity : Quantity) : s'.valueGiven id quantity = s.valueGiven id quantity := by
  rw [valueGiven_eq, valueGiven_eq, values, Registry.value, Registry.value,
    registry.pair?_eq_of_ne_none registered]

/-- Of what a session knows nothing is given up, and it goes on to answer as it did. -/
structure Grows (s s' : Session) : Prop where
  profile : s'.profile = s.profile
  parameter : s'.parameter? = s.parameter?
  registry : s.registry.Extends s'.registry
  isAttached : ∀ sectionId, s.isAttached sectionId → s'.isAttached sectionId
  settled : ∀ sectionId type, s.isAttached sectionId → s.Settled sectionId type →
    s'.Settled sectionId type ∧ s'.universalId? sectionId type = s.universalId? sectionId type
  valueGiven : ∀ id quantity, s.registry.pair? id ≠ none →
    s'.valueGiven id quantity = s.valueGiven id quantity

/-- All universal ids that a session keeps are registered. -/
def KeepsRegistered (s : Session) : Prop :=
  ∀ sectionId type id, s.universalId? sectionId type = some id → s.registry.pair? id ≠ none

namespace Grows

variable {s s' s'' : Session} {sectionId : ℕ}

lemma refl (s : Session) : s.Grows s :=
  ⟨rfl, rfl, .refl _, fun _ known => known, fun _ _ _ settled => ⟨settled, rfl⟩, fun _ _ _ => rfl⟩

lemma trans (h : s.Grows s') (h' : s'.Grows s'') : s.Grows s'' where
  profile := h'.profile.trans h.profile
  parameter := h'.parameter.trans h.parameter
  registry := h.registry.trans h'.registry
  isAttached sectionId known := h'.isAttached sectionId (h.isAttached sectionId known)
  settled sectionId type known settled := by
    obtain ⟨settled', same⟩ := h.settled sectionId type known settled
    obtain ⟨settled'', same'⟩ :=
      h'.settled sectionId type (h.isAttached sectionId known) settled'
    exact ⟨settled'', same'.trans same⟩
  valueGiven id quantity registered :=
    (h'.valueGiven id quantity (h.registry.pair?_ne_none registered)).trans
      (h.valueGiven id quantity registered)

/-- Results may be kept, work counted, roads avoided and pairs registered. -/
lemma of_same (profile : s'.profile = s.profile) (parameter : s'.parameter? = s.parameter?)
    (registry : s.registry.Extends s'.registry) (sections : s'.sections = s.sections)
    (values : s'.values = s.values) : s.Grows s' where
  profile := profile
  parameter := parameter
  registry := registry
  isAttached sectionId known := by rwa [Session.isAttached, sections]
  settled sectionId type known settled := by
    rw [Settled, universalId?, rulesOf, sections]
    exact ⟨settled, rfl⟩
  valueGiven _ quantity registered := valueGiven_eq_of_extends registry values registered quantity

/-- A section may become known. -/
lemma attach (s : Session) (sectionId : ℕ) (rules : RuleTable) :
    s.Grows (s.attach sectionId rules) := by
  rw [Session.attach]
  split
  · exact refl s
  next unknown =>
    have others : ∀ j, s.isAttached j →
        (s.sections.insert sectionId { rules }).get? j = s.sections.get? j := by
      intro j known
      rw [SortedMap.get?_insert, if_neg]
      rintro rfl
      exact unknown known
    refine ⟨rfl, rfl, .refl _, fun j known => ?_, fun j type known settled => ?_, fun _ _ _ => ?_⟩
    · rwa [Session.isAttached, others j known]
    · rw [Settled, universalId?, rulesOf, others j known]
      exact ⟨settled, rfl⟩
    · rw [valueGiven_eq, valueGiven_eq]

/-- Universal ids may be found. -/
lemma settleAll (s : Session) (sectionId : ℕ) (types : List UInt32) :
    s.Grows (s.settleAll sectionId types) := by
  refine settleAll_induction (P := fun s' => s.Grows s') ?_ types (refl s)
  intro s' known type rule found new given grown
  have registry := Registry.extends_register s'.registry rule.pair
  refine grown.trans ⟨rfl, rfl, registry, fun j isKnown => ?_, fun j other _ settled => ?_, ?_⟩
  · rwa [isAttached_keepUniversal found]
  · exact settled_keepUniversal found new given settled
  · intro id quantity registered
    refine valueGiven_eq_of_extends ?_ ?_ registered quantity
    · exact registry
    · rfl

/-- Values may be read. -/
lemma readAll (s : Session) (asked : List (ℕ × Quantity)) : s.Grows (s.readAll asked) := by
  have same := s.readAll_differsInValues asked
  refine ⟨same.profile, ?_, ?_, fun j known => ?_, fun j type _ settled => ?_, fun _ _ _ => ?_⟩
  · funext name
    rw [parameter?, parameter?, same.parameters, same.profile]
  · rw [same.registry]
    exact .refl _
  · rwa [Session.isAttached, same.sections]
  · rw [Settled, universalId?, rulesOf, same.sections]
    exact ⟨settled, rfl⟩
  · rw [valueGiven_readAll]

/-- A ruleset goes on to ask for the same values for types that are settled. -/
lemma valuesFor_eq (grows : s.Grows s') (keeps : s.KeepsRegistered)
    (known : s.isAttached sectionId) {types : List UInt32}
    (settled : ∀ type ∈ types, s.Settled sectionId type) (kind : RulesetKind) :
    s'.valuesFor kind sectionId types = s.valuesFor kind sectionId types := by
  have sets : s'.universalSet sectionId types = s.universalSet sectionId types := by
    rw [universalSet, universalSet, List.filterMap_congr fun type ht =>
      (grows.settled sectionId type known (settled type ht)).2]
  -- only the values of registered ids are known to stay, so none of the ids may be unregistered
  have registered : ∀ id ∈ s.universalSet sectionId types, s.registry.pair? id ≠ none := by
    intro id hid
    rw [universalSet, TypeSet.mem_ofList, List.mem_filterMap] at hid
    obtain ⟨type, -, kept⟩ := hid
    exact keeps sectionId type id kept
  have same : s'.noting.Corresponds (.equal _) s.noting (s.universalSet sectionId types) := by
    constructor
    case tagged =>
      intro id hid tag
      obtain ⟨pair, found⟩ := Option.ne_none_iff_exists'.mp (registered id hid)
      exact grows.registry.isTagged_eq found tag
    case parameter => exact congrFun grows.parameter
    case typeValue =>
      intro id hid quantity _
      have given := grows.valueGiven id quantity (registered id hid)
      simp only [Correspondence.equal, noting, given]
  rw [valuesFor, valuesFor, grows.profile, sets, valuesAsked, valuesAsked,
    Ruleset.evaluate_corresponds same]

end Grows

/-! ### What a step leaves alone -/

lemma universalId?_attach (s : Session) (sectionId : ℕ) (rules : RuleTable) (j : ℕ) (type : UInt32) :
    (s.attach sectionId rules).universalId? j type = s.universalId? j type := by
  rw [attach]
  split
  · rfl
  next unknown =>
    rw [universalId?, universalId?, SortedMap.get?_insert]
    split
    next same =>
      subst same
      rw [isAttached, Option.not_isSome_iff_eq_none] at unknown
      rw [unknown]
      rfl
    next => rfl

/-- Finding universal ids reads no value and evaluates nothing. -/
lemma settleAll_leaves (s : Session) (sectionId : ℕ) (types : List UInt32) :
    let s' := s.settleAll sectionId types
    s'.values = s.values ∧ s'.results = s.results ∧
      s'.statistics.valuesParsed = s.statistics.valuesParsed ∧
      s'.statistics.evaluations = s.statistics.evaluations ∧
      s'.statistics.resultsReused = s.statistics.resultsReused :=
  settleAll_induction (P := fun s' => s'.values = s.values ∧ s'.results = s.results ∧
      s'.statistics.valuesParsed = s.statistics.valuesParsed ∧
      s'.statistics.evaluations = s.statistics.evaluations ∧
      s'.statistics.resultsReused = s.statistics.resultsReused)
    (fun _ _ _ _ _ _ _ same => same) types ⟨rfl, rfl, rfl, rfl, rfl⟩

/-- Reading values finds no universal id and evaluates nothing. -/
lemma readAll_leaves (s : Session) (asked : List (ℕ × Quantity)) :
    let s' := s.readAll asked
    s'.statistics.typesResolved = s.statistics.typesResolved ∧
      s'.statistics.evaluations = s.statistics.evaluations ∧
      s'.statistics.resultsReused = s.statistics.resultsReused := by
  induction asked generalizing s with
  | nil => exact ⟨rfl, rfl, rfl⟩
  | cons a rest ih =>
    obtain ⟨types, evaluations, reused⟩ := ih (s.after (value a.1 a.2))
    have first : let s' := s.after (value a.1 a.2)
        s'.statistics.typesResolved = s.statistics.typesResolved ∧
          s'.statistics.evaluations = s.statistics.evaluations ∧
          s'.statistics.resultsReused = s.statistics.resultsReused := by
      rw [after_value]
      split
      · exact ⟨rfl, rfl, rfl⟩
      · exact ⟨rfl, rfl, rfl⟩
    exact ⟨types.trans first.1, evaluations.trans first.2.1, reused.trans first.2.2⟩

/-! ### Types that are settled -/

/-- Nothing is left to be found out about some types of a known section, and the values that a ruleset
asks for when it is evaluated for them are among those of a set. -/
structure SettledFor (values : Finset (ℕ × Quantity)) (s : Session) (kind : RulesetKind)
    (sectionId : ℕ) (types : List UInt32) : Prop where
  isAttached : s.isAttached sectionId
  settled : ∀ type ∈ types, s.Settled sectionId type
  values : ∀ a ∈ s.valuesFor kind sectionId types, a ∈ values

lemma SettledFor.grow {s s' : Session} {kind : RulesetKind} {sectionId : ℕ} {types : List UInt32}
    {values values' : Finset (ℕ × Quantity)} (h : s.SettledFor values kind sectionId types)
    (keeps : s.KeepsRegistered) (grows : s.Grows s') (more : values ⊆ values') :
    s'.SettledFor values' kind sectionId types where
  isAttached := grows.isAttached sectionId h.isAttached
  settled type ht := (grows.settled sectionId type h.isAttached (h.settled type ht)).1
  values a ha := by
    rw [grows.valuesFor_eq keeps h.isAttached h.settled] at ha
    exact more (h.values a ha)

end Session

end RoadAtlas
