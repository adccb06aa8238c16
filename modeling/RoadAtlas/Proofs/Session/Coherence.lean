import RoadAtlas.Proofs.Session.Fresh
import RoadAtlas.Proofs.Session.History
import RoadAtlas.Proofs.SortedMap

/-!
Sessions that keep only what is true. Universal ids, results and values are kept in three places and
given up at different times, while the registry grows.

* `Session.Coherent`: everything a session keeps is what would be worked out afresh from its
  history;
* `Coherent.grow`, `Coherent.setParameter`, `Coherent.attach`, …: a session stays coherent whatever
  changes, and whatever true result it keeps.
-/

namespace RoadAtlas

namespace Session

/-- What a session keeps is true of its history: its sections have the tables that were given first,
its settings are the last ones, and universal ids, results and values are as they would be found
out now. -/
structure Coherent (profile : Profile) (h : History) (s : Session) : Prop where
  profile_eq : s.profile = profile
  rules : ∀ sectionId, (s.sections.get? sectionId).map BoundSection.rules = h.table? sectionId
  universal : ∀ sectionId known type id, s.sections.get? sectionId = some known →
    known.universal.get? type = some id →
      ∃ rule, known.rules.get? type = some rule ∧ s.registry.idOf? rule.pair = some id
  parameters : ∀ name, s.parameters.get? name = h.setting? name
  avoided : ∀ roadId, roadId ∈ s.avoided ↔ roadId ∈ h.avoided
  values : s.ValuesTrue
  results : ∀ key result, s.results.get? key = some result →
    ∃ table, h.table? key.sectionId = some table ∧ s.registry.Knows table key.types ∧
      result = s.registry.result profile (h.parameter? profile) table key.kind key.types

variable {profile : Profile} {h h' : History} {s s' : Session}

/-- A session in which nothing has been done yet keeps nothing. -/
lemma start_coherent (profile : Profile) (registry : Registry) :
    Coherent profile {} (start profile registry) where
  profile_eq := rfl
  rules _ := rfl
  universal _ _ _ _ none := nomatch none
  parameters _ := rfl
  avoided _ := Iff.rfl
  values _ _ _ none := nomatch none
  results _ _ none := nomatch none

namespace Coherent

lemma isAttached_eq (c : Coherent profile h s) (sectionId : ℕ) :
    s.isAttached sectionId = (h.table? sectionId).isSome := by
  rw [isAttached, ← c.rules, Option.isSome_map]

lemma parameter?_eq (c : Coherent profile h s) : s.parameter? = h.parameter? profile := by
  funext name
  rw [parameter?, History.parameter?, c.parameters, c.profile_eq]

/-! ### Steps that change nothing of interest -/

/-- Of a history only the look-ups count. -/
lemma of_tables (c : Coherent profile h s) (tables : ∀ j, h'.table? j = h.table? j)
    (settings : h'.settings = h.settings) (avoided : h'.avoided = h.avoided) :
    Coherent profile h' s := by
  have parameter : h'.parameter? profile = h.parameter? profile := by
    funext name
    rw [History.parameter?, History.parameter?, History.setting?, History.setting?, settings]
  constructor
  case profile_eq => exact c.profile_eq
  case rules => exact fun j => (c.rules j).trans (tables j).symm
  case universal => exact c.universal
  case parameters =>
    intro name
    rw [c.parameters, History.setting?, History.setting?, settings]
  case avoided =>
    intro roadId
    rw [c.avoided, avoided]
  case values => exact c.values
  case results =>
    intro key result kept
    rw [tables, parameter]
    exact c.results key result kept

/-- Values may be kept and work counted. -/
lemma of_values (c : Coherent profile h s) (same : s.DiffersInValues s') (values : s'.ValuesTrue) :
    Coherent profile h s' := by
  constructor
  case profile_eq => exact same.profile.trans c.profile_eq
  case rules => exact same.sections ▸ c.rules
  case universal =>
    rw [same.sections, same.registry]
    exact c.universal
  case parameters => exact same.parameters ▸ c.parameters
  case avoided => exact same.avoided ▸ c.avoided
  case values => exact values
  case results =>
    rw [same.results, same.registry]
    exact c.results

/-- Work may be counted. -/
lemma count (c : Coherent profile h s) (statistics : Statistics) :
    Coherent profile h { s with statistics } :=
  c.of_values ⟨rfl, rfl, rfl, rfl, rfl, rfl⟩ c.values

/-- The registry may grow. -/
lemma grow (c : Coherent profile h s) {registry : Registry} (grown : s.registry.Extends registry) :
    Coherent profile h { s with registry } := by
  constructor
  case profile_eq => exact c.profile_eq
  case rules => exact c.rules
  case universal =>
    intro sectionId known type id hknown hid
    obtain ⟨rule, hrule, found⟩ := c.universal sectionId known type id hknown hid
    exact ⟨rule, hrule, grown.idOf?_eq found⟩
  case parameters => exact c.parameters
  case avoided => exact c.avoided
  case values =>
    intro id quantity value kept
    obtain ⟨⟨pair, found⟩, rfl⟩ := c.values id quantity value kept
    exact ⟨⟨pair, grown.pair?_eq found⟩, (grown.value_eq found quantity).symm⟩
  case results =>
    intro key result kept
    obtain ⟨table, first, known, rfl⟩ := c.results key result kept
    exact ⟨table, first, known.extends grown, (Registry.result_extends known grown).symm⟩

/-! ### Settings -/

lemma setParameter (c : Coherent profile h s) (name value : String) :
    Coherent profile { h with settings := h.settings ++ [(name, value)] }
      (s.setParameter name value) := by
  constructor
  case profile_eq => exact c.profile_eq
  case rules => exact c.rules
  case universal => exact c.universal
  case parameters =>
    intro j
    rw [History.setting?_set, ← c.parameters]
    exact SortedMap.get?_insert _ _ _ _
  case avoided => exact c.avoided
  case values => exact c.values
  case results => exact fun _ _ none => nomatch none

lemma avoid (c : Coherent profile h s) (roadId : Int64) :
    Coherent profile { h with avoided := h.avoided ++ [roadId] } (s.avoid roadId) := by
  constructor
  case profile_eq => exact c.profile_eq
  case rules => exact c.rules
  case universal => exact c.universal
  case parameters => exact c.parameters
  case avoided =>
    intro j
    rw [List.mem_append, List.mem_singleton, ← c.avoided]
    exact List.mem_insert_iff.trans Or.comm
  case values => exact c.values
  case results => exact c.results

/-! ### Sections -/

/-- A section becomes known by the table that is given for it. -/
lemma insertSection (c : Coherent profile h s) {sectionId : ℕ} (rules : RuleTable)
    (unknown : h.table? sectionId = none) :
    Coherent profile (h.offer sectionId (some rules))
      { s with sections := s.sections.insert sectionId { rules } } := by
  constructor
  case profile_eq => exact c.profile_eq
  case rules =>
    intro j
    rw [SortedMap.get?_insert, History.table?_offer]
    split
    next same => rw [same, unknown]; rfl
    next => rw [c.rules, Option.or_none]
  case universal =>
    intro j known type id hknown hid
    rw [SortedMap.get?_insert] at hknown
    split at hknown
    · cases hknown
      exact nomatch hid
    · exact c.universal j known type id hknown hid
  case parameters => exact c.parameters
  case avoided => exact c.avoided
  case values => exact c.values
  case results =>
    intro key result kept
    obtain ⟨table, first, known, found⟩ := c.results key result kept
    exact ⟨table, History.table?_offer_of_eq_some first _, known, found⟩

lemma attach (c : Coherent profile h s) (sectionId : ℕ) (rules : RuleTable) :
    Coherent profile (h.offer sectionId (some rules)) (s.attach sectionId rules) := by
  rw [Session.attach, c.isAttached_eq]
  split
  next known => exact c.of_tables (History.table?_offer_of_isSome known _) rfl rfl
  next unknown => exact c.insertSection rules (Option.not_isSome_iff_eq_none.mp unknown)

/-! ### Universal types -/

/-- A type's universal id may be kept. -/
lemma keepUniversal (c : Coherent profile h s) {sectionId : ℕ} {known : BoundSection}
    (hknown : s.sections.get? sectionId = some known) {type : UInt32} {rule : Rule}
    (hrule : known.rules.get? type = some rule) {id : ℕ}
    (hid : s.registry.idOf? rule.pair = some id) :
    Coherent profile h { s with
      sections := s.sections.insert sectionId
        { known with universal := known.universal.insert type id } } := by
  constructor
  case profile_eq => exact c.profile_eq
  case rules =>
    intro j
    rw [SortedMap.get?_insert]
    split
    next same => rw [same, ← c.rules, hknown]; rfl
    next => exact c.rules j
  case universal =>
    intro j known' type' id' hknown' hid'
    rw [SortedMap.get?_insert] at hknown'
    split at hknown'
    next same =>
      cases hknown'
      rw [SortedMap.get?_insert] at hid'
      split at hid'
      next same' =>
        cases hid'
        rw [same']
        exact ⟨rule, hrule, hid⟩
      next => exact c.universal sectionId known type' id' hknown hid'
    next => exact c.universal j known' type' id' hknown' hid'
  case parameters => exact c.parameters
  case avoided => exact c.avoided
  case values => exact c.values
  case results => exact c.results

/-- A result may be kept. -/
lemma keepResult (c : Coherent profile h s) {key : ResultKey} {table : RuleTable}
    (first : h.table? key.sectionId = some table) (known : s.registry.Knows table key.types) :
    Coherent profile h { s with
      results := s.results.store key
        (s.registry.result profile (h.parameter? profile) table key.kind key.types) } := by
  constructor
  case profile_eq => exact c.profile_eq
  case rules => exact c.rules
  case universal => exact c.universal
  case parameters => exact c.parameters
  case avoided => exact c.avoided
  case values => exact c.values
  case results =>
    intro key' result kept
    rw [Memo.get?_store] at kept
    split at kept
    next same =>
      cases kept
      rw [same]
      exact ⟨table, first, known, rfl⟩
    next => exact c.results key' result kept

end Coherent

end Session

end RoadAtlas
