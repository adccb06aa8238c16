import RoadAtlas.Proofs.Profile.Evaluation
import RoadAtlas.Session.Evaluation

/-!
Results worked out afresh, from a rule table, a registry and parameters alone, and sessions that
keep what they have worked out.

* `Registry.typesOf` is the set of universal ids of some types, `Registry.result` the result of a
  ruleset for it without anything kept;
* `Registry.result_extends`: neither changes while the registry grows;
* `Session.evaluate_answers`: evaluation with kept values answers the fresh result, as long as the
  values that are kept are true.
-/

namespace RoadAtlas

/-- Look-ups without anything kept. -/
def Environment.fresh (registry : Registry) (parameter : String → Option String) :
    Environment Id where
  registry
  parameter
  typeValue id quantity := registry.value id quantity

/-! ### Fresh results -/

/-- The pair that a rule is registered under. -/
def Rule.pair (rule : Rule) : TagPair := (rule.tag, rule.value)

namespace Registry

variable {r r' : Registry} {table : RuleTable} {types types' : List UInt32}

/-- The universal id of a type of a section with a rule table. -/
def typeId? (r : Registry) (table : RuleTable) (type : UInt32) : Option ℕ :=
  (table.get? type).bind fun rule => r.idOf? rule.pair

/-- The universal ids of some types. -/
def typesOf (r : Registry) (table : RuleTable) (types : List UInt32) : TypeSet :=
  .ofList (types.filterMap (r.typeId? table))

/-- Every type that has a rule has a universal id. -/
def Knows (r : Registry) (table : RuleTable) (types : List UInt32) : Prop :=
  ∀ type ∈ types, ∀ rule, table.get? type = some rule → rule.pair ∈ r.pairs

/-- The result of a ruleset for some types of a section, worked out afresh. -/
def result (r : Registry) (profile : Profile) (parameter : String → Option String)
    (table : RuleTable) (kind : RulesetKind) (types : List UInt32) : Option Float :=
  ((profile.ruleset kind).evaluate (.fresh r parameter) (r.typesOf table types)).run

lemma mem_typesOf {id : ℕ} : id ∈ r.typesOf table types ↔
    ∃ type ∈ types, ∃ rule, table.get? type = some rule ∧ r.idOf? rule.pair = some id := by
  rw [typesOf, TypeSet.mem_ofList, List.mem_filterMap]
  simp only [typeId?, Option.bind_eq_some_iff]

lemma knows_nil : r.Knows table [] := fun _ none => nomatch none

lemma knows_cons {type : UInt32} : r.Knows table (type :: types) ↔
    (∀ rule, table.get? type = some rule → rule.pair ∈ r.pairs) ∧ r.Knows table types :=
  List.forall_mem_cons

/-- Only which types there are counts. -/
lemma typesOf_congr (h : ∀ type, type ∈ types ↔ type ∈ types') :
    r.typesOf table types = r.typesOf table types' :=
  TypeSet.ext_mem fun id => by simp only [mem_typesOf, h]

lemma Knows.congr (known : r.Knows table types) (h : ∀ type, type ∈ types ↔ type ∈ types') :
    r.Knows table types' :=
  fun type ht => known type ((h type).mpr ht)

lemma Knows.extends (known : r.Knows table types) (h : r.Extends r') : r'.Knows table types :=
  fun type ht rule hrule => h.mem (known type ht rule hrule)

/-- A registered rule keeps its universal id. -/
lemma typeId?_extends {type : UInt32}
    (known : ∀ rule, table.get? type = some rule → rule.pair ∈ r.pairs) (h : r.Extends r') :
    r'.typeId? table type = r.typeId? table type := by
  cases hrule : table.get? type with
  | none => rw [typeId?, typeId?, hrule]; rfl
  | some rule =>
    obtain ⟨id, found⟩ := exists_idOf?_of_mem (known rule hrule)
    rw [typeId?, typeId?, hrule, Option.bind_some, Option.bind_some, found, h.idOf?_eq found]

/-- Known types keep their universal ids. -/
lemma typesOf_extends (known : r.Knows table types) (h : r.Extends r') :
    r'.typesOf table types = r.typesOf table types := by
  rw [typesOf, typesOf, List.filterMap_congr fun type ht => typeId?_extends (known type ht) h]

/-- A universal id of some types is registered. -/
lemma exists_pair?_of_mem_typesOf {id : ℕ} (h : id ∈ r.typesOf table types) :
    ∃ pair, r.pair? id = some pair := by
  obtain ⟨type, -, rule, -, found⟩ := mem_typesOf.mp h
  exact ⟨_, idOf?_eq_some_iff.mp found⟩

lemma Extends.value_eq {id : ℕ} {pair : TagPair} (h : r.Extends r') (found : r.pair? id = some pair)
    (quantity : Quantity) : r'.value id quantity = r.value id quantity := by
  rw [value, value, found, h.pair?_eq found]

/-- Results for known types stay what they are while the registry grows. -/
lemma result_extends {profile : Profile} {parameter : String → Option String} {kind : RulesetKind}
    (known : r.Knows table types) (h : r.Extends r') :
    r'.result profile parameter table kind types = r.result profile parameter table kind types := by
  rw [result, result, typesOf_extends known h]
  have agrees : (Environment.fresh r' parameter).Agrees .pureOnly (.fresh r parameter)
      (r.typesOf table types) :=
    { tagged := fun id hid tag => by
        obtain ⟨pair, found⟩ := exists_pair?_of_mem_typesOf hid
        exact h.isTagged_eq found tag
      parameter := fun _ => rfl
      typeValue := fun id hid quantity => by
        obtain ⟨pair, found⟩ := exists_pair?_of_mem_typesOf hid
        exact h.value_eq found quantity }
  exact Ruleset.evaluate_gives agrees _

/-- Only which types there are counts for a result. -/
lemma result_congr {profile : Profile} {parameter : String → Option String} {kind : RulesetKind}
    (h : ∀ type, type ∈ types ↔ type ∈ types') :
    r.result profile parameter table kind types = r.result profile parameter table kind types' := by
  rw [result, result, typesOf_congr h]

end Registry

/-! ### Results with kept values -/

namespace Session

/-- Every value that is kept is the value of a registered pair. -/
def ValuesTrue (s : Session) : Prop :=
  ∀ id quantity value, s.values.get? (id, quantity) = some value →
    (∃ pair, s.registry.pair? id = some pair) ∧ value = s.registry.value id quantity

/-- `s'` is `s` with other values kept and other work counted. -/
structure DiffersInValues (s s' : Session) : Prop where
  profile : s'.profile = s.profile
  registry : s'.registry = s.registry
  parameters : s'.parameters = s.parameters
  avoided : s'.avoided = s.avoided
  sections : s'.sections = s.sections
  results : s'.results = s.results

lemma DiffersInValues.refl (s : Session) : s.DiffersInValues s := ⟨rfl, rfl, rfl, rfl, rfl, rfl⟩

lemma DiffersInValues.trans {s s' s'' : Session} (h : s.DiffersInValues s')
    (h' : s'.DiffersInValues s'') : s.DiffersInValues s'' :=
  ⟨h'.profile.trans h.profile, h'.registry.trans h.registry, h'.parameters.trans h.parameters,
    h'.avoided.trans h.avoided, h'.sections.trans h.sections, h'.results.trans h.results⟩

lemma run_modifyGet {α : Type} (f : Session → α × Session) (s : Session) :
    (modifyGet f : StateM Session α).run s = f s := rfl

/-- From a session like `s` whose values are true, a program answers `a` and leaves such a session
behind. -/
def Answers (s : Session) {α : Type} (x : StateM Session α) (a : α) : Prop :=
  ∀ s₁, s.DiffersInValues s₁ → s₁.ValuesTrue →
    (x.run s₁).1 = a ∧ s.DiffersInValues (x.run s₁).2 ∧ (x.run s₁).2.ValuesTrue

/-- Answers follow the making of programs. -/
def answering (s : Session) : Simulation (StateM Session) where
  gives x a := s.Answers x a
  pure a := fun s₁ same holds => ⟨rfl, same, holds⟩
  bind := by
    intro α β x f a b hx hf s₁ same holds
    obtain ⟨rfl, same', holds'⟩ := hx s₁ same holds
    exact hf _ same' holds'

/-- A true value may be kept. -/
lemma ValuesTrue.store {s : Session} {id : ℕ} {pair : TagPair} {quantity : Quantity}
    {statistics : Statistics} (holds : s.ValuesTrue) (found : s.registry.pair? id = some pair) :
    ValuesTrue { s with
      values := s.values.store (id, quantity) (s.registry.value id quantity)
      statistics } := by
  intro id' quantity' v hv
  rw [Memo.get?_store] at hv
  split at hv
  next same =>
    cases same
    cases hv
    exact ⟨⟨pair, found⟩, rfl⟩
  next => exact holds id' quantity' v hv

/-- Values are answered as they are, whether they were kept or not. -/
lemma value_answers {s : Session} {id : ℕ} {pair : TagPair}
    (found : s.registry.pair? id = some pair) (quantity : Quantity) :
    s.Answers (value id quantity) (s.registry.value id quantity) := by
  intro s₁ same holds
  rw [value, run_modifyGet, ← same.registry]
  cases kept : s₁.values.get? (id, quantity) with
  | some v => exact ⟨(holds id quantity v kept).2, same, holds⟩
  | none =>
    refine ⟨rfl, same.trans ⟨rfl, rfl, rfl, rfl, rfl, rfl⟩, ?_⟩
    exact holds.store (same.registry ▸ found)

/-- What a session looks up gives what is found out afresh. -/
lemma environment_agrees (s : Session) (table : RuleTable) (types : List UInt32) :
    s.environment.Agrees s.answering (.fresh s.registry s.parameter?)
      (s.registry.typesOf table types) where
  tagged _ _ _ := rfl
  parameter _ := rfl
  typeValue id hid quantity := by
    obtain ⟨pair, found⟩ := Registry.exists_pair?_of_mem_typesOf hid
    exact value_answers found quantity

/-- Evaluation with kept values answers the fresh result. -/
lemma evaluate_answers (s : Session) (table : RuleTable) (kind : RulesetKind)
    (types : List UInt32) :
    s.Answers ((s.profile.ruleset kind).evaluate s.environment (s.registry.typesOf table types))
      (s.registry.result s.profile s.parameter? table kind types) :=
  Ruleset.evaluate_gives (s.environment_agrees table types) _

end Session

end RoadAtlas
