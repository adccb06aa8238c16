import RoadAtlas.Proofs.Session.Coherence

/-!
What a session keeps does not show in its answers.

* `Session.Leads` says that a program keeps a session coherent and answers as it should, and
  `Coherent.evaluate_leads` that evaluation does;
* `Session.performAll_coherent`: every session is coherent after any operations;
* `Session.evaluate_eq_fresh`: whatever came before, a result is the one worked out afresh.
-/

namespace RoadAtlas

namespace Session

variable {profile : Profile} {h h' : History} {s s' : Session}

/-! ### Programs -/

/-- A program leaves a coherent session behind whose registry has grown at most, and its answer is
one that goes with that registry. -/
structure Leads (profile : Profile) (h : History) (s : Session) {α : Type} (x : StateM Session α)
    (Q : α → Registry → Prop) : Prop where
  coherent : Coherent profile h (s.after x)
  grows : s.registry.Extends (s.after x).registry
  answer : Q (x.run s).1 (s.after x).registry

namespace Leads

variable {α β : Type} {x : StateM Session α} {f : α → StateM Session β} {Q : α → Registry → Prop}
  {Q' : β → Registry → Prop}

lemma of_run {a : α} (run : x.run s = (a, s')) (c : Coherent profile h s')
    (grows : s.registry.Extends s'.registry) (answer : Q a s'.registry) :
    Leads profile h s x Q := by
  constructor
  case coherent => rwa [after, run]
  case grows => rwa [after, run]
  case answer => rwa [after, run]

lemma pure (c : Coherent profile h s) {a : α} (answer : Q a s.registry) :
    Leads profile h s (pure a) Q :=
  ⟨c, .refl _, answer⟩

lemma bind (hx : Leads profile h' s x Q)
    (hf : ∀ a s', Coherent profile h' s' → Q a s'.registry → s.registry.Extends s'.registry →
      Leads profile h s' (f a) Q') : Leads profile h s (x >>= f) Q' := by
  have next := hf _ _ hx.coherent hx.answer hx.grows
  exact ⟨next.coherent, hx.grows.trans next.grows, next.answer⟩

lemma get_bind {f : Session → StateM Session β} (hf : Leads profile h s (f s) Q') :
    Leads profile h s (get >>= f) Q' :=
  ⟨hf.coherent, hf.grows, hf.answer⟩

lemma modify_bind {g : Session → Session} {f : Unit → StateM Session β}
    (grown : s.registry.Extends (g s).registry) (hf : Leads profile h (g s) (f ()) Q') :
    Leads profile h s (modify g >>= f) Q' :=
  ⟨hf.coherent, grown.trans hf.grows, hf.answer⟩

lemma ite {p : Prop} [Decidable p] {y : StateM Session α} (hx : Leads profile h s x Q)
    (hy : Leads profile h s y Q) : Leads profile h s (if p then x else y) Q := by
  split
  · exact hx
  · exact hy

lemma step (hx : Leads profile h s x Q) :
    Coherent profile h (s.after x) ∧ s.registry.Extends (s.after x).registry :=
  ⟨hx.coherent, hx.grows⟩

/-- To give the table of a road twice is to give it once. -/
lemma offered_twice {road : Road}
    (hx : Leads profile ((h.offerRoad road).offerRoad road) s x Q) :
    Leads profile (h.offerRoad road) s x Q :=
  ⟨hx.coherent.of_tables (fun j => (History.table?_offer_offer _ j).symm) rfl rfl, hx.grows,
    hx.answer⟩

lemma imp (hx : Leads profile h s x Q) {Q' : α → Registry → Prop}
    (hq : ∀ a registry, Q a registry → Q' a registry) : Leads profile h s x Q' :=
  ⟨hx.coherent, hx.grows, hq _ _ hx.answer⟩

end Leads

/-! ### Sections -/

lemma registry_attach (s : Session) (sectionId : ℕ) (rules : RuleTable) :
    (s.attach sectionId rules).registry = s.registry := by
  rw [attach]
  split <;> rfl

/-- A road makes its section known by the table that it carries; whether it is known is answered. -/
lemma Coherent.bind_leads (c : Coherent profile h s) (road : Road) :
    Leads profile (h.offerRoad road) s (Session.bind road) fun isKnown _ =>
      isKnown = ((h.offerRoad road).table? road.sectionId).isSome := by
  rw [History.offerRoad]
  cases known : h.table? road.sectionId with
  | some first =>
    -- the table that the road carries is not looked at
    have isSome : (h.table? road.sectionId).isSome := by rw [known]; rfl
    have run : (Session.bind road).run s = (true, s) := by
      rw [Session.bind, run_modifyGet, c.isAttached_eq, if_pos isSome]
    refine .of_run run (c.of_tables (History.table?_offer_of_isSome isSome _) rfl rfl) (.refl _) ?_
    rw [History.table?_offer_of_eq_some known]
    rfl
  | none =>
    cases given : road.rules with
    | some rules =>
      have run : (Session.bind road).run s = (true, s.attach road.sectionId rules) := by
        rw [Session.bind, run_modifyGet, c.isAttached_eq, known, given]
        rfl
      refine .of_run run (c.attach road.sectionId rules) ?_ ?_
      · rw [registry_attach]
        exact .refl _
      · rw [History.table?_offer, known, if_pos rfl]
        rfl
    | none =>
      have run : (Session.bind road).run s = (false, s) := by
        rw [Session.bind, run_modifyGet, c.isAttached_eq, known, given]
        rfl
      refine .of_run run (c.of_tables (fun j => ?_) rfl rfl) (.refl _) ?_
      · rw [History.table?_offer, ite_self, Option.or_none]
      · rw [History.table?_offer, known, ite_self]
        rfl

/-! ### Universal types -/

/-- A type is given the universal id of its rule, which is registered then. -/
lemma Coherent.universalType_leads (c : Coherent profile h s) {sectionId : ℕ} {table : RuleTable}
    (first : h.table? sectionId = some table) (type : UInt32) :
    Leads profile h s (universalType sectionId type) fun id registry =>
      (∀ rule, table.get? type = some rule → rule.pair ∈ registry.pairs) ∧
        id = registry.typeId? table type := by
  have bound := c.rules sectionId
  rw [first] at bound
  obtain ⟨known, hknown, rfl⟩ := Option.map_eq_some_iff.mp bound
  cases kept : known.universal.get? type with
  | some id =>
    obtain ⟨rule, hrule, found⟩ := c.universal sectionId known type id hknown kept
    have run : (universalType sectionId type).run s = (some id, s) := by
      rw [universalType, run_modifyGet]
      simp only [hknown, kept]
    refine .of_run run c (.refl _) ?_
    rw [Registry.typeId?, hrule]
    exact ⟨fun _ same => Option.some.inj same ▸ Registry.mem_of_idOf?_eq found, found.symm⟩
  | none =>
    cases hrule : known.rules.get? type with
    | none =>
      have run : (universalType sectionId type).run s = (none, s) := by
        rw [universalType, run_modifyGet]
        simp only [hknown, kept, hrule]
      refine .of_run run c (.refl _) ?_
      rw [Registry.typeId?, hrule]
      refine ⟨?_, rfl⟩
      intro rule none
      cases none
    | some rule =>
      -- the id that is kept is the one that the grown registry has for the pair
      have found := Registry.idOf?_register s.registry rule.pair
      have grown := Registry.extends_register s.registry rule.pair
      have run : (universalType sectionId type).run s =
          (some (s.registry.register rule.pair).1, { s with
            registry := (s.registry.register rule.pair).2
            sections := s.sections.insert sectionId { known with
              universal := known.universal.insert type (s.registry.register rule.pair).1 }
            statistics.typesResolved := s.statistics.typesResolved + 1 }) := by
        rw [universalType, run_modifyGet]
        simp only [hknown, kept, hrule]
        rfl
      refine .of_run run (((c.grow grown).keepUniversal hknown hrule found).count _) grown ?_
      rw [Registry.typeId?, hrule]
      exact ⟨fun _ same => Option.some.inj same ▸ Registry.mem_of_idOf?_eq found, found.symm⟩

/-- Several types are given their universal ids one after another. -/
lemma Coherent.mapM_universalType_leads {sectionId : ℕ} {table : RuleTable}
    (first : h.table? sectionId = some table) (types : List UInt32) :
    ∀ {s : Session}, Coherent profile h s →
      Leads profile h s (types.mapM (universalType sectionId)) fun ids registry =>
        registry.Knows table types ∧ ids = types.map (registry.typeId? table) := by
  induction types with
  | nil =>
    intro s c
    rw [List.mapM_nil]
    exact Leads.pure c ⟨Registry.knows_nil, rfl⟩
  | cons type rest ih =>
    intro s c
    rw [List.mapM_cons]
    refine (c.universalType_leads first type).bind fun id s₁ c₁ hid _ => ?_
    obtain ⟨known, rfl⟩ := hid
    refine (ih c₁).bind fun ids s₂ c₂ hids grown => Leads.pure c₂ ?_
    obtain ⟨knowns, rfl⟩ := hids
    refine ⟨Registry.knows_cons.mpr ⟨fun rule hrule => grown.mem (known rule hrule), knowns⟩, ?_⟩
    rw [List.map_cons, Registry.typeId?_extends known grown]

/-- The universal ids of some types of a section, if the section is known. -/
lemma Coherent.universalTypes_leads (c : Coherent profile h s) (sectionId : ℕ)
    (types : List UInt32) :
    Leads profile h s (universalTypes sectionId types) fun found registry =>
      (∀ table, h.table? sectionId = some table → registry.Knows table types) ∧
        found = (h.table? sectionId).map fun table => registry.typesOf table types := by
  refine Leads.get_bind ?_
  rw [c.isAttached_eq]
  cases first : h.table? sectionId with
  | none => exact Leads.pure c ⟨fun _ none => (nomatch none), rfl⟩
  | some table =>
    refine (mapM_universalType_leads first types c).bind fun ids s' c' hids _ => Leads.pure c' ?_
    obtain ⟨knows, rfl⟩ := hids
    refine ⟨fun table' same => Option.some.inj same ▸ knows, ?_⟩
    rw [List.filterMap_map]
    rfl

/-! ### Results -/

/-- A result for some types of a section is the one worked out afresh, with a registry in which all
of them are. -/
def History.HasResult (h : History) (profile : Profile) (sectionId : ℕ) (kind : RulesetKind)
    (types : List UInt32) (result : Option Float) (registry : Registry) : Prop :=
  result = (h.table? sectionId).bind
      (fun table => registry.result profile (h.parameter? profile) table kind types) ∧
    ∀ table, h.table? sectionId = some table → registry.Knows table types

namespace History.HasResult

variable {sectionId : ℕ} {kind : RulesetKind} {types : List UInt32} {registry : Registry}

lemma of_table {table : RuleTable} {result : Option Float} (first : h.table? sectionId = some table)
    (known : registry.Knows table types)
    (same : result = registry.result profile (h.parameter? profile) table kind types) :
    h.HasResult profile sectionId kind types result registry := by
  rw [HasResult, first]
  exact ⟨same, fun _ same => Option.some.inj same ▸ known⟩

lemma of_none (none : h.table? sectionId = none) :
    h.HasResult profile sectionId kind types .none registry := by
  rw [HasResult, none]
  exact ⟨rfl, fun _ same => nomatch same⟩

end History.HasResult

/-- Evaluation with kept values answers the fresh result. -/
lemma Coherent.evaluate_ruleset_leads (c : Coherent profile h s) {table : RuleTable}
    {types : List UInt32} (known : s.registry.Knows table types) (kind : RulesetKind) :
    Leads profile h s
      ((s.profile.ruleset kind).evaluate s.environment (s.registry.typesOf table types))
      fun result registry =>
        result = registry.result profile (h.parameter? profile) table kind types ∧
          registry.Knows table types := by
  obtain ⟨answer, same, values⟩ := evaluate_answers s table kind types s (.refl s) c.values
  refine ⟨c.of_values same values, ?_, ?_⟩
  · rw [after, same.registry]
    exact .refl _
  · rw [after, same.registry]
    refine ⟨answer.trans ?_, known⟩
    rw [c.profile_eq, c.parameter?_eq]

/-- Evaluation answers the fresh result and keeps it. -/
lemma Coherent.evaluateUniversal_leads (c : Coherent profile h s) {key : ResultKey}
    {table : RuleTable} (first : h.table? key.sectionId = some table)
    (known : s.registry.Knows table key.types) :
    Leads profile h s (evaluateUniversal key (s.registry.typesOf table key.types))
      fun result registry =>
        result = registry.result profile (h.parameter? profile) table key.kind key.types ∧
          registry.Knows table key.types := by
  refine Leads.modify_bind (.refl _) (Leads.get_bind ?_)
  have counted := c.count { s.statistics with evaluations := s.statistics.evaluations + 1 }
  refine (counted.evaluate_ruleset_leads known key.kind).bind fun result s' c' hresult _ => ?_
  obtain ⟨rfl, known'⟩ := hresult
  exact Leads.modify_bind (.refl _) (Leads.pure (c'.keepResult first known') ⟨rfl, known'⟩)

/-- The types of a key are those that it is made for. -/
lemma mem_resultKey (kind : RulesetKind) (sectionId : ℕ) (types : Array UInt32) (type : UInt32) :
    type ∈ (resultKey kind sectionId types).types ↔ type ∈ types.toList := by
  rw [resultKey, List.mem_mergeSort, List.mem_eraseDups]

/-- The result for some types of a section is the fresh one, and there is none if the section is not
known. -/
lemma Coherent.evaluateTypes_leads (c : Coherent profile h s) (kind : RulesetKind) (sectionId : ℕ)
    (types : Array UInt32) :
    Leads profile h s (evaluateTypes kind sectionId types)
      (h.HasResult profile sectionId kind types.toList) := by
  have members := mem_resultKey kind sectionId types
  refine Leads.get_bind ?_
  cases kept : s.results.get? (resultKey kind sectionId types) with
  | some result =>
    obtain ⟨table, first, known, rfl⟩ := c.results _ _ kept
    refine Leads.modify_bind (.refl _) (Leads.pure (c.count _) ?_)
    exact .of_table first (known.congr members) (Registry.result_congr members)
  | none =>
    refine (c.universalTypes_leads sectionId _).bind fun found s' c' hfound _ => ?_
    obtain ⟨knows, rfl⟩ := hfound
    cases first : h.table? sectionId with
    | none => exact Leads.pure c' (.of_none first)
    | some table =>
      have known := knows table first
      refine (c'.evaluateUniversal_leads first known).imp fun result registry hresult => ?_
      obtain ⟨rfl, known'⟩ := hresult
      exact .of_table first (known'.congr members) (Registry.result_congr members)

/-- The result for the types of a road is the fresh one. -/
lemma Coherent.evaluate_leads (c : Coherent profile h s) (kind : RulesetKind) (road : Road) :
    Leads profile (h.offerRoad road) s (evaluate kind road)
      ((h.offerRoad road).HasResult profile road.sectionId kind road.types.toList) := by
  refine (c.bind_leads road).bind fun isKnown s' c' hknown _ => ?_
  cases first : (h.offerRoad road).table? road.sectionId with
  | none =>
    rw [first] at hknown
    subst hknown
    exact Leads.pure c' (.of_none first)
  | some table =>
    rw [first] at hknown
    subst hknown
    exact c'.evaluateTypes_leads kind road.sectionId road.types

/-! ### Operations -/

/-- The types of a point that count, for a traveller in one direction or for none in particular. -/
def counted (rules : RuleTable) (types : Array UInt32) : Option Bool → Array UInt32
  | some forward => facing rules types forward
  | none => types

namespace Coherent

/-- The rules of a section are those that were given first. -/
lemma rulesOf_eq (c : Coherent profile h s) {sectionId : ℕ} {table : RuleTable}
    (first : h.table? sectionId = some table) : s.rulesOf sectionId = table := by
  have bound := c.rules sectionId
  rw [first] at bound
  obtain ⟨known, hknown, rfl⟩ := Option.map_eq_some_iff.mp bound
  rw [rulesOf, hknown]

lemma direction_leads (c : Coherent profile h s) (road : Road) :
    Leads profile (h.offerRoad road) s (Session.direction road) fun _ _ => True := by
  refine (c.bind_leads road).bind fun _ s' c' _ _ => Leads.get_bind ?_
  refine Leads.ite (Leads.pure c' trivial) ?_
  have again := (c'.evaluate_leads .oneway road).offered_twice
  refine again.bind fun result s'' c'' _ _ => ?_
  cases result with
  | some sign => exact Leads.pure c'' trivial
  | none => exact Leads.pure c'' trivial

lemma accepts_leads (c : Coherent profile h s) (road : Road) :
    Leads profile (if road.id ∈ h.avoided then h else h.offerRoad road) s
      (Session.accepts road) fun _ _ => True := by
  refine Leads.get_bind ?_
  by_cases refused : road.id ∈ h.avoided
  · have avoids : s.avoids road.id := by simpa [avoids, c.avoided] using refused
    rw [if_pos refused, if_pos avoids]
    exact Leads.pure c trivial
  · have avoids : ¬ s.avoids road.id := by simpa [avoids, c.avoided] using refused
    rw [if_neg refused, if_neg avoids]
    refine (c.bind_leads road).bind fun isKnown s' c' _ _ => ?_
    cases isKnown with
    | true =>
      refine (c'.evaluateTypes_leads .access _ _).bind fun _ _ c'' _ _ => Leads.pure c'' trivial
    | false => exact Leads.pure c' trivial

lemma acceptsBorder_leads (c : Coherent profile h s) (rules : RuleTable) (point : BorderPoint) :
    Leads profile (h.offer point.sectionId (some rules)) s
      (Session.acceptsBorder rules point) fun _ _ => True := by
  refine Leads.modify_bind ?_ ?_
  · rw [registry_attach]
    exact .refl _
  · have attached := c.attach point.sectionId rules
    exact (attached.evaluateTypes_leads .access _ _).bind fun _ _ c' _ _ => Leads.pure c' trivial

lemma priority_leads (c : Coherent profile h s) (road : Road) :
    Leads profile (h.offerRoad road) s (Session.priority road) fun _ _ => True :=
  (c.evaluate_leads .priority road).bind fun _ _ c' _ _ => Leads.pure c' trivial

lemma speed_leads (c : Coherent profile h s) (road : Road) :
    Leads profile (h.offerRoad road) s (Session.speed road) fun _ _ => True :=
  Leads.get_bind ((c.evaluate_leads .speed road).bind fun _ _ c' _ _ => Leads.pure c' trivial)

/-- A point costs what is worked out afresh for the types that count, if its section is known. -/
lemma obstacle_leads (c : Coherent profile h s) (kind : RulesetKind) (road : Road) (point : UInt32)
    (forward : Option Bool) :
    Leads profile (if (road.typesAt point).isEmpty then h else h.offerRoad road) s
      (Session.obstacle kind road point forward) fun cost registry =>
        ¬ (road.typesAt point).isEmpty → ∀ table,
          (h.offerRoad road).table? road.sectionId = some table →
            cost = (registry.result profile (h.parameter? profile) table kind
              (counted table (road.typesAt point) forward).toList).getD 0.0 ∧
            registry.Knows table (counted table (road.typesAt point) forward).toList := by
  rw [Session.obstacle]
  by_cases empty : (road.typesAt point).isEmpty
  · rw [if_pos empty, if_pos empty]
    exact Leads.pure c fun nonempty => absurd empty nonempty
  · rw [if_neg empty, if_neg empty]
    refine (c.bind_leads road).bind fun isKnown s' c' hknown _ => ?_
    cases first : (h.offerRoad road).table? road.sectionId with
    | none =>
      rw [first] at hknown
      subst hknown
      exact Leads.pure c' fun _ _ none => nomatch none
    | some table =>
      rw [first] at hknown
      subst hknown
      refine Leads.get_bind ((c'.evaluateTypes_leads kind _ _).bind ?_)
      refine fun result s'' c'' hresult _ => Leads.pure c'' fun _ table' same => ?_
      cases same
      obtain ⟨rfl, knows⟩ := hresult
      have known := knows table first
      rw [c'.rulesOf_eq first] at known ⊢
      rw [first]
      exact ⟨rfl, known⟩

lemma turnTime_leads (c : Coherent profile h s) (before after : Leg) :
    Leads profile ((h.offerRoad before.road).offerRoad after.road) s
      (Session.turnTime before after) fun _ _ => True := by
  refine (c.bind_leads before.road).bind fun _ s₁ c₁ _ _ => ?_
  refine (c₁.bind_leads after.road).bind fun _ s₂ c₂ _ _ => Leads.get_bind ?_
  refine Leads.ite (Leads.pure c₂ trivial) (Leads.ite (Leads.pure c₂ trivial) ?_)
  cases bend before after with
  | some angle => exact Leads.pure c₂ trivial
  | none => exact Leads.pure c₂ trivial

/-- Every operation keeps a session coherent, and its registry grows at most. -/
lemma perform (c : Coherent profile h s) (op : Operation) :
    Coherent profile (h.add op) (s.perform op) ∧ s.registry.Extends (s.perform op).registry := by
  cases op with
  | attach sectionId rules =>
    refine ⟨c.attach sectionId rules, ?_⟩
    rw [Session.perform, registry_attach]
    exact .refl _
  | evaluate kind road => exact (c.evaluate_leads kind road).step
  | direction road => exact (c.direction_leads road).step
  | accepts road => exact (c.accepts_leads road).step
  | acceptsBorder rules point => exact (c.acceptsBorder_leads rules point).step
  | priority road => exact (c.priority_leads road).step
  | speed road => exact (c.speed_leads road).step
  | obstacle kind road point forward => exact (c.obstacle_leads kind road point forward).step
  | turnTime before after => exact (c.turnTime_leads before after).step
  | universalTypes sectionId types => exact (c.universalTypes_leads sectionId types).step
  | setParameter name value => exact ⟨c.setParameter name value, .refl _⟩
  | avoid roadId => exact ⟨c.avoid roadId, .refl _⟩
  | register pair =>
    have grown := Registry.extends_add s.registry pair
    exact ⟨c.grow grown, grown⟩

end Coherent

/-- Some operations, one after another, keep a session coherent, and its registry grows at most. -/
lemma Coherent.foldl_perform (ops : List Operation) {h : History} {s : Session}
    (c : Coherent profile h s) :
    Coherent profile (ops.foldl History.add h) (ops.foldl Session.perform s) ∧
      s.registry.Extends (ops.foldl Session.perform s).registry := by
  induction ops generalizing h s with
  | nil => exact ⟨c, .refl _⟩
  | cons op rest ih =>
    obtain ⟨next, grown⟩ := c.perform op
    obtain ⟨last, grown'⟩ := ih next
    exact ⟨last, grown.trans grown'⟩

/-- Whatever has been done with a session, what it keeps is true of it. -/
theorem performAll_coherent (profile : Profile) (registry : Registry) (ops : List Operation) :
    Coherent profile (.of ops) ((start profile registry).performAll ops) :=
  ((start_coherent profile registry).foldl_perform ops).1

lemma extends_performAll (profile : Profile) (registry : Registry) (ops : List Operation) :
    registry.Extends ((start profile registry).performAll ops).registry :=
  ((start_coherent profile registry).foldl_perform ops).2

/-- Nothing that a session keeps shows in its results. Whatever has been done with it before, the
result for a road is the one that its ruleset gives afresh, with the registry as it is and the last
settings, for the universal ids of all its types by the first table that was given for its section;
without such a table there is no result. -/
theorem evaluate_eq_fresh (profile : Profile) (registry : Registry) (ops : List Operation)
    (kind : RulesetKind) (road : Road) :
    let s := (start profile registry).performAll ops
    let h := (History.of ops).offerRoad road
    let now := (s.after (evaluate kind road)).registry
    ((evaluate kind road).run s).1 =
        (h.table? road.sectionId).bind (fun table =>
          ((profile.ruleset kind).evaluate (.fresh now (h.parameter? profile))
            (now.typesOf table road.types.toList)).run) ∧
      s.registry.Extends now ∧
      ∀ table, h.table? road.sectionId = some table → now.Knows table road.types.toList := by
  intro s h now
  have leads := (performAll_coherent profile registry ops).evaluate_leads kind road
  exact ⟨leads.answer.1, leads.grows, leads.answer.2⟩

end Session

end RoadAtlas
