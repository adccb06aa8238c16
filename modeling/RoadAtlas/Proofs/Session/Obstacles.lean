import RoadAtlas.Proofs.Session.Transparency

/-!
What counts of a point for a traveller in one direction.

* `Session.FacesAway`: a type of a point stands for a sign or a light that is put up for the other
  direction, by the last rule of the point that says so;
* `Session.facing_eq_filter`: what counts for a traveller is all but what faces away from him, and
  `Session.isEmpty_facing`: something always counts;
* `Session.obstacle_ignores_facesAway`: a point costs a traveller what it would cost anyone without
  what faces away, whatever the session keeps.
-/

namespace RoadAtlas

namespace Session

variable {rules : RuleTable} {types : Array UInt32} {tag value : String} {forward : Bool}
  {type : UInt32}

/-! ### The last rule with a tag -/

/-- Among some types, the last one with a tag has a value. -/
def LastSays (rules : RuleTable) (types : List UInt32) (tag value : String) : Prop :=
  ∃ before type after rule, types = before ++ type :: after ∧ rules.get? type = some rule ∧
    rule.tag = tag ∧ rule.value = value ∧
    ∀ later ∈ after, ∀ rule, rules.get? later = some rule → rule.tag ≠ tag

/-- The rule of the last one of some types with a tag. -/
def lastRule? (rules : RuleTable) (types : List UInt32) (tag : String) : Option Rule :=
  (types.filterMap rules.get?).reverse.find? fun rule => rule.tag == tag

lemma lastSays_iff {types : List UInt32} :
    LastSays rules types tag value ↔ (lastRule? rules types tag).map Rule.value = some value := by
  rw [Option.map_eq_some_iff]
  constructor
  case mp =>
    rintro ⟨before, type, after, rule, rfl, hrule, tagged, valued, last⟩
    refine ⟨rule, ?_, valued⟩
    rw [lastRule?, List.find?_eq_some_iff_append]
    refine ⟨by simpa using tagged, (after.filterMap rules.get?).reverse,
      (before.filterMap rules.get?).reverse, ?_, ?_⟩
    · rw [List.filterMap_append, List.filterMap_cons_some hrule]
      simp only [List.reverse_append, List.reverse_cons, List.append_assoc, List.singleton_append]
    · intro rule' member
      obtain ⟨later, hlater, hrule'⟩ := List.mem_filterMap.mp (List.mem_reverse.mp member)
      simpa using last later hlater rule' hrule'
  case mpr =>
    rintro ⟨rule, found, valued⟩
    obtain ⟨tagged, after, before, split, last⟩ := List.find?_eq_some_iff_append.mp found
    rw [List.reverse_eq_append_iff, List.reverse_cons, List.append_assoc,
      List.singleton_append] at split
    obtain ⟨front, rest, rfl, -, hrest⟩ := List.filterMap_eq_append_iff.mp split
    obtain ⟨silent, type, behind, rfl, -, hrule, hbehind⟩ := List.filterMap_eq_cons_iff.mp hrest
    refine ⟨front ++ silent, type, behind, rule, (List.append_assoc ..).symm, hrule,
      by simpa using tagged, valued, ?_⟩
    intro later hlater rule' hrule'
    have member : rule' ∈ after.reverse := hbehind ▸ List.mem_filterMap.mpr ⟨later, hlater, hrule'⟩
    simpa using last rule' (List.mem_reverse.mp member)

instance {types : List UInt32} : Decidable (LastSays rules types tag value) :=
  decidable_of_iff _ lastSays_iff.symm

/-- The last one of some types with a tag says one thing only. -/
lemma LastSays.unique {types : List UInt32} {value' : String} (h : LastSays rules types tag value)
    (h' : LastSays rules types tag value') : value = value' := by
  rw [lastSays_iff] at h h'
  exact Option.some.inj (h.symm.trans h')

/-- What is said last is said by one of the types. -/
lemma LastSays.exists_mem {types : List UInt32} (h : LastSays rules types tag value) :
    ∃ type ∈ types, ∃ rule, rules.get? type = some rule ∧ rule.tag = tag := by
  obtain ⟨before, type, after, rule, rfl, hrule, tagged, -, -⟩ := h
  exact ⟨type, List.mem_append_right _ List.mem_cons_self, rule, hrule, tagged⟩

/-! ### Signs that face away -/

/-- The word for travel along the points of a road, or against them. -/
def directionWord (forward : Bool) : String := if forward then "forward" else "backward"

lemma signDirection_eq_some_iff :
    signDirection value = some forward ↔ value = directionWord forward := by
  unfold signDirection
  split <;> cases forward <;> simp_all [directionWord]

lemma lastDirection_eq_some_iff :
    lastDirection rules tag types = some forward ↔
      LastSays rules types.toList tag (directionWord forward) := by
  have found : (types.filterMap rules.get?).findRev? (fun rule => rule.tag == tag) =
      lastRule? rules types.toList tag := by
    rw [Array.findRev?_eq_find?_reverse, lastRule?, ← Array.find?_toList, Array.toList_reverse,
      Array.toList_filterMap]
  rw [lastDirection, found, lastSays_iff, Option.bind_eq_some_iff, Option.map_eq_some_iff]
  simp only [signDirection_eq_some_iff]

/-- A type of a point stands for a stop or give-way sign where the point's last `direction` is the
other one, or for a traffic light where its last `traffic_signals:direction` is. -/
def FacesAway (rules : RuleTable) (types : List UInt32) (forward : Bool) (type : UInt32) : Prop :=
  ∃ rule ∈ rules.get? type, rule.tag = "highway" ∧
    ((rule.value = "stop" ∨ rule.value = "give_way") ∧
        LastSays rules types "direction" (directionWord !forward) ∨
      rule.value = "traffic_signals" ∧
        LastSays rules types "traffic_signals:direction" (directionWord !forward))

instance {types : List UInt32} : DecidablePred (FacesAway rules types forward) := fun _ =>
  inferInstanceAs (Decidable (∃ _ ∈ _, _))

lemma facesAway_iff {rule : Rule} (hrule : rules.get? type = some rule) :
    FacesAway rules types.toList forward type ↔ rule.tag = "highway" ∧
      ((rule.value = "stop" ∨ rule.value = "give_way") ∧
          lastDirection rules "direction" types = some !forward ∨
        rule.value = "traffic_signals" ∧
          lastDirection rules "traffic_signals:direction" types = some !forward) := by
  simp only [FacesAway, hrule, ← lastDirection_eq_some_iff, Option.mem_some_iff, exists_eq_left']

/-- What counts for a traveller is all but what faces away. -/
lemma facing_eq_filter (rules : RuleTable) (types : Array UInt32) (forward : Bool) :
    facing rules types forward =
      types.filter fun type => ¬ FacesAway rules types.toList forward type := by
  rw [facing]
  congr 1
  funext type
  cases hrule : rules.get? type with
  | none => simp [FacesAway, hrule]
  | some rule =>
    simp only [facesAway_iff hrule]
    by_cases highway : rule.tag = "highway"
    · simp only [highway, if_true]
      generalize rule.value = value
      split
      next => simp [bne, beq_eq_decide]
      next => simp [bne, beq_eq_decide]
      next => simp [bne, beq_eq_decide]
      next stop giveWay light =>
        refine (decide_eq_true ?_).symm
        rintro ⟨-, ⟨stop' | giveWay', -⟩ | ⟨light', -⟩⟩
        · exact stop stop'
        · exact giveWay giveWay'
        · exact light light'
    · simp [highway]

/-- Nothing faces away in both directions. -/
lemma not_facesAway_both {types : List UInt32} :
    ¬ (FacesAway rules types true type ∧ FacesAway rules types false type) := by
  rintro ⟨⟨rule, hrule, -, told⟩, ⟨rule', hrule', -, told'⟩⟩
  cases hrule.symm.trans hrule'
  have differ : directionWord false ≠ directionWord true := by decide
  rcases told with ⟨sign, away⟩ | ⟨light, away⟩
  · rcases told' with ⟨-, away'⟩ | ⟨light, -⟩
    · exact differ (away.unique away')
    · rw [light] at sign
      exact absurd sign (by decide)
  · rcases told' with ⟨sign, -⟩ | ⟨-, away'⟩
    · rw [light] at sign
      exact absurd sign (by decide)
    · exact differ (away.unique away')

/-- What faces away is not alone: the type that says so always counts. -/
lemma FacesAway.exists_counted {types : List UInt32} (h : FacesAway rules types forward type) :
    ∃ type ∈ types, ¬ FacesAway rules types forward type := by
  obtain ⟨_, _, _, told⟩ := h
  have spoken : ∃ tag ≠ "highway", ∃ type ∈ types, ∃ rule,
      rules.get? type = some rule ∧ rule.tag = tag := by
    rcases told with ⟨-, told⟩ | ⟨-, told⟩
    · exact ⟨_, by decide, told.exists_mem⟩
    · exact ⟨_, by decide, told.exists_mem⟩
  obtain ⟨_, other, speaker, member, rule, hrule, rfl⟩ := spoken
  refine ⟨speaker, member, ?_⟩
  rintro ⟨rule', hrule', highway, -⟩
  cases hrule.symm.trans hrule'
  exact other highway

/-- Of a point that has types, some count. -/
lemma isEmpty_facing (rules : RuleTable) (types : Array UInt32) (forward : Bool) :
    (facing rules types forward).isEmpty = types.isEmpty := by
  rw [facing_eq_filter, Bool.eq_iff_iff]
  simp only [Array.isEmpty_iff, Array.filter_eq_empty_iff, decide_not, Bool.not_eq_true',
    decide_eq_false_iff_not, not_not]
  constructor
  case mp =>
    intro away
    by_contra nonempty
    obtain ⟨type, member⟩ := Array.exists_mem_of_ne_empty types nonempty
    obtain ⟨counted, member', counts⟩ := (away type member).exists_counted
    exact counts (away counted (Array.mem_toList_iff.mp member'))
  case mpr =>
    rintro rfl
    exact fun _ none => nomatch none

end Session

/-! ### Costs -/

/-- The road without some of the types of one of its points. -/
def Road.dropAt (r : Road) (point : UInt32) (away : UInt32 → Prop) [DecidablePred away] : Road :=
  match r.pointTypes.get? point with
  | some types =>
    { r with pointTypes := r.pointTypes.insert point (types.filter fun type => ¬ away type) }
  | none => r

section Drop

variable (r : Road) (point : UInt32) (away : UInt32 → Prop) [DecidablePred away]

lemma Road.typesAt_dropAt :
    (r.dropAt point away).typesAt point = (r.typesAt point).filter fun type => ¬ away type := by
  rw [dropAt, typesAt, typesAt]
  split
  next types known => rw [SortedMap.get?_insert, if_pos rfl, known]; rfl
  next unknown => rw [unknown]; rfl

lemma Road.sectionId_dropAt : (r.dropAt point away).sectionId = r.sectionId := by
  rw [dropAt]
  split <;> rfl

lemma Road.rules_dropAt : (r.dropAt point away).rules = r.rules := by
  rw [dropAt]
  split <;> rfl

/-- What is attached to the points of a road does not matter for what makes its section known. -/
lemma Session.bind_dropAt : Session.bind (r.dropAt point away) = Session.bind r := by
  rw [Session.bind, Session.bind, Road.sectionId_dropAt, Road.rules_dropAt]

end Drop

namespace Session

variable {profile : Profile} {h : History} {s : Session} {road : Road} {table : RuleTable}

/-- A road that can be bound is, and the rules of its section are those that were given first. -/
lemma Coherent.bind_run (c : Coherent profile h s)
    (bound : (h.offerRoad road).table? road.sectionId = some table) :
    ((Session.bind road).run s).1 = true ∧
      (s.after (Session.bind road)).rulesOf road.sectionId = table := by
  have leads := c.bind_leads road
  refine ⟨?_, leads.coherent.rulesOf_eq bound⟩
  rw [leads.answer, bound]
  rfl

/-- The result of a ruleset for some types of a section, 0 without an opinion. -/
def costOf (kind : RulesetKind) (sectionId : ℕ) (types : Array UInt32) : StateM Session Float := do
  return (← evaluateTypes kind sectionId types).getD 0.0

/-- What a point costs is evaluated for those of its types that count, once its section is known. -/
lemma Coherent.obstacle_run (c : Coherent profile h s)
    (bound : (h.offerRoad road).table? road.sectionId = some table) (kind : RulesetKind)
    (point : UInt32) (forward : Option Bool) :
    (obstacle kind road point forward).run s =
      if (road.typesAt point).isEmpty then (0.0, s)
      else
        (costOf kind road.sectionId (counted table (road.typesAt point) forward)).run
          (s.after (Session.bind road)) := by
  obtain ⟨isKnown, rulesOf⟩ := c.bind_run bound
  rw [obstacle]
  split
  next => rfl
  next =>
    rw [run_bind, isKnown, if_pos rfl, run_get_bind, rulesOf]
    rfl

/-- What a point costs a traveller is what it costs anyone on the road without what faces away from
him, in answer and in what the session keeps. -/
lemma Coherent.obstacle_run_dropAt (c : Coherent profile h s)
    (bound : (h.offerRoad road).table? road.sectionId = some table) (kind : RulesetKind)
    (point : UInt32) (forward : Bool) :
    (obstacle kind road point (some forward)).run s =
      (obstacle kind (road.dropAt point (FacesAway table (road.typesAt point).toList forward))
        point none).run s := by
  have bound' : (h.offerRoad (road.dropAt point
      (FacesAway table (road.typesAt point).toList forward))).table?
        (road.dropAt point (FacesAway table (road.typesAt point).toList forward)).sectionId =
      some table := by
    rw [History.offerRoad, Road.sectionId_dropAt, Road.rules_dropAt]
    exact bound
  have same : facing table (road.typesAt point) forward = (road.typesAt point).filter
      fun type => ¬ FacesAway table (road.typesAt point).toList forward type := facing_eq_filter ..
  rw [c.obstacle_run bound, c.obstacle_run bound', bind_dropAt, Road.sectionId_dropAt,
    Road.typesAt_dropAt, ← same, isEmpty_facing]
  rfl

/-- A point without a usable rule about direction costs the same in both directions. -/
lemma Coherent.obstacle_run_undirected (c : Coherent profile h s)
    (bound : (h.offerRoad road).table? road.sectionId = some table) {point : UInt32}
    (undirected : ∀ tag ∈ ["direction", "traffic_signals:direction"], ∀ forward,
      ¬ LastSays table (road.typesAt point).toList tag (directionWord forward))
    (kind : RulesetKind) (forward : Bool) :
    (obstacle kind road point (some forward)).run s = (obstacle kind road point none).run s := by
  have all : facing table (road.typesAt point) forward = road.typesAt point := by
    rw [facing_eq_filter]
    refine Array.filter_eq_self.mpr fun type _ => decide_eq_true ?_
    rintro ⟨rule, -, -, ⟨-, told⟩ | ⟨-, told⟩⟩
    · exact undirected _ (by simp) _ told
    · exact undirected _ (by simp) _ told
  rw [c.obstacle_run bound, c.obstacle_run bound, counted, counted, all]

/-- What a point costs a traveller is worked out afresh for what does not face away from him. -/
lemma Coherent.obstacle_fresh (c : Coherent profile h s)
    (bound : (h.offerRoad road).table? road.sectionId = some table) (kind : RulesetKind)
    (point : UInt32) (forward : Bool) :
    let types := (road.typesAt point).toList
    let counts := types.filter fun type => ¬ FacesAway table types forward type
    let now := (s.after (obstacle kind road point (some forward))).registry
    ((obstacle kind road point (some forward)).run s).1 =
        (if types = [] then 0.0
          else (now.result profile (h.parameter? profile) table kind counts).getD 0.0) ∧
      s.registry.Extends now ∧ now.Knows table counts := by
  intro types counts now
  have leads := c.obstacle_leads kind road point (some forward)
  have heeded : (counted table (road.typesAt point) (some forward)).toList = counts := by
    rw [counted, facing_eq_filter, Array.toList_filter]
  by_cases empty : types = []
  · have bare : counts = [] := by
      rw [show counts = types.filter _ from rfl, empty, List.filter_nil]
    rw [if_pos empty, bare]
    refine ⟨?_, leads.grows, Registry.knows_nil⟩
    rw [c.obstacle_run bound, if_pos (Array.isEmpty_iff.mpr (Array.toList_eq_nil_iff.mp empty))]
  · have nonempty : ¬ (road.typesAt point).isEmpty := fun none =>
      empty (Array.toList_eq_nil_iff.mpr (Array.isEmpty_iff.mp none))
    obtain ⟨cost, knows⟩ := leads.answer nonempty table bound
    rw [heeded] at cost knows
    rw [if_neg empty]
    exact ⟨cost, leads.grows, knows⟩

/-- Signs that face the other way do not count, and nothing else is left out. Whatever has been done
with a session, a point of a road with a known section costs a traveller what it would cost anyone
on the same road without the point's types that face away from him. No type faces away in both
directions; a point without a usable rule about direction costs the same either way. What is kept
from other questions does not show: the answer is the one worked out afresh. -/
theorem obstacle_ignores_facesAway (profile : Profile) (registry : Registry) (ops : List Operation)
    (kind : RulesetKind) (road : Road) (point : UInt32) (table : RuleTable)
    (bound : ((History.of ops).offerRoad road).table? road.sectionId = some table) :
    let s := (start profile registry).performAll ops
    let types := (road.typesAt point).toList
    (∀ forward, (obstacle kind road point (some forward)).run s =
      (obstacle kind (road.dropAt point (FacesAway table types forward)) point none).run s) ∧
    (∀ type, ∃ forward, ¬ FacesAway table types forward type) ∧
    ((∀ tag ∈ ["direction", "traffic_signals:direction"], ∀ forward,
        ¬ LastSays table types tag (directionWord forward)) →
      ∀ forward, (obstacle kind road point (some forward)).run s =
        (obstacle kind road point none).run s) ∧
    (∀ forward,
      let counts := types.filter fun type => ¬ FacesAway table types forward type
      let now := (s.after (obstacle kind road point (some forward))).registry
      ((obstacle kind road point (some forward)).run s).1 =
          (if types = [] then 0.0
            else (now.result profile ((History.of ops).parameter? profile) table kind
              counts).getD 0.0) ∧
        s.registry.Extends now ∧ now.Knows table counts) := by
  intro s types
  have c : Coherent profile (.of ops) s := performAll_coherent profile registry ops
  refine ⟨c.obstacle_run_dropAt bound kind point, ?_, ?_, c.obstacle_fresh bound kind point⟩
  · intro type
    by_contra! both
    exact not_facesAway_both ⟨both true, both false⟩
  · intro undirected
    exact c.obstacle_run_undirected bound undirected kind

/-! ### A stop sign against the way -/

/-- A stop sign and the rule that it is put up for travel against the points. -/
def stopTable : RuleTable :=
  ⟨#[⟨"highway", "stop", .highway, .text⟩, ⟨"direction", "backward", .other, .text⟩]⟩

/-- A road with the sign at its second point. -/
def stopRoad : Road where
  id := 1
  sectionId := 0
  points := .ofArray #[⟨0, 0⟩, ⟨10, 0⟩]
  pointTypes := .ofList [(1, #[0, 1])]
  rules := some stopTable

/-- The same road without the sign. -/
def freeRoad : Road := { stopRoad with pointTypes := .ofList [(1, #[1])] }

/-- The sign was asked about before, in no direction and against the points. -/
def askedBefore : List Operation :=
  [.obstacle .obstacleTime stopRoad 1 none, .obstacle .obstacleTime stopRoad 1 (some false)]

/-- Along the points the sign is passed over, and some direction remains in which it counts. -/
theorem obstacle_ignores_facesAway_stop :
    let s := (start { name := "car" } default).performAll askedBefore
    (obstacle .obstacleTime stopRoad 1 (some true)).run s =
        (obstacle .obstacleTime freeRoad 1 none).run s ∧
      ∃ forward, ¬ FacesAway stopTable [0, 1] forward 0 := by
  intro s
  have bound : ((History.of askedBefore).offerRoad stopRoad).table? 0 = some stopTable := rfl
  have dropped : stopRoad.dropAt 1 (FacesAway stopTable [0, 1] true) = freeRoad := rfl
  obtain ⟨directed, kept, -, -⟩ := obstacle_ignores_facesAway { name := "car" } default askedBefore
    .obstacleTime stopRoad 1 stopTable bound
  refine ⟨?_, kept 0⟩
  rw [← dropped]
  exact directed true

end Session

end RoadAtlas
