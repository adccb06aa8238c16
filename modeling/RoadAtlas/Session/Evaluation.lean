import RoadAtlas.Session.Basic

/-!
Rulesets evaluated for the types of a section. Universal ids of the types are found first, once for
each type in a session; results are kept by ruleset, section and set of types, and the numbers that
values denote are kept by type and quantity.

* `Session.universalType` and `Session.universalTypes` give types their universal ids;
* `Session.value` reads the value of a universal type;
* `Session.evaluateTypes` and `Session.evaluate` give the result of a ruleset.
-/

namespace RoadAtlas

/-- The number that the value of a registered pair denotes. -/
def Registry.value (r : Registry) (id : Nat) (quantity : Quantity) : Except OperandError Float :=
  match r.pair? id with
  | some pair => quantity.parse pair.2
  | none => .error (.missingTag s!"#{id}")

namespace Session

/-! ### Universal types -/

/-- The universal id of a section's type; `none` when the section has no such rule. -/
def universalType (sectionId : Nat) (type : UInt32) : StateM Session (Option Nat) :=
  modifyGet fun s =>
    match s.sections.get? sectionId with
    | none => (none, s)
    | some known =>
      match known.universal.get? type with
      | some id => (some id, s)
      | none =>
        match known.rules.get? type with
        | none => (none, s)
        | some rule =>
          let (id, registry) := s.registry.register (rule.tag, rule.value)
          let known := { known with universal := known.universal.insert type id }
          (some id, { s with
            registry
            sections := s.sections.insert sectionId known
            statistics.typesResolved := s.statistics.typesResolved + 1 })

/-- The universal ids of some types of a section, without those that have no rule; `none` when the
section is not known. -/
def universalTypes (sectionId : Nat) (types : List UInt32) : StateM Session (Option TypeSet) := do
  if (← get).isAttached sectionId then
    let ids ← types.mapM (universalType sectionId)
    return some (.ofList (ids.filterMap id))
  else return none

/-! ### Values -/

/-- The number that the value of a universal type denotes. It is read once; what came of it then,
even a failure, stays. -/
def value (type : Nat) (quantity : Quantity) : StateM Session (Except OperandError Float) :=
  modifyGet fun s =>
    match s.values.get? (type, quantity) with
    | some value => (value, s)
    | none =>
      let value := s.registry.value type quantity
      (value, { s with
        values := s.values.store (type, quantity) value
        statistics.valuesParsed := s.statistics.valuesParsed + 1 })

/-- What the expressions of the profile look things up in. -/
def environment (s : Session) : Environment (StateM Session) where
  registry := s.registry
  parameter := s.parameter?
  typeValue := value

/-! ### Results -/

/-- The key under which the result for some types is kept, whatever their order and repetitions. -/
def resultKey (kind : RulesetKind) (sectionId : Nat) (types : Array UInt32) : ResultKey :=
  ⟨kind, sectionId, types.toList.eraseDups.mergeSort⟩

/-- Evaluates a ruleset for universal types and keeps the result. -/
def evaluateUniversal (key : ResultKey) (types : TypeSet) : StateM Session (Option Float) := do
  modify fun s => { s with statistics.evaluations := s.statistics.evaluations + 1 }
  let s ← get
  let result ← (s.profile.ruleset key.kind).evaluate s.environment types
  modify fun s => { s with results := s.results.store key result }
  return result

/-- The result of a ruleset for some types of a section; `none` is no opinion, or an unknown
section. -/
def evaluateTypes (kind : RulesetKind) (sectionId : Nat) (types : Array UInt32) :
    StateM Session (Option Float) := do
  let key := resultKey kind sectionId types
  match (← get).results.get? key with
  | some result =>
    modify fun s => { s with statistics.resultsReused := s.statistics.resultsReused + 1 }
    return result
  | none =>
    match ← universalTypes sectionId key.types with
    | some universal => evaluateUniversal key universal
    | none => return none

/-- The result of a ruleset for the types of a road; `none` is no opinion, or a road whose section
cannot be known. -/
def evaluate (kind : RulesetKind) (road : Road) : StateM Session (Option Float) := do
  if ← bind road then evaluateTypes kind road.sectionId road.types else return none

end Session

end RoadAtlas
