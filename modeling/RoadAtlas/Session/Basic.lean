import RoadAtlas.Profile.Basic
import RoadAtlas.Road.Basic
import RoadAtlas.Session.Memo

/-!
Sessions: a profile at work on the sections that a route crosses. A session holds what may change
while a route is searched for (parameter settings, avoided roads, the sections met so far) and what
it has worked out already (universal ids of types, ruleset results, parsed values).

* `Session.start` opens a session; `setParameter` and `avoid` change its settings, and `register`
  lets its registry grow from outside;
* `Session.attach` and `Session.bind` make the rules of a section known. The first table that is
  given for a section stays.
-/

namespace RoadAtlas

/-! ### State -/

/-- A section as a session knows it. -/
structure BoundSection where
  rules : RuleTable
  /-- The universal ids of the types met so far. -/
  universal : SortedMap UInt32 Nat := ∅

/-- What the result of a ruleset depends on while the parameters stay. -/
structure ResultKey where
  kind : RulesetKind
  sectionId : Nat
  /-- Types of the section, ascending and each once. -/
  types : List UInt32
  deriving DecidableEq, Repr

/-- How much work a session has done and saved. -/
structure Statistics where
  /-- Types of sections whose universal ids were found out. -/
  typesResolved : Nat := 0
  /-- Ruleset results found among those kept. -/
  resultsReused : Nat := 0
  /-- Rulesets evaluated. -/
  evaluations : Nat := 0
  /-- Values of types read as numbers. -/
  valuesParsed : Nat := 0
  deriving DecidableEq, Repr

/-- A profile at work. -/
structure Session where
  profile : Profile
  registry : Registry
  parameters : SortedMap String String := ∅
  /-- Roads that are never accepted. -/
  avoided : List Int64 := []
  sections : SortedMap Nat BoundSection := ∅
  results : Memo ResultKey (Option Float) := ∅
  /-- Values of universal types read as numbers, failures included. -/
  values : Memo (Nat × Quantity) (Except OperandError Float) := ∅
  statistics : Statistics := {}

namespace Session

/-- A session in which nothing is set or known yet. -/
def start (profile : Profile) (registry : Registry) : Session := { profile, registry }

/-! ### Settings -/

/-- Sets a parameter; results that may have depended on it are given up. -/
def setParameter (s : Session) (name value : String) : Session :=
  { s with parameters := s.parameters.insert name value, results := ∅ }

/-- The value a parameter is set to, or else its default in the profile. -/
def parameter? (s : Session) (name : String) : Option String :=
  s.parameters.get? name <|> s.profile.defaultOf? name

/-- Refuses a road from now on. -/
def avoid (s : Session) (roadId : Int64) : Session :=
  { s with avoided := s.avoided.insert roadId }

def avoids (s : Session) (roadId : Int64) : Bool := s.avoided.contains roadId

/-- Registers a pair that was met outside the session. -/
def register (s : Session) (pair : TagPair) : Session := { s with registry := s.registry.add pair }

/-! ### Sections -/

/-- The rules of the section are known. -/
def isAttached (s : Session) (sectionId : Nat) : Bool := (s.sections.get? sectionId).isSome

/-- The rules of a section; an unknown one has none. -/
def rulesOf (s : Session) (sectionId : Nat) : RuleTable :=
  match s.sections.get? sectionId with
  | some known => known.rules
  | none => {}

/-- Makes the rules of a section known, unless they are already. -/
def attach (s : Session) (sectionId : Nat) (rules : RuleTable) : Session :=
  if s.isAttached sectionId then s
  else { s with sections := s.sections.insert sectionId { rules } }

/-- Makes sure that the section of a road is known, by the table that the road carries if need be;
says whether it is. -/
def bind (road : Road) : StateM Session Bool :=
  modifyGet fun s =>
    if s.isAttached road.sectionId then (true, s)
    else
      match road.rules with
      | some rules => (true, s.attach road.sectionId rules)
      | none => (false, s)

end Session

end RoadAtlas
