import Mathlib.Tactic.Common
import RoadAtlas.Session.Query

/-!
What has been done with a session. The operations that a session offers change three things that
matter for its answers: which rule table was given first for each section, which value was given
last for each parameter, and which roads are avoided.

* `Session.Operation` lists the operations, `Session.performAll` runs a sequence of them;
* `Session.History.of` reads those three things off the sequence.
-/

namespace RoadAtlas

namespace Session

/-! ### Operations -/

/-- Something that is asked of a session or changed about it. -/
inductive Operation where
  | attach (sectionId : ℕ) (rules : RuleTable)
  | evaluate (kind : RulesetKind) (road : Road)
  | direction (road : Road)
  | accepts (road : Road)
  | acceptsBorder (rules : RuleTable) (point : BorderPoint)
  | priority (road : Road)
  | speed (road : Road)
  | obstacle (kind : RulesetKind) (road : Road) (point : UInt32) (forward : Option Bool)
  | turnTime (before after : Leg)
  | universalTypes (sectionId : ℕ) (types : List UInt32)
  | setParameter (name value : String)
  | avoid (roadId : Int64)
  /-- A pair is registered from outside, while the session lasts. -/
  | register (pair : TagPair)

/-- The session behind a program. -/
def after {α : Type} (s : Session) (x : StateM Session α) : Session := (x.run s).2

lemma run_bind {α β : Type} (x : StateM Session α) (f : α → StateM Session β) (s : Session) :
    (x >>= f).run s = (f (x.run s).1).run (s.after x) := rfl

lemma run_get_bind {β : Type} (f : Session → StateM Session β) (s : Session) :
    (get >>= f).run s = (f s).run s := rfl

/-- The session behind an operation. -/
def perform (s : Session) : Operation → Session
  | .attach sectionId rules => s.attach sectionId rules
  | .evaluate kind road => s.after (Session.evaluate kind road)
  | .direction road => s.after (Session.direction road)
  | .accepts road => s.after (Session.accepts road)
  | .acceptsBorder rules point => s.after (Session.acceptsBorder rules point)
  | .priority road => s.after (Session.priority road)
  | .speed road => s.after (Session.speed road)
  | .obstacle kind road point forward => s.after (Session.obstacle kind road point forward)
  | .turnTime before after => s.after (Session.turnTime before after)
  | .universalTypes sectionId types => s.after (Session.universalTypes sectionId types)
  | .setParameter name value => s.setParameter name value
  | .avoid roadId => s.avoid roadId
  | .register pair => s.register pair

/-- The session behind some operations, one after another. -/
def performAll (s : Session) (ops : List Operation) : Session := ops.foldl perform s

/-! ### Histories -/

/-- What was given to a session, oldest first. -/
structure History where
  /-- Rule tables that were given for sections. -/
  tables : List (ℕ × RuleTable) := []
  /-- Values that were given to parameters. -/
  settings : List (String × String) := []
  /-- Roads that are avoided. -/
  avoided : List Int64 := []

namespace History

/-- The first table that was given for a section. -/
def table? (h : History) (sectionId : ℕ) : Option RuleTable := h.tables.lookup sectionId

/-- The last value that was given to a parameter. -/
def setting? (h : History) (name : String) : Option String := h.settings.reverse.lookup name

/-- The last value that was given to a parameter, or else its default in a profile. -/
def parameter? (h : History) (profile : Profile) (name : String) : Option String :=
  h.setting? name <|> profile.defaultOf? name

/-- A table is given for a section, if there is one. -/
def offer (h : History) (sectionId : ℕ) (table : Option RuleTable) : History :=
  { h with tables := h.tables ++ (table.map fun table => (sectionId, table)).toList }

/-- A road gives the table that it carries. -/
def offerRoad (h : History) (road : Road) : History := h.offer road.sectionId road.rules

/-- What an operation gives to a session. An avoided road is refused before its table is looked at,
and so is a point without types passed over. -/
def add (h : History) : Operation → History
  | .attach sectionId rules => h.offer sectionId (some rules)
  | .evaluate _ road | .direction road | .priority road | .speed road => h.offerRoad road
  | .accepts road => if road.id ∈ h.avoided then h else h.offerRoad road
  | .acceptsBorder rules point => h.offer point.sectionId (some rules)
  | .obstacle _ road point _ => if (road.typesAt point).isEmpty then h else h.offerRoad road
  | .turnTime before after => (h.offerRoad before.road).offerRoad after.road
  | .setParameter name value => { h with settings := h.settings ++ [(name, value)] }
  | .avoid roadId => { h with avoided := h.avoided ++ [roadId] }
  | .universalTypes _ _ | .register _ => h

/-- What some operations give to a session, one after another. -/
def of (ops : List Operation) : History := ops.foldl add {}

/-! ### Look-ups -/

variable {h : History}

/-- A table that is given counts where no other was given before. -/
lemma table?_offer (h : History) (sectionId : ℕ) (table : Option RuleTable) (j : ℕ) :
    (h.offer sectionId table).table? j =
      (h.table? j).or (if j = sectionId then table else none) := by
  rw [table?, table?, offer, List.lookup_append]
  cases table with
  | none => simp
  | some table =>
    by_cases same : j = sectionId
    · simp [same]
    · simp [same, beq_false_of_ne same, List.lookup_cons]

lemma table?_offer_of_isSome {sectionId : ℕ} (known : (h.table? sectionId).isSome)
    (table : Option RuleTable) (j : ℕ) : (h.offer sectionId table).table? j = h.table? j := by
  rw [table?_offer]
  split
  next same =>
    obtain ⟨first, hfirst⟩ := Option.isSome_iff_exists.mp known
    rw [same, hfirst]
    rfl
  next => exact Option.or_none

/-- A table that is given again changes nothing. -/
lemma table?_offer_offer {sectionId : ℕ} (table : Option RuleTable) (j : ℕ) :
    ((h.offer sectionId table).offer sectionId table).table? j =
      (h.offer sectionId table).table? j := by
  rw [table?_offer, table?_offer, Option.or_assoc, Option.or_self]

lemma table?_offer_of_eq_some {sectionId j : ℕ} {first : RuleTable}
    (known : h.table? j = some first) (table : Option RuleTable) :
    (h.offer sectionId table).table? j = some first := by
  rw [table?_offer, known]
  rfl

lemma setting?_set (h : History) (name value j : String) :
    setting? { h with settings := h.settings ++ [(name, value)] } j =
      if j = name then some value else h.setting? j := by
  rw [setting?, setting?, List.reverse_append]
  by_cases same : j = name
  · simp [same]
  · simp [same, beq_false_of_ne same, List.lookup_cons]

end History

end Session

end RoadAtlas
