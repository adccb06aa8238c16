import Mathlib.Tactic.Common
import RoadAtlas.Config.Basic
import RoadAtlas.Proofs.Session.Fresh

/-!
What a configuration says, read off its texts alone: a road is a collection of `(tag, value)` pairs,
parameters have texts as values, and there is no registry, no id and nothing compiled.

* `Situation` is what an expression is read in;
* `TagTest.holdsIn`, `NumberTest.holdsIn` and `ExpressionText.holdsIn` are the guards of an
  expression, `Situation.operand?` its operands and `ExpressionText.number?` its number;
* `ProfileText.number?` is the number of the first expression that has one.
-/

namespace RoadAtlas

/-! ### Values of tags -/

section Lookup

variable {pairs : List TagPair} {tag value : String}

lemma mem_of_lookup (found : pairs.lookup tag = some value) : (tag, value) ∈ pairs := by
  obtain ⟨before, after, split, -⟩ := List.lookup_eq_some_iff.mp found
  simp [split]

lemma lookup_eq_none_iff : pairs.lookup tag = none ↔ ∀ value, (tag, value) ∉ pairs := by
  rw [List.lookup_eq_none_iff]
  constructor
  · intro other value hpair
    simpa using other _ hpair
  · rintro absent ⟨tag', value⟩ hpair
    by_contra same
    obtain rfl : tag = tag' := by simpa using same
    exact absent value hpair

lemma exists_lookup (hpair : (tag, value) ∈ pairs) : ∃ first, pairs.lookup tag = some first :=
  Option.ne_none_iff_exists'.mp fun none => lookup_eq_none_iff.mp none value hpair

end Lookup

/-! ### Situations -/

/-- What an expression is read in. -/
structure Situation where
  /-- The pairs of the road. -/
  pairs : List TagPair
  /-- The value of a parameter, if it has one. -/
  parameter : String → Option String

namespace Situation

/-- No tag has two values. -/
def OneValuePerTag (s : Situation) : Prop :=
  ∀ tag value value', (tag, value) ∈ s.pairs → (tag, value') ∈ s.pairs → value = value'

lemma OneValuePerTag.lookup_eq {s : Situation} (once : s.OneValuePerTag) {tag value : String}
    (hpair : (tag, value) ∈ s.pairs) : s.pairs.lookup tag = some value := by
  obtain ⟨first, found⟩ := exists_lookup hpair
  rw [found, once tag value first hpair (mem_of_lookup found)]

/-- The road has the tag, whatever its value. -/
def hasTag (s : Situation) (tag : String) : Bool := s.pairs.any fun pair => pair.1 == tag

/-- The parameter is set to `true`, in any case. -/
def isSet (s : Situation) (name : String) : Bool :=
  (s.parameter name).any fun value => Text.equalsIgnoringCase value "true"

/-- The number that an operand stands for: `:name` for the value of a parameter, `$tag` for the
value of a tag, and anything else for itself. -/
def operand? (s : Situation) (quantity : Quantity) (text : String) : Option Float :=
  match text.toList with
  | ':' :: name => (s.parameter (String.ofList name)).bind quantity.value?
  | '$' :: tag => (s.pairs.lookup (String.ofList tag)).bind quantity.value?
  | _ => quantity.value? text

/-- The parameter that `name` names is set, or the one that `-name` names is not. -/
def parameterHolds (s : Situation) (text : String) : Bool :=
  match text.toList with
  | '-' :: name => !s.isSet (String.ofList name)
  | _ => s.isSet text

end Situation

/-- The road has the pair, or the tag when there is no value, unless the test is negated; then it
has not. -/
def TagTest.holdsIn (t : TagTest) (s : Situation) : Bool :=
  (if t.value.isEmpty then s.hasTag t.tag else s.pairs.contains (t.tag, t.value)) != t.negated

/-- Two numbers are in the order that a sign says. Every order has a sign and a word. -/
def NumberTest.agrees (sign : String) (left right : Float) : Bool :=
  match sign with
  | "<" | "lt" => left < right
  | "<=" | "le" => left ≤ right
  | ">" | "gt" => left > right
  | ">=" | "ge" => left ≥ right
  | _ => false

/-- Both operands have numbers and these are in the order that the sign says. -/
def NumberTest.holdsIn (t : NumberTest) (s : Situation) : Bool :=
  match s.operand? t.quantity t.left, s.operand? t.quantity t.right with
  | some left, some right => agrees t.sign left right
  | _, _ => false

namespace ExpressionText

/-- Every guard holds. -/
def holdsIn (t : ExpressionText) (s : Situation) : Bool :=
  t.tags.all (·.holdsIn s) && t.parameters.all s.parameterHolds && t.comparisons.all (·.holdsIn s)

/-- The number of the expression, when its guards hold and its result has one. -/
def number? (t : ExpressionText) (s : Situation) : Option Float :=
  if t.holdsIn s then s.operand? t.quantity t.result else none

end ExpressionText

namespace ProfileText

/-- The expressions of a ruleset, in order. -/
def expressions (t : ProfileText) (kind : RulesetKind) : List ExpressionText :=
  (t.rulesets.get? kind.label).getD []

/-- The number of the first expression of a ruleset that has one. -/
def number? (t : ProfileText) (kind : RulesetKind) (s : Situation) : Option Float :=
  (t.expressions kind).findSome? (·.number? s)

/-- The default of a parameter, by its last declaration. -/
def defaultOf? (t : ProfileText) (name : String) : Option String :=
  (t.parameters.reverse.find? fun p => p.id == name).bind Parameter.default

end ProfileText

/-! ### Roads in a registry -/

/-- The pairs that a rule table gives some types. -/
def RuleTable.pairsOf (table : RuleTable) (types : List UInt32) : List TagPair :=
  types.filterMap fun type => (table.get? type).map Rule.pair

/-- The ids of a set are those of some pairs, all of which are registered. -/
structure Registry.Describes (r : Registry) (types : TypeSet) (pairs : List TagPair) : Prop where
  known : ∀ pair ∈ pairs, pair ∈ r.pairs
  mem_iff : ∀ id, id ∈ types ↔ ∃ pair ∈ pairs, r.pair? id = some pair

/-- Of several of these pairs with one tag, the one that was registered first is listed first. -/
structure Registry.Lists (r : Registry) (types : TypeSet) (pairs : List TagPair) : Prop
    extends r.Describes types pairs where
  first : ∀ tag id, r.firstWithTag? tag types = some id →
    ∃ value, r.pair? id = some (tag, value) ∧ pairs.lookup tag = some value

namespace Registry

variable {r : Registry} {types : TypeSet} {pairs : List TagPair}

lemma mem_pairsOf {table : RuleTable} {types : List UInt32} {pair : TagPair} :
    pair ∈ table.pairsOf types ↔ ∃ type ∈ types, ∃ rule, table.get? type = some rule ∧
      rule.pair = pair := by
  simp only [RuleTable.pairsOf, List.mem_filterMap, Option.map_eq_some_iff]

/-- The universal ids of some types describe the pairs that their table gives them. -/
lemma Knows.describes {table : RuleTable} {types : List UInt32} (known : r.Knows table types)
    (same : ∀ pair, pair ∈ pairs ↔ pair ∈ table.pairsOf types) :
    r.Describes (r.typesOf table types) pairs := by
  constructor
  case known =>
    intro pair hpair
    obtain ⟨type, ht, rule, hrule, rfl⟩ := mem_pairsOf.mp ((same pair).mp hpair)
    exact known type ht rule hrule
  case mem_iff =>
    intro id
    rw [mem_typesOf]
    constructor
    · rintro ⟨type, ht, rule, hrule, found⟩
      exact ⟨rule.pair, (same _).mpr (mem_pairsOf.mpr ⟨type, ht, rule, hrule, rfl⟩),
        idOf?_eq_some_iff.mp found⟩
    · rintro ⟨pair, hpair, found⟩
      obtain ⟨type, ht, rule, hrule, rfl⟩ := mem_pairsOf.mp ((same pair).mp hpair)
      exact ⟨type, ht, rule, hrule, idOf?_eq_some_iff.mpr found⟩

namespace Describes

/-- A registered pair is one of those described when its id is in the set. -/
lemma mem_iff_of_idOf? (h : r.Describes types pairs) {pair : TagPair} {id : ℕ}
    (found : r.idOf? pair = some id) : id ∈ types ↔ pair ∈ pairs := by
  rw [h.mem_iff]
  have own := idOf?_eq_some_iff.mp found
  constructor
  · rintro ⟨pair', hpair', found'⟩
    obtain rfl : pair = pair' := Option.some.inj (own.symm.trans found')
    exact hpair'
  · intro hpair
    exact ⟨pair, hpair, own⟩

lemma decide_mem (h : r.Describes types pairs) {pair : TagPair} {id : ℕ}
    (found : r.idOf? pair = some id) : decide (id ∈ types) = pairs.contains pair := by
  rw [Bool.eq_iff_iff, decide_eq_true_eq, List.contains_iff_mem]
  exact h.mem_iff_of_idOf? found

/-- Among the ids of the set those with a tag belong to the pairs with it. -/
lemma exists_isTagged_iff (h : r.Describes types pairs) {tag : String} {id : ℕ} :
    (id ∈ types ∧ r.isTagged tag id) ↔ ∃ value, (tag, value) ∈ pairs ∧
      r.pair? id = some (tag, value) := by
  rw [h.mem_iff, isTagged]
  constructor
  · rintro ⟨⟨⟨tag', value⟩, hpair, found⟩, tagged⟩
    simp only [found, Option.any_some, beq_iff_eq] at tagged
    exact ⟨value, tagged ▸ hpair, tagged ▸ found⟩
  · rintro ⟨value, hpair, found⟩
    exact ⟨⟨_, hpair, found⟩, by simp [found]⟩

/-- Every pair described has its id in the set. -/
lemma exists_id (h : r.Describes types pairs) {pair : TagPair} (hpair : pair ∈ pairs) :
    ∃ id ∈ types, r.pair? id = some pair := by
  obtain ⟨id, found⟩ := exists_idOf?_of_mem (h.known pair hpair)
  exact ⟨id, (h.mem_iff_of_idOf? found).mpr hpair, idOf?_eq_some_iff.mp found⟩

lemma hasTag_eq {s : Situation} (h : r.Describes types s.pairs) (tag : String) :
    r.hasTag tag types = s.hasTag tag := by
  rw [Bool.eq_iff_iff, hasTag_eq_any, Situation.hasTag, List.any_eq_true, List.any_eq_true]
  constructor
  · rintro ⟨id, hid, tagged⟩
    obtain ⟨value, hpair, -⟩ := h.exists_isTagged_iff.mp ⟨hid, tagged⟩
    exact ⟨_, hpair, beq_self_eq_true tag⟩
  · rintro ⟨⟨tag', value⟩, hpair, same⟩
    obtain rfl : tag' = tag := beq_iff_eq.mp same
    obtain ⟨id, -, found⟩ := h.exists_id hpair
    exact ⟨id, h.exists_isTagged_iff.mpr ⟨value, hpair, found⟩⟩

/-- With one value for each tag, no order needs to be looked at. -/
lemma lists {s : Situation} (h : r.Describes types s.pairs) (once : s.OneValuePerTag) :
    r.Lists types s.pairs where
  toDescribes := h
  first tag id found := by
    have hid : id ∈ types := mem_of_firstWithTag? found
    have tagged := isTagged_of_firstWithTag? found
    obtain ⟨value, hpair, hid'⟩ := h.exists_isTagged_iff.mp ⟨hid, tagged⟩
    exact ⟨value, hid', once.lookup_eq hpair⟩

/-- A tag without an id has no value. -/
lemma lookup_of_firstWithTag?_eq_none {s : Situation} (h : r.Describes types s.pairs) {tag : String}
    (none : r.firstWithTag? tag types = none) : s.pairs.lookup tag = .none := by
  rw [lookup_eq_none_iff]
  intro value hpair
  obtain ⟨id, hid, found⟩ := h.exists_id hpair
  have tagged := (h.exists_isTagged_iff.mpr ⟨value, hpair, found⟩).2
  rw [firstWithTag?_eq_find?] at none
  exact List.find?_eq_none.mp none id hid tagged

end Describes

end Registry

end RoadAtlas
