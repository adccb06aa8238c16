import RoadAtlas.Profile.Registry
import RoadAtlas.Quantity

/-!
Guarded expressions: an expression has a number for the roads whose types satisfy its guards.

Guards are checked in a fixed order: types that must be there, types that must not, tags that must
be there, tags that must not, parameters, comparisons. Operands are looked up in an `Environment`,
in whose monad the value of a type is found; the order of look-ups is therefore part of the meaning,
and one definition serves evaluation with a cache and without.

* `Operand.parse` reads `:parameter`, `$tag` or a literal;
* `Expression.guardsHold` and `Expression.evaluate` are the guards and the number;
* `Ruleset.evaluate` takes the first expression that has one.
-/

namespace RoadAtlas

/-! ### Operands -/

/-- A number in an expression. -/
inductive Operand where
  | literal (value : Float)
  /-- The value of a parameter. -/
  | parameter (name : String)
  /-- The value of the road's type with a tag. -/
  | tag (name : String)
  deriving DecidableEq

/-- What operands are looked up in. -/
structure Environment (m : Type → Type) where
  registry : Registry
  /-- The value of a parameter, if it has one. -/
  parameter : String → Option String
  /-- The number that the value of a type denotes. -/
  typeValue : Nat → Quantity → m (Except OperandError Float)

namespace Operand

/-- Reads `:parameter`, `$tag` or a literal. -/
def parse (text : String) (quantity : Quantity) : Except OperandError Operand :=
  match text.toList with
  | ':' :: name => .ok (.parameter (String.ofList name))
  | '$' :: name => .ok (.tag (String.ofList name))
  | _ => (quantity.parse text).map .literal

variable {m : Type → Type} [Monad m]

/-- The number an operand stands for. -/
def resolve (env : Environment m) (types : TypeSet) (quantity : Quantity) :
    Operand → m (Except OperandError Float)
  | literal value => return .ok value
  | parameter name =>
    match env.parameter name with
    | some text => return quantity.parse text
    | none => return .error (.unknownParameter name)
  | tag name =>
    match env.registry.firstWithTag? name types with
    | some id => env.typeValue id quantity
    | none => return .error (.missingTag name)

end Operand

/-! ### Guards -/

/-- An order comparison of two numbers. -/
inductive Comparison where
  | less
  | lessOrEqual
  | greater
  | greaterOrEqual
  deriving DecidableEq, Repr

namespace Comparison

def holds : Comparison → Float → Float → Bool
  | less, a, b => a < b
  | lessOrEqual, a, b => a ≤ b
  | greater, a, b => b < a
  | greaterOrEqual, a, b => b ≤ a

/-- The sign of a comparison. -/
def symbol : Comparison → String
  | less => "<"
  | lessOrEqual => "<="
  | greater => ">"
  | greaterOrEqual => ">="

/-- The comparison that a sign or a word names. -/
def ofSymbol? (word : String) : Option Comparison :=
  match word with
  | "<" | "lt" => some less
  | "<=" | "le" => some lessOrEqual
  | ">" | "gt" => some greater
  | ">=" | "ge" => some greaterOrEqual
  | _ => none

theorem ofSymbol?_symbol (c : Comparison) : ofSymbol? c.symbol = some c := by
  cases c <;> rfl

end Comparison

/-- A comparison of two operands, both read as one quantity. -/
structure Condition where
  comparison : Comparison
  left : Operand
  right : Operand
  quantity : Quantity
  deriving DecidableEq

/-- A parameter that must be set to true, or must not be. -/
structure ParameterGuard where
  name : String
  negated : Bool
  deriving DecidableEq, Repr

namespace ParameterGuard

/-- Reads `name` or `-name`. -/
def parse (text : String) : ParameterGuard :=
  match text.toList with
  | '-' :: name => ⟨String.ofList name, true⟩
  | _ => ⟨text, false⟩

/-- The guard holds for a look-up of parameters; one that is not set counts as false. -/
def holds (g : ParameterGuard) (parameter : String → Option String) : Bool :=
  ((parameter g.name).bind Quantity.truth?).getD false != g.negated

end ParameterGuard

/-- Whether a condition holds; it does not when an operand has no value. The right operand is looked
up only when the left one has a value. -/
def Condition.holds {m : Type → Type} [Monad m] (c : Condition) (env : Environment m)
    (types : TypeSet) : m Bool := do
  match ← c.left.resolve env types c.quantity with
  | .error _ => return false
  | .ok left =>
    match ← c.right.resolve env types c.quantity with
    | .error _ => return false
    | .ok right => return c.comparison.holds left right

/-! ### Expressions -/

/-- A number behind guards. -/
structure Expression where
  requiredTypes : TypeSet := ∅
  excludedTypes : TypeSet := ∅
  /-- Tags that must be there with any value. -/
  requiredTags : List String := []
  /-- Tags that must not be there with any value. -/
  excludedTags : List String := []
  parameters : List ParameterGuard := []
  conditions : List Condition := []
  result : Operand := .literal 0.0
  quantity : Quantity := .number
  deriving DecidableEq

namespace Expression

/-- The guards on the types of a road. -/
def matchesTypes (e : Expression) (registry : Registry) (types : TypeSet) : Bool :=
  e.requiredTypes.isSubset types && e.excludedTypes.isDisjoint types &&
    e.requiredTags.all (fun tag => registry.hasTag tag types) &&
    !e.excludedTags.any fun tag => registry.hasTag tag types

variable {m : Type → Type} [Monad m]

/-- Every condition holds; none is looked at behind the first that does not. -/
def conditionsHold (env : Environment m) (types : TypeSet) : List Condition → m Bool
  | [] => return true
  | c :: rest => do
    if ← c.holds env types then conditionsHold env types rest else return false

/-- Every guard holds. -/
def guardsHold (e : Expression) (env : Environment m) (types : TypeSet) : m Bool :=
  if e.matchesTypes env.registry types && e.parameters.all (·.holds env.parameter) then
    conditionsHold env types e.conditions
  else return false

/-- The number of the expression, when its guards hold and its result has a value. -/
def evaluate (e : Expression) (env : Environment m) (types : TypeSet) : m (Option Float) := do
  if ← e.guardsHold env types then
    let result ← e.result.resolve env types e.quantity
    return result.toOption
  else return none

end Expression

/-- Expressions in order of precedence. -/
abbrev Ruleset := List Expression

namespace Ruleset

variable {m : Type → Type} [Monad m]

/-- The number of the first expression that has one; `none` is no opinion. -/
def evaluate (env : Environment m) (types : TypeSet) : Ruleset → m (Option Float)
  | [] => return none
  | e :: rest => do
    match ← e.evaluate env types with
    | some value => return some value
    | none => evaluate env types rest

end Ruleset

end RoadAtlas
