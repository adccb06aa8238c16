import RoadAtlas.Config.Document

/-!
Compiled configurations: every text of a document resolved, and every pair that an expression names
registered. Compiling runs over a registry and may fail half way; what was registered until then
stays registered.

* `ExpressionText.compile`, `ProfileText.compile` and `Document.compile` compile the parts of a
  document in its order, rulesets in the order of their names;
* `Config.parse` reads and compiles a JSON text;
* `Config.profile?`, `Config.chosen?` and `Config.attribute?` look things up.
-/

namespace RoadAtlas

/-! ### Failures -/

/-- Why a configuration is refused. -/
inductive ConfigError where
  | invalidDocument
  | unknownRuleset (profile word : String)
  | unknownComparison (profile sign : String)
  | invalidLiteral (profile : String) (cause : OperandError)
  | duplicateProfile (name : String)
  | unknownDefault (name : String)
  deriving DecidableEq, Repr

/-- The wording of a refusal. -/
def ConfigError.message : ConfigError → String
  | .invalidDocument => "invalid profile configuration"
  | .unknownRuleset profile word => s!"profile '{profile}': unknown ruleset '{word}'"
  | .unknownComparison profile sign => s!"profile '{profile}': unknown comparison '{sign}'"
  | .invalidLiteral profile cause => s!"profile '{profile}': invalid literal: " ++ cause.message
  | .duplicateProfile name => s!"profile '{name}' is defined twice"
  | .unknownDefault name => s!"default profile '{name}' is not defined"

/-- Work on a configuration, which registers pairs as it goes and may be given up. -/
abbrev Compile := ExceptT ConfigError (StateM Registry)

/-! ### Expressions -/

/-- The expression with one more guard on tags. A test with a value becomes a type, which is
registered; one without stays a tag. -/
def TagTest.addTo (t : TagTest) (e : Expression) : StateM Registry Expression :=
  if t.value.isEmpty then
    return if t.negated then { e with excludedTags := e.excludedTags ++ [t.tag] }
      else { e with requiredTags := e.requiredTags ++ [t.tag] }
  else do
    let type ← modifyGet fun registry => registry.register (t.tag, t.value)
    return if t.negated then { e with excludedTypes := e.excludedTypes.insert type }
      else { e with requiredTypes := e.requiredTypes.insert type }

/-- The condition of a comparison in a profile. -/
def NumberTest.compile (profile : String) (t : NumberTest) : Except ConfigError Condition := do
  let some comparison := Comparison.ofSymbol? t.sign
    | throw (.unknownComparison profile t.sign)
  let left ← (Operand.parse t.left t.quantity).mapError (.invalidLiteral profile)
  let right ← (Operand.parse t.right t.quantity).mapError (.invalidLiteral profile)
  return ⟨comparison, left, right, t.quantity⟩

/-- The expression of a profile that a text describes. -/
def ExpressionText.compile (profile : String) (t : ExpressionText) : Compile Expression := do
  let guarded ← t.tags.foldlM (fun e test => test.addTo e) ({} : Expression)
  let conditions ← liftExcept (t.comparisons.mapM (NumberTest.compile profile))
  let operand := (Operand.parse t.result t.quantity).mapError (ConfigError.invalidLiteral profile)
  let result ← liftExcept operand
  return { guarded with
    parameters := t.parameters.map ParameterGuard.parse
    conditions, result, quantity := t.quantity }

/-! ### Profiles -/

/-- The expressions of one ruleset, put behind those of a profile. -/
def Profile.addRuleset (p : Profile) (word : String) (texts : List ExpressionText) :
    Compile Profile := do
  let some kind := RulesetKind.ofLabel? word
    | throw (.unknownRuleset p.name word)
  texts.foldlM (fun p text => return p.addExpression kind (← text.compile p.name)) p

/-- The profile before its rulesets. -/
def ProfileText.skeleton (t : ProfileText) : Profile :=
  let attributed := t.attributes.toList.foldl (fun (p : Profile) (key, value) =>
    p.addAttribute key value) { name := t.name }
  t.parameters.foldl Profile.addParameter attributed

/-- The profile that a text describes. -/
def ProfileText.compile (t : ProfileText) : Compile Profile :=
  t.rulesets.toList.foldlM (fun p (word, texts) => p.addRuleset word texts) t.skeleton

/-! ### Configurations -/

/-- The profiles of a document. -/
structure Config where
  attributes : SortedMap String String
  defaultProfile : Option String
  profiles : List Profile

namespace Config

/-- The first profile of a name. -/
def profile? (c : Config) (name : String) : Option Profile :=
  c.profiles.find? fun p => p.name == name

/-- The profile of a name; for no name the default, and without one the first of all. -/
def chosen? (c : Config) (name : Option String) : Option Profile :=
  match name <|> c.defaultProfile with
  | some name => c.profile? name
  | none => c.profiles.head?

/-- The attribute of a profile, or else the one of the document. -/
def attribute? (c : Config) (profile : Option String) (key : String) : Option String :=
  ((profile.bind c.profile?).bind fun p => p.attributes.get? key) <|> c.attributes.get? key

end Config

namespace Document

/-- Puts a profile behind others, of which none may have its name. -/
def addProfile (profiles : List Profile) (t : ProfileText) : Compile (List Profile) := do
  if profiles.any fun p => p.name == t.name then
    throw (.duplicateProfile t.name)
  return profiles ++ [← t.compile]

/-- The configuration that a document describes. -/
def compile (d : Document) : Compile Config := do
  let profiles ← d.profiles.foldlM addProfile []
  if let some name := d.defaultProfile then
    if !profiles.any fun p => p.name == name then
      throw (.unknownDefault name)
  return ⟨d.attributes, d.defaultProfile, profiles⟩

end Document

/-- The configuration that a JSON text holds, and the registry behind it. -/
def Config.parse (text : String) (registry : Registry) : Except ConfigError Config × Registry :=
  match Document.parse? text with
  | none => (.error .invalidDocument, registry)
  | some document => document.compile.run.run registry

end RoadAtlas
