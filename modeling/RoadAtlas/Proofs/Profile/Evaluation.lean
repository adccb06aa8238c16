import Mathlib.Data.List.Find
import RoadAtlas.Profile.Basic
import RoadAtlas.Proofs.Profile.Registry

/-!
Evaluation in different environments. The same definition evaluates a ruleset with kept values, with
fresh ones and with notes on what it asks for; it makes programs that do the same whenever the
look-ups of two environments do.

* `Correspondence`: programs of two monads that do the same, and sequences do so step by step;
* `Ruleset.evaluate_corresponds`: evaluation in environments whose look-ups correspond corresponds;
* `Simulation` and `Environment.Agrees` are the case in which the second environment is pure, with
  `Ruleset.evaluate_gives`.
-/

namespace RoadAtlas

/-! ### Correspondences -/

/-- What it means that programs of two monads do the same, closed under the making of programs. -/
structure Correspondence (m m' : Type → Type) [Monad m] [Monad m'] where
  rel : {α : Type} → m α → m' α → Prop
  pure : ∀ {α : Type} (a : α), rel (pure a) (pure a)
  bind : ∀ {α β : Type} {x : m α} {y : m' α} {f : α → m β} {g : α → m' β},
    rel x y → (∀ a, rel (f a) (g a)) → rel (x >>= f) (y >>= g)

/-- Programs of one monad do the same when they are equal. -/
def Correspondence.equal (m : Type → Type) [Monad m] : Correspondence m m where
  rel x y := x = y
  pure _ := rfl
  bind := by
    rintro α β x _ f g rfl hf
    exact congrArg (x >>= ·) (funext hf)

section Environments

variable {m m' : Type → Type} [Monad m] [Monad m']

/-- Look-ups in `env` and `env'` for the types of a set do the same. -/
structure Environment.Corresponds (C : Correspondence m m') (env : Environment m)
    (env' : Environment m') (types : TypeSet) : Prop where
  tagged : ∀ id ∈ types, ∀ tag, env.registry.isTagged tag id = env'.registry.isTagged tag id
  parameter : ∀ name, env.parameter name = env'.parameter name
  typeValue : ∀ id ∈ types, ∀ quantity, env.registry.pair? id ≠ none →
    C.rel (env.typeValue id quantity) (env'.typeValue id quantity)

end Environments

/-- What it means that a program gives a result, closed under the making of programs. -/
structure Simulation (m : Type → Type) [Monad m] where
  gives : {α : Type} → m α → α → Prop
  pure : ∀ {α : Type} (a : α), gives (pure a) a
  bind : ∀ {α β : Type} {x : m α} {f : α → m β} {a : α} {b : β},
    gives x a → gives (f a) b → gives (x >>= f) b

namespace Simulation

/-- Programs without effects give what they are. -/
def pureOnly : Simulation Id where
  gives x a := x.run = a
  pure _ := rfl
  bind hx hf := by
    subst hx
    exact hf

/-- To give the result of a program without effects is to do the same as it. -/
def correspondence {m : Type → Type} [Monad m] (S : Simulation m) : Correspondence m Id where
  rel x y := S.gives x y.run
  pure a := S.pure a
  bind hx hf := S.bind hx (hf _)

end Simulation

/-- What is looked up in `env` for the types of a set gives what `env'` has. -/
structure Environment.Agrees {m : Type → Type} [Monad m] (S : Simulation m) (env : Environment m)
    (env' : Environment Id) (types : TypeSet) : Prop where
  tagged : ∀ id ∈ types, ∀ tag, env.registry.isTagged tag id = env'.registry.isTagged tag id
  parameter : ∀ name, env.parameter name = env'.parameter name
  typeValue : ∀ id ∈ types, ∀ quantity,
    S.gives (env.typeValue id quantity) (env'.typeValue id quantity).run

variable {m m' : Type → Type} [Monad m] [Monad m'] {C : Correspondence m m'} {env : Environment m}
  {env' : Environment m'} {types : TypeSet}

/-! ### Look-ups by tag -/

namespace Registry

variable {r r' : Registry}

lemma hasTag_congr {tag : String} (h : ∀ id ∈ types, r.isTagged tag id = r'.isTagged tag id) :
    r.hasTag tag types = r'.hasTag tag types := by
  rw [Bool.eq_iff_iff, hasTag_eq_any, hasTag_eq_any, List.any_eq_true, List.any_eq_true]
  exact exists_congr fun id => and_congr_right fun hid => by rw [h id hid]

lemma firstWithTag?_congr {tag : String}
    (h : ∀ id ∈ types, r.isTagged tag id = r'.isTagged tag id) :
    r.firstWithTag? tag types = r'.firstWithTag? tag types := by
  rw [firstWithTag?_eq_find?, firstWithTag?_eq_find?]
  exact List.find?_congr h

/-- An id that is found by a tag is registered. -/
lemma pair?_of_firstWithTag? {tag : String} {id : ℕ} (found : r.firstWithTag? tag types = some id) :
    r.pair? id ≠ none := by
  obtain ⟨value, own⟩ := isTagged_iff.mp (isTagged_of_firstWithTag? found)
  rw [own]
  exact Option.some_ne_none _

end Registry

/-! ### Expressions -/

lemma Operand.resolve_corresponds (same : env.Corresponds C env' types) (o : Operand)
    (quantity : Quantity) : C.rel (o.resolve env types quantity) (o.resolve env' types quantity) := by
  cases o with
  | literal value => exact C.pure _
  | parameter name =>
    simp only [resolve, same.parameter name]
    cases env'.parameter name with
    | some text => exact C.pure _
    | none => exact C.pure _
  | tag name =>
    have first : env.registry.firstWithTag? name types = env'.registry.firstWithTag? name types :=
      Registry.firstWithTag?_congr fun id hid => same.tagged id hid name
    simp only [resolve, ← first]
    cases found : env.registry.firstWithTag? name types with
    | some id =>
      exact same.typeValue id (Registry.mem_of_firstWithTag? found) quantity
        (Registry.pair?_of_firstWithTag? found)
    | none => exact C.pure _

lemma Condition.holds_corresponds (same : env.Corresponds C env' types) (c : Condition) :
    C.rel (c.holds env types) (c.holds env' types) := by
  refine C.bind (c.left.resolve_corresponds same c.quantity) fun left => ?_
  cases left with
  | error cause => exact C.pure _
  | ok value =>
    refine C.bind (c.right.resolve_corresponds same c.quantity) fun right => ?_
    cases right with
    | error cause => exact C.pure _
    | ok value' => exact C.pure _

namespace Expression

lemma conditionsHold_corresponds (same : env.Corresponds C env' types)
    (conditions : List Condition) :
    C.rel (conditionsHold env types conditions) (conditionsHold env' types conditions) := by
  induction conditions with
  | nil => exact C.pure _
  | cons c rest ih =>
    refine C.bind (c.holds_corresponds same) fun holds => ?_
    cases holds with
    | true => exact ih
    | false => exact C.pure _

/-- Guards on types are about the tags of the types only. -/
lemma matchesTypes_congr {r r' : Registry} (e : Expression)
    (h : ∀ id ∈ types, ∀ tag, r.isTagged tag id = r'.isTagged tag id) :
    e.matchesTypes r types = e.matchesTypes r' types := by
  have same : ∀ tag, r.hasTag tag types = r'.hasTag tag types :=
    fun tag => Registry.hasTag_congr fun id hid => h id hid tag
  simp only [matchesTypes, same]

lemma guardsHold_corresponds (same : env.Corresponds C env' types) (e : Expression) :
    C.rel (e.guardsHold env types) (e.guardsHold env' types) := by
  have parameter : env.parameter = env'.parameter := funext same.parameter
  rw [guardsHold, guardsHold, e.matchesTypes_congr same.tagged, parameter]
  split
  · exact conditionsHold_corresponds same e.conditions
  · exact C.pure _

lemma evaluate_corresponds (same : env.Corresponds C env' types) (e : Expression) :
    C.rel (e.evaluate env types) (e.evaluate env' types) := by
  refine C.bind (e.guardsHold_corresponds same) fun holds => ?_
  cases holds with
  | true => exact C.bind (e.result.resolve_corresponds same e.quantity) fun _ => C.pure _
  | false => exact C.pure _

end Expression

namespace Ruleset

/-- Evaluation does the same in environments whose look-ups do. -/
lemma evaluate_corresponds (same : env.Corresponds C env' types) (rules : Ruleset) :
    C.rel (evaluate env types rules) (evaluate env' types rules) := by
  induction rules with
  | nil => exact C.pure _
  | cons e rest ih =>
    refine C.bind (e.evaluate_corresponds same) fun result => ?_
    cases result with
    | some value => exact C.pure _
    | none => exact ih

/-- Evaluation answers what it does in an environment that it agrees with. -/
lemma evaluate_gives {S : Simulation m} {env : Environment m} {env' : Environment Id}
    (agrees : env.Agrees S env' types) (rules : Ruleset) :
    S.gives (evaluate env types rules) (evaluate env' types rules).run := by
  have same : env.Corresponds S.correspondence env' types :=
    ⟨agrees.tagged, agrees.parameter, fun id hid quantity _ => agrees.typeValue id hid quantity⟩
  exact evaluate_corresponds same rules

end Ruleset

end RoadAtlas
