import RoadAtlas.Proofs.Config.Meaning
import RoadAtlas.Proofs.SortedMap

/-!
Compiled configurations mean what their texts say, in the registry that compiling them leaves behind
and in every registry that grows from it.

* `Compile.Yields`: a compilation that is not given up, with `Compile.Yields.foldlM` for work on one
  part after another;
* `Expression.Means`, `Profile.Means`: what it is for a compiled part to mean its text;
* `Document.compile_means`: the profiles of a compiled document mean their texts, one by one.
-/

namespace RoadAtlas

/-! ### Compilations -/

namespace Compile

variable {α β : Type} {x : Compile α} {f : α → Compile β} {a : α} {b : β} {r r' : Registry}

/-- The compilation succeeds. -/
def Yields (x : Compile α) (r : Registry) (a : α) (r' : Registry) : Prop :=
  (x.run.run r).1 = .ok a ∧ (x.run.run r).2 = r'

lemma yields_pure_iff {c : α} : (pure c : Compile α).Yields r a r' ↔ a = c ∧ r' = r := by
  constructor
  · rintro ⟨⟨⟩, ⟨⟩⟩
    exact ⟨rfl, rfl⟩
  · rintro ⟨rfl, rfl⟩
    exact ⟨rfl, rfl⟩

lemma yields_bind_iff : (x >>= f).Yields r b r' ↔
    ∃ a r₁, x.Yields r a r₁ ∧ (f a).Yields r₁ b r' := by
  have run : (x >>= f).run.run r = match (x.run.run r).1 with
      | .ok a => (f a).run.run (x.run.run r).2
      | .error cause => (.error cause, (x.run.run r).2) := by
    change (ExceptT.bindCont f (x.run.run r).1).run (x.run.run r).2 = _
    cases (x.run.run r).1 with
    | ok a => rfl
    | error cause => rfl
  rw [Yields, run]
  constructor
  · intro yields
    cases first : (x.run.run r).1 with
    | ok a =>
      rw [first] at yields
      exact ⟨a, _, ⟨first, rfl⟩, yields⟩
    | error cause =>
      rw [first] at yields
      exact nomatch yields.1
  · rintro ⟨a, r₁, ⟨first, rfl⟩, later⟩
    rw [first]
    exact later

lemma not_yields_throw {cause : ConfigError} : ¬ (throw cause : Compile α).Yields r a r' :=
  fun yields => nomatch yields.1

lemma yields_lift_iff {y : StateM Registry α} : (liftM y : Compile α).Yields r a r' ↔
    (y.run r).1 = a ∧ (y.run r).2 = r' := by
  have run : (liftM y : Compile α).run.run r = (.ok (y.run r).1, (y.run r).2) := rfl
  rw [Yields, run, Except.ok.injEq]

lemma yields_liftExcept_iff {y : Except ConfigError α} : (liftExcept y : Compile α).Yields r a r' ↔
    y = .ok a ∧ r = r' := by
  have run : (liftExcept y : Compile α).run.run r = (y, r) := by cases y <;> rfl
  rw [Yields, run]

/-- What holds before work on some items, and goes on to hold after each, holds after all. -/
lemma Yields.foldlM {g : β → α → Compile β} {I : List α → β → Registry → Prop}
    (step : ∀ done a b r b' r', I done b r → (g b a).Yields r b' r' → I (done ++ [a]) b' r')
    {items : List α} {b' : β} (initially : I [] b r) (yields : (items.foldlM g b).Yields r b' r') :
    I items b' r' := by
  -- the items worked on so far are collected in `done`
  suffices after : ∀ done b r, I done b r → (items.foldlM g b).Yields r b' r' →
      I (done ++ items) b' r' from after [] b r initially yields
  clear initially yields
  induction items with
  | nil =>
    intro done b r holds yields
    obtain ⟨rfl, rfl⟩ := yields_pure_iff.mp yields
    rwa [List.append_nil]
  | cons a rest ih =>
    intro done b r holds yields
    rw [List.foldlM_cons] at yields
    obtain ⟨b₁, r₁, first, later⟩ := yields_bind_iff.mp yields
    have := ih (done ++ [a]) b₁ r₁ (step done a b r b₁ r₁ holds first) later
    rwa [List.append_assoc] at this

end Compile

/-! ### Expressions -/

/-- In every registry that has grown from `r`, the expression has the number that the text says. -/
def Expression.Means (r : Registry) (e : Expression) (t : ExpressionText) : Prop :=
  ∀ ⦃r' types⦄ ⦃s : Situation⦄, r.Extends r' → r'.Lists types s.pairs →
    (e.evaluate (.fresh r' s.parameter) types).run = t.number? s

lemma Expression.Means.grow {r r' : Registry} {e : Expression} {t : ExpressionText}
    (means : e.Means r t) (grown : r.Extends r') : e.Means r' t :=
  fun _ _ _ grown' lists => means (grown.trans grown') lists

/-- Conditions hold when the comparisons do that they were compiled from. -/
lemma Expression.conditionsHold_compile {r : Registry} {types : TypeSet} {s : Situation}
    (lists : r.Lists types s.pairs) {profile : String} {comparisons : List NumberTest} :
    ∀ {conditions : List Condition},
      comparisons.mapM (NumberTest.compile profile) = .ok conditions →
      (conditionsHold (.fresh r s.parameter) types conditions).run =
        comparisons.all (·.holdsIn s) := by
  induction comparisons with
  | nil =>
    rintro conditions ⟨⟩
    rfl
  | cons t rest ih =>
    intro conditions compiled
    rw [List.mapM_cons] at compiled
    obtain ⟨c, first, others⟩ := bind_eq_ok.mp compiled
    obtain ⟨later, hlater, last⟩ := bind_eq_ok.mp others
    cases last
    simp only [conditionsHold, Id.run_bind, List.all_cons, t.holds_compile lists first]
    cases t.holdsIn s with
    | true => exact ih hlater
    | false => rfl

/-- An expression whose parts are what a text says has the number that the text says. -/
lemma Expression.means_of_parts {r : Registry} {e : Expression} {t : ExpressionText}
    {profile : String} (guards : e.Guards r fun s => t.tags.all (·.holdsIn s))
    (parameters : e.parameters = t.parameters.map ParameterGuard.parse)
    (conditions : t.comparisons.mapM (NumberTest.compile profile) = .ok e.conditions)
    (result : Operand.parse t.result t.quantity = .ok e.result)
    (quantity : e.quantity = t.quantity) : e.Means r t := by
  intro r' types s grown lists
  have tags : e.matchesTypes r' types = t.tags.all (·.holdsIn s) :=
    guards grown lists.toDescribes
  have set : e.parameters.all (·.holds s.parameter) = t.parameters.all s.parameterHolds := by
    rw [parameters, List.all_map]
    exact congrArg _ (funext ParameterGuard.holds_parse)
  have holds : (e.guardsHold (.fresh r' s.parameter) types).run = t.holdsIn s := by
    rw [guardsHold, ExpressionText.holdsIn, ← conditionsHold_compile lists conditions]
    simp only [Environment.fresh, tags, set]
    cases t.tags.all (·.holdsIn s) && t.parameters.all s.parameterHolds with
    | true => rfl
    | false => rfl
  have number := e.result.resolve_parse lists result
  rw [← quantity] at number
  simp only [evaluate, Id.run_bind, holds, ExpressionText.number?, ← quantity]
  cases t.holdsIn s with
  | true => exact number
  | false => rfl

/-- A text is compiled to an expression that means it. -/
lemma ExpressionText.compile_means {profile : String} {t : ExpressionText} {r r' : Registry}
    {e : Expression} (yields : (t.compile profile).Yields r e r') :
    r.Extends r' ∧ e.Means r' t := by
  rw [compile] at yields
  obtain ⟨guarded, r₁, hguarded, yields⟩ := Compile.yields_bind_iff.mp yields
  obtain ⟨conditions, r₂, hconditions, yields⟩ := Compile.yields_bind_iff.mp yields
  obtain ⟨result, r₃, hresult, yields⟩ := Compile.yields_bind_iff.mp yields
  obtain ⟨conditions_eq, rfl⟩ := Compile.yields_liftExcept_iff.mp hconditions
  obtain ⟨result_eq, rfl⟩ := Compile.yields_liftExcept_iff.mp hresult
  obtain ⟨rfl, rfl⟩ := Compile.yields_pure_iff.mp yields
  have step : ∀ (done : List TagTest) (t : TagTest) (e : Expression) (r₁ : Registry)
      (e' : Expression) (r₂ : Registry),
        (r.Extends r₁ ∧ e.Guards r₁ fun s => done.all (·.holdsIn s)) →
        (liftM (t.addTo e) : Compile Expression).Yields r₁ e' r₂ →
        r.Extends r₂ ∧ e'.Guards r₂ fun s => (done ++ [t]).all (·.holdsIn s) := by
    rintro done t e r₁ e' r₂ ⟨grown, guards⟩ yields
    obtain ⟨rfl, rfl⟩ := Compile.yields_lift_iff.mp yields
    obtain ⟨grown', guards'⟩ := t.addTo_guards guards
    refine ⟨grown.trans grown', ?_⟩
    simpa only [List.all_append, List.all_cons, List.all_nil, Bool.and_true] using guards'
  obtain ⟨grown, guards⟩ := Compile.Yields.foldlM
    (I := fun done e r₁ => r.Extends r₁ ∧ e.Guards r₁ fun s => done.all (·.holdsIn s))
    step ⟨.refl r, .empty r⟩ hguarded
  have result_eq' := mapError_eq_ok.mp result_eq
  exact ⟨grown, Expression.means_of_parts guards rfl conditions_eq result_eq' rfl⟩

/-! ### Rulesets -/

/-- A word names the ruleset whose word it is. -/
lemma RulesetKind.ofLabel?_eq_some_iff {word : String} {kind : RulesetKind} :
    ofLabel? word = some kind ↔ word = kind.label := by
  constructor
  · intro found
    have labelled := List.find?_some (p := fun kind : RulesetKind => kind.label == word) found
    exact (beq_iff_eq.mp labelled).symm
  · rintro rfl
    exact ofLabel?_label kind

/-- From the profile `p₀` and the registry `r₀` on, expressions were added that mean some texts. -/
structure Profile.Written (p₀ : Profile) (r₀ : Registry) (texts : RulesetKind → List ExpressionText)
    (p : Profile) (r : Registry) : Prop where
  grown : r₀.Extends r
  parameters : p.parameters = p₀.parameters
  means : ∀ kind, List.Forall₂ (Expression.Means r) (p.ruleset kind) (texts kind)

namespace Profile.Written

variable {p₀ p p' : Profile} {r₀ r r' : Registry} {texts : RulesetKind → List ExpressionText}

lemma addExpression (written : Written p₀ r₀ texts p r) (grown : r.Extends r') {e : Expression}
    {t : ExpressionText} (means : e.Means r' t) (kind : RulesetKind) :
    Written p₀ r₀ (fun k => texts k ++ if kind = k then [t] else []) (p.addExpression kind e)
      r' where
  grown := written.grown.trans grown
  parameters := written.parameters
  means k := by
    have earlier := (written.means k).imp fun _ _ means => Expression.Means.grow means grown
    rw [ruleset_addExpression]
    split
    · exact List.rel_append earlier (.cons means .nil)
    · rwa [List.append_nil]

/-- The expressions of a ruleset are put behind those that are there. -/
lemma addRuleset (written : Written p₀ r₀ texts p r) {word : String} {new : List ExpressionText}
    (yields : (p.addRuleset word new).Yields r p' r') :
    Written p₀ r₀ (fun k => texts k ++ if RulesetKind.ofLabel? word = some k then new else [])
      p' r' := by
  rw [Profile.addRuleset] at yields
  cases hkind : RulesetKind.ofLabel? word with
  | none =>
    rw [hkind] at yields
    exact absurd yields Compile.not_yields_throw
  | some kind =>
    rw [hkind] at yields
    simp only [Option.some.injEq]
    refine Compile.Yields.foldlM
      (I := fun done => Written p₀ r₀ fun k => texts k ++ if kind = k then done else [])
      ?_ ?_ yields
    · intro done t p₁ r₁ p₂ r₂ written₁ yields₁
      obtain ⟨e, r₃, compiled, last⟩ := Compile.yields_bind_iff.mp yields₁
      obtain ⟨rfl, rfl⟩ := Compile.yields_pure_iff.mp last
      obtain ⟨grown, means⟩ := ExpressionText.compile_means compiled
      have added := written₁.addExpression grown means kind
      convert added using 2 with k
      split <;> simp
    · simpa using written

end Profile.Written

/-! ### Profiles -/

/-- The profile has the rulesets and defaults that the text describes, in every registry that has
grown from `r`. -/
structure Profile.Means (r : Registry) (p : Profile) (t : ProfileText) : Prop where
  rulesets : ∀ kind, List.Forall₂ (Expression.Means r) (p.ruleset kind) (t.expressions kind)
  defaults : ∀ name, p.defaultOf? name = t.defaultOf? name

lemma Profile.Means.grow {r r' : Registry} {p : Profile} {t : ProfileText} (means : p.Means r t)
    (grown : r.Extends r') : p.Means r' t where
  rulesets kind := (means.rulesets kind).imp fun _ _ means => Expression.Means.grow means grown
  defaults := means.defaults

/-- Rulesets give the number that their texts say. -/
lemma Profile.Means.evaluate_lists {r r' : Registry} {p : Profile} {t : ProfileText}
    {types : TypeSet} {s : Situation} (means : p.Means r t) (grown : r.Extends r')
    (lists : r'.Lists types s.pairs) (kind : RulesetKind) :
    ((p.ruleset kind).evaluate (.fresh r' s.parameter) types).run = t.number? kind s := by
  have rules := means.rulesets kind
  rw [ProfileText.number?]
  generalize p.ruleset kind = compiled at rules ⊢
  generalize t.expressions kind = texts at rules ⊢
  induction rules with
  | nil => rfl
  | @cons e text _ _ first _ ih =>
    simp only [Ruleset.evaluate, Id.run_bind, first grown lists, List.findSome?_cons]
    cases text.number? s with
    | some number => rfl
    | none => exact ih

lemma Profile.Means.evaluate {r r' : Registry} {p : Profile} {t : ProfileText} {types : TypeSet}
    {s : Situation} (means : p.Means r t) (grown : r.Extends r')
    (describes : r'.Describes types s.pairs) (once : s.OneValuePerTag) (kind : RulesetKind) :
    ((p.ruleset kind).evaluate (.fresh r' s.parameter) types).run = t.number? kind s :=
  means.evaluate_lists grown (describes.lists once) kind

/-- Attributes change neither parameters nor expressions. -/
lemma Profile.recognise_unchanged (p : Profile) (key value : String) :
    (p.recognise key value).parameters = p.parameters ∧
      (p.recognise key value).expressions = p.expressions := by
  unfold recognise
  split <;> exact ⟨rfl, rfl⟩

lemma Profile.foldl_addAttribute_unchanged (attributes : List (String × String)) (p : Profile) :
    let attributed := attributes.foldl
      (fun (p : Profile) (key, value) => p.addAttribute key value) p
    attributed.parameters = p.parameters ∧ attributed.expressions = p.expressions := by
  induction attributes generalizing p with
  | nil => exact ⟨rfl, rfl⟩
  | cons entry rest ih =>
    obtain ⟨parameters, expressions⟩ := p.recognise_unchanged entry.1 entry.2
    exact ⟨(ih _).1.trans parameters, (ih _).2.trans expressions⟩

/-- Of several parameters with one id the last one is kept. -/
lemma Profile.get?_foldl_addParameter (parameters : List Parameter) (p : Profile) (name : String) :
    (parameters.foldl Profile.addParameter p).parameters.get? name =
      (parameters.reverse.find? fun p => p.id == name).or (p.parameters.get? name) := by
  induction parameters generalizing p with
  | nil => rfl
  | cons parameter rest ih =>
    rw [List.foldl_cons, ih, addParameter, SortedMap.get?_insert, List.reverse_cons,
      List.find?_append, Option.or_assoc]
    congr 1
    by_cases same : parameter.id = name
    · simp [same]
    · simp [same, Ne.symm same]

lemma Profile.foldl_addParameter_expressions (parameters : List Parameter) (p : Profile) :
    (parameters.foldl Profile.addParameter p).expressions = p.expressions := by
  induction parameters generalizing p with
  | nil => rfl
  | cons parameter rest ih => exact ih _

namespace ProfileText

variable {t : ProfileText}

lemma skeleton_ruleset (t : ProfileText) (kind : RulesetKind) : t.skeleton.ruleset kind = [] := by
  rw [Profile.ruleset, skeleton, Profile.foldl_addParameter_expressions,
    (Profile.foldl_addAttribute_unchanged _ _).2]
  rfl

lemma skeleton_defaultOf? (t : ProfileText) (name : String) :
    t.skeleton.defaultOf? name = t.defaultOf? name := by
  rw [Profile.defaultOf?, defaultOf?, skeleton, Profile.get?_foldl_addParameter,
    (Profile.foldl_addAttribute_unchanged _ _).1]
  exact congrArg (Option.bind · Parameter.default) Option.or_none

/-- The expressions of a ruleset are those under its word. -/
lemma flatMap_rulesets (t : ProfileText) (kind : RulesetKind) :
    (t.rulesets.toList.flatMap fun e => if RulesetKind.ofLabel? e.1 = some kind then e.2 else []) =
      t.expressions kind := by
  rw [expressions, SortedMap.get?_eq_lookup,
    ← SortedMap.flatMap_ite_of_nodup _ t.rulesets.nodup_keys]
  simp only [RulesetKind.ofLabel?_eq_some_iff]

/-- A text is compiled to a profile that means it. -/
lemma compile_means {r r' : Registry} {p : Profile} (yields : t.compile.Yields r p r') :
    r.Extends r' ∧ p.Means r' t := by
  have written : Profile.Written t.skeleton r (fun k => t.rulesets.toList.flatMap fun e =>
      if RulesetKind.ofLabel? e.1 = some k then e.2 else []) p r' := by
    refine Compile.Yields.foldlM
      (I := fun done => Profile.Written t.skeleton r fun k => done.flatMap fun e =>
        if RulesetKind.ofLabel? e.1 = some k then e.2 else [])
      ?_ ?_ yields
    · rintro done ⟨word, new⟩ p₁ r₁ p₂ r₂ written₁ yields₁
      have added := written₁.addRuleset yields₁
      simpa only [List.flatMap_append, List.flatMap_cons, List.flatMap_nil, List.append_nil]
        using added
    · refine ⟨.refl r, rfl, fun kind => ?_⟩
      rw [skeleton_ruleset]
      exact .nil
  refine ⟨written.grown, fun kind => ?_, fun name => ?_⟩
  · rw [← flatMap_rulesets]
    exact written.means kind
  · rw [Profile.defaultOf?, written.parameters]
    exact t.skeleton_defaultOf? name

end ProfileText

/-! ### Documents -/

/-- A profile is put behind others. -/
lemma Document.addProfile_means {profiles profiles' : List Profile} {texts : List ProfileText}
    {t : ProfileText} {r r' : Registry} (means : List.Forall₂ (Profile.Means r) profiles texts)
    (yields : (addProfile profiles t).Yields r profiles' r') :
    r.Extends r' ∧ List.Forall₂ (Profile.Means r') profiles' (texts ++ [t]) := by
  rw [addProfile] at yields
  split at yields
  · obtain ⟨_, _, refused, -⟩ := Compile.yields_bind_iff.mp yields
    exact absurd refused Compile.not_yields_throw
  · obtain ⟨p, r₁, compiled, last⟩ := Compile.yields_bind_iff.mp yields
    obtain ⟨rfl, rfl⟩ := Compile.yields_pure_iff.mp last
    obtain ⟨grown, new⟩ := ProfileText.compile_means compiled
    refine ⟨grown, List.rel_append (means.imp fun _ _ means => means.grow grown) ?_⟩
    exact .cons new .nil

/-- The profiles of a compiled document mean their texts. -/
theorem Document.compile_means {d : Document} {r r' : Registry} {c : Config}
    (yields : d.compile.Yields r c r') :
    r.Extends r' ∧ List.Forall₂ (Profile.Means r') c.profiles d.profiles := by
  rw [compile] at yields
  obtain ⟨profiles, r₁, added, yields⟩ := Compile.yields_bind_iff.mp yields
  have means : r.Extends r₁ ∧ List.Forall₂ (Profile.Means r₁) profiles d.profiles := by
    refine Compile.Yields.foldlM
      (I := fun done profiles r₁ => r.Extends r₁ ∧ List.Forall₂ (Profile.Means r₁) profiles done)
      ?_ ⟨.refl r, .nil⟩ added
    rintro done t profiles₁ r₁ profiles₂ r₂ ⟨grown, means⟩ yields₁
    obtain ⟨grown', means'⟩ := addProfile_means means yields₁
    exact ⟨grown.trans grown', means'⟩
  have accepted : (pure ⟨d.attributes, d.defaultProfile, profiles⟩ : Compile Config).Yields
      r₁ c r' := by
    cases hname : d.defaultProfile with
    | none => rwa [hname] at yields
    | some name =>
      rw [hname] at yields
      dsimp only at yields
      split at yields
      · obtain ⟨_, _, refused, -⟩ := Compile.yields_bind_iff.mp yields
        exact absurd refused Compile.not_yields_throw
      · exact yields
  obtain ⟨rfl, rfl⟩ := Compile.yields_pure_iff.mp accepted
  exact means

end RoadAtlas
