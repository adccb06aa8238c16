import RoadAtlas.Proofs.Config.Reading
import RoadAtlas.Proofs.Traversal

/-!
Compiled parts mean what their texts say. Each part of an expression is evaluated, for the ids of a
road and with nothing kept, to what its text says about the pairs of the road.

* `Operand.resolve_parse`, `ParameterGuard.holds_parse` and `NumberTest.holds_compile` are about
  what is compiled without a registry;
* `TagTest.addTo_guards` is about tests on tags, whose pairs are registered on the way: from then
  on, in every registry that has grown from there, the guard is the test.
-/

namespace RoadAtlas

variable {r : Registry} {types : TypeSet} {s : Situation}

/-! ### Operands -/

lemma Quantity.toOption_parse (quantity : Quantity) (text : String) :
    (quantity.parse text).toOption = quantity.value? text := by
  rw [parse]
  cases quantity.value? text with
  | some value => rfl
  | none => rfl

/-- An operand is a parameter, a tag or a literal, as the first character of its text says. -/
lemma Operand.parse_cases {text : String} {quantity : Quantity} {o : Operand}
    (parsed : Operand.parse text quantity = .ok o) :
    (∃ name, text.toList = ':' :: name ∧ o = .parameter (String.ofList name)) ∨
      (∃ name, text.toList = '$' :: name ∧ o = .tag (String.ofList name)) ∨
      (∀ name, text.toList ≠ ':' :: name) ∧ (∀ name, text.toList ≠ '$' :: name) ∧
        ∃ value, quantity.parse text = .ok value ∧ o = .literal value := by
  rw [parse] at parsed
  split at parsed
  next name shape =>
    cases parsed
    exact .inl ⟨name, shape, rfl⟩
  next name shape =>
    cases parsed
    exact .inr (.inl ⟨name, shape, rfl⟩)
  next noParameter noTag =>
    cases value : quantity.parse text with
    | ok number =>
      rw [value] at parsed
      cases parsed
      exact .inr (.inr ⟨noParameter, noTag, number, rfl, rfl⟩)
    | error cause =>
      rw [value] at parsed
      cases parsed

/-- An operand stands for what its text does. -/
lemma Operand.resolve_parse (h : r.Lists types s.pairs) {text : String} {quantity : Quantity}
    {o : Operand} (parsed : Operand.parse text quantity = .ok o) :
    (o.resolve (.fresh r s.parameter) types quantity).run.toOption = s.operand? quantity text := by
  rw [Situation.operand?]
  rcases parse_cases parsed with
    ⟨name, shape, rfl⟩ | ⟨tag, shape, rfl⟩ | ⟨noParameter, noTag, number, value, rfl⟩
  case inl =>
    rw [shape]
    simp only [resolve, Environment.fresh]
    cases s.parameter (String.ofList name) with
    | some value => exact quantity.toOption_parse value
    | none => rfl
  case inr.inl =>
    rw [shape]
    simp only [resolve, Environment.fresh]
    cases found : r.firstWithTag? (String.ofList tag) types with
    | some id =>
      obtain ⟨value, hid, hvalue⟩ := h.first _ id found
      simp only [hvalue, Registry.value, hid]
      exact quantity.toOption_parse value
    | none =>
      rw [h.lookup_of_firstWithTag?_eq_none found]
      rfl
  case inr.inr =>
    split
    next name shape => exact absurd shape (noParameter name)
    next tag shape => exact absurd shape (noTag tag)
    next =>
      rw [← quantity.toOption_parse, value]
      rfl

/-! ### Guards without types -/

lemma Text.equalsIgnoringCase_empty : Text.equalsIgnoringCase "" "true" = false := by
  decide +kernel

lemma Situation.isSet_eq (s : Situation) (name : String) :
    ((s.parameter name).bind Quantity.truth?).getD false = s.isSet name := by
  rw [isSet]
  cases s.parameter name with
  | none => rfl
  | some value =>
    rw [Option.bind_some, Option.any_some, Quantity.truth?]
    split
    next empty =>
      rw [String.isEmpty_iff.mp empty]
      exact Text.equalsIgnoringCase_empty.symm
    next => rfl

/-- A guard on a parameter is what its text says. -/
lemma ParameterGuard.holds_parse (text : String) :
    (ParameterGuard.parse text).holds s.parameter = s.parameterHolds text := by
  rw [holds, Situation.isSet_eq, Situation.parameterHolds, parse]
  cases text.toList with
  | nil => exact Bool.bne_false _
  | cons c name =>
    by_cases minus : c = '-'
    · subst minus
      exact Bool.bne_true _
    · simp [minus]

/-- A comparison is compiled when its sign is known and its operands can be read. -/
lemma NumberTest.compile_eq_ok {profile : String} {t : NumberTest} {c : Condition}
    (compiled : t.compile profile = .ok c) :
    ∃ comparison left right, Comparison.ofSymbol? t.sign = some comparison ∧
      Operand.parse t.left t.quantity = .ok left ∧ Operand.parse t.right t.quantity = .ok right ∧
      c = ⟨comparison, left, right, t.quantity⟩ := by
  rw [compile] at compiled
  cases hsign : Comparison.ofSymbol? t.sign with
  | none => simp [hsign] at compiled
  | some comparison =>
    rw [hsign] at compiled
    obtain ⟨left, hleft, compiled⟩ := bind_eq_ok.mp compiled
    obtain ⟨right, hright, compiled⟩ := bind_eq_ok.mp compiled
    cases compiled
    exact ⟨comparison, left, right, rfl, mapError_eq_ok.mp hleft, mapError_eq_ok.mp hright, rfl⟩

/-- A sign is compiled to the order that it says. -/
lemma NumberTest.agrees_eq_holds {sign : String} {comparison : Comparison}
    (known : Comparison.ofSymbol? sign = some comparison) (left right : Float) :
    agrees sign left right = comparison.holds left right := by
  unfold Comparison.ofSymbol? at known
  split at known <;> cases known <;> rfl

/-- A condition is the comparison it was compiled from. -/
lemma NumberTest.holds_compile (h : r.Lists types s.pairs) {profile : String} {t : NumberTest}
    {c : Condition} (compiled : t.compile profile = .ok c) :
    (c.holds (.fresh r s.parameter) types).run = t.holdsIn s := by
  obtain ⟨comparison, left, right, hsign, hleft, hright, rfl⟩ := compile_eq_ok compiled
  rw [holdsIn, ← left.resolve_parse h hleft, ← right.resolve_parse h hright]
  simp only [Condition.holds, Id.run_bind, agrees_eq_holds hsign]
  cases (left.resolve (.fresh r s.parameter) types t.quantity).run with
  | error cause => rfl
  | ok value =>
    simp only [Id.run_bind]
    cases (right.resolve (.fresh r s.parameter) types t.quantity).run with
    | error cause => rfl
    | ok value' => rfl

/-! ### Tests on tags -/

namespace TypeSet

lemma isSubset_insert (required types : TypeSet) (id : ℕ) :
    (required.insert id).isSubset types = (required.isSubset types && decide (id ∈ types)) := by
  rw [Bool.eq_iff_iff, Bool.and_eq_true, isSubset_iff, isSubset_iff, decide_eq_true_eq]
  simp only [mem_insert, forall_eq_or_imp, and_comm]

lemma isDisjoint_insert (excluded types : TypeSet) (id : ℕ) :
    (excluded.insert id).isDisjoint types =
      (excluded.isDisjoint types && !decide (id ∈ types)) := by
  rw [Bool.eq_iff_iff, Bool.and_eq_true, isDisjoint_iff, isDisjoint_iff, Bool.not_eq_true',
    decide_eq_false_iff_not]
  simp only [mem_insert, forall_eq_or_imp, and_comm]

end TypeSet

namespace Expression

lemma matchesTypes_requireType (e : Expression) (id : ℕ) (r : Registry) (types : TypeSet) :
    matchesTypes { e with requiredTypes := e.requiredTypes.insert id } r types =
      (e.matchesTypes r types && decide (id ∈ types)) := by
  rw [matchesTypes, matchesTypes, TypeSet.isSubset_insert]
  grind

lemma matchesTypes_excludeType (e : Expression) (id : ℕ) (r : Registry) (types : TypeSet) :
    matchesTypes { e with excludedTypes := e.excludedTypes.insert id } r types =
      (e.matchesTypes r types && !decide (id ∈ types)) := by
  rw [matchesTypes, matchesTypes, TypeSet.isDisjoint_insert]
  grind

end Expression

/-- In every registry that has grown from `r`, the guards of `e` on types are the test `p`. -/
def Expression.Guards (e : Expression) (r : Registry) (p : Situation → Bool) : Prop :=
  ∀ ⦃r' types⦄ ⦃s : Situation⦄, r.Extends r' → r'.Describes types s.pairs →
    e.matchesTypes r' types = p s

namespace Expression.Guards

variable {e : Expression} {r' : Registry} {p : Situation → Bool}

lemma grow (guards : e.Guards r p) (grown : r.Extends r') : e.Guards r' p :=
  fun _ _ _ grown' describes => guards (grown.trans grown') describes

/-- An expression without guards holds everywhere. -/
lemma empty (r : Registry) : Guards {} r fun _ => true := fun _ _ _ _ _ => rfl

lemma requireTag (guards : e.Guards r p) (tag : String) :
    Guards { e with requiredTags := e.requiredTags ++ [tag] } r fun s => p s && s.hasTag tag := by
  intro r' types s grown describes
  beta_reduce
  rw [← guards grown describes, ← describes.hasTag_eq, matchesTypes, matchesTypes]
  simp only [List.all_append, List.all_cons, List.all_nil, Bool.and_true]
  grind

lemma excludeTag (guards : e.Guards r p) (tag : String) :
    Guards { e with excludedTags := e.excludedTags ++ [tag] } r fun s => p s && !s.hasTag tag := by
  intro r' types s grown describes
  beta_reduce
  rw [← guards grown describes, ← describes.hasTag_eq, matchesTypes, matchesTypes]
  simp only [List.any_append, List.any_cons, List.any_nil, Bool.or_false, Bool.not_or,
    Bool.and_assoc]

lemma requireType (guards : e.Guards r p) {pair : TagPair} {id : ℕ}
    (found : r.idOf? pair = some id) :
    Guards { e with requiredTypes := e.requiredTypes.insert id } r
      fun s => p s && s.pairs.contains pair := by
  intro r' types s grown describes
  beta_reduce
  rw [← guards grown describes, ← describes.decide_mem (grown.idOf?_eq found),
    matchesTypes_requireType]

lemma excludeType (guards : e.Guards r p) {pair : TagPair} {id : ℕ}
    (found : r.idOf? pair = some id) :
    Guards { e with excludedTypes := e.excludedTypes.insert id } r
      fun s => p s && !s.pairs.contains pair := by
  intro r' types s grown describes
  beta_reduce
  rw [← guards grown describes, ← describes.decide_mem (grown.idOf?_eq found),
    matchesTypes_excludeType]

end Expression.Guards

/-- A test for a value registers its pair and asks for the type. -/
lemma TagTest.run_addTo {t : TagTest} (named : ¬ t.value.isEmpty) (e : Expression) (r : Registry) :
    (t.addTo e).run r = (if t.negated
      then { e with excludedTypes := e.excludedTypes.insert (r.register (t.tag, t.value)).1 }
      else { e with requiredTypes := e.requiredTypes.insert (r.register (t.tag, t.value)).1 },
      (r.register (t.tag, t.value)).2) := by
  rw [addTo, if_neg named]
  rfl

/-- A test on tags becomes one more guard. -/
lemma TagTest.addTo_guards {e : Expression} {p : Situation → Bool} (guards : e.Guards r p)
    (t : TagTest) :
    r.Extends ((t.addTo e).run r).2 ∧
      ((t.addTo e).run r).1.Guards ((t.addTo e).run r).2 fun s => p s && t.holdsIn s := by
  by_cases anyValue : t.value.isEmpty
  · have run : (t.addTo e).run r = (if t.negated
        then { e with excludedTags := e.excludedTags ++ [t.tag] }
        else { e with requiredTags := e.requiredTags ++ [t.tag] }, r) := by
      rw [addTo, if_pos anyValue]
      rfl
    rw [run]
    refine ⟨.refl r, ?_⟩
    simp only [holdsIn, if_pos anyValue]
    cases t.negated with
    | true => simpa using guards.excludeTag t.tag
    | false => simpa using guards.requireTag t.tag
  · have grown := Registry.extends_register r (t.tag, t.value)
    have found := Registry.idOf?_register r (t.tag, t.value)
    rw [run_addTo anyValue]
    refine ⟨grown, ?_⟩
    simp only [holdsIn, if_neg anyValue]
    cases t.negated with
    | true => simpa using (guards.grow grown).excludeType found
    | false => simpa using (guards.grow grown).requireType found

end RoadAtlas
