import RoadAtlas.Proofs.Session.Transparency

/-!
What an operation of a session comes to. It makes sections known, finds universal ids, reads values
and counts; each of these changes little, and whatever all of them keep, every operation keeps.

* `Session.universalType_cases`, `Session.after_value`: what it is to find a universal id and to read
  a value;
* `Session.evaluate_reads`: to evaluate a ruleset is to read the values that it asks for, one after
  another;
* `Session.perform_eq_takeAll`: every operation is a few steps, each of which changes a setting or
  makes a section known or goes for the types of one section;
* `Session.Request`: an operation, or a value that is asked for directly.
-/

namespace RoadAtlas

namespace Session

variable {s : Session} {sectionId id : ℕ} {type : UInt32} {quantity : Quantity}

lemma run_bind_eq {α β : Type} {x : StateM Session α} {f : α → StateM Session β} {a : α}
    {s s' : Session} (run : x.run s = (a, s')) : (x >>= f).run s = (f a).run s' := by
  rw [run_bind, after, run]

/-- What is only read off the outcome of a program changes nothing. -/
lemma after_bind_pure {α β : Type} (s : Session) (x : StateM Session α)
    {f : α → StateM Session β} (read : ∀ a, ∃ b, f a = pure b) : s.after (x >>= f) = s.after x := by
  obtain ⟨b, same⟩ := read (x.run s).1
  rw [after, run_bind, same]
  rfl

/-! ### Universal ids -/

/-- The universal id that a session keeps for a type of a section. -/
def universalId? (s : Session) (sectionId : ℕ) (type : UInt32) : Option ℕ :=
  (s.sections.get? sectionId).bind fun known => known.universal.get? type

/-- Nothing is left to be found out about a type: its universal id is kept, or it has no rule. -/
def Settled (s : Session) (sectionId : ℕ) (type : UInt32) : Prop :=
  (s.universalId? sectionId type).isSome ∨ (s.rulesOf sectionId).get? type = none

/-- The session with a universal id for a type of a section, newly found out. -/
def keepUniversal (s : Session) (sectionId : ℕ) (known : BoundSection) (type : UInt32)
    (pair : TagPair) : Session :=
  { s with
    registry := (s.registry.register pair).2
    sections := s.sections.insert sectionId
      { known with universal := known.universal.insert type (s.registry.register pair).1 }
    statistics.typesResolved := s.statistics.typesResolved + 1 }

/-- A type about which nothing is left to be found out is given the id that is kept, and nothing
changes. The pair of any other type is registered, and its id is kept from then on. -/
lemma universalType_cases (s : Session) (sectionId : ℕ) (type : UInt32) :
    (s.Settled sectionId type ∧
      (universalType sectionId type).run s = (s.universalId? sectionId type, s)) ∨
    ∃ known rule, s.sections.get? sectionId = some known ∧ known.universal.get? type = none ∧
      known.rules.get? type = some rule ∧
      (universalType sectionId type).run s =
        (some (s.registry.register rule.pair).1,
          s.keepUniversal sectionId known type rule.pair) := by
  rw [Settled, universalType, run_modifyGet, universalId?, rulesOf]
  cases hknown : s.sections.get? sectionId with
  | none => exact .inl ⟨.inr rfl, rfl⟩
  | some known =>
    simp only [Option.bind_some]
    cases hid : known.universal.get? type with
    | some id => exact .inl ⟨.inl rfl, rfl⟩
    | none =>
      cases hrule : known.rules.get? type with
      | none => exact .inl ⟨.inr rfl, rfl⟩
      | some rule => exact .inr ⟨known, rule, rfl, hid, hrule, rfl⟩

section Universal

variable {known : BoundSection} {pair : TagPair} {j : ℕ} {other : UInt32}

lemma universalId?_keepUniversal (found : s.sections.get? sectionId = some known) :
    (s.keepUniversal sectionId known type pair).universalId? j other =
      if j = sectionId ∧ other = type then some (s.registry.register pair).1
      else s.universalId? j other := by
  rw [universalId?, universalId?, keepUniversal, SortedMap.get?_insert]
  by_cases same : j = sectionId
  · subst same
    simp only [↓reduceIte, Option.bind_some, SortedMap.get?_insert, true_and, found]
  · simp only [same, ↓reduceIte, false_and]

lemma rulesOf_keepUniversal (found : s.sections.get? sectionId = some known) :
    (s.keepUniversal sectionId known type pair).rulesOf j = s.rulesOf j := by
  rw [rulesOf, rulesOf, keepUniversal, SortedMap.get?_insert]
  by_cases same : j = sectionId
  · subst same
    simp only [↓reduceIte, found]
  · simp only [same, ↓reduceIte]

lemma isAttached_keepUniversal (found : s.sections.get? sectionId = some known) :
    (s.keepUniversal sectionId known type pair).isAttached j = s.isAttached j := by
  rw [isAttached, isAttached, keepUniversal, SortedMap.get?_insert]
  by_cases same : j = sectionId
  · subst same
    simp only [↓reduceIte, found, Option.isSome_some]
  · simp only [same, ↓reduceIte]

/-- What is settled stays so, with the same universal id. -/
lemma settled_keepUniversal (found : s.sections.get? sectionId = some known)
    (new : known.universal.get? type = none) {rule : Rule}
    (given : known.rules.get? type = some rule) (settled : s.Settled j other) :
    (s.keepUniversal sectionId known type pair).Settled j other ∧
      (s.keepUniversal sectionId known type pair).universalId? j other =
        s.universalId? j other := by
  have differs : ¬ (j = sectionId ∧ other = type) := by
    rintro ⟨rfl, rfl⟩
    simp [Settled, universalId?, rulesOf, found, new, given] at settled
  rw [Settled, universalId?_keepUniversal found, rulesOf_keepUniversal found, if_neg differs]
  exact ⟨settled, rfl⟩

end Universal

/-- The session behind some types whose universal ids are found, one after another. -/
def settleAll (s : Session) (sectionId : ℕ) (types : List UInt32) : Session :=
  types.foldl (fun s type => s.after (universalType sectionId type)) s

/-- The universal ids that a session keeps for some types of a section. -/
def universalSet (s : Session) (sectionId : ℕ) (types : List UInt32) : TypeSet :=
  .ofList (types.filterMap (s.universalId? sectionId))

/-- What holds of a session goes on to hold when universal ids are found, as long as it does when one
id is newly kept. -/
lemma settleAll_induction {P : Session → Prop} {sectionId : ℕ}
    (step : ∀ s known type rule, s.sections.get? sectionId = some known →
      known.universal.get? type = none → known.rules.get? type = some rule → P s →
        P (s.keepUniversal sectionId known type rule.pair))
    (types : List UInt32) {s : Session} (initially : P s) : P (s.settleAll sectionId types) := by
  induction types generalizing s with
  | nil => exact initially
  | cons type rest ih =>
    have next : P (s.after (universalType sectionId type)) := by
      rcases s.universalType_cases sectionId type with
        ⟨-, run⟩ | ⟨known, rule, found, new, given, run⟩
      · rwa [after, run]
      · rw [after, run]
        exact step s known type rule found new given initially
    exact ih next

/-- What is settled stays so whatever else is found. -/
lemma settled_settleAll {j : ℕ} {other : UInt32} (settled : s.Settled j other) (sectionId : ℕ)
    (types : List UInt32) :
    (s.settleAll sectionId types).Settled j other ∧
      (s.settleAll sectionId types).universalId? j other = s.universalId? j other := by
  refine settleAll_induction (P := fun s' => s'.Settled j other ∧
    s'.universalId? j other = s.universalId? j other) ?_ types ⟨settled, rfl⟩
  rintro s' known type rule found new given ⟨settled', same⟩
  obtain ⟨settled'', same'⟩ := settled_keepUniversal found new given settled'
  exact ⟨settled'', same'.trans same⟩

lemma isAttached_settleAll (types : List UInt32) {j : ℕ} :
    (s.settleAll sectionId types).isAttached j = s.isAttached j :=
  settleAll_induction (P := fun s' => s'.isAttached j = s.isAttached j)
    (fun _ _ _ _ found _ _ same => (isAttached_keepUniversal found).trans same) types rfl

lemma rulesOf_settleAll (types : List UInt32) {j : ℕ} :
    (s.settleAll sectionId types).rulesOf j = s.rulesOf j :=
  settleAll_induction (P := fun s' => s'.rulesOf j = s.rulesOf j)
    (fun _ _ _ _ found _ _ same => (rulesOf_keepUniversal found).trans same) types rfl

/-- A type whose universal id is found is settled, and is given the id that is kept. -/
lemma universalType_settles (s : Session) (sectionId : ℕ) (type : UInt32) :
    (s.after (universalType sectionId type)).Settled sectionId type ∧
      ((universalType sectionId type).run s).1 =
        (s.after (universalType sectionId type)).universalId? sectionId type := by
  rcases s.universalType_cases sectionId type with ⟨settled, run⟩ | ⟨known, rule, found, -, -, run⟩
  · rw [after, run]
    exact ⟨settled, rfl⟩
  · rw [after, run, Settled, universalId?_keepUniversal found, if_pos ⟨rfl, rfl⟩]
    exact ⟨.inl rfl, rfl⟩

lemma mapM_universalType_run (sectionId : ℕ) (types : List UInt32) (s : Session) :
    (types.mapM (universalType sectionId)).run s =
        (types.map ((s.settleAll sectionId types).universalId? sectionId),
          s.settleAll sectionId types) ∧
      ∀ type ∈ types, (s.settleAll sectionId types).Settled sectionId type := by
  induction types generalizing s with
  | nil => exact ⟨rfl, List.forall_mem_nil _⟩
  | cons type rest ih =>
    obtain ⟨settled, answer⟩ := s.universalType_settles sectionId type
    obtain ⟨run, others⟩ := ih (s.after (universalType sectionId type))
    obtain ⟨settled', same⟩ := settled_settleAll settled sectionId rest
    refine ⟨?_, List.forall_mem_cons.mpr ⟨settled', others⟩⟩
    have first : (universalType sectionId type).run s =
        ((s.settleAll sectionId (type :: rest)).universalId? sectionId type,
          s.after (universalType sectionId type)) :=
      Prod.ext (answer.trans same.symm) rfl
    rw [List.mapM_cons, run_bind_eq first, run_bind_eq run]
    rfl

/-- Types whose universal ids are found are settled. -/
lemma settleAll_settles (s : Session) (sectionId : ℕ) (types : List UInt32) :
    ∀ type ∈ types, (s.settleAll sectionId types).Settled sectionId type :=
  (mapM_universalType_run sectionId types s).2

/-- Several types of a known section are given the universal ids that are kept from then on. -/
lemma universalTypes_run (known : s.isAttached sectionId) (types : List UInt32) :
    (universalTypes sectionId types).run s =
        (some ((s.settleAll sectionId types).universalSet sectionId types),
          s.settleAll sectionId types) := by
  obtain ⟨run, -⟩ := mapM_universalType_run sectionId types s
  rw [universalTypes, run_get_bind, if_pos known, run_bind_eq run, List.filterMap_map]
  rfl

lemma after_universalTypes_of_unknown (unknown : ¬ s.isAttached sectionId) (types : List UInt32) :
    s.after (universalTypes sectionId types) = s := by
  rw [after, universalTypes, run_get_bind, if_neg unknown]
  rfl

/-! ### Values -/

/-- What a session answers when it is asked for a value. -/
def valueGiven (s : Session) (id : ℕ) (quantity : Quantity) : Except OperandError Float :=
  ((value id quantity).run s).1

lemma valueGiven_eq (s : Session) (id : ℕ) (quantity : Quantity) :
    s.valueGiven id quantity = (s.values.get? (id, quantity)).getD (s.registry.value id quantity) := by
  rw [valueGiven, value, run_modifyGet]
  cases s.values.get? (id, quantity) with
  | some v => rfl
  | none => rfl

/-- A value that is kept is not read again; any other one is, and is kept from then on. -/
lemma after_value (s : Session) (id : ℕ) (quantity : Quantity) :
    s.after (value id quantity) =
      if (s.values.get? (id, quantity)).isSome then s
      else { s with
        values := s.values.store (id, quantity) (s.registry.value id quantity)
        statistics.valuesParsed := s.statistics.valuesParsed + 1 } := by
  rw [after, value, run_modifyGet]
  cases s.values.get? (id, quantity) with
  | some v => rfl
  | none => rfl

lemma value_differsInValues (s : Session) (id : ℕ) (quantity : Quantity) :
    s.DiffersInValues (s.after (value id quantity)) := by
  rw [after_value]
  split
  · exact .refl s
  · exact ⟨rfl, rfl, rfl, rfl, rfl, rfl⟩

/-- What is given for a value is kept. -/
lemma get?_values_after_value (s : Session) (id : ℕ) (quantity : Quantity) (key : ℕ × Quantity) :
    (s.after (value id quantity)).values.get? key =
      if key = (id, quantity) then some (s.valueGiven id quantity) else s.values.get? key := by
  rw [after_value, valueGiven_eq]
  cases kept : s.values.get? (id, quantity) with
  | some v =>
    rw [if_pos Option.isSome_some, Option.getD_some]
    split
    next same => rw [same, kept]
    next => rfl
  | none => exact Memo.get?_store ..

/-- To ask for a value changes no answer. -/
lemma valueGiven_after_value (s : Session) (id : ℕ) (quantity : Quantity) :
    (s.after (value id quantity)).valueGiven = s.valueGiven := by
  funext id' quantity'
  rw [valueGiven_eq, get?_values_after_value, (s.value_differsInValues id quantity).registry]
  split
  next same =>
    cases same
    rfl
  next => exact (s.valueGiven_eq id' quantity').symm

/-- The session behind some requests for values, one after another. -/
def readAll (s : Session) (asked : List (ℕ × Quantity)) : Session :=
  asked.foldl (fun s a => s.after (value a.1 a.2)) s

lemma readAll_append (s : Session) (asked more : List (ℕ × Quantity)) :
    s.readAll (asked ++ more) = (s.readAll asked).readAll more :=
  List.foldl_append

lemma readAll_differsInValues (s : Session) (asked : List (ℕ × Quantity)) :
    s.DiffersInValues (s.readAll asked) := by
  induction asked generalizing s with
  | nil => exact .refl s
  | cons a rest ih => exact (s.value_differsInValues a.1 a.2).trans (ih _)

lemma valueGiven_readAll (s : Session) (asked : List (ℕ × Quantity)) :
    (s.readAll asked).valueGiven = s.valueGiven := by
  induction asked generalizing s with
  | nil => rfl
  | cons a rest ih => exact (ih _).trans (s.valueGiven_after_value a.1 a.2)

/-! ### Evaluation -/

/-- Look-ups that are answered as a session answers them, and are noted. -/
def noting (s : Session) : Environment (StateM (List (ℕ × Quantity))) where
  registry := s.registry
  parameter := s.parameter?
  typeValue id quantity := modifyGet fun notes => (s.valueGiven id quantity, notes ++ [(id, quantity)])

/-- The values that a ruleset asks a session for. -/
def valuesAsked (s : Session) (rules : Ruleset) (types : TypeSet) : List (ℕ × Quantity) :=
  ((rules.evaluate s.noting types).run []).2

/-- Programs of a session that answer as it does and read values, and the notes on what they
read. -/
def noted (s : Session) : Correspondence (StateM Session) (StateM (List (ℕ × Quantity))) where
  rel x y := ∀ s₁ notes, s₁.valueGiven = s.valueGiven →
    ∃ more, y.run notes = ((x.run s₁).1, notes ++ more) ∧ s₁.after x = s₁.readAll more ∧
      ∀ a ∈ more, s.registry.pair? a.1 ≠ none
  pure a s₁ notes _ := ⟨[], by rw [List.append_nil]; rfl, rfl, List.forall_mem_nil _⟩
  bind := by
    intro α β x y f g hx hf s₁ notes same
    obtain ⟨more, ran, left, registered⟩ := hx s₁ notes same
    have same' : (s₁.after x).valueGiven = s.valueGiven := by rw [left, valueGiven_readAll, same]
    obtain ⟨more', ran', left', registered'⟩ := hf (x.run s₁).1 (s₁.after x) (notes ++ more) same'
    refine ⟨more ++ more', ?_, ?_, List.forall_mem_append.mpr ⟨registered, registered'⟩⟩
    · rw [StateT.run_bind, ran, ← List.append_assoc]
      exact ran'
    · rw [readAll_append, ← left, ← left']
      rfl

/-- To evaluate a ruleset is to read the values that it asks for, all of registered types, one after
another. -/
lemma evaluate_reads (s : Session) (rules : Ruleset) (types : TypeSet) :
    s.after (rules.evaluate s.environment types) = s.readAll (s.valuesAsked rules types) ∧
      ∀ a ∈ s.valuesAsked rules types, s.registry.pair? a.1 ≠ none := by
  have same : s.environment.Corresponds s.noted s.noting types := by
    refine ⟨fun _ _ _ => rfl, fun _ => rfl, ?_⟩
    intro id _ quantity registered s₁ notes answers
    refine ⟨[(id, quantity)], ?_, rfl, List.forall_mem_singleton.mpr registered⟩
    exact congrArg (·, _) (congrFun₂ answers id quantity).symm
  obtain ⟨more, ran, left, registered⟩ := Ruleset.evaluate_corresponds same rules s [] rfl
  have notes : s.valuesAsked rules types = more := congrArg Prod.snd ran
  rw [notes]
  exact ⟨left, registered⟩

/-- The session in which one more ruleset is evaluated. -/
def countEvaluation (s : Session) : Session :=
  { s with statistics.evaluations := s.statistics.evaluations + 1 }

/-- The session with a result. -/
def keepResult (s : Session) (key : ResultKey) (result : Option Float) : Session :=
  { s with results := s.results.store key result }

/-- A result that is kept is given again, and that is counted. -/
lemma after_evaluateTypes_of_kept {kind : RulesetKind} {types : Array UInt32}
    {result : Option Float}
    (kept : s.results.get? (resultKey kind sectionId types) = some result) :
    s.after (evaluateTypes kind sectionId types) =
      { s with statistics.resultsReused := s.statistics.resultsReused + 1 } := by
  rw [after, evaluateTypes, run_get_bind]
  simp only [kept]
  rfl

/-- For any other result the types are given universal ids, the values that the ruleset asks for, all
of registered types, are read, and the result is kept. -/
lemma after_evaluateTypes_of_new {kind : RulesetKind} {types : Array UInt32}
    (known : s.isAttached sectionId)
    (new : s.results.get? (resultKey kind sectionId types) = none) :
    let key := resultKey kind sectionId types
    let counted := (s.settleAll sectionId key.types).countEvaluation
    let asked := counted.valuesAsked (counted.profile.ruleset kind)
      (counted.universalSet sectionId key.types)
    (∀ a ∈ asked, counted.registry.pair? a.1 ≠ none) ∧
      ∃ result, s.after (evaluateTypes kind sectionId types) =
        (counted.readAll asked).keepResult key result := by
  intro key counted asked
  obtain ⟨left, registered⟩ := counted.evaluate_reads (counted.profile.ruleset kind)
    (counted.universalSet sectionId key.types)
  refine ⟨registered, ?_⟩
  rw [after, evaluateTypes, run_get_bind]
  simp only [new]
  rw [run_bind_eq (universalTypes_run known key.types), ← left]
  exact ⟨_, rfl⟩

/-! ### Steps -/

/-- What an operation is made of. -/
inductive Step where
  | attach (sectionId : ℕ) (rules : RuleTable)
  /-- Universal ids are given to some types of a section. -/
  | settle (sectionId : ℕ) (types : List UInt32)
  /-- A ruleset is evaluated for some types of a section, if the section is known. -/
  | evaluate (kind : RulesetKind) (sectionId : ℕ) (types : Array UInt32)
  | setParameter (name value : String)
  | avoid (roadId : Int64)
  | register (pair : TagPair)

/-- The session behind a step. -/
def take (s : Session) : Step → Session
  | .attach sectionId rules => s.attach sectionId rules
  | .settle sectionId types => s.after (universalTypes sectionId types)
  | .evaluate kind sectionId types =>
    if s.isAttached sectionId then s.after (evaluateTypes kind sectionId types) else s
  | .setParameter name value => s.setParameter name value
  | .avoid roadId => s.avoid roadId
  | .register pair => s.register pair

/-- The session behind some steps, one after another. -/
def takeAll (s : Session) (steps : List Step) : Session := steps.foldl take s

/-- A road offers the table that it carries for its section. -/
def offered (road : Road) : List Step :=
  (road.rules.map (Step.attach road.sectionId)).toList

/-- The steps of an operation. -/
def steps (s : Session) : Operation → List Step
  | .attach sectionId rules => [.attach sectionId rules]
  | .evaluate kind road => offered road ++ [.evaluate kind road.sectionId road.types]
  | .direction road =>
    offered road ++
      if ((s.takeAll (offered road)).rulesOf road.sectionId).hasKind road.types .roundabout then []
      else [.evaluate .oneway road.sectionId road.types]
  | .accepts road =>
    if s.avoids road.id then []
    else offered road ++ [.evaluate .access road.sectionId road.types]
  | .acceptsBorder rules point =>
    [.attach point.sectionId rules, .evaluate .access point.sectionId point.types]
  | .priority road => offered road ++ [.evaluate .priority road.sectionId road.types]
  | .speed road => offered road ++ [.evaluate .speed road.sectionId road.types]
  | .obstacle kind road point forward =>
    if (road.typesAt point).isEmpty then []
    else
      let rules := (s.takeAll (offered road)).rulesOf road.sectionId
      offered road ++
        [.evaluate kind road.sectionId (counted rules (road.typesAt point) forward)]
  | .turnTime before after => offered before.road ++ offered after.road
  | .universalTypes sectionId types => [.settle sectionId types]
  | .setParameter name value => [.setParameter name value]
  | .avoid roadId => [.avoid roadId]
  | .register pair => [.register pair]

lemma takeAll_append (s : Session) (steps more : List Step) :
    s.takeAll (steps ++ more) = (s.takeAll steps).takeAll more :=
  List.foldl_append

lemma takeAll_evaluate (s : Session) (kind : RulesetKind) (sectionId : ℕ) (types : Array UInt32) :
    s.takeAll [.evaluate kind sectionId types] =
      if s.isAttached sectionId then s.after (evaluateTypes kind sectionId types) else s := rfl

lemma isAttached_attach (s : Session) (sectionId : ℕ) (rules : RuleTable) :
    (s.attach sectionId rules).isAttached sectionId := by
  rw [attach]
  split
  next known => exact known
  next =>
    rw [isAttached, SortedMap.get?_insert, if_pos rfl]
    rfl

lemma attach_of_isAttached (known : s.isAttached sectionId) (rules : RuleTable) :
    s.attach sectionId rules = s :=
  if_pos known

/-- To bind a road is to let it offer its table, and to see whether its section is known. -/
lemma bind_run (road : Road) (s : Session) :
    (bind road).run s =
      ((s.takeAll (offered road)).isAttached road.sectionId, s.takeAll (offered road)) := by
  rw [bind, run_modifyGet, offered]
  cases road.rules with
  | none =>
    cases known : s.isAttached road.sectionId with
    | true => exact Prod.ext known.symm rfl
    | false => exact Prod.ext known.symm rfl
  | some rules =>
    have isKnown := s.isAttached_attach road.sectionId rules
    split
    next known =>
      refine Prod.ext isKnown.symm ?_
      exact (attach_of_isAttached known rules).symm
    next => exact Prod.ext isKnown.symm rfl

lemma takeAll_offered_again (road : Road) (s : Session) :
    (s.takeAll (offered road)).takeAll (offered road) = s.takeAll (offered road) := by
  rw [offered]
  cases road.rules with
  | none => rfl
  | some rules => exact attach_of_isAttached (s.isAttached_attach road.sectionId rules) rules

lemma after_evaluate (s : Session) (kind : RulesetKind) (road : Road) :
    s.after (evaluate kind road) =
      s.takeAll (offered road ++ [.evaluate kind road.sectionId road.types]) := by
  rw [takeAll_append, after, evaluate, run_bind_eq (bind_run road s), takeAll_evaluate]
  split
  · rfl
  · rfl

lemma after_direction (s : Session) (road : Road) :
    s.after (direction road) = s.takeAll (s.steps (.direction road)) := by
  rw [steps, takeAll_append, after, direction, run_bind_eq (bind_run road s), run_get_bind]
  split
  · rfl
  · have asked := (s.takeAll (offered road)).after_evaluate .oneway road
    rw [takeAll_append, takeAll_offered_again] at asked
    rw [← asked]
    refine after_bind_pure _ _ fun result => ?_
    cases result with
    | some sign => exact ⟨_, rfl⟩
    | none => exact ⟨_, rfl⟩

lemma after_accepts (s : Session) (road : Road) :
    s.after (accepts road) = s.takeAll (s.steps (.accepts road)) := by
  rw [steps, after, accepts, run_get_bind]
  split
  · rfl
  · rw [takeAll_append, run_bind_eq (bind_run road s), takeAll_evaluate]
    split
    · exact after_bind_pure _ _ fun _ => ⟨_, rfl⟩
    · rfl

lemma after_priority (s : Session) (road : Road) :
    s.after (priority road) = s.takeAll (s.steps (.priority road)) := by
  rw [steps, ← after_evaluate, priority]
  exact after_bind_pure s _ fun _ => ⟨_, rfl⟩

lemma after_speed (s : Session) (road : Road) :
    s.after (speed road) = s.takeAll (s.steps (.speed road)) := by
  rw [steps, ← after_evaluate, after, speed, run_get_bind]
  exact after_bind_pure s _ fun _ => ⟨_, rfl⟩

lemma after_obstacle (s : Session) (kind : RulesetKind) (road : Road) (point : UInt32)
    (forward : Option Bool) :
    s.after (obstacle kind road point forward) =
      s.takeAll (s.steps (.obstacle kind road point forward)) := by
  rw [steps, after, obstacle]
  split
  · rfl
  · rw [takeAll_append, run_bind_eq (bind_run road s), takeAll_evaluate]
    split
    · rw [run_get_bind]
      exact after_bind_pure _ _ fun _ => ⟨_, rfl⟩
    · rfl

lemma after_turnTime (s : Session) (before behind : Leg) :
    s.after (turnTime before behind) = s.takeAll (s.steps (.turnTime before behind)) := by
  rw [steps, takeAll_append, after, turnTime, run_bind_eq (bind_run before.road s),
    run_bind_eq (bind_run behind.road _), run_get_bind]
  dsimp only
  split
  · rfl
  · split
    · rfl
    · cases bend before behind with
      | some angle => rfl
      | none => rfl

lemma after_acceptsBorder (s : Session) (rules : RuleTable) (point : BorderPoint) :
    s.after (acceptsBorder rules point) = s.takeAll (s.steps (.acceptsBorder rules point)) := by
  have known := s.isAttached_attach point.sectionId rules
  have asked := (s.attach point.sectionId rules).takeAll_evaluate .access point.sectionId
    point.types
  rw [if_pos known] at asked
  exact (after_bind_pure _ _ fun _ => ⟨_, rfl⟩).trans asked.symm

/-- An operation is its steps, one after another. -/
lemma perform_eq_takeAll (s : Session) (op : Operation) :
    s.perform op = s.takeAll (s.steps op) := by
  cases op with
  | attach sectionId rules => rfl
  | evaluate kind road => exact s.after_evaluate kind road
  | direction road => exact s.after_direction road
  | accepts road => exact s.after_accepts road
  | acceptsBorder rules point => exact s.after_acceptsBorder rules point
  | priority road => exact s.after_priority road
  | speed road => exact s.after_speed road
  | obstacle kind road point forward => exact s.after_obstacle kind road point forward
  | turnTime before behind => exact s.after_turnTime before behind
  | universalTypes sectionId types => rfl
  | setParameter name value => rfl
  | avoid roadId => rfl
  | register pair => rfl

/-! ### Requests -/

/-- Something that is asked of a session. -/
inductive Request where
  | operation (op : Operation)
  /-- The value of a universal id is asked for, whether it is registered or not. -/
  | value (id : ℕ) (quantity : Quantity)

/-- The session behind a request. -/
def serve (s : Session) : Request → Session
  | .operation op => s.perform op
  | .value id quantity => s.after (value id quantity)

/-- The session behind some requests, one after another. -/
def serveAll (s : Session) (requests : List Request) : Session := requests.foldl serve s

lemma serveAll_concat (s : Session) (requests : List Request) (r : Request) :
    s.serveAll (requests ++ [r]) = (s.serveAll requests).serve r :=
  List.foldl_concat ..

end Session

end RoadAtlas
