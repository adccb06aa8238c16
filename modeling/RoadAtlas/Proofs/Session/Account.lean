import Mathlib.Data.Finset.Dedup
import RoadAtlas.Proofs.Session.Growth

/-!
The account of a session. What is asked of it is listed, repetitions included, and its counters are
the numbers of different things in the list.

* `Session.Asked` is what is asked of a session, and `Session.askedOfAll` reads it off some requests;
* `Session.TypesAccounted` and `Session.ValuesAccounted`: universal ids and values are kept for what
  was asked for, and as many were found and read;
* `Session.Accounted` puts these together; every step preserves it (`Session.Accounted.take`), and so
  does every run of requests (`Session.Accounted.serveAll`).
-/

namespace RoadAtlas

namespace Session

/-! ### What is asked -/

/-- What is asked of a session, in order and with repetitions. -/
structure Asked where
  /-- Types of known sections that have a rule, for their universal ids. -/
  types : List (ℕ × UInt32) := []
  /-- Universal ids, for their values. -/
  values : List (ℕ × Quantity) := []
  /-- Rulesets, for sets of types of known sections. -/
  rulesets : List (RulesetKind × ℕ × Finset UInt32) := []

instance : Append Asked where
  append a b := ⟨a.types ++ b.types, a.values ++ b.values, a.rulesets ++ b.rulesets⟩

/-- Those of some types that have a rule in the table of their section. -/
def typesIn (s : Session) (sectionId : ℕ) (types : List UInt32) : List (ℕ × UInt32) :=
  (types.filter fun type => ((s.rulesOf sectionId).get? type).isSome).map (sectionId, ·)

/-- What a step asks for. A ruleset asks for values by the universal ids that its types have then,
whether or not its result is kept. -/
def askedBy (s : Session) : Step → Asked
  | .settle sectionId types => { types := s.typesIn sectionId types }
  | .evaluate kind sectionId types =>
    if s.isAttached sectionId then
      { types := s.typesIn sectionId types.toList
        values := (s.take (.evaluate kind sectionId types)).valuesFor kind sectionId types.toList
        rulesets := [(kind, sectionId, types.toList.toFinset)] }
    else {}
  | .attach .. | .setParameter .. | .avoid .. | .register .. => {}

/-- What some steps ask for, one after another. -/
def askedByAll (s : Session) : List Step → Asked
  | [] => {}
  | step :: rest => s.askedBy step ++ (s.take step).askedByAll rest

/-- What a request asks for. -/
def askedOf (s : Session) : Request → Asked
  | .operation op => s.askedByAll (s.steps op)
  | .value id quantity => { values := [(id, quantity)] }

/-- What some requests ask for, one after another. -/
def askedOfAll (s : Session) : List Request → Asked
  | [] => {}
  | r :: rest => s.askedOf r ++ (s.serve r).askedOfAll rest

/-! ### Types -/

lemma mem_typesIn {s : Session} {sectionId j : ℕ} {types : List UInt32} {type : UInt32} :
    (j, type) ∈ s.typesIn sectionId types ↔
      j = sectionId ∧ type ∈ types ∧ ((s.rulesOf sectionId).get? type).isSome := by
  rw [typesIn, List.mem_map]
  constructor
  · rintro ⟨type', htype, ⟨⟩⟩
    exact ⟨rfl, List.mem_filter.mp htype⟩
  · rintro ⟨rfl, htype⟩
    exact ⟨type, List.mem_filter.mpr htype, rfl⟩

lemma typesIn_of_unknown {s : Session} {sectionId : ℕ} (unknown : ¬ s.isAttached sectionId)
    (types : List UInt32) : s.typesIn sectionId types = [] := by
  rw [isAttached, Option.not_isSome_iff_eq_none] at unknown
  simp [typesIn, rulesOf, unknown, RuleTable.get?]

/-- As many universal ids were found as there are types in a set, these are the types whose ids are
kept, and all of the ids are registered. -/
structure TypesAccounted (types : Finset (ℕ × UInt32)) (s : Session) : Prop where
  counted : s.statistics.typesResolved = types.card
  mem_iff : ∀ sectionId type,
    (sectionId, type) ∈ types ↔ (s.universalId? sectionId type).isSome
  registered : s.KeepsRegistered

namespace TypesAccounted

variable {types : Finset (ℕ × UInt32)} {s s' : Session} {sectionId : ℕ}

lemma of_same (accounted : s.TypesAccounted types)
    (kept : ∀ j type, s'.universalId? j type = s.universalId? j type)
    (grown : s.registry.Extends s'.registry)
    (counted : s'.statistics.typesResolved = s.statistics.typesResolved) :
    s'.TypesAccounted types where
  counted := counted.trans accounted.counted
  mem_iff j type := by rw [accounted.mem_iff, kept]
  registered j type id hid := by
    rw [kept] at hid
    exact grown.pair?_ne_none (accounted.registered j type id hid)

/-- Types with a rule that are settled were asked for before. -/
lemma union_typesIn (accounted : s.TypesAccounted types) {more : List UInt32}
    (settled : ∀ type ∈ more, s.Settled sectionId type) :
    types ∪ (s.typesIn sectionId more).toFinset = types := by
  refine Finset.union_eq_left.mpr fun ⟨j, type⟩ asked => ?_
  obtain ⟨rfl, htype, hasRule⟩ := mem_typesIn.mp (List.mem_toFinset.mp asked)
  rw [accounted.mem_iff]
  refine (settled type htype).resolve_right fun none => ?_
  rw [none] at hasRule
  cases hasRule

/-- A universal id is found for a type that was not asked for before. -/
lemma keepUniversal (accounted : s.TypesAccounted types) {known : BoundSection} {type : UInt32}
    (found : s.sections.get? sectionId = some known) (new : known.universal.get? type = none)
    (pair : TagPair) :
    (s.keepUniversal sectionId known type pair).TypesAccounted
      (insert (sectionId, type) types) where
  counted := by
    have unasked : (sectionId, type) ∉ types := by
      rw [accounted.mem_iff, universalId?, found, Option.bind_some, new]
      exact Bool.false_ne_true
    rw [Finset.card_insert_of_notMem unasked, ← accounted.counted]
    rfl
  mem_iff j other := by
    rw [Finset.mem_insert, accounted.mem_iff, universalId?_keepUniversal found, Prod.mk.injEq]
    split
    next same => simp [same]
    next differs => simp [differs]
  registered j other id hid := by
    rw [universalId?_keepUniversal found] at hid
    split at hid
    · cases hid
      have own := Registry.idOf?_eq_some_iff.mp (Registry.idOf?_register s.registry pair)
      exact own ▸ Option.some_ne_none pair
    · have registered := accounted.registered j other id hid
      exact (Registry.extends_register s.registry pair).pair?_ne_none registered

lemma universalType (accounted : s.TypesAccounted types) (sectionId : ℕ) (type : UInt32) :
    (s.after (universalType sectionId type)).TypesAccounted
      (types ∪ (s.typesIn sectionId [type]).toFinset) := by
  rcases s.universalType_cases sectionId type with
    ⟨settled, run⟩ | ⟨known, rule, found, new, given, run⟩
  · rw [accounted.union_typesIn (List.forall_mem_singleton.mpr settled), after, run]
    exact accounted
  · have asked : s.typesIn sectionId [type] = [(sectionId, type)] := by
      simp [typesIn, rulesOf, found, given]
    rw [asked, after, run, List.toFinset_cons, List.toFinset_nil, insert_empty_eq,
      Finset.union_comm, ← Finset.insert_eq]
    exact accounted.keepUniversal found new rule.pair

lemma settleAll (accounted : s.TypesAccounted types) (sectionId : ℕ) (more : List UInt32) :
    (s.settleAll sectionId more).TypesAccounted
      (types ∪ (s.typesIn sectionId more).toFinset) := by
  induction more generalizing s types with
  | nil =>
    rw [typesIn, List.filter_nil, List.map_nil, List.toFinset_nil, Finset.union_empty]
    exact accounted
  | cons type rest ih =>
    have rules : (s.after (Session.universalType sectionId type)).rulesOf sectionId =
        s.rulesOf sectionId := rulesOf_settleAll [type]
    have asked : s.typesIn sectionId (type :: rest) =
        s.typesIn sectionId [type] ++
          (s.after (Session.universalType sectionId type)).typesIn sectionId rest := by
      rw [typesIn, typesIn, typesIn, rules, ← List.map_append, ← List.filter_append,
        List.singleton_append]
    rw [asked, List.toFinset_append, ← Finset.union_assoc]
    exact ih (accounted.universalType sectionId type)

end TypesAccounted

/-! ### Values -/

/-- As many values were read as there are in a set, and these are kept. -/
structure ValuesAccounted (values : Finset (ℕ × Quantity)) (s : Session) : Prop where
  counted : s.statistics.valuesParsed = values.card
  mem_iff : ∀ key, key ∈ values ↔ (s.values.get? key).isSome

namespace ValuesAccounted

variable {values : Finset (ℕ × Quantity)} {s s' : Session}

lemma of_same (accounted : s.ValuesAccounted values) (kept : s'.values = s.values)
    (counted : s'.statistics.valuesParsed = s.statistics.valuesParsed) :
    s'.ValuesAccounted values where
  counted := counted.trans accounted.counted
  mem_iff key := by rw [accounted.mem_iff, kept]

lemma read (accounted : s.ValuesAccounted values) (id : ℕ) (quantity : Quantity) :
    (s.after (value id quantity)).ValuesAccounted (insert (id, quantity) values) where
  counted := by
    rw [after_value]
    split
    next kept =>
      rw [Finset.insert_eq_of_mem ((accounted.mem_iff _).mpr kept), accounted.counted]
    next new =>
      rw [Finset.card_insert_of_notMem fun asked => new ((accounted.mem_iff _).mp asked),
        ← accounted.counted]
  mem_iff key := by
    rw [Finset.mem_insert, accounted.mem_iff, get?_values_after_value]
    split
    next same => simp [same]
    next differs => simp [differs]

lemma readAll (accounted : s.ValuesAccounted values) (asked : List (ℕ × Quantity)) :
    (s.readAll asked).ValuesAccounted (values ∪ asked.toFinset) := by
  induction asked generalizing s values with
  | nil =>
    rw [List.toFinset_nil, Finset.union_empty]
    exact accounted
  | cons a rest ih =>
    rw [List.toFinset_cons, Finset.union_insert, ← Finset.insert_union]
    exact ih (accounted.read a.1 a.2)

end ValuesAccounted

/-! ### Results -/

section Results

variable {s s' : Session} {sectionId : ℕ} {types types' : List UInt32}
  {values values' : Finset (ℕ × Quantity)}

lemma toFinset_typesIn_congr (same : ∀ type, type ∈ types ↔ type ∈ types') :
    (s.typesIn sectionId types).toFinset = (s.typesIn sectionId types').toFinset :=
  Finset.ext fun ⟨j, type⟩ => by simp only [List.mem_toFinset, mem_typesIn, same]

/-- All results that are kept are for types that are settled. -/
def ResultsSettled (values : Finset (ℕ × Quantity)) (s : Session) : Prop :=
  ∀ key, (s.results.get? key).isSome → s.SettledFor values key.kind key.sectionId key.types

lemma ResultsSettled.grow (h : s.ResultsSettled values) (keeps : s.KeepsRegistered)
    (grows : s.Grows s') (more : values ⊆ values') (same : s'.results = s.results) :
    s'.ResultsSettled values' := by
  intro key kept
  rw [same] at kept
  exact (h key kept).grow keeps grows more

end Results

/-! ### The account -/

namespace Asked

variable (a b : Asked)

@[simp] lemma types_append : (a ++ b).types = a.types ++ b.types := rfl

@[simp] lemma values_append : (a ++ b).values = a.values ++ b.values := rfl

@[simp] lemma rulesets_append : (a ++ b).rulesets = a.rulesets ++ b.rulesets := rfl

@[simp] lemma append_empty : a ++ {} = a := by
  change Asked.mk _ _ _ = a
  simp only [List.append_nil]

lemma append_assoc (c : Asked) : a ++ b ++ c = a ++ (b ++ c) := by
  change Asked.mk _ _ _ = Asked.mk _ _ _
  simp only [values_append, types_append, rulesets_append, List.append_assoc]

end Asked

/-- The session has done for what was asked of it what it had to do, once, and has counted it. -/
structure Accounted (asked : Asked) (s : Session) : Prop where
  types : s.TypesAccounted asked.types.toFinset
  values : s.ValuesAccounted asked.values.toFinset
  rulesets : s.statistics.evaluations + s.statistics.resultsReused = asked.rulesets.length
  results : s.ResultsSettled asked.values.toFinset

namespace Accounted

variable {asked : Asked} {s s' : Session} {sectionId : ℕ}

/-- Nothing is asked for, and nothing is done. -/
lemma of_same (accounted : s.Accounted asked) (grows : s.Grows s')
    (kept : ∀ j type, s'.universalId? j type = s.universalId? j type)
    (values : s'.values = s.values) (results : s'.results = s.results)
    (statistics : s'.statistics = s.statistics) : s'.Accounted asked where
  types := accounted.types.of_same kept grows.registry (by rw [statistics])
  values := accounted.values.of_same values (by rw [statistics])
  rulesets := by rw [statistics, accounted.rulesets]
  results := accounted.results.grow accounted.types.registered grows (Finset.Subset.refl _) results

lemma attach (accounted : s.Accounted asked) (sectionId : ℕ) (rules : RuleTable) :
    (s.attach sectionId rules).Accounted asked := by
  refine accounted.of_same (.attach s sectionId rules) (s.universalId?_attach sectionId rules) ?_ ?_ ?_
  all_goals
    rw [Session.attach]
    split
    · rfl
    · rfl

/-- Results are given up with a parameter, and all else stays. -/
lemma setParameter (accounted : s.Accounted asked) (name value : String) :
    (s.setParameter name value).Accounted asked where
  types := accounted.types.of_same (fun _ _ => rfl) (.refl _) rfl
  values := accounted.values.of_same rfl rfl
  rulesets := accounted.rulesets
  results _ kept := nomatch kept

lemma settleAll (accounted : s.Accounted asked) (sectionId : ℕ) (types : List UInt32) :
    (s.settleAll sectionId types).Accounted (asked ++ { types := s.typesIn sectionId types }) := by
  obtain ⟨values, results, parsed, evaluations, reused⟩ := s.settleAll_leaves sectionId types
  constructor
  case types =>
    rw [Asked.types_append, List.toFinset_append]
    exact accounted.types.settleAll sectionId types
  case values =>
    rw [Asked.values_append, List.append_nil]
    exact accounted.values.of_same values parsed
  case rulesets =>
    rw [evaluations, reused, accounted.rulesets, Asked.rulesets_append, List.append_nil]
  case results =>
    rw [Asked.values_append, List.append_nil]
    exact accounted.results.grow accounted.types.registered (.settleAll s sectionId types)
      (Finset.Subset.refl _) results

/-- A value is read, or was read before. -/
lemma readAll (accounted : s.Accounted asked) (more : List (ℕ × Quantity)) :
    (s.readAll more).Accounted (asked ++ { values := more }) := by
  have same := s.readAll_differsInValues more
  obtain ⟨resolved, evaluations, reused⟩ := s.readAll_leaves more
  have values : (asked ++ { values := more }).values.toFinset =
      asked.values.toFinset ∪ more.toFinset := List.toFinset_append
  constructor
  case types =>
    rw [Asked.types_append, List.append_nil]
    refine accounted.types.of_same (fun j type => ?_) (same.registry ▸ .refl _) resolved
    rw [universalId?, universalId?, same.sections]
  case values =>
    rw [values]
    exact accounted.values.readAll more
  case rulesets =>
    rw [evaluations, reused, accounted.rulesets, Asked.rulesets_append, List.append_nil]
  case results =>
    rw [values]
    exact accounted.results.grow accounted.types.registered (.readAll s more)
      Finset.subset_union_left same.results

/-- A ruleset is asked for, whether it is evaluated or not. -/
lemma count (accounted : s.Accounted asked) (ruleset : RulesetKind × ℕ × Finset UInt32)
    {evaluations reused : ℕ}
    (total : evaluations + reused = s.statistics.evaluations + s.statistics.resultsReused + 1) :
    ({ s with
      statistics.evaluations := evaluations
      statistics.resultsReused := reused } : Session).Accounted
        (asked ++ { rulesets := [ruleset] }) where
  types := by
    rw [Asked.types_append, List.append_nil]
    exact accounted.types.of_same (fun _ _ => rfl) (.refl _) rfl
  values := by
    rw [Asked.values_append, List.append_nil]
    exact accounted.values.of_same rfl rfl
  rulesets := by
    rw [Asked.rulesets_append, List.length_append, ← accounted.rulesets]
    exact total
  results := by
    rw [Asked.values_append, List.append_nil]
    exact accounted.results.grow accounted.types.registered
      (.of_same rfl rfl (.refl _) rfl rfl) (Finset.Subset.refl _) rfl

lemma keepResult (accounted : s.Accounted asked) {key : ResultKey}
    (settled : s.SettledFor asked.values.toFinset key.kind key.sectionId key.types)
    (result : Option Float) : (s.keepResult key result).Accounted asked where
  types := accounted.types.of_same (fun _ _ => rfl) (.refl _) rfl
  values := accounted.values.of_same rfl rfl
  rulesets := accounted.rulesets
  results := by
    have grows : s.Grows (s.keepResult key result) := .of_same rfl rfl (.refl _) rfl rfl
    intro other kept
    refine SettledFor.grow ?_ accounted.types.registered grows (Finset.Subset.refl _)
    rw [Session.keepResult, Memo.get?_store] at kept
    split at kept
    next same => exact same ▸ settled
    next => exact accounted.results other kept

/-- Only the sets of types and of values matter, and the number of rulesets. -/
lemma congr {asked' : Asked} (accounted : s.Accounted asked)
    (types : asked'.types.toFinset = asked.types.toFinset)
    (values : asked'.values.toFinset = asked.values.toFinset)
    (rulesets : asked'.rulesets.length = asked.rulesets.length) : s.Accounted asked' where
  types := types ▸ accounted.types
  values := values ▸ accounted.values
  rulesets := rulesets ▸ accounted.rulesets
  results := values ▸ accounted.results

/-- A ruleset whose result is kept needs nothing more. -/
lemma evaluate_of_kept (accounted : s.Accounted asked) {kind : RulesetKind} {types : Array UInt32}
    {result : Option Float}
    (kept : s.results.get? (resultKey kind sectionId types) = some result) :
    let s' := s.after (evaluateTypes kind sectionId types)
    s'.Accounted (asked ++ {
      types := s.typesIn sectionId types.toList
      values := s'.valuesFor kind sectionId types.toList
      rulesets := [(kind, sectionId, types.toList.toFinset)] }) := by
  intro s'
  have members := mem_resultKey kind sectionId types
  have evaluated : s' = { s with statistics.resultsReused := s.statistics.resultsReused + 1 } :=
    after_evaluateTypes_of_kept kept
  have settled : s.SettledFor asked.values.toFinset kind sectionId
      (resultKey kind sectionId types).types :=
    accounted.results _ (kept ▸ Option.isSome_some)
  have settled' : s'.SettledFor asked.values.toFinset kind sectionId
      (resultKey kind sectionId types).types :=
    settled.grow accounted.types.registered
      (evaluated ▸ .of_same rfl rfl (.refl _) rfl rfl) (Finset.Subset.refl _)
  have counted : s'.Accounted
      (asked ++ { rulesets := [(kind, sectionId, types.toList.toFinset)] }) :=
    evaluated ▸ accounted.count _ (Nat.add_assoc ..).symm
  refine counted.congr ?_ ?_ rfl
  · rw [Asked.types_append, Asked.types_append, List.append_nil, List.toFinset_append,
      ← toFinset_typesIn_congr members]
    exact accounted.types.union_typesIn settled.settled
  · rw [Asked.values_append, Asked.values_append, List.append_nil, List.toFinset_append,
      ← valuesFor_congr members]
    exact Finset.union_eq_left.mpr fun a ha => settled'.values a (List.mem_toFinset.mp ha)

/-- For any other ruleset the types are settled and the values are read that it asks for. -/
lemma evaluate_of_new (accounted : s.Accounted asked) {kind : RulesetKind} {types : Array UInt32}
    (known : s.isAttached sectionId)
    (new : s.results.get? (resultKey kind sectionId types) = none) :
    let s' := s.after (evaluateTypes kind sectionId types)
    s'.Accounted (asked ++ {
      types := s.typesIn sectionId types.toList
      values := s'.valuesFor kind sectionId types.toList
      rulesets := [(kind, sectionId, types.toList.toFinset)] }) := by
  intro s'
  have members := mem_resultKey kind sectionId types
  obtain ⟨-, result, evaluated⟩ := after_evaluateTypes_of_new known new
  let key := resultKey kind sectionId types
  let counted := (s.settleAll sectionId key.types).countEvaluation
  let more := counted.valuesFor kind sectionId key.types
  have read : s' = (counted.readAll more).keepResult key result := evaluated
  let earlier : Asked := asked ++ { types := s.typesIn sectionId key.types } ++
    { rulesets := [(kind, sectionId, types.toList.toFinset)] }
  have atCount : counted.Accounted earlier :=
    (accounted.settleAll sectionId key.types).count _ (Nat.add_right_comm ..)
  have settled : counted.SettledFor (earlier ++ { values := more }).values.toFinset kind sectionId
      key.types :=
    ⟨(isAttached_settleAll key.types).trans known, s.settleAll_settles sectionId key.types,
      fun _ ha => List.mem_toFinset.mpr (List.mem_append_right _ ha)⟩
  have atRead := atCount.readAll more
  have readSettled := settled.grow atCount.types.registered (.readAll counted more)
    (Finset.Subset.refl _)
  -- what was asked for on the way is what the session asks for now: nothing was given up since
  have values : s'.valuesFor kind sectionId types.toList = more := by
    have grows : counted.Grows s' :=
      read ▸ (Grows.readAll counted more).trans (.of_same rfl rfl (.refl _) rfl rfl)
    rw [← valuesFor_congr members,
      grows.valuesFor_eq atCount.types.registered settled.isAttached settled.settled]
  rw [values, read]
  refine (atRead.keepResult readSettled result).congr ?_ ?_ ?_
  · simp only [earlier, Asked.types_append, List.append_nil, List.toFinset_append]
    rw [toFinset_typesIn_congr members]
  · simp only [earlier, Asked.values_append, List.append_nil]
  · simp only [earlier, Asked.rulesets_append, List.append_nil]

/-- Every step does what it is asked for, unless it was done before. -/
lemma take (accounted : s.Accounted asked) (step : Step) :
    (s.take step).Accounted (asked ++ s.askedBy step) := by
  cases step with
  | attach sectionId rules =>
    rw [askedBy, Asked.append_empty]
    exact accounted.attach sectionId rules
  | settle sectionId types =>
    rw [askedBy]
    by_cases known : s.isAttached sectionId
    · rw [Session.take, after, universalTypes_run known]
      exact accounted.settleAll sectionId types
    · rw [Session.take, after_universalTypes_of_unknown known, typesIn_of_unknown known,
        Asked.append_empty]
      exact accounted
  | evaluate kind sectionId types =>
    rw [askedBy]
    split
    next known =>
      rw [Session.take, if_pos known]
      cases kept : s.results.get? (resultKey kind sectionId types) with
      | some result => exact accounted.evaluate_of_kept kept
      | none => exact accounted.evaluate_of_new known kept
    next unknown =>
      rw [Session.take, if_neg unknown, Asked.append_empty]
      exact accounted
  | setParameter name value =>
    rw [askedBy, Asked.append_empty]
    exact accounted.setParameter name value
  | avoid roadId =>
    rw [askedBy, Asked.append_empty]
    exact accounted.of_same (.of_same rfl rfl (.refl _) rfl rfl) (fun _ _ => rfl) rfl rfl rfl
  | register pair =>
    rw [askedBy, Asked.append_empty]
    exact accounted.of_same (.of_same rfl rfl (Registry.extends_add _ pair) rfl rfl)
      (fun _ _ => rfl) rfl rfl rfl

lemma takeAll (accounted : s.Accounted asked) (steps : List Step) :
    (s.takeAll steps).Accounted (asked ++ s.askedByAll steps) := by
  induction steps generalizing s asked with
  | nil =>
    rw [askedByAll, Asked.append_empty]
    exact accounted
  | cons step rest ih =>
    rw [askedByAll, ← Asked.append_assoc]
    exact ih (accounted.take step)

lemma serve (accounted : s.Accounted asked) (r : Request) :
    (s.serve r).Accounted (asked ++ s.askedOf r) := by
  cases r with
  | operation op =>
    rw [Session.serve, perform_eq_takeAll]
    exact accounted.takeAll (s.steps op)
  | value id quantity => exact accounted.readAll [(id, quantity)]

lemma serveAll (accounted : s.Accounted asked) (requests : List Request) :
    (s.serveAll requests).Accounted (asked ++ s.askedOfAll requests) := by
  induction requests generalizing s asked with
  | nil =>
    rw [askedOfAll, Asked.append_empty]
    exact accounted
  | cons r rest ih =>
    rw [askedOfAll, ← Asked.append_assoc]
    exact ih (accounted.serve r)

end Accounted

/-- Nothing was asked of a new session, and it has done nothing. -/
lemma start_accounted (profile : Profile) (registry : Registry) :
    (start profile registry).Accounted {} where
  types := ⟨rfl, fun _ _ => ⟨nofun, nofun⟩, nofun⟩
  values := ⟨rfl, fun _ => ⟨nofun, nofun⟩⟩
  rulesets := rfl
  results := nofun

end Session

end RoadAtlas
