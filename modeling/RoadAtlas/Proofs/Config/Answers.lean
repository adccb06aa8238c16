import RoadAtlas.Proofs.Config.Order

/-!
Answers and the order of questions. What was asked before can show in an answer in two ways only: in
the number of a tag with several values, of which the one that was registered first counts, and in
the rule table by which the section of a road is known.

* `Session.answers` asks one question after another, `Session.answers_getElem?` says which session
  answers each;
* `Session.History.Follows`: roads that carry the tables of their sections are known by these,
  whatever the order;
* `Profile.Means.answer_eq`: an answer is the number that the text of the profile says, with the
  pairs of the road in the order in which they were registered;
* `Config.answers_agree`: a question has the same answer wherever it is asked, as long as the table
  is the same and the numbers of tags are settled; `Config.answers_disagree` does without either.
-/

namespace RoadAtlas

open Session

/-! ### Questions -/

/-- A ruleset that is evaluated for a road. -/
structure Question where
  kind : RulesetKind
  road : Road

/-- To ask is an operation on a session. -/
def Question.operation (q : Question) : Operation := .evaluate q.kind q.road

namespace Session

/-- The answer to a question. -/
def answer (s : Session) (q : Question) : Option Float := ((evaluate q.kind q.road).run s).1

/-- The answers to some questions, asked one after another. -/
def answers (s : Session) (questions : List Question) : List (Option Float) :=
  ((questions.mapM fun q => evaluate q.kind q.road).run s).1

lemma answers_cons (s : Session) (q : Question) (rest : List Question) :
    s.answers (q :: rest) = s.answer q :: (s.perform q.operation).answers rest := by
  rw [answers, List.mapM_cons]
  rfl

/-- A question is answered by the session that the ones before it leave behind. -/
lemma answers_getElem? {questions : List Question} {q : Question} :
    ∀ {s : Session} {j : ℕ}, questions[j]? = some q → (s.answers questions)[j]? =
      some ((s.performAll ((questions.take j).map Question.operation)).answer q) := by
  induction questions with
  | nil => exact fun none => nomatch none
  | cons first rest ih =>
    intro s j asked
    rw [answers_cons]
    cases j with
    | zero =>
      cases asked
      rfl
    | succ j => exact ih asked

namespace History

variable {h : History} {setup : List Operation} {questions : List Question} {tables : ℕ → RuleTable}

/-- What was given to a session when a question has its turn. -/
def before (setup : List Operation) (questions : List Question) (j : ℕ) : History :=
  .of (setup ++ (questions.take j).map Question.operation)

/-- The table by which the section of a road is known when the road is asked about. -/
def tableFor (h : History) (road : Road) : Option RuleTable :=
  (h.offerRoad road).table? road.sectionId

/-- Questions do not set parameters. -/
lemma setting?_before (setup : List Operation) (questions : List Question) (j : ℕ) (name : String) :
    (before setup questions j).setting? name = (of setup).setting? name := by
  rw [before, of, List.foldl_append, ← of]
  generalize questions.take j = asked, of setup = h
  induction asked generalizing h with
  | nil => rfl
  | cons q rest ih => exact ih _

/-! ### Roads with the tables of their sections -/

/-- The sections that are known, are known by the tables they have. -/
def Follows (h : History) (tables : ℕ → RuleTable) : Prop :=
  ∀ sectionId, ∀ table ∈ h.table? sectionId, table = tables sectionId

lemma Follows.offerRoad (follows : h.Follows tables) {road : Road}
    (carries : road.rules = some (tables road.sectionId)) : (h.offerRoad road).Follows tables := by
  intro sectionId table found
  rw [History.offerRoad, table?_offer, Option.mem_def, Option.or_eq_some_iff] at found
  rcases found with known | ⟨-, given⟩
  · exact follows sectionId table known
  · split at given
    next same =>
      rw [carries] at given
      rw [same, Option.some.inj given]
    next => cases given

/-- A road with the table of its section is known by it. -/
lemma Follows.tableFor_eq (follows : h.Follows tables) {road : Road}
    (carries : road.rules = some (tables road.sectionId)) :
    h.tableFor road = some (tables road.sectionId) := by
  rw [tableFor, History.offerRoad, table?_offer, if_pos rfl, carries]
  cases known : h.table? road.sectionId with
  | none => rfl
  | some table => rw [follows _ table known]; rfl

/-- Roads that have the tables of their sections do not get in each other's way. -/
lemma Follows.before (follows : (of setup).Follows tables)
    (carry : ∀ q ∈ questions, q.road.rules = some (tables q.road.sectionId)) (j : ℕ) :
    (before setup questions j).Follows tables := by
  have carry : ∀ q ∈ questions.take j, q.road.rules = some (tables q.road.sectionId) :=
    fun q hq => carry q (List.mem_of_mem_take hq)
  rw [History.before, of, List.foldl_append, ← of]
  generalize questions.take j = asked, of setup = h at carry follows
  induction asked generalizing h with
  | nil => exact follows
  | cons q rest ih =>
    rw [List.forall_mem_cons] at carry
    exact ih _ carry.2 (follows.offerRoad carry.1)

end History

end Session

/-! ### Answers -/

/-- A compiled profile means its text. -/
lemma Config.means_of_compiled {d : Document} {r r' : Registry} {config : Config}
    (compiled : d.compile.run.run r = (.ok config, r')) {i : ℕ} {profile : Profile}
    (hprofile : config.profiles[i]? = some profile) {text : ProfileText}
    (htext : d.profiles[i]? = some text) : profile.Means r' text := by
  have yields : d.compile.Yields r config r' := by
    rw [Compile.Yields, compiled]
    exact ⟨rfl, rfl⟩
  obtain ⟨-, profiles⟩ := Document.compile_means yields
  obtain ⟨inside, rfl⟩ := List.getElem?_eq_some_iff.mp hprofile
  obtain ⟨inside', rfl⟩ := List.getElem?_eq_some_iff.mp htext
  exact (List.forall₂_iff_get.mp profiles).2 i inside inside'

/-- In a session with a profile that means its text, the answer to a question is the number that the
text says, with the pairs of the road in the order in which they were registered. -/
theorem Profile.Means.answer_eq {profile : Profile} {text : ProfileText} {r now : Registry}
    (means : profile.Means r text) (grown : r.Extends now) (ops : List Operation) (q : Question) :
    let s := (start profile now).performAll ops
    let h := History.of ops
    ∃ last, s.registry.Extends last ∧
      (∀ table ∈ h.tableFor q.road, last.Knows table q.road.types.toList) ∧
      s.answer q = (h.tableFor q.road).bind fun table =>
        text.number? q.kind ⟨last.seen table q.road.types.toList, fun name =>
          h.setting? name <|> text.defaultOf? name⟩ := by
  intro s h
  have leads := (performAll_coherent profile now ops).evaluate_leads q.kind q.road
  obtain ⟨answer, known⟩ := leads.answer
  refine ⟨_, leads.grows, known, ?_⟩
  have later := grown.trans ((extends_performAll profile now ops).trans leads.grows)
  have parameters : (h.offerRoad q.road).parameter? profile = fun name =>
      h.setting? name <|> text.defaultOf? name := by
    funext name
    rw [← means.defaults]
    rfl
  rw [Session.answer, answer, History.tableFor]
  cases first : (h.offerRoad q.road).table? q.road.sectionId with
  | none => rfl
  | some table =>
    rw [Option.bind_some, Option.bind_some, Registry.result, parameters]
    exact means.evaluate_lists later (s := ⟨_, _⟩) (known table first).lists q.kind

/-- Of several questions each is answered so, with the parameters as they were set beforehand. -/
lemma Profile.Means.answers_getElem? {profile : Profile} {text : ProfileText} {r : Registry}
    (means : profile.Means r text) (setup : List Operation) {questions : List Question} {j : ℕ}
    {q : Question} (asked : questions[j]? = some q) :
    let s := (start profile r).performAll setup
    let h := History.before setup questions j
    ∃ last, s.registry.Extends last ∧
      (∀ table ∈ h.tableFor q.road, last.Knows table q.road.types.toList) ∧
      (s.answers questions)[j]? = some ((h.tableFor q.road).bind fun table =>
        text.number? q.kind ⟨last.seen table q.road.types.toList, fun name =>
          (History.of setup).setting? name <|> text.defaultOf? name⟩) := by
  intro s h
  obtain ⟨last, grows, known, answer⟩ := means.answer_eq (.refl r)
    (setup ++ (questions.take j).map Question.operation) q
  rw [performAll, List.foldl_append, ← performAll, ← performAll] at grows answer
  have begins := (performAll_coherent profile r setup).foldl_perform
    ((questions.take j).map Question.operation)
  have parameters : (fun name => h.setting? name <|> text.defaultOf? name) =
      fun name => (History.of setup).setting? name <|> text.defaultOf? name := by
    funext name
    rw [History.setting?_before]
  refine ⟨last, begins.2.trans grows, known, ?_⟩
  rw [Session.answers_getElem? asked, answer, ← parameters]
  rfl

/-- What else is asked, and when, does not show in the answer to a question, as long as the section
of its road is known by the same table and the tags whose numbers are looked up are settled when the
questions begin. -/
theorem Config.answers_agree {d : Document} {r r' : Registry} {config : Config}
    (compiled : d.compile.run.run r = (.ok config, r')) {i : ℕ} {profile : Profile}
    (hprofile : config.profiles[i]? = some profile) {text : ProfileText}
    (htext : d.profiles[i]? = some text) (setup : List Operation)
    {questions questions' : List Question} {j j' : ℕ} {q : Question}
    (asked : questions[j]? = some q) (asked' : questions'[j']? = some q)
    (bound : (History.before setup questions j).tableFor q.road =
      (History.before setup questions' j').tableFor q.road)
    (settled : ∀ table ∈ (History.before setup questions j).tableFor q.road,
      ∀ e ∈ text.expressions q.kind, ∀ quantity tag, (quantity, "$" ++ tag) ∈ e.operands →
        ((start profile r').performAll setup).registry.Settles
          (table.pairsOf q.road.types.toList) quantity tag) :
    let s := (start profile r').performAll setup
    ∃ answer, (s.answers questions)[j]? = some answer ∧
      (s.answers questions')[j']? = some answer := by
  intro s
  have means := means_of_compiled compiled hprofile htext
  obtain ⟨last, grown, known, answer⟩ := means.answers_getElem? setup asked
  obtain ⟨last', grown', known', answer'⟩ := means.answers_getElem? setup asked'
  refine ⟨_, answer, ?_⟩
  rw [answer', ← bound]
  rw [← bound] at known'
  cases first : (History.before setup questions j).tableFor q.road with
  | none => rfl
  | some table =>
    rw [Option.bind_some, Option.bind_some]
    refine congrArg some (ProfileText.number?_congr ?like ?tags)
    case like =>
      exact ⟨rfl, fun _ => (known' table first).mem_seen.trans (known table first).mem_seen.symm⟩
    case tags =>
      intro e he quantity tag listed
      exact (settled table first e he quantity tag listed).value_eq grown' grown
        (known' table first) (known table first)

/-! ### A document with one tag -/

/-- A profile that drives as fast as is allowed. -/
def limitText : ProfileText where
  name := "car"
  rulesets := (∅ : SortedMap String (List ExpressionText)).insert "road_speed"
    [{ result := "$maxspeed", quantity := .speed }]

/-- The profile as it is compiled. -/
def limitProfile : Profile :=
  ({ name := "car" } : Profile).addExpression .speed
    { result := .tag "maxspeed", quantity := .speed }

/-- A table with two limits, of which one is not a number. -/
def limitTable : RuleTable := .ofPairs [("maxspeed", "50"), ("maxspeed", "walk")]

/-- The speed on a road with some of the limits. -/
def limitQuestion (types : Array UInt32) (rules : Option RuleTable := some limitTable) :
    Question where
  kind := .speed
  road := { id := 1, sectionId := 3, types, rules }

lemma limitText_compile : ({ profiles := [limitText] } : Document).compile.run.run {} =
    (.ok ⟨∅, none, [limitProfile]⟩, {}) := rfl

/-- On a road with one limit the speed is the same, whatever was asked before. -/
theorem Config.answers_agree_oneLimit :
    ∃ answer,
      ((start limitProfile {}).answers [limitQuestion #[0], limitQuestion #[1]])[0]? = some answer ∧
      ((start limitProfile {}).answers [limitQuestion #[1], limitQuestion #[0]])[1]? =
        some answer := by
  have follows : (History.of []).Follows fun _ => limitTable := fun _ _ none => nomatch none
  have turn : (History.before [] [limitQuestion #[0], limitQuestion #[1]] 0).tableFor
      (limitQuestion #[0]).road = some limitTable :=
    (follows.before (by simp [limitQuestion]) 0).tableFor_eq rfl
  have turn' : (History.before [] [limitQuestion #[1], limitQuestion #[0]] 1).tableFor
      (limitQuestion #[0]).road = some limitTable :=
    (follows.before (by simp [limitQuestion]) 1).tableFor_eq rfl
  refine answers_agree limitText_compile (i := 0) rfl rfl [] (q := limitQuestion #[0]) rfl rfl
    (turn.trans turn'.symm) ?_
  intro table known e _ quantity tag _
  obtain rfl : limitTable = table := Option.some.inj (turn.symm.trans known)
  refine .inr fun value value' hvalue hvalue' => ?_
  have pairs : limitTable.pairsOf (limitQuestion #[0]).road.types.toList =
      [("maxspeed", "50")] := by decide +kernel
  rw [pairs] at hvalue hvalue'
  grind

lemma resultKey_limits : resultKey .speed 3 #[0, 1] = ⟨.speed, 3, [0, 1]⟩ := by
  rw [resultKey, List.mergeSort_of_pairwise (by decide)]
  rfl

/-- The order of questions shows in the answers where it decides which limit of a road is registered
first, and where it decides whether the section of a road without a table is known. -/
theorem Config.answers_disagree :
    ({ profiles := [limitText] } : Document).compile.run.run {} =
        (.ok ⟨∅, none, [limitProfile]⟩, {}) ∧
      (let questions := [limitQuestion #[0], limitQuestion #[1], limitQuestion #[0, 1]]
        let questions' := [limitQuestion #[1], limitQuestion #[0], limitQuestion #[0, 1]]
        questions.Perm questions' ∧ questions[2]? = questions'[2]? ∧
          ((start limitProfile {}).answers questions)[2]? ≠
            ((start limitProfile {}).answers questions')[2]?) ∧
      let questions := [limitQuestion #[0], limitQuestion #[0] none]
      let questions' := [limitQuestion #[0] none, limitQuestion #[0]]
      questions.Perm questions' ∧ questions[1]? = questions'[0]? ∧
        ((start limitProfile {}).answers questions)[1]? ≠
          ((start limitProfile {}).answers questions')[0]? := by
  refine ⟨limitText_compile, ⟨.swap _ _ _, rfl, fun same => ?limits⟩, .swap _ _ _, rfl,
    fun same => ?tables⟩
  case limits =>
    have hasSpeed := congrArg (Option.map Option.isSome) same
    rw [answers_getElem? (q := limitQuestion #[0, 1]) rfl,
      answers_getElem? (q := limitQuestion #[0, 1]) rfl] at hasSpeed
    simp only [answer, evaluate, evaluateTypes, limitQuestion, resultKey_limits] at hasSpeed
    exact absurd hasSpeed (by decide +kernel)
  case tables =>
    have hasSpeed := congrArg (Option.map Option.isSome) same
    exact absurd hasSpeed (by decide +kernel)

end RoadAtlas
