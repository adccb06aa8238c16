import RoadAtlas.Proofs.Config.Compilation
import RoadAtlas.Proofs.Session.Transparency

/-!
Sessions answer what the configuration says. Whatever was registered before the configuration was
compiled or after it, and whatever has been done with a session, its answer for a road is read off
the texts of the profile, the pairs of the road and the parameters.

* `Config.evaluate_eq_reading`: the answer of a session is the number that the texts say.
-/

namespace RoadAtlas

open Session

/-- In a session with a compiled profile, the result of a ruleset for a road is the number of the
first of its expressions, as they are written, that has one for the pairs of the road: those that
its types have in the first rule table that was given for its section. Parameters have the values
they were set to last, or else their defaults. -/
theorem Config.evaluate_eq_reading {d : Document} {r r' now : Registry} {config : Config}
    (compiled : d.compile.run.run r = (.ok config, r')) (grown : r'.Extends now) {i : ℕ}
    {profile : Profile} (hprofile : config.profiles[i]? = some profile) (ops : List Operation)
    (kind : RulesetKind) {road : Road} {table : RuleTable}
    (bound : ((History.of ops).offerRoad road).table? road.sectionId = some table)
    {pairs : List TagPair} (same : ∀ pair, pair ∈ pairs ↔ pair ∈ table.pairsOf road.types.toList)
    (once : ∀ tag value value', (tag, value) ∈ pairs → (tag, value') ∈ pairs → value = value') :
    ∃ text, d.profiles[i]? = some text ∧
      ((evaluate kind road).run ((start profile now).performAll ops)).1 =
        text.number? kind ⟨pairs, fun name => (History.of ops).setting? name <|>
          text.defaultOf? name⟩ := by
  have yields : d.compile.Yields r config r' := by
    rw [Compile.Yields, compiled]
    exact ⟨rfl, rfl⟩
  obtain ⟨-, profiles⟩ := Document.compile_means yields
  obtain ⟨sameLength, pointwise⟩ := List.forall₂_iff_get.mp profiles
  obtain ⟨inside, rfl⟩ := List.getElem?_eq_some_iff.mp hprofile
  have inside' : i < d.profiles.length := sameLength ▸ inside
  have means : Profile.Means r' config.profiles[i] d.profiles[i] := pointwise i inside inside'
  refine ⟨d.profiles[i], List.getElem?_eq_getElem inside', ?_⟩
  have leads := (performAll_coherent config.profiles[i] now ops).evaluate_leads kind road
  obtain ⟨answer, known⟩ := leads.answer
  have later := grown.trans ((extends_performAll config.profiles[i] now ops).trans leads.grows)
  have describes := (known table bound).describes same
  have parameters : ((History.of ops).offerRoad road).parameter? config.profiles[i] = fun name =>
      (History.of ops).setting? name <|> d.profiles[i].defaultOf? name := by
    funext name
    rw [← means.defaults]
    rfl
  rw [answer, bound, Option.bind_some, Registry.result, parameters]
  exact means.evaluate later (s := ⟨pairs, _⟩) describes once kind

/-! ### A document with two expressions -/

/-- What it costs to use a toll road. -/
def feeParameter : Parameter := { id := "fee", kind := .boolean, default := some "2" }

/-- A profile that pays the fee on paved toll roads that are slower than the fee, and goes by the
speed of other toll roads. -/
def tollText : ProfileText where
  name := "car"
  parameters := [feeParameter]
  rulesets := (∅ : SortedMap String (List ExpressionText)).insert "access"
    [{ tags := [{ tag := "toll", value := "yes" },
          { tag := "surface", value := "gravel", negated := true }]
       comparisons := [{ sign := "lt", left := "$maxspeed", right := ":fee" }]
       result := ":fee" },
     { tags := [{ tag := "toll" }, { tag := "motorroad", negated := true }]
       parameters := ["-fee"]
       comparisons := [{ sign := ">=", left := "$maxspeed", right := "50" }]
       result := "$maxspeed" }]

/-- A registry that knows one of the pairs of the profile. -/
def surfaceRegistry : Registry :=
  ((default : Registry).add ("highway", "primary")).add ("surface", "gravel")

/-- The profile as it is compiled over this registry. -/
def tollProfile : Profile :=
  ((({ name := "car" } : Profile).addParameter feeParameter).addExpression .access
    { requiredTypes := .ofList [2], excludedTypes := .ofList [1]
      conditions := [⟨.less, .tag "maxspeed", .parameter "fee", .number⟩]
      result := .parameter "fee" }).addExpression .access
    { requiredTags := ["toll"], excludedTags := ["motorroad"], parameters := [⟨"fee", true⟩]
      conditions := [⟨.greaterOrEqual, .tag "maxspeed", .literal 50, .number⟩]
      result := .tag "maxspeed" }

/-- The registry behind it. -/
def tollRegistry : Registry := surfaceRegistry.add ("toll", "yes")

/-- The table of a section in which tolls come second. -/
def tollTable : RuleTable :=
  ⟨#[⟨"highway", "primary", .highway, .text⟩, ⟨"toll", "yes", .other, .text⟩,
    ⟨"maxspeed", "80", .maxSpeed, .speed (Rule.postedSpeed "80")⟩]⟩

/-- A toll road of the section. -/
def tollRoad : Road where
  id := 1
  sectionId := 3
  types := #[1, 0, 2, 1]
  rules := some tollTable

/-- To a road that is faster than the fee the first expression does not apply, and the second one
does. -/
theorem Config.evaluate_tollRoad :
    ∃ text, [tollText][0]? = some text ∧
      ((evaluate .access tollRoad).run
          ((start tollProfile (tollRegistry.add ("oneway", "yes"))).performAll
            [.setParameter "fee" "7"])).1 =
        text.number? .access
          ⟨[("toll", "yes"), ("maxspeed", "80"), ("highway", "primary")], fun name =>
            (History.of [.setParameter "fee" "7"]).setting? name <|> text.defaultOf? name⟩ ∧
      text.number? .access
          ⟨[("toll", "yes"), ("maxspeed", "80"), ("highway", "primary")], fun name =>
            (History.of [.setParameter "fee" "7"]).setting? name <|> text.defaultOf? name⟩ =
        some 80 := by
  have compiled : ({ profiles := [tollText] } : Document).compile.run.run surfaceRegistry =
      (.ok ⟨∅, none, [tollProfile]⟩, tollRegistry) := rfl
  have bound :
      ((History.of [.setParameter "fee" "7"]).offerRoad tollRoad).table? 3 = some tollTable := rfl
  have answer : ∃ text, [tollText][0]? = some text ∧
      ((evaluate .access tollRoad).run
          ((start tollProfile (tollRegistry.add ("oneway", "yes"))).performAll
            [.setParameter "fee" "7"])).1 =
        text.number? .access
          ⟨[("toll", "yes"), ("maxspeed", "80"), ("highway", "primary")], fun name =>
            (History.of [.setParameter "fee" "7"]).setting? name <|> text.defaultOf? name⟩ := by
    refine evaluate_eq_reading compiled (Registry.extends_add _ _) rfl _ .access bound ?_ ?_
    · intro pair
      have pairs : tollTable.pairsOf tollRoad.types.toList =
          [("toll", "yes"), ("highway", "primary"), ("maxspeed", "80"), ("toll", "yes")] := rfl
      rw [pairs]
      grind
    · intro tag value value' h h'
      simp only [List.mem_cons, Prod.mk.injEq] at h h'
      grind
  obtain ⟨text, first, same⟩ := answer
  obtain rfl : tollText = text := Option.some.inj first
  exact ⟨tollText, rfl, same, by decide +kernel⟩

end RoadAtlas
