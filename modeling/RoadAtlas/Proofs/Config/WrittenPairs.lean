import RoadAtlas.Proofs.Config.Meaning
import RoadAtlas.Proofs.Network.Section
import RoadAtlas.Proofs.Session.Transparency

/-!
Pairs that a section was written with, and tests on tags. A rule table holds the words for truth as
`yes` and `no` and every other value as it was written; a test on a tag takes its value as it is.

* `RuleTable.WrittenWith`: a type stands for a pair as it was written;
* `written_pair_is_seen`: a road with such a type passes a test for the pair as the table holds it;
* `written_truth_is_unseen`: it does not pass a test for `true`.
-/

namespace RoadAtlas

/-! ### Values in a table -/

/-- A value that is no word for truth is held as it is written. -/
lemma Rule.normalize_eq_self {value : String} (notTrue : ¬ Text.equalsIgnoringCase value "true")
    (notFalse : ¬ Text.equalsIgnoringCase value "false") : normalize value = value := by
  rw [normalize, if_neg notTrue, if_neg notFalse]

lemma Rule.isEmpty_normalize {value : String} (named : value ≠ "") :
    ¬ (normalize value).isEmpty := by
  rw [String.isEmpty_iff, normalize]
  split
  · decide
  · split
    · decide
    · exact named

namespace RuleTable

variable {table : RuleTable} {type : UInt32} {pair : TagPair}

/-- A type of the table was written as a pair: the pair was pushed in its place, or the table was
read from the bytes of a section that lists the pair there. -/
inductive WrittenWith : RuleTable → UInt32 → TagPair → Prop
  | pushed (table : RuleTable) (tag value : String) {type : UInt32}
    (place : type.toNat = table.size) : WrittenWith (table.push tag value) type (tag, value)
  | read {id : ℕ} {entry : SectionEntry} {data : ByteArray} {s : RoutingSection} {d : SectionDraft}
    (done : RoutingSection.read id entry data = .ok s) (fits : d.Fits)
    (addressable : data.size < positionBound) (length : entry.length = d.write.length)
    (held : Holds data entry.offset d.write) {type : UInt32} {pair : TagPair}
    (listed : d.rules[type.toNat]? = some pair) : WrittenWith s.rules type pair
  /-- Further pairs may be pushed behind it. -/
  | kept {table : RuleTable} {type : UInt32} {pair : TagPair} (tag value : String)
    (written : WrittenWith table type pair) : WrittenWith (table.push tag value) type pair

lemma toNat_lt_of_get? {rule : Rule} (found : table.get? type = some rule) :
    type.toNat < table.size :=
  (Array.getElem?_eq_some_iff.mp found).1

lemma rules_foldl_push (pairs : List TagPair) (table : RuleTable) :
    (pairs.foldl (fun t (tag, value) => t.push tag value) table).rules.toList =
      table.rules.toList ++ pairs.map fun pair => .ofPair pair.1 pair.2 := by
  induction pairs generalizing table with
  | nil => exact (List.append_nil _).symm
  | cons pair rest ih =>
    have pushed : (table.push pair.1 pair.2).rules.toList =
        table.rules.toList ++ [.ofPair pair.1 pair.2] := Array.toList_push
    rw [List.foldl_cons, ih, pushed, List.map_cons, ← List.append_cons]

/-- The rules of a list of pairs stand in the places of the pairs. -/
lemma get?_ofPairs (pairs : List TagPair) (type : UInt32) :
    (ofPairs pairs).get? type = pairs[type.toNat]?.map fun pair => .ofPair pair.1 pair.2 := by
  have rules := rules_foldl_push pairs {}
  rw [List.nil_append] at rules
  rw [get?, ofPairs, ← Array.getElem?_toList, rules, List.getElem?_map]

end RuleTable

/-- A section that is read where a draft was written has the rules of the draft. -/
lemma RoutingSection.rules_eq_of_read {id : ℕ} {entry : SectionEntry} {data : ByteArray}
    {s : RoutingSection} {d : SectionDraft} (done : read id entry data = .ok s) (fits : d.Fits)
    (addressable : data.size < positionBound) (length : entry.length = d.write.length)
    (held : Holds data entry.offset d.write) : s.rules = .ofPairs d.rules := by
  have inside : entry.offset + d.write.length ≤ data.size := held.le_size d.write_ne_nil
  obtain ⟨-, -, decoded⟩ := SectionEntry.decode_eq_ok_iff.mp done
  obtain ⟨boxes, basemap, reads, -⟩ := SectionDraft.decoder_fillsAt_bordered fits held
    { id, name := entry.name, offset := entry.offset, length := entry.length }
  have whole := (reads data addressable inside held).toExcept_eq
  rw [← length] at whole
  cases decoded.symm.trans whole
  rfl

/-- A type stands for the pair that it was written as, with the value as a table holds it. -/
lemma RuleTable.WrittenWith.get?_eq {table : RuleTable} {type : UInt32} {pair : TagPair}
    (written : table.WrittenWith type pair) :
    table.get? type = some (.ofPair pair.1 pair.2) := by
  induction written with
  | pushed table tag value place => rw [get?_push, if_pos place]
  | read done fits addressable length held listed =>
    rw [RoutingSection.rules_eq_of_read done fits addressable length held, get?_ofPairs, listed]
    rfl
  | kept tag value written ih =>
    rw [get?_push, if_neg (Nat.ne_of_lt (toNat_lt_of_get? ih)), ih]

/-! ### Tests -/

namespace Registry

variable {r r' r'' : Registry} {table : RuleTable} {types : List UInt32}

/-- Where a pair is registered does not matter for whether its id is in a set: what one registry
numbers the types of a road by and another gives the pair are the same id in every registry that has
grown from both. -/
lemma idOf?_mem_typesOf (known : r.Knows table types) (grown : r.Extends r'')
    (grown' : r'.Extends r'') {type : UInt32} (carried : type ∈ types) {rule : Rule}
    (found : table.get? type = some rule) {id : ℕ} (registered : r'.idOf? rule.pair = some id) :
    id ∈ r.typesOf table types := by
  obtain ⟨id', own⟩ := exists_idOf?_of_mem (known type carried rule found)
  obtain rfl : id' = id :=
    Option.some.inj ((grown.idOf?_eq own).symm.trans (grown'.idOf?_eq registered))
  exact mem_typesOf.mpr ⟨type, carried, rule, found, own⟩

end Registry

/-- An expression with one more test for a value asks for the type of the pair before its own
guards. -/
lemma TagTest.guardsHold_addTo {m : Type → Type} [Monad m] {t : TagTest}
    (named : ¬ t.value.isEmpty) (e : Expression) (before : Registry) (env : Environment m)
    {types : TypeSet} (isMember : (before.register (t.tag, t.value)).1 ∈ types) :
    ((t.addTo e).run before).1.guardsHold env types =
      if t.negated then pure false else e.guardsHold env types := by
  rw [run_addTo named]
  cases t.negated with
  | true =>
    have excluded := e.matchesTypes_excludeType (before.register (t.tag, t.value)).1
      env.registry types
    rw [decide_eq_true isMember, Bool.not_true, Bool.and_false] at excluded
    simp only [↓reduceIte, Expression.guardsHold, excluded, Bool.false_and, Bool.false_eq_true]
  | false =>
    have required := e.matchesTypes_requireType (before.register (t.tag, t.value)).1
      env.registry types
    rw [decide_eq_true isMember, Bool.and_true] at required
    simp only [Bool.false_eq_true, ↓reduceIte, Expression.guardsHold, required]

open Session

/-- An expression sees the pairs that a section was written with. A road of a known section has a
type that was written as a pair. Then it passes a test for the pair, with the value as the table
holds it, wherever and whenever the expression was built and whatever else is registered: one that
asks for the pair has no further guard by that, and one that must not have it is not passed. A value
is held as it was written unless it is `true` or `false` in some case. -/
theorem written_pair_is_seen {m : Type → Type} [Monad m] (profile : Profile) (registry : Registry)
    {ops : List Operation} {road : Road} {table : RuleTable}
    (bound : (History.of ops).table? road.sectionId = some table) {type : UInt32}
    (carried : type ∈ road.types) {tag value : String}
    (written : table.WrittenWith type (tag, value)) (named : value ≠ "") :
    let s := (start profile registry).performAll ops
    let asked := universalTypes road.sectionId road.types.toList
    (¬ Text.equalsIgnoringCase value "true" → ¬ Text.equalsIgnoringCase value "false" →
      Rule.normalize value = value) ∧
    ∃ types, (asked.run s).1 = some types ∧
      ∀ (e : Expression) (negated : Bool) (before : Registry) (env : Environment m),
        let built := (TagTest.addTo ⟨tag, Rule.normalize value, negated⟩ e).run before
        built.2.Extends env.registry → (s.after asked).registry.Extends env.registry →
          built.1.guardsHold env types = if negated then pure false else e.guardsHold env types := by
  intro s asked
  refine ⟨Rule.normalize_eq_self, ?_⟩
  have leads := (performAll_coherent profile registry ops).universalTypes_leads road.sectionId
    road.types.toList
  obtain ⟨knows, answer⟩ := leads.answer
  rw [bound] at answer
  refine ⟨_, answer, ?_⟩
  intro e negated before env built grown later
  have test : ¬ (TagTest.mk tag (Rule.normalize value) negated).value.isEmpty :=
    Rule.isEmpty_normalize named
  have registered := Registry.idOf?_register before (tag, Rule.normalize value)
  have ends : built.2 = (before.register (tag, Rule.normalize value)).2 :=
    congrArg Prod.snd (TagTest.run_addTo test e before)
  rw [ends] at grown
  exact TagTest.guardsHold_addTo test e before env
    (Registry.idOf?_mem_typesOf (knows table bound) later grown (Array.mem_toList_iff.mpr carried)
      written.get?_eq registered)

/-- A road of a section that says `false` of its toll: it passes a test for `no`, and does not pass a
test against it. -/
theorem written_pair_is_seen_toll :
    let table := ({} : RuleTable).push "toll" "false"
    let road : Road := { id := 1, sectionId := 3, types := #[0] }
    let s := (start { name := "car" } {}).performAll [.attach 3 table]
    let asked := universalTypes road.sectionId road.types.toList
    let env := Environment.fresh (s.after asked).registry s.parameter?
    ∃ types, (asked.run s).1 = some types ∧
      (((TagTest.addTo ⟨"toll", "no", false⟩ {}).run {}).1.guardsHold env types).run = true ∧
      (((TagTest.addTo ⟨"toll", "no", true⟩ {}).run {}).1.guardsHold env types).run = false := by
  intro table road s asked env
  have bound : (History.of [.attach 3 table]).table? road.sectionId = some table := rfl
  have carried : 0 ∈ road.types := by simp [road]
  have written : table.WrittenWith 0 ("toll", "false") := .pushed {} "toll" "false" rfl
  obtain ⟨-, types, answer, seen⟩ := written_pair_is_seen (m := Id) { name := "car" } {} bound
    carried written (by decide)
  have value : Rule.normalize "false" = "no" := by decide +kernel
  rw [value] at seen
  have registered : env.registry.pairs = [("toll", Rule.normalize "false")] := rfl
  have grown (negated : Bool) : ((TagTest.addTo ⟨"toll", "no", negated⟩ {}).run {}).2.pairs <+:
      env.registry.pairs := by
    rw [registered, value]
    decide +revert
  refine ⟨types, answer, ?_, ?_⟩
  · exact congrArg Id.run (seen {} false {} env (grown false) (.refl _))
  · exact congrArg Id.run (seen {} true {} env (grown true) (.refl _))

/-- A section that was written with `true` has `yes` in its table. Its road does not pass a test for
`true`. -/
theorem written_truth_is_unseen :
    let table := ({} : RuleTable).push "toll" "true"
    let built := (TagTest.addTo ⟨"toll", "true", false⟩ {}).run {}
    let s := (start { name := "car" } built.2).performAll [.attach 3 table]
    let asked := universalTypes 3 [0]
    table.WrittenWith 0 ("toll", "true") ∧
      ∃ types, (asked.run s).1 = some types ∧
        (built.1.guardsHold (.fresh (s.after asked).registry s.parameter?) types).run = false :=
  ⟨.pushed {} "toll" "true" rfl, _, rfl, by decide +kernel⟩

end RoadAtlas
