import RoadAtlas.Proofs.Config.Refinement

/-!
The pairs of a road in another order. A pair is registered when a road that has it is first asked
about, and of several values of a tag `$tag` stands for the one that was registered first.

* `ProfileText.number?_congr`: the order of the pairs shows in the numbers of tags alone;
* `Registry.seen` lists the pairs of some types as they were registered, and `Registry.Knows.lists`
  says that the first one of a tag has the lowest id;
* `Registry.Settles`: the number of a tag does not depend on what else is registered.
-/

namespace RoadAtlas

open Session

/-! ### Pairs in another order -/

namespace Situation

/-- The same parameters are set and the same pairs are there, in whatever order. -/
structure Rearranges (s s' : Situation) : Prop where
  parameter_eq : s.parameter = s'.parameter
  mem_iff : ∀ pair, pair ∈ s.pairs ↔ pair ∈ s'.pairs

variable {s s' : Situation}

namespace Rearranges

lemma hasTag_eq (like : s.Rearranges s') (tag : String) : s.hasTag tag = s'.hasTag tag := by
  rw [Bool.eq_iff_iff, hasTag, hasTag, List.any_eq_true, List.any_eq_true]
  simp only [like.mem_iff]

lemma contains_eq (like : s.Rearranges s') (pair : TagPair) :
    s.pairs.contains pair = s'.pairs.contains pair := by
  rw [Bool.eq_iff_iff, List.contains_iff_mem, List.contains_iff_mem]
  exact like.mem_iff pair

lemma parameterHolds_eq (like : s.Rearranges s') : s.parameterHolds = s'.parameterHolds := by
  have set : s.isSet = s'.isSet := by
    funext name
    rw [isSet, isSet, like.parameter_eq]
  funext text
  rw [parameterHolds, parameterHolds, set]

/-- An operand stands for the same, unless it is the value of a tag. -/
lemma operand?_eq (like : s.Rearranges s') {quantity : Quantity} {text : String}
    (tags : ∀ tag, text = "$" ++ tag → (s.pairs.lookup tag).bind quantity.value? =
      (s'.pairs.lookup tag).bind quantity.value?) :
    s.operand? quantity text = s'.operand? quantity text := by
  rw [operand?, operand?, like.parameter_eq]
  split
  next => rfl
  next tag shape =>
    refine tags _ (String.toList_inj.mp ?_)
    simp [shape]
  next => rfl

end Rearranges

end Situation

lemma TagTest.holdsIn_congr {s s' : Situation} (like : s.Rearranges s') (t : TagTest) :
    t.holdsIn s = t.holdsIn s' := by
  rw [holdsIn, holdsIn, like.hasTag_eq, like.contains_eq]

namespace ExpressionText

/-- The operands of an expression, with the quantity that each is read as. -/
def operands (t : ExpressionText) : List (Quantity × String) :=
  t.comparisons.flatMap (fun c => [(c.quantity, c.left), (c.quantity, c.right)]) ++
    [(t.quantity, t.result)]

/-- The number of an expression is the same when those of its operands are. -/
lemma number?_congr {s s' : Situation} (like : s.Rearranges s') {t : ExpressionText}
    (operands : ∀ o ∈ t.operands, s.operand? o.1 o.2 = s'.operand? o.1 o.2) :
    t.number? s = t.number? s' := by
  have tags : t.tags.all (·.holdsIn s) = t.tags.all (·.holdsIn s') :=
    congrArg _ (funext fun test => test.holdsIn_congr like)
  have comparisons : t.comparisons.all (·.holdsIn s) = t.comparisons.all (·.holdsIn s') := by
    rw [Bool.eq_iff_iff, List.all_eq_true, List.all_eq_true]
    refine forall₂_congr fun c hc => ?_
    have left := operands (c.quantity, c.left) (by simp only [ExpressionText.operands]; grind)
    have right := operands (c.quantity, c.right) (by simp only [ExpressionText.operands]; grind)
    rw [NumberTest.holdsIn, NumberTest.holdsIn, left, right]
  have result := operands (t.quantity, t.result) (by simp [ExpressionText.operands])
  rw [number?, number?, holdsIn, holdsIn, tags, comparisons, like.parameterHolds_eq, result]

end ExpressionText

/-- The order of a road's pairs shows in the numbers of tags alone. -/
lemma ProfileText.number?_congr {s s' : Situation} (like : s.Rearranges s') {t : ProfileText}
    {kind : RulesetKind}
    (tags : ∀ e ∈ t.expressions kind, ∀ quantity tag, (quantity, "$" ++ tag) ∈ e.operands →
      (s.pairs.lookup tag).bind quantity.value? = (s'.pairs.lookup tag).bind quantity.value?) :
    t.number? kind s = t.number? kind s' := by
  have same : ∀ e ∈ t.expressions kind, e.number? s = e.number? s' := by
    refine fun e he => ExpressionText.number?_congr like ?_
    rintro ⟨quantity, text⟩ listed
    refine like.operand?_eq fun tag shape => tags e he quantity tag ?_
    rwa [← shape]
  rw [number?, number?, ← List.head?_filterMap, ← List.head?_filterMap, List.filterMap_congr same]

/-! ### Pairs in the order of registration -/

namespace Registry

variable {r r' r'' : Registry} {table : RuleTable} {types : List UInt32}

/-- The pairs that a table gives some types, in the order in which they were registered. -/
def seen (r : Registry) (table : RuleTable) (types : List UInt32) : List TagPair :=
  r.pairs.filter (table.pairsOf types).contains

lemma Knows.mem_seen (known : r.Knows table types) {pair : TagPair} :
    pair ∈ r.seen table types ↔ pair ∈ table.pairsOf types := by
  rw [seen, List.mem_filter, List.contains_iff_mem, and_iff_right_iff_imp]
  intro hpair
  obtain ⟨type, ht, rule, hrule, rfl⟩ := mem_pairsOf.mp hpair
  exact known type ht rule hrule

lemma Knows.describes_seen (known : r.Knows table types) :
    r.Describes (r.typesOf table types) (r.seen table types) :=
  known.describes fun _ => known.mem_seen

/-- In front of the lowest id with a tag, no pair of the types has the tag. -/
lemma Knows.lookup_take (known : r.Knows table types) {tag : String} {id : ℕ}
    (found : r.firstWithTag? tag (r.typesOf table types) = some id) :
    ((r.pairs.take id).filter (table.pairsOf types).contains).lookup tag = none := by
  rw [lookup_eq_none_iff]
  intro value listed
  obtain ⟨before, kept⟩ := List.mem_filter.mp listed
  obtain ⟨id', below, own⟩ := List.mem_take_iff_getElem.mp before
  have pair : r.pair? id' = some (tag, value) := List.getElem?_eq_some_iff.mpr ⟨by omega, own⟩
  have hpair : (tag, value) ∈ r.seen table types := known.mem_seen.mpr (by simpa using kept)
  obtain ⟨hid', tagged⟩ := known.describes_seen.exists_isTagged_iff.mpr ⟨value, hpair, pair⟩
  have least := le_of_firstWithTag? found hid' tagged
  omega

/-- Of the pairs with one tag, the one with the lowest id comes first. -/
lemma Knows.lists (known : r.Knows table types) :
    r.Lists (r.typesOf table types) (r.seen table types) where
  toDescribes := known.describes_seen
  first tag id found := by
    have hid : id ∈ r.typesOf table types := mem_of_firstWithTag? found
    have tagged := isTagged_of_firstWithTag? found
    obtain ⟨value, hpair, own⟩ := known.describes_seen.exists_isTagged_iff.mp ⟨hid, tagged⟩
    refine ⟨value, own, ?_⟩
    obtain ⟨inside, pair⟩ := List.getElem?_eq_some_iff.mp own
    have split : r.pairs = r.pairs.take id ++ (tag, value) :: r.pairs.drop (id + 1) := by
      rw [← pair, ← List.drop_eq_getElem_cons inside, List.take_append_drop]
    have kept : (table.pairsOf types).contains (tag, value) = true :=
      List.contains_iff_mem.mpr (known.mem_seen.mp hpair)
    rw [seen, split, List.filter_append, List.lookup_append, known.lookup_take found,
      List.filter_cons, if_pos kept, Option.none_or, List.lookup_cons_self]

lemma Extends.exists_seen_eq (grown : r.Extends r') (table : RuleTable) (types : List UInt32) :
    ∃ more, r'.seen table types = r.seen table types ++ more := by
  obtain ⟨more, whole⟩ := grown
  exact ⟨_, by rw [seen, seen, ← whole, List.filter_append]⟩

/-- The number that `$tag` stands for does not depend on what else will be registered: a value of
the tag is registered already, or all its values denote the same. -/
def Settles (r : Registry) (pairs : List TagPair) (quantity : Quantity) (tag : String) : Prop :=
  (∃ value, (tag, value) ∈ pairs ∧ (tag, value) ∈ r.pairs) ∨
    ∀ value value', (tag, value) ∈ pairs → (tag, value') ∈ pairs →
      quantity.value? value = quantity.value? value'

/-- The number of a settled tag is the same in all registries that have grown from there. -/
lemma Settles.value_eq {quantity : Quantity} {tag : String}
    (settles : r.Settles (table.pairsOf types) quantity tag) (grown : r.Extends r')
    (grown' : r.Extends r'') (known : r'.Knows table types) (known' : r''.Knows table types) :
    ((r'.seen table types).lookup tag).bind quantity.value? =
      ((r''.seen table types).lookup tag).bind quantity.value? := by
  rcases settles with ⟨value, hpair, registered⟩ | same
  · -- what is registered already is found in front of everything else
    have listed : (tag, value) ∈ r.seen table types :=
      List.mem_filter.mpr ⟨registered, List.contains_iff_mem.mpr hpair⟩
    obtain ⟨first, hfirst⟩ := exists_lookup listed
    obtain ⟨more, whole⟩ := grown.exists_seen_eq table types
    obtain ⟨more', whole'⟩ := grown'.exists_seen_eq table types
    rw [whole, whole', List.lookup_append, List.lookup_append, hfirst, Option.some_or,
      Option.some_or]
  · cases found : (r'.seen table types).lookup tag with
    | none =>
      have absent : (r''.seen table types).lookup tag = none := by
        rw [lookup_eq_none_iff] at found ⊢
        simpa only [known.mem_seen, known'.mem_seen] using found
      rw [absent]
    | some value =>
      have hpair := known.mem_seen.mp (mem_of_lookup found)
      obtain ⟨value', found'⟩ := exists_lookup (known'.mem_seen.mpr hpair)
      have hpair' := known'.mem_seen.mp (mem_of_lookup found')
      rw [found', Option.bind_some, Option.bind_some, same value value' hpair hpair']

end Registry

end RoadAtlas
