import Mathlib.Data.Finset.Card
import Mathlib.Data.List.TakeWhile
import Mathlib.Order.Bounds.Basic
import RoadAtlas.Proofs.Profile.Registry

/-!
The numbers that a registry gives when pairs are registered one after another. A new pair gets the
number of different pairs before it, and every pair keeps its number. The list of pairs and the
index by tag are changed side by side, so whatever is asked of the index can be told from the
list, and what the list holds can be told from the calls.

* `Registry.registerAll`: the registry behind some calls;
* `seenBefore`: the number that a pair gets by its first call;
* `Registry.Counts`: the registry holds the pairs of the calls under these numbers, which is what
  `Counts.register` preserves;
* `Registry.numbers_registerAll`: what all look-ups answer behind any calls.
-/

namespace RoadAtlas

/-! ### First calls -/

/-- How many different pairs come before the first call for a pair. -/
def seenBefore (calls : List TagPair) (pair : TagPair) : ℕ :=
  (calls.takeWhile (· != pair)).toFinset.card

/-- Only what comes before the first call counts. -/
lemma seenBefore_append_of_mem {calls : List TagPair} {pair : TagPair} (h : pair ∈ calls)
    (later : List TagPair) : seenBefore (calls ++ later) pair = seenBefore calls pair := by
  have stops : (calls.takeWhile (· != pair)).length ≠ calls.length := by
    intro whole
    have all := List.takeWhile_eq_self_iff.mp ((List.takeWhile_prefix _).eq_of_length whole)
    simpa using all pair h
  rw [seenBefore, List.takeWhile_append, if_neg stops, seenBefore]

/-- All calls come before the first one for a pair that is new. -/
lemma seenBefore_of_notMem {calls : List TagPair} {pair : TagPair} (h : pair ∉ calls) :
    seenBefore calls pair = calls.toFinset.card := by
  have all : calls.takeWhile (· != pair) = calls :=
    List.takeWhile_eq_self_iff.mpr fun other hother =>
      bne_iff_ne.mpr fun same => h (same ▸ hother)
  rw [seenBefore, all]

/-- The call for a new pair is the first one for it. -/
lemma seenBefore_append_self {calls : List TagPair} {pair : TagPair} (h : pair ∉ calls) :
    seenBefore (calls ++ [pair]) pair = calls.toFinset.card := by
  have before : ∀ other ∈ calls, (other != pair) = true := fun other hother =>
    bne_iff_ne.mpr fun same => h (same ▸ hother)
  rw [seenBefore, List.takeWhile_append_of_pos before, List.takeWhile_cons]
  simp

namespace Registry

variable {r : Registry} {calls : List TagPair} {pair : TagPair} {id : ℕ} {tag : String}
  {types : TypeSet}

/-! ### One call and many -/

/-- The registry behind some calls. -/
def registerAll (r : Registry) (calls : List TagPair) : Registry :=
  calls.foldl (fun r pair => (r.register pair).2) r

lemma registerAll_append (r : Registry) (calls later : List TagPair) :
    r.registerAll (calls ++ later) = (r.registerAll calls).registerAll later :=
  List.foldl_append

lemma extends_registerAll (r : Registry) (calls : List TagPair) :
    r.Extends (r.registerAll calls) := by
  induction calls generalizing r with
  | nil => exact .refl r
  | cons pair rest ih => exact (extends_register r pair).trans (ih _)

lemma register_of_idOf?_eq_some (known : r.idOf? pair = some id) : r.register pair = (id, r) := by
  rw [register, known]

/-- The registry holds the pairs of the calls, each under its number. -/
structure Counts (r : Registry) (calls : List TagPair) : Prop where
  mem_iff : ∀ pair, pair ∈ r.pairs ↔ pair ∈ calls
  idOf?_eq : ∀ pair ∈ calls, r.idOf? pair = some (seenBefore calls pair)

namespace Counts

lemma nothing : Counts default [] where
  mem_iff _ := Iff.rfl
  idOf?_eq _ none := nomatch none

lemma idOf?_eq_none (counts : r.Counts calls) (new : pair ∉ calls) : r.idOf? pair = none := by
  rw [idOf?_eq_none_iff, counts.mem_iff]
  exact new

/-- There are as many ids as different pairs. -/
lemma size_eq (counts : r.Counts calls) : r.size = calls.toFinset.card := by
  have same : r.pairs.toFinset = calls.toFinset := by
    ext pair
    rw [List.mem_toFinset, List.mem_toFinset, counts.mem_iff]
  rw [size, ← List.toFinset_card_of_nodup r.nodup_pairs, same]

/-- A call answers with the number of different pairs before the first call for its pair. -/
lemma fst_register (counts : r.Counts calls) (pair : TagPair) :
    (r.register pair).1 = seenBefore calls pair := by
  by_cases known : pair ∈ calls
  · rw [register_of_idOf?_eq_some (counts.idOf?_eq pair known)]
  · rw [register, counts.idOf?_eq_none known, seenBefore_of_notMem known, counts.size_eq]

/-- A call keeps all numbers and, for a new pair, adds the next one. -/
lemma register (counts : r.Counts calls) (pair : TagPair) :
    Counts (r.register pair).2 (calls ++ [pair]) := by
  have grown := extends_register r pair
  constructor
  case mem_iff =>
    intro other
    rw [List.mem_append, List.mem_singleton, ← counts.mem_iff, snd_register]
    cases found : r.idOf? pair with
    | some id =>
      have inside := mem_of_idOf?_eq found
      rw [add_of_idOf?_eq_some found]
      grind
    | none => rw [pairs_add_of_idOf?_eq_none found, List.mem_append, List.mem_singleton]
  case idOf?_eq =>
    intro other hother
    by_cases before : other ∈ calls
    · rw [seenBefore_append_of_mem before]
      exact grown.idOf?_eq (counts.idOf?_eq other before)
    · obtain rfl : other = pair :=
        List.mem_singleton.mp ((List.mem_append.mp hother).resolve_left before)
      rw [seenBefore_append_self before, idOf?_register, counts.fst_register,
        seenBefore_of_notMem before]

/-- Behind any calls the registry holds their pairs under their numbers. -/
lemma registerAll (calls : List TagPair) : Counts (registerAll default calls) calls := by
  induction calls using List.reverseRecOn with
  | nil => exact nothing
  | append_singleton calls pair ih =>
    rw [registerAll_append]
    exact ih.register pair

end Counts

/-! ### Look-ups -/

lemma exists_pair?_iff : (∃ pair, r.pair? id = some pair) ↔ id < r.size := by
  rw [pair?, size, ← Option.isSome_iff_exists]
  simp

/-- The ids of a set that belong to pairs with a tag. -/
def taggedIn (r : Registry) (tag : String) (types : TypeSet) : Set ℕ :=
  {id | id ∈ types ∧ ∃ value, r.pair? id = some (tag, value)}

lemma mem_taggedIn_iff : id ∈ r.taggedIn tag types ↔ id ∈ types ∧ r.isTagged tag id = true :=
  and_congr_right fun _ => isTagged_iff.symm

lemma hasTag_iff : r.hasTag tag types = true ↔ (r.taggedIn tag types).Nonempty := by
  rw [hasTag_eq_any, List.any_eq_true]
  exact exists_congr fun id => mem_taggedIn_iff.symm

lemma firstWithTag?_eq_none_iff :
    r.firstWithTag? tag types = none ↔ r.taggedIn tag types = ∅ := by
  rw [firstWithTag?_eq_find?, List.find?_eq_none, Set.eq_empty_iff_forall_notMem]
  exact forall_congr' fun id => by rw [mem_taggedIn_iff, not_and]; rfl

lemma isLeast_of_firstWithTag? (found : r.firstWithTag? tag types = some id) :
    IsLeast (r.taggedIn tag types) id where
  left := mem_taggedIn_iff.mpr ⟨mem_of_firstWithTag? found, isTagged_of_firstWithTag? found⟩
  right id' h := by
    obtain ⟨member, tagged⟩ := mem_taggedIn_iff.mp h
    exact le_of_firstWithTag? found member tagged

lemma firstWithTag?_eq_some_iff :
    r.firstWithTag? tag types = some id ↔ IsLeast (r.taggedIn tag types) id := by
  refine ⟨isLeast_of_firstWithTag?, fun least => ?_⟩
  cases found : r.firstWithTag? tag types with
  | none =>
    have inside := least.1
    rw [firstWithTag?_eq_none_iff.mp found] at inside
    exact inside.elim
  | some id' => rw [(isLeast_of_firstWithTag? found).unique least]

/-! ### All calls -/

/-- What the look-ups of a registry answer that was empty before some calls. -/
structure Numbers (r : Registry) (calls : List TagPair) : Prop where
  /-- There are as many ids as different pairs. -/
  size_eq : r.size = calls.toFinset.card
  /-- The ids are dense. -/
  exists_pair?_iff : ∀ id, (∃ pair, r.pair? id = some pair) ↔ id < r.size
  /-- Ids are given in the order of first calls. -/
  idOf?_eq_some : ∀ pair ∈ calls, r.idOf? pair = some (seenBefore calls pair)
  idOf?_eq_none : ∀ pair ∉ calls, r.idOf? pair = none
  /-- The next call, for whatever pair, answers with its place in this order. -/
  fst_register : ∀ pair, (r.register pair).1 = seenBefore calls pair
  /-- A pair keeps its id. -/
  kept : ∀ pair id, r.idOf? pair = some id → ∀ later, (r.registerAll later).idOf? pair = some id ∧
    (r.registerAll later).register pair = (id, r.registerAll later)
  idOf?_eq_some_iff : ∀ tag value id,
    r.idOf? (tag, value) = some id ↔ r.pair? id = some (tag, value)
  mem_idsOfTag_iff : ∀ tag id, id ∈ r.idsOfTag tag ↔ ∃ value, r.pair? id = some (tag, value)
  hasTag_iff : ∀ tag types, r.hasTag tag types = true ↔ (r.taggedIn tag types).Nonempty
  firstWithTag?_eq_some_iff : ∀ tag types id,
    r.firstWithTag? tag types = some id ↔ IsLeast (r.taggedIn tag types) id
  firstWithTag?_eq_none_iff : ∀ tag types,
    r.firstWithTag? tag types = none ↔ r.taggedIn tag types = ∅

/-- Behind any calls, and so behind every prefix of a sequence of calls, pairs have dense ids in the
order of their first calls, which they keep, and the look-ups by pair, by id and by tag agree. -/
theorem numbers_registerAll (calls : List TagPair) :
    Numbers (registerAll default calls) calls := by
  have counts := Counts.registerAll calls
  constructor
  case size_eq => exact counts.size_eq
  case exists_pair?_iff => exact fun id => exists_pair?_iff
  case idOf?_eq_some => exact counts.idOf?_eq
  case idOf?_eq_none => exact fun pair new => counts.idOf?_eq_none new
  case fst_register => exact counts.fst_register
  case kept =>
    intro pair id known later
    have still := (extends_registerAll _ later).idOf?_eq known
    exact ⟨still, register_of_idOf?_eq_some still⟩
  case idOf?_eq_some_iff => exact fun tag value id => idOf?_eq_some_iff
  case mem_idsOfTag_iff => exact fun tag id => mem_mask_iff
  case hasTag_iff => exact fun tag types => hasTag_iff
  case firstWithTag?_eq_some_iff => exact fun tag types id => firstWithTag?_eq_some_iff
  case firstWithTag?_eq_none_iff => exact fun tag types => firstWithTag?_eq_none_iff

end Registry

end RoadAtlas
