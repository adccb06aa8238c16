import RoadAtlas.Profile.TypeSet
import RoadAtlas.SortedMap

/-!
The registry gives every `(tag, value)` pair a universal id: its place in the order of first sight.
Sections number their rules each on its own, and profiles are written against universal ids, so the
registry is where the two meet. Pairs are never renumbered or removed.

The pairs are kept twice: as a list, in which a pair is found by its id, and in an index by tag,
in which an id is found by its pair and the ids of a tag are found together. That both say the same
is `TagIndex.Lists`, which every registry comes with.

* `register` finds the id of a pair or gives it the next one; `idOf?` and `pair?` look up either way;
* `hasTag` and `firstWithTag?` ask for the ids of one tag in a set.
-/

namespace RoadAtlas

/-- A tag and its value. -/
abbrev TagPair := String × String

/-! ### The index by tag -/

/-- What is kept about one tag. -/
structure TagEntry where
  /-- The id of each value. -/
  values : SortedMap String Nat := ∅
  /-- The ids of all values. -/
  mask : TypeSet := ∅

/-- What is kept about each tag. -/
structure TagIndex where
  entries : SortedMap String TagEntry := ∅

namespace TagIndex

/-- The id of a pair. -/
def idOf? (index : TagIndex) (pair : TagPair) : Option Nat :=
  (index.entries.get? pair.1).bind fun entry => entry.values.get? pair.2

/-- The ids of a tag, whatever its value. -/
def mask (index : TagIndex) (tag : String) : TypeSet :=
  match index.entries.get? tag with
  | some entry => entry.mask
  | none => ∅

/-- The index with a pair under an id. -/
def insert (index : TagIndex) (pair : TagPair) (id : Nat) : TagIndex where
  entries := index.entries.alter pair.1 fun known =>
    let entry := known.getD {}
    { values := entry.values.insert pair.2 id, mask := entry.mask.insert id }

theorem idOf?_insert (index : TagIndex) (pair : TagPair) (id : Nat) (other : TagPair) :
    (index.insert pair id).idOf? other = if other = pair then some id else index.idOf? other := by
  obtain ⟨tag, value⟩ := pair
  obtain ⟨tag', value'⟩ := other
  rw [idOf?, insert, SortedMap.alter, SortedMap.get?_insert]
  by_cases sameTag : tag' = tag
  · subst sameTag
    simp only [↓reduceIte, Option.bind_some, SortedMap.get?_insert, Prod.mk.injEq, true_and, idOf?]
    split
    · rfl
    · cases index.entries.get? tag' <;> rfl
  · simp [sameTag, idOf?]

theorem mem_mask_insert (index : TagIndex) (pair : TagPair) (id : Nat) (tag : String) (j : Nat) :
    j ∈ (index.insert pair id).mask tag ↔ (tag = pair.1 ∧ j = id) ∨ j ∈ index.mask tag := by
  rw [mask, mask, insert, SortedMap.alter, SortedMap.get?_insert]
  by_cases sameTag : tag = pair.1
  · subst sameTag
    simp only [↓reduceIte, TypeSet.mem_insert, true_and]
    cases index.entries.get? pair.1 <;> rfl
  · simp [sameTag]

/-- The index says the same as a list in which the pairs stand in the order of their ids. -/
structure Lists (index : TagIndex) (pairs : List TagPair) : Prop where
  idOf?_iff : ∀ pair id, index.idOf? pair = some id ↔ pairs[id]? = some pair
  mem_mask_iff : ∀ tag id, id ∈ index.mask tag ↔ ∃ value, pairs[id]? = some (tag, value)

theorem lists_empty : Lists {} [] where
  idOf?_iff _ _ := ⟨nofun, nofun⟩
  mem_mask_iff _ _ := ⟨nofun, nofun⟩

/-- A new pair goes to the end of the list and into the index under its place there. -/
theorem Lists.insert {index : TagIndex} {pairs : List TagPair} (lists : index.Lists pairs)
    {pair : TagPair} (new : index.idOf? pair = none) :
    (index.insert pair pairs.length).Lists (pairs ++ [pair]) where
  idOf?_iff other id := by
    rw [idOf?_insert, List.getElem?_append]
    by_cases same : other = pair
    · subst same
      have absent : ¬ pairs[id]? = some other := by
        rw [← lists.idOf?_iff, new]
        nofun
      grind
    · have known := lists.idOf?_iff other id
      grind
  mem_mask_iff tag id := by
    rw [mem_mask_insert, lists.mem_mask_iff, List.getElem?_append]
    obtain ⟨tag', value'⟩ := pair
    grind

end TagIndex

/-! ### Registries -/

/-- The pairs seen so far, each once; the id of a pair is its place. -/
structure Registry where
  pairs : List TagPair := []
  index : TagIndex := {}
  lists : index.Lists pairs := by exact TagIndex.lists_empty

namespace Registry

instance : Inhabited Registry := ⟨{}⟩

/-- The number of pairs. -/
def size (r : Registry) : Nat := r.pairs.length

/-- The id of a pair. -/
def idOf? (r : Registry) (pair : TagPair) : Option Nat := r.index.idOf? pair

/-- The pair of an id. -/
def pair? (r : Registry) (id : Nat) : Option TagPair := r.pairs[id]?

/-- The registry with a pair, at its end unless it is there already. -/
def add (r : Registry) (pair : TagPair) : Registry :=
  match new : r.idOf? pair with
  | some _ => r
  | none => ⟨r.pairs ++ [pair], r.index.insert pair r.size, r.lists.insert new⟩

/-- The id of a pair, which is registered now if it was not before. -/
def register (r : Registry) (pair : TagPair) : Nat × Registry :=
  match r.idOf? pair with
  | some id => (id, r)
  | none => (r.size, r.add pair)

theorem add_of_idOf?_eq_some {r : Registry} {pair : TagPair} {id : Nat}
    (known : r.idOf? pair = some id) : r.add pair = r := by
  rw [add]
  split
  · rfl
  next new => simp [known] at new

theorem pairs_add_of_idOf?_eq_none {r : Registry} {pair : TagPair} (new : r.idOf? pair = none) :
    (r.add pair).pairs = r.pairs ++ [pair] := by
  rw [add]
  split
  next known => simp [new] at known
  next => rfl

/-- Finding the id of a pair leaves the registry with the pair in it. -/
theorem snd_register (r : Registry) (pair : TagPair) : (r.register pair).2 = r.add pair := by
  rw [register]
  split
  next id known => exact (add_of_idOf?_eq_some known).symm
  next => rfl

/-- The pair of an id has the tag. -/
def isTagged (r : Registry) (tag : String) (id : Nat) : Bool :=
  (r.pair? id).any fun pair => pair.1 == tag

/-- The ids of a tag, whatever its value. -/
def idsOfTag (r : Registry) (tag : String) : List Nat := (r.index.mask tag).toList

/-- Some id of the set has the tag. -/
def hasTag (r : Registry) (tag : String) (types : TypeSet) : Bool :=
  !(r.index.mask tag).isDisjoint types

/-- The lowest id of the set that has the tag. -/
def firstWithTag? (r : Registry) (tag : String) (types : TypeSet) : Option Nat :=
  types.least? fun id => id ∈ r.index.mask tag

end Registry

end RoadAtlas
