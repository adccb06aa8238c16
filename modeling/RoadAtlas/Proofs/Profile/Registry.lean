import Mathlib.Data.List.Sort
import RoadAtlas.Profile.Registry

/-!
Registries that grow. A pair keeps the id it was given, so whatever was found out about registered
ids stays true while further pairs are registered.

* `Registry.idOf?_eq_some_iff`: ids and pairs belong to each other one to one;
* `Registry.mem_mask_iff`: the mask of a tag holds the ids of its pairs;
* `Registry.Extends`: all pairs are still there, under their ids;
* `TypeSet.ext_mem`: sets of ids are told apart by their members.
-/

namespace RoadAtlas

namespace Registry

variable {r r' r'' : Registry} {pair : TagPair} {id : ℕ} {tag : String} {types : TypeSet}

/-- A pair has the id under which it is found. -/
lemma idOf?_eq_some_iff : r.idOf? pair = some id ↔ r.pair? id = some pair :=
  r.lists.idOf?_iff pair id

lemma idOf?_eq_none_iff : r.idOf? pair = none ↔ pair ∉ r.pairs := by
  rw [Option.eq_none_iff_forall_ne_some, List.mem_iff_getElem?, not_exists]
  exact forall_congr' fun id => not_congr idOf?_eq_some_iff

lemma exists_idOf?_of_mem (h : pair ∈ r.pairs) : ∃ id, r.idOf? pair = some id := by
  obtain ⟨id, found⟩ := List.mem_iff_getElem?.mp h
  exact ⟨id, idOf?_eq_some_iff.mpr found⟩

/-- No pair has two ids. -/
lemma nodup_pairs (r : Registry) : r.pairs.Nodup := by
  rw [List.nodup_iff_getElem?_ne_getElem?]
  intro i j less inside same
  have own : r.pair? j = some r.pairs[j] := List.getElem?_eq_getElem inside
  have other : r.pair? i = some r.pairs[j] := same.trans own
  have twice := (idOf?_eq_some_iff.mpr other).symm.trans (idOf?_eq_some_iff.mpr own)
  exact absurd (Option.some.inj twice) (Nat.ne_of_lt less)

lemma mem_of_idOf?_eq (h : r.idOf? pair = some id) : pair ∈ r.pairs :=
  List.mem_of_getElem? (idOf?_eq_some_iff.mp h)

/-! ### Ids of a tag -/

lemma mem_mask_iff : id ∈ r.index.mask tag ↔ ∃ value, r.pair? id = some (tag, value) :=
  r.lists.mem_mask_iff tag id

lemma isTagged_iff : r.isTagged tag id = true ↔ ∃ value, r.pair? id = some (tag, value) := by
  rw [isTagged, Option.any_eq_true]
  constructor
  · rintro ⟨⟨tag', value⟩, found, same⟩
    obtain rfl : tag' = tag := beq_iff_eq.mp same
    exact ⟨value, found⟩
  · rintro ⟨value, found⟩
    exact ⟨_, found, beq_self_eq_true tag⟩

/-- The mask of a tag tells which ids have the tag. -/
lemma decide_mem_mask (r : Registry) (tag : String) :
    (fun id => decide (id ∈ r.index.mask tag)) = r.isTagged tag := by
  funext id
  rw [Bool.eq_iff_iff, decide_eq_true_eq, mem_mask_iff, isTagged_iff]

lemma hasTag_eq_any (r : Registry) (tag : String) (types : TypeSet) :
    r.hasTag tag types = types.toList.any (r.isTagged tag) := by
  rw [Bool.eq_iff_iff, hasTag, Bool.not_eq_true', ← Bool.not_eq_true, TypeSet.isDisjoint_iff,
    List.any_eq_true, ← r.decide_mem_mask tag]
  simp only [not_forall, not_not, decide_eq_true_eq]
  exact exists_congr fun id => by rw [exists_prop, and_comm]; rfl

lemma firstWithTag?_eq_find? (r : Registry) (tag : String) (types : TypeSet) :
    r.firstWithTag? tag types = types.toList.find? (r.isTagged tag) := by
  rw [firstWithTag?, r.decide_mem_mask tag]
  rfl

/-- The id that is found is one of the set. -/
lemma mem_of_firstWithTag? (h : r.firstWithTag? tag types = some id) : id ∈ types :=
  List.mem_of_find?_eq_some h

/-- The id that is found has the tag. -/
lemma isTagged_of_firstWithTag? (h : r.firstWithTag? tag types = some id) :
    r.isTagged tag id = true := by
  rw [firstWithTag?_eq_find?] at h
  exact List.find?_some h

/-- The id that is found is the lowest one with the tag. -/
lemma le_of_firstWithTag? {id' : ℕ} (found : r.firstWithTag? tag types = some id)
    (member : id' ∈ types) (tagged : r.isTagged tag id') : id ≤ id' := by
  rw [firstWithTag?_eq_find?] at found
  obtain ⟨-, before, behind, ids, untagged⟩ := List.find?_eq_some_iff_append.mp found
  have ascending := types.ascending
  rw [TypeSet.toList] at ids
  rw [ids, List.pairwise_append, List.pairwise_cons] at ascending
  have member : id' ∈ types.ids := member
  rw [ids, List.mem_append, List.mem_cons] at member
  rcases member with earlier | rfl | later
  · simpa [tagged] using untagged id' earlier
  · exact Nat.le_refl _
  · exact Nat.le_of_lt (ascending.2.1.1 id' later)

/-! ### Growth -/

/-- Every pair of `r` has its id in `r'` too. -/
def Extends (r r' : Registry) : Prop := r.pairs <+: r'.pairs

lemma Extends.refl (r : Registry) : r.Extends r := List.prefix_refl _

lemma Extends.trans (h : r.Extends r') (h' : r'.Extends r'') : r.Extends r'' :=
  List.IsPrefix.trans h h'

lemma extends_add (r : Registry) (pair : TagPair) : r.Extends (r.add pair) := by
  rw [Extends]
  cases found : r.idOf? pair with
  | some id =>
    simp only [add_of_idOf?_eq_some found, List.prefix_rfl]
  | none =>
    rw [pairs_add_of_idOf?_eq_none found]
    exact List.prefix_append _ _

lemma Extends.mem (h : r.Extends r') (known : pair ∈ r.pairs) : pair ∈ r'.pairs :=
  h.subset known

lemma Extends.pair?_eq (h : r.Extends r') (found : r.pair? id = some pair) :
    r'.pair? id = some pair := by
  obtain ⟨more, whole⟩ := h
  rw [pair?] at found ⊢
  rw [← whole, List.getElem?_append_left (List.getElem?_eq_some_iff.mp found).1]
  exact found

/-- An id that is registered goes on to stand for its pair. -/
lemma Extends.pair?_eq_of_ne_none (h : r.Extends r') (registered : r.pair? id ≠ none) :
    r'.pair? id = r.pair? id := by
  obtain ⟨pair, found⟩ := Option.ne_none_iff_exists'.mp registered
  rw [found, h.pair?_eq found]

lemma Extends.pair?_ne_none (h : r.Extends r') (registered : r.pair? id ≠ none) :
    r'.pair? id ≠ none := by
  rwa [h.pair?_eq_of_ne_none registered]

lemma Extends.idOf?_eq (h : r.Extends r') (found : r.idOf? pair = some id) :
    r'.idOf? pair = some id :=
  idOf?_eq_some_iff.mpr (h.pair?_eq (idOf?_eq_some_iff.mp found))

/-- A pair that is registered has the id that registering it answers. -/
lemma idOf?_register (r : Registry) (pair : TagPair) :
    (r.register pair).2.idOf? pair = some (r.register pair).1 := by
  cases found : r.idOf? pair with
  | some id => simp [register, found]
  | none =>
    rw [register, found]
    simp [idOf?_eq_some_iff, pair?, pairs_add_of_idOf?_eq_none found, size]

lemma extends_register (r : Registry) (pair : TagPair) : r.Extends (r.register pair).2 := by
  rw [snd_register]
  exact extends_add r pair

/-- The tag of a registered id stays what it is. -/
lemma Extends.isTagged_eq (h : r.Extends r') (found : r.pair? id = some pair) (tag : String) :
    r'.isTagged tag id = r.isTagged tag id := by
  rw [isTagged, isTagged, found, h.pair?_eq found]

end Registry

/-! ### Sets of ids -/

namespace TypeSet

/-- Sets with the same members are the same. -/
lemma ext_mem {s t : TypeSet} (h : ∀ id, id ∈ s ↔ id ∈ t) : s = t := by
  obtain ⟨ids, up⟩ := s
  obtain ⟨ids', up'⟩ := t
  obtain rfl : ids = ids' := up.eq_of_mem_iff up' h
  rfl

end TypeSet

end RoadAtlas
