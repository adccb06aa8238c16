import Mathlib.Data.List.Basic
import RoadAtlas.SortedMap

/-!
Look-ups in maps that were filled entry by entry. What a map holds under a key is the entry that
its list of entries holds, and filling a map from a list leaves under each key what the list says
about that key: the last entry, or all entries joined, depending on how they were put in.

* `get?_eq_lookup` reads a map as its list of entries;
* `get?_ofList`: insertion keeps the last entry of each key;
* `getD_foldl_alter`: joining keeps all entries of each key, in order;
* `length_foldl_insert_le`: no more entries than insertions;
* `toList_mapKeys`: renaming keys in their order renames the entries one by one.
-/

namespace RoadAtlas

namespace SortedMap

variable {κ ν μ : Type} [Ord κ] [Std.LawfulEqOrd κ] [DecidableEq κ] [BEq κ] [LawfulBEq κ]

lemma find?_eq_lookup (es : List (κ × ν)) (k : κ) :
    (es.find? fun e => compare k e.1 == .eq).map Prod.snd = es.lookup k := by
  induction es with
  | nil => rfl
  | cons e rest ih =>
    rw [find?_cons, ih, List.lookup_cons]
    by_cases h : k = e.1
    · simp [h]
    · simp [h, beq_false_of_ne h]

lemma get?_eq_lookup (m : SortedMap κ ν) (k : κ) : m.get? k = m.toList.lookup k :=
  find?_eq_lookup m.entries k

omit [Std.LawfulEqOrd κ] [DecidableEq κ] [BEq κ] [LawfulBEq κ] in
lemma nodup_keys [Std.ReflCmp (compare : κ → κ → Ordering)] (m : SortedMap κ ν) :
    m.toList.Pairwise fun a b => a.1 ≠ b.1 := by
  refine m.ascending.imp fun {a b} h same => ?_
  have equal : compare b.1 b.1 = .eq := Std.ReflCmp.compare_self
  rw [same, equal] at h
  exact absurd h (by decide)

variable [Std.TransOrd κ]

/-- Insertion keeps the last entry of each key. -/
lemma get?_foldl_insert (es : List (κ × ν)) (m : SortedMap κ ν) (k : κ) :
    (es.foldl (fun m e => m.insert e.1 e.2) m).get? k = (es.reverse.lookup k).or (m.get? k) := by
  induction es generalizing m with
  | nil => simp
  | cons e rest ih =>
    rw [List.foldl_cons, ih, get?_insert, List.reverse_cons, List.lookup_append, Option.or_assoc,
      List.lookup_cons, List.lookup_nil]
    congr 1
    by_cases h : k = e.1
    · simp [h]
    · simp [h, beq_false_of_ne h]

lemma get?_ofList (es : List (κ × ν)) (k : κ) :
    (ofList es).get? k = es.reverse.lookup k := by
  rw [ofList, get?_foldl_insert, get?_empty, Option.or_none]

omit [BEq κ] [LawfulBEq κ] in
/-- What is found after some insertions was there before or is one of them. -/
lemma exists_of_get?_foldl_insert {α : Type} {key : α → κ} {value : α → ν} {items : List α}
    {m : SortedMap κ ν} {k : κ} {v : ν}
    (found : (items.foldl (fun m e => m.insert (key e) (value e)) m).get? k = some v) :
    m.get? k = some v ∨ ∃ e ∈ items, key e = k ∧ value e = v := by
  induction items generalizing m with
  | nil => exact .inl found
  | cons e rest ih =>
    rcases ih found with before | ⟨e', later, same⟩
    · rw [get?_insert] at before
      split at before
      next here => exact .inr ⟨e, List.mem_cons_self, here.symm, Option.some.inj before⟩
      next => exact .inl before
    · exact .inr ⟨e', List.mem_cons_of_mem e later, same⟩

omit [BEq κ] [LawfulBEq κ] in
/-- What is found in a map that was filled by insertions is one of them. -/
lemma exists_of_get?_foldl_insert_empty {α : Type} {key : α → κ} {value : α → ν} {items : List α}
    {k : κ} {v : ν}
    (found : (items.foldl (fun (m : SortedMap κ ν) e => m.insert (key e) (value e)) ∅).get? k =
      some v) : ∃ e ∈ items, key e = k ∧ value e = v := by
  refine (exists_of_get?_foldl_insert found).resolve_left ?_
  rw [show (∅ : SortedMap κ ν).get? k = none from rfl]
  exact Option.some_ne_none v |>.symm

omit [BEq κ] [LawfulBEq κ] in
lemma get?_alter (m : SortedMap κ ν) (k : κ) (f : Option ν → ν) (j : κ) :
    (m.alter k f).get? j = if j = k then some (f (m.get? k)) else m.get? j :=
  get?_insert m k _ j

omit [BEq κ] [LawfulBEq κ] in
/-- Joining keeps all entries of each key, in order. -/
lemma getD_foldl_alter (es : List (κ × ν)) (m : SortedMap κ (Array ν)) (k : κ) :
    ((es.foldl (fun m e => m.alter e.1 fun found => (found.getD #[]).push e.2) m).get? k).getD #[] =
      (m.get? k).getD #[] ++ ((es.filter fun e => e.1 = k).map Prod.snd).toArray := by
  induction es generalizing m with
  | nil => simp
  | cons e rest ih =>
    rw [List.foldl_cons, ih, get?_alter]
    by_cases h : k = e.1
    · apply Array.ext'
      simp [h]
    · have differ : e.1 ≠ k := fun same => h same.symm
      simp [h, differ]

/-- Entries under different keys are kept as they are. -/
lemma get?_foldl_alter_of_nodup {f : Option μ → ν → μ} (es : List (κ × ν)) (m : SortedMap κ μ)
    (distinct : es.Pairwise fun a b => a.1 ≠ b.1) (fresh : ∀ e ∈ es, m.get? e.1 = none) (k : κ) :
    (es.foldl (fun m e => m.alter e.1 fun found => f found e.2) m).get? k =
      ((es.lookup k).map (f none)).or (m.get? k) := by
  induction es generalizing m with
  | nil => simp
  | cons e rest ih =>
    obtain ⟨apart, tail⟩ := List.pairwise_cons.mp distinct
    have none_e : m.get? e.1 = none := fresh e (by simp)
    have later : ∀ e' ∈ rest, (m.alter e.1 fun found => f found e.2).get? e'.1 = none := by
      intro e' he'
      rw [get?_alter, if_neg fun same => apart e' he' same.symm]
      exact fresh e' (by simp [he'])
    rw [List.foldl_cons, ih _ tail later, get?_alter, none_e, List.lookup_cons]
    by_cases h : k = e.1
    · have absent : rest.lookup k = none := by
        rw [List.lookup_eq_none_iff]
        intro e' he'
        rw [h]
        exact bne_iff_ne.mpr (apart e' he')
      simp [h, h ▸ absent]
    · simp [h, beq_false_of_ne h]

section Joined

omit [Ord κ] [Std.LawfulEqOrd κ] [DecidableEq κ] [Std.TransOrd κ]

variable [DecidableEq κ]

/-- Of lists under different keys, joined, only the list of one key is left over for that key. -/
lemma flatMap_ite_of_nodup (es : List (κ × List ν)) (distinct : es.Pairwise fun a b => a.1 ≠ b.1)
    (k : κ) : (es.flatMap fun e => if e.1 = k then e.2 else []) = (es.lookup k).getD [] := by
  induction es with
  | nil => rfl
  | cons e rest ih =>
    obtain ⟨apart, tail⟩ := List.pairwise_cons.mp distinct
    rw [List.flatMap_cons, ih tail, List.lookup_cons]
    by_cases h : e.1 = k
    · have absent : rest.lookup k = none := by
        rw [List.lookup_eq_none_iff]
        intro e' he'
        rw [← h]
        exact bne_iff_ne.mpr (apart e' he')
      simp [h, absent]
    · have differ : k ≠ e.1 := fun same => h same.symm
      simp [h, beq_false_of_ne differ]

/-- Of lists under different keys, written out pair by pair, the pairs of one key are its list. -/
lemma filter_flatMap_of_nodup (es : List (κ × List ν))
    (distinct : es.Pairwise fun a b => a.1 ≠ b.1) (k : κ) :
    ((es.flatMap fun e => e.2.map fun v => (e.1, v)).filter fun e => e.1 = k).map Prod.snd =
      (es.lookup k).getD [] := by
  rw [← flatMap_ite_of_nodup es distinct, List.filter_flatMap, List.map_flatMap]
  refine List.flatMap_congr fun e _ => ?_
  by_cases h : e.1 = k
  · simp [h, List.filter_map, Function.comp_def]
  · simp [h, List.filter_map, Function.comp_def]

end Joined

section Entries

omit [Std.LawfulEqOrd κ] [DecidableEq κ] [BEq κ] [LawfulBEq κ] [Std.TransOrd κ]

lemma length_insertEntry_le (k : κ) (v : ν) (es : List (κ × ν)) :
    (insertEntry k v es).length ≤ es.length + 1 := by
  induction es with
  | nil => exact Nat.le_refl _
  | cons e rest ih =>
    rw [insertEntry]
    split
    · exact Nat.le_refl _
    · exact Nat.le_succ _
    · exact Nat.succ_le_succ ih

/-- Every insertion adds one entry at most. -/
lemma length_foldl_insert_le [Std.LawfulEqOrd κ] [Std.TransOrd κ] {α : Type} (key : α → κ)
    (value : α → ν) (items : List α) (m : SortedMap κ ν) :
    (items.foldl (fun m e => m.insert (key e) (value e)) m).toList.length ≤
      m.toList.length + items.length := by
  induction items generalizing m with
  | nil => exact Nat.le_refl _
  | cons e rest ih =>
    have one : (m.insert (key e) (value e)).toList.length ≤ m.toList.length + 1 :=
      length_insertEntry_le (key e) (value e) m.entries
    have more := ih (m.insert (key e) (value e))
    rw [List.foldl_cons, List.length_cons]
    omega

/-- An entry behind all others is put at the end. -/
lemma insertEntry_eq_append [Std.OrientedOrd κ] {k : κ} {v : ν} {es : List (κ × ν)}
    (last : ∀ e ∈ es, compare e.1 k = .lt) : insertEntry k v es = es ++ [(k, v)] := by
  induction es with
  | nil => rfl
  | cons e rest ih =>
    obtain ⟨first, later⟩ := List.forall_mem_cons.mp last
    rw [insertEntry, Std.OrientedCmp.gt_of_lt first]
    exact congrArg (e :: ·) (ih later)

variable [Std.LawfulEqOrd κ] [Std.TransOrd κ]

/-- Entries that are inserted in ascending order, behind those there are, are appended to them. -/
lemma toList_foldl_insert (es : List (κ × ν)) (m : SortedMap κ ν)
    (ascending : (m.toList ++ es).Pairwise fun a b => compare a.1 b.1 = .lt) :
    (es.foldl (fun m e => m.insert e.1 e.2) m).toList = m.toList ++ es := by
  induction es generalizing m with
  | nil => exact (List.append_nil _).symm
  | cons e rest ih =>
    have below : ∀ a ∈ m.toList, compare a.1 e.1 = .lt := fun a ha =>
      (List.pairwise_append.mp ascending).2.2 a ha e List.mem_cons_self
    have inserted : (m.insert e.1 e.2).toList = m.toList ++ [e] := insertEntry_eq_append below
    rw [List.append_cons, ← inserted] at ascending
    rw [List.foldl_cons, ih _ ascending, inserted, ← List.append_cons]

/-- Keys that are renamed in their order are renamed entry by entry. -/
lemma toList_mapKeys {m : SortedMap κ ν} {f : κ → κ}
    (ascending : m.toList.Pairwise fun a b => compare (f a.1) (f b.1) = .lt) :
    (m.mapKeys f).toList = m.toList.map fun e => (f e.1, e.2) := by
  refine toList_foldl_insert _ empty ?_
  exact List.pairwise_map.mpr ascending

end Entries

end SortedMap

end RoadAtlas
