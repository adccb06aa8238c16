/-!
Finite maps as association lists in strictly ascending key order. The order makes the list a normal
form: two maps with the same look-ups are equal (`ext_get?`), and reading a map out lists
its keys in ascending order.

* `get?_insert` describes the one operation that changes a map;
* `ofList` inserts pair after pair, so of several entries with one key the last stays;
* `mapKeys` renames keys, which is how indices move when something is inserted before them.
-/

namespace RoadAtlas

/-- The entries of a map, keys strictly ascending. -/
structure SortedMap (κ : Type) (ν : Type) [Ord κ] where
  entries : List (κ × ν)
  ascending : entries.Pairwise fun a b => compare a.1 b.1 = .lt

namespace SortedMap

variable {κ ν : Type} [Ord κ]

theorem ext_entries {m m' : SortedMap κ ν} (h : m.entries = m'.entries) : m = m' := by
  cases m; cases m'; cases h; rfl

instance [DecidableEq κ] [DecidableEq ν] : DecidableEq (SortedMap κ ν) := fun m m' =>
  if h : m.entries = m'.entries then .isTrue (ext_entries h) else .isFalse fun e => h (e ▸ rfl)

/-- The map without entries. -/
def empty : SortedMap κ ν := ⟨[], .nil⟩

instance : EmptyCollection (SortedMap κ ν) := ⟨empty⟩

instance : Inhabited (SortedMap κ ν) := ⟨empty⟩

/-- The entries in ascending key order. -/
def toList (m : SortedMap κ ν) : List (κ × ν) := m.entries

/-- The values in ascending key order. -/
def values (m : SortedMap κ ν) : List ν := m.entries.map Prod.snd

def isEmpty (m : SortedMap κ ν) : Bool := m.entries.isEmpty

/-- The value stored under `k`. -/
def get? (m : SortedMap κ ν) (k : κ) : Option ν :=
  (m.entries.find? fun e => compare k e.1 == .eq).map Prod.snd

/-! ### Insertion -/

/-- Puts an entry at its place in an ascending list, over an entry with the same key. -/
def insertEntry (k : κ) (v : ν) : List (κ × ν) → List (κ × ν)
  | [] => [(k, v)]
  | e :: rest =>
    match compare k e.1 with
    | .lt => (k, v) :: e :: rest
    | .eq => (k, v) :: rest
    | .gt => e :: insertEntry k v rest

theorem key_mem_insertEntry {k : κ} {v : ν} {es : List (κ × ν)} {e : κ × ν}
    (h : e ∈ insertEntry k v es) : e.1 = k ∨ e ∈ es := by
  induction es with
  | nil => simp_all [insertEntry]
  | cons a rest ih =>
    rw [insertEntry] at h
    split at h <;> grind

variable [Std.TransOrd κ] [Std.LawfulEqOrd κ]

theorem ascending_insertEntry {k : κ} {v : ν} {es : List (κ × ν)}
    (h : es.Pairwise fun a b => compare a.1 b.1 = .lt) :
    (insertEntry k v es).Pairwise fun a b => compare a.1 b.1 = .lt := by
  induction es with
  | nil => simp [insertEntry]
  | cons a rest ih =>
    obtain ⟨below, tail⟩ := List.pairwise_cons.1 h
    rw [insertEntry]
    split
    next lt =>
      refine List.pairwise_cons.2 ⟨?_, h⟩
      intro e he
      rcases List.mem_cons.1 he with rfl | he
      · exact lt
      · exact Std.TransCmp.lt_trans lt (below e he)
    next eq =>
      have same : k = a.1 := Std.LawfulEqOrd.eq_of_compare eq
      subst same
      exact List.pairwise_cons.2 ⟨below, tail⟩
    next gt =>
      refine List.pairwise_cons.2 ⟨?_, ih tail⟩
      intro e he
      rcases key_mem_insertEntry he with same | he
      · rw [same]
        exact Std.OrientedCmp.lt_of_gt gt
      · exact below e he

/-- The map with `v` under `k`, whatever was there before. -/
def insert (m : SortedMap κ ν) (k : κ) (v : ν) : SortedMap κ ν :=
  ⟨insertEntry k v m.entries, ascending_insertEntry m.ascending⟩

/-- Applies `f` to what is stored under `k`, `none` when nothing is. -/
def alter (m : SortedMap κ ν) (k : κ) (f : Option ν → ν) : SortedMap κ ν :=
  m.insert k (f (m.get? k))

/-- Inserts the pairs one after another: the last entry of a repeated key stays. -/
def ofList (entries : List (κ × ν)) : SortedMap κ ν :=
  entries.foldl (fun m e => m.insert e.1 e.2) empty

/-- The map with every key `k` renamed to `f k`. -/
def mapKeys (m : SortedMap κ ν) (f : κ → κ) : SortedMap κ ν :=
  ofList (m.entries.map fun e => (f e.1, e.2))

/-! ### Look-up -/

omit [Std.TransOrd κ] [Std.LawfulEqOrd κ] in
@[simp] theorem get?_empty (k : κ) : (empty : SortedMap κ ν).get? k = none := rfl

omit [Std.TransOrd κ] in
/-- What a list of entries holds under `j`, head first. -/
theorem find?_cons [DecidableEq κ] (a : κ × ν) (es : List (κ × ν)) (j : κ) :
    ((a :: es).find? fun e => compare j e.1 == .eq).map Prod.snd =
      if j = a.1 then some a.2 else (es.find? fun e => compare j e.1 == .eq).map Prod.snd := by
  by_cases h : j = a.1
  · simp [List.find?, h]
  · have : (compare j a.1 == .eq) = false := by
      simpa using fun eq => h (Std.LawfulEqOrd.eq_of_compare eq)
    simp [List.find?, this, h]

omit [Std.TransOrd κ] in
/-- Placing an entry changes what is found under its key only. -/
theorem find?_insertEntry [DecidableEq κ] {k : κ} {v : ν} {es : List (κ × ν)} (j : κ) :
    ((insertEntry k v es).find? fun e => compare j e.1 == .eq).map Prod.snd =
      if j = k then some v else (es.find? fun e => compare j e.1 == .eq).map Prod.snd := by
  induction es with
  | nil => rw [insertEntry, find?_cons]
  | cons a rest ih =>
    rw [insertEntry]
    split
    next => rw [find?_cons]
    next eq =>
      have same : k = a.1 := Std.LawfulEqOrd.eq_of_compare eq
      rw [find?_cons, find?_cons]
      grind
    next gt =>
      have ne : k ≠ a.1 := by
        rintro same
        simp [same] at gt
      rw [find?_cons, find?_cons, ih]
      grind

/-- An insertion is seen under its own key and nowhere else. -/
theorem get?_insert [DecidableEq κ] (m : SortedMap κ ν) (k : κ) (v : ν) (j : κ) :
    (m.insert k v).get? j = if j = k then some v else m.get? j :=
  find?_insertEntry j

omit [Std.TransOrd κ] [Std.LawfulEqOrd κ] in
/-- Below its first key an ascending list holds nothing. -/
theorem find?_eq_none_of_lt {es : List (κ × ν)} {j : κ}
    (h : ∀ e ∈ es, compare j e.1 = .lt) : (es.find? fun e => compare j e.1 == .eq) = none := by
  rw [List.find?_eq_none]
  intro e he
  simp [h e he]

/-- Maps with the same look-ups are equal. -/
theorem ext_get? {m m' : SortedMap κ ν} (h : ∀ k, m.get? k = m'.get? k) : m = m' := by
  classical
  obtain ⟨es, up⟩ := m
  obtain ⟨es', up'⟩ := m'
  apply ext_entries
  simp only [get?] at h ⊢
  induction es generalizing es' with
  | nil =>
    cases es' with
    | nil => rfl
    | cons b rest' => simpa [find?_cons] using h b.1
  | cons a rest ih =>
    cases es' with
    | nil => simpa [find?_cons] using h a.1
    | cons b rest' =>
      obtain ⟨below, tail⟩ := List.pairwise_cons.1 up
      obtain ⟨below', tail'⟩ := List.pairwise_cons.1 up'
      have key : a.1 = b.1 := by
        match hab : compare a.1 b.1 with
        | .eq => exact Std.LawfulEqOrd.eq_of_compare hab
        | .lt =>
          have none_b := find?_eq_none_of_lt (j := a.1)
            fun e he => Std.TransCmp.lt_trans hab (below' e he)
          have differ : a.1 ≠ b.1 := fun same => by simp [same] at hab
          simpa [find?_cons, none_b, differ] using h a.1
        | .gt =>
          have hba := Std.OrientedCmp.lt_of_gt hab
          have none_a := find?_eq_none_of_lt (j := b.1)
            fun e he => Std.TransCmp.lt_trans hba (below e he)
          have differ : b.1 ≠ a.1 := fun same => by simp [same] at hab
          simpa [find?_cons, none_a, differ] using h b.1
      have val : a.2 = b.2 := by simpa [find?_cons, key] using h a.1
      have rests : rest = rest' := by
        refine ih tail rest' tail' fun k => ?_
        by_cases hk : k = a.1
        · rw [hk, find?_eq_none_of_lt below, find?_eq_none_of_lt (key ▸ below')]
        · simpa [find?_cons, hk, key ▸ hk] using h k
      rw [rests, Prod.ext key val]

end SortedMap

end RoadAtlas
