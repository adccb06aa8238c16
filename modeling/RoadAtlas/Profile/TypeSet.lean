/-!
Sets of universal rule ids, as strictly ascending lists. The list is a normal form, so the least id
of a set is its first one (`TypeSet.least?`).
-/

namespace RoadAtlas

/-- A finite set of ids. -/
structure TypeSet where
  ids : List Nat
  ascending : ids.Pairwise (· < ·)
  deriving DecidableEq

namespace TypeSet

/-- No id. -/
def empty : TypeSet := ⟨[], .nil⟩

instance : EmptyCollection TypeSet := ⟨empty⟩

instance : Inhabited TypeSet := ⟨empty⟩

instance : Membership Nat TypeSet := ⟨fun s id => id ∈ s.ids⟩

instance (id : Nat) (s : TypeSet) : Decidable (id ∈ s) := inferInstanceAs (Decidable (id ∈ s.ids))

/-- The ids, lowest first. -/
def toList (s : TypeSet) : List Nat := s.ids

/-- Puts an id at its place in an ascending list. -/
def insertId (id : Nat) : List Nat → List Nat
  | [] => [id]
  | a :: rest => if id < a then id :: a :: rest else if id = a then a :: rest else a :: insertId id rest

theorem mem_insertId {id j : Nat} {ids : List Nat} :
    j ∈ insertId id ids ↔ j = id ∨ j ∈ ids := by
  induction ids with
  | nil => simp [insertId]
  | cons a rest ih =>
    rw [insertId]
    split
    · simp
    · split
      · simp_all
      · simp only [List.mem_cons, ih]
        grind

theorem ascending_insertId {id : Nat} {ids : List Nat} (h : ids.Pairwise (· < ·)) :
    (insertId id ids).Pairwise (· < ·) := by
  induction ids with
  | nil => simp [insertId]
  | cons a rest ih =>
    obtain ⟨below, tail⟩ := List.pairwise_cons.1 h
    rw [insertId]
    split
    next lt =>
      refine List.pairwise_cons.2 ⟨fun b hb => ?_, h⟩
      rcases List.mem_cons.1 hb with rfl | hb
      · exact lt
      · exact Nat.lt_trans lt (below b hb)
    next =>
      split
      next => exact h
      next =>
        refine List.pairwise_cons.2 ⟨fun b hb => ?_, ih tail⟩
        rcases mem_insertId.1 hb with rfl | hb
        · omega
        · exact below b hb

/-- The set with one more id. -/
def insert (s : TypeSet) (id : Nat) : TypeSet := ⟨insertId id s.ids, ascending_insertId s.ascending⟩

/-- The set of some ids. -/
def ofList (ids : List Nat) : TypeSet := ids.foldl insert ∅

/-- Every id of `s` is one of `t`. -/
def isSubset (s t : TypeSet) : Bool := s.ids.all fun id => id ∈ t

/-- No id of `s` is one of `t`. -/
def isDisjoint (s t : TypeSet) : Bool := s.ids.all fun id => id ∉ t

/-- The lowest id on which `p` holds. -/
def least? (s : TypeSet) (p : Nat → Bool) : Option Nat := s.ids.find? p

@[simp] theorem mem_insert {s : TypeSet} {id j : Nat} : j ∈ s.insert id ↔ j = id ∨ j ∈ s :=
  mem_insertId

theorem mem_ofList {ids : List Nat} {j : Nat} : j ∈ ofList ids ↔ j ∈ ids := by
  have general : ∀ (ids : List Nat) (s : TypeSet), j ∈ ids.foldl insert s ↔ j ∈ ids ∨ j ∈ s := by
    intro ids
    induction ids with
    | nil => simp
    | cons a rest ih =>
      intro s
      rw [List.foldl_cons, ih, mem_insert, List.mem_cons]
      grind
  refine (general ids ∅).trans ⟨fun h => h.resolve_right ?_, .inl⟩
  exact List.not_mem_nil

theorem isSubset_iff {s t : TypeSet} : s.isSubset t = true ↔ ∀ id, id ∈ s → id ∈ t := by
  simp [isSubset, Membership.mem]

theorem isDisjoint_iff {s t : TypeSet} : s.isDisjoint t = true ↔ ∀ id, id ∈ s → id ∉ t := by
  simp [isDisjoint, Membership.mem]

end TypeSet

end RoadAtlas
