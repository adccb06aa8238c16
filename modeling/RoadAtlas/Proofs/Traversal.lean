import Mathlib.Data.List.Forall2

/-!
Computations that may fail, and lists that are passed through by them.

* `mapM_eq_ok_iff`, `mapM_eq_error_iff`: a traversal succeeds as its elements do, one by one, and
  fails as the first of them that fails;
* `foldlM_eq_map_mapM`: a fold that asks for one answer an element is a traversal, and then a fold;
* `mapM_congr`, `mapM_map_congr`, `findM?_congr`: traversals whose elements are answered alike.
-/

namespace RoadAtlas

variable {α β ε : Type}

/-! ### One after the other -/

lemma bind_eq_ok {x : Except ε α} {f : α → Except ε β} {b : β} :
    (x >>= f) = .ok b ↔ ∃ a, x = .ok a ∧ f a = .ok b := by
  cases x with
  | ok a => simp [bind, Except.bind]
  | error e => simp [bind, Except.bind]

lemma bind_eq_error {x : Except ε α} {f : α → Except ε β} {cause : ε} :
    (x >>= f) = .error cause ↔ x = .error cause ∨ ∃ a, x = .ok a ∧ f a = .error cause := by
  cases x with
  | ok a => simp [bind, Except.bind]
  | error e => simp [bind, Except.bind]

lemma mapError_eq_ok {ε' : Type} {f : ε → ε'} {x : Except ε α} {a : α} :
    x.mapError f = .ok a ↔ x = .ok a := by
  cases x with
  | ok b => simp [Except.mapError]
  | error e => simp [Except.mapError]

lemma mapError_bind {ε' : Type} (g : ε → ε') (x : Except ε α) (f : α → Except ε β) :
    (x >>= f).mapError g = x.mapError g >>= fun a => (f a).mapError g := by
  cases x <;> rfl

lemma map_eq_ok {f : α → β} {x : Except ε α} {b : β} :
    f <$> x = .ok b ↔ ∃ a, x = .ok a ∧ f a = b := by
  cases x <;> simp [Functor.map, Except.map]

lemma map_eq_error {f : α → β} {x : Except ε α} {cause : ε} :
    f <$> x = .error cause ↔ x = .error cause := by
  cases x <;> simp [Functor.map, Except.map]

lemma exists_map_eq_ok_iff {f : α → β} {x : Except ε α} :
    (∃ b, f <$> x = .ok b) ↔ ∃ a, x = .ok a := by
  cases x <;> simp [Functor.map, Except.map]

/-! ### Traversals -/

section Traversals

variable {f g : α → Except ε β}

/-- What a successful traversal answers, element by element. -/
lemma forall₂_of_mapM : ∀ {items : List α} {results : List β}, items.mapM f = .ok results →
    List.Forall₂ (fun item result => f item = .ok result) items results
  | [], results, h => by
    cases h
    exact .nil
  | item :: rest, results, h => by
    rw [List.mapM_cons] at h
    obtain ⟨result, first, h⟩ := bind_eq_ok.mp h
    obtain ⟨more, later, h⟩ := bind_eq_ok.mp h
    cases h
    exact .cons first (forall₂_of_mapM later)

/-- A traversal succeeds when it does element by element. -/
lemma mapM_of_forall₂ {items : List α} {results : List β}
    (h : List.Forall₂ (fun item result => f item = .ok result) items results) :
    items.mapM f = .ok results := by
  induction h with
  | nil => rfl
  | cons first _ ih =>
    rw [List.mapM_cons, first, ih]
    rfl

lemma mapM_eq_ok_iff {items : List α} {results : List β} : items.mapM f = .ok results ↔
    List.Forall₂ (fun item result => f item = .ok result) items results :=
  ⟨forall₂_of_mapM, mapM_of_forall₂⟩

lemma mapM_eq_map {items : List α} {g : α → β} (h : ∀ a ∈ items, f a = .ok (g a)) :
    items.mapM f = .ok (items.map g) :=
  mapM_of_forall₂ (List.forall₂_map_right_iff.mpr (List.forall₂_same.mpr h))

/-- What a successful traversal went through succeeded. -/
lemma exists_of_mapM {items : List α} {results : List β} (h : items.mapM f = .ok results) :
    ∀ a ∈ items, ∃ b, f a = .ok b := by
  intro a listed
  have each := forall₂_of_mapM h
  clear h
  induction each with
  | nil => cases listed
  | cons first _ ih =>
    rcases List.mem_cons.mp listed with rfl | later
    · exact ⟨_, first⟩
    · exact ih later

/-- What a successful traversal answers stems from what it went through. -/
lemma exists_of_mem_mapM {items : List α} {results : List β} (h : items.mapM f = .ok results) :
    ∀ b ∈ results, ∃ a ∈ items, f a = .ok b := by
  intro b listed
  have each := forall₂_of_mapM h
  clear h
  induction each with
  | nil => cases listed
  | cons first _ ih =>
    rcases List.mem_cons.mp listed with rfl | later
    · exact ⟨_, List.mem_cons_self, first⟩
    · obtain ⟨a, before, found⟩ := ih later
      exact ⟨a, List.mem_cons_of_mem _ before, found⟩

/-- A traversal succeeds when all its elements do. -/
lemma exists_mapM_eq_ok_iff {items : List α} :
    (∃ results, items.mapM f = .ok results) ↔ ∀ a ∈ items, ∃ b, f a = .ok b := by
  refine ⟨fun ⟨_, h⟩ => exists_of_mapM h, fun h => ?_⟩
  induction items with
  | nil => exact ⟨[], rfl⟩
  | cons item rest ih =>
    rw [List.forall_mem_cons] at h
    obtain ⟨result, first⟩ := h.1
    obtain ⟨more, later⟩ := ih h.2
    exact ⟨result :: more, mapM_of_forall₂ (.cons first (forall₂_of_mapM later))⟩

/-- A traversal fails as the first of its elements that fails. -/
lemma mapM_eq_error_iff {cause : ε} : ∀ {items : List α}, items.mapM f = .error cause ↔
    ∃ before item after, items = before ++ item :: after ∧ (∀ a ∈ before, ∃ b, f a = .ok b) ∧
      f item = .error cause
  | [] => by
    constructor
    · rintro ⟨⟩
    · rintro ⟨before, item, after, split, -⟩
      cases before <;> cases split
  | first :: rest => by
    rw [List.mapM_cons, bind_eq_error]
    have later (result : β) : (do let more ← rest.mapM f; pure (result :: more) :
        Except ε (List β)) = .error cause ↔ rest.mapM f = .error cause := by
      rw [bind_eq_error]
      exact or_iff_left (by rintro ⟨_, -, ⟨⟩⟩)
    simp only [later]
    constructor
    · rintro (fails | ⟨result, here, fails⟩)
      · exact ⟨[], first, rest, rfl, nofun, fails⟩
      · obtain ⟨before, item, after, rfl, succeed, fails⟩ := mapM_eq_error_iff.mp fails
        exact ⟨first :: before, item, after, rfl,
          List.forall_mem_cons.mpr ⟨⟨result, here⟩, succeed⟩, fails⟩
    · rintro ⟨before, item, after, split, succeed, fails⟩
      cases before with
      | nil =>
        cases split
        exact .inl fails
      | cons _ before =>
        cases split
        obtain ⟨⟨result, here⟩, succeed⟩ := List.forall_mem_cons.mp succeed
        exact .inr ⟨result, here, mapM_eq_error_iff.mpr ⟨before, item, after, rfl, succeed, fails⟩⟩

lemma mapM_congr : ∀ {items : List α}, (∀ a ∈ items, f a = g a) → items.mapM f = items.mapM g
  | [], _ => rfl
  | a :: rest, h => by
    rw [List.forall_mem_cons] at h
    rw [List.mapM_cons, List.mapM_cons, h.1, mapM_congr h.2]

/-- Where every answer is changed in one way, so are the answers to a list. -/
lemma mapM_map_congr {γ : Type} {g : α → Except ε γ} {h : β → γ} {items : List α}
    (each : ∀ a ∈ items, g a = h <$> f a) : items.mapM g = List.map h <$> items.mapM f := by
  induction items with
  | nil => rfl
  | cons a rest ih =>
    rw [List.forall_mem_cons] at each
    rw [List.mapM_cons, List.mapM_cons, each.1, ih each.2]
    simp only [map_bind, map_pure, bind_map_left, List.map_cons]

end Traversals

/-! ### Folds and searches -/

/-- A fold whose steps succeed is the fold of their results. -/
lemma foldlM_eq_ok {f : β → α → Except ε β} {g : β → α → β} {items : List α}
    (h : ∀ item ∈ items, ∀ acc, f acc item = .ok (g acc item)) (acc : β) :
    items.foldlM f acc = .ok (items.foldl g acc) := by
  induction items generalizing acc with
  | nil => rfl
  | cons item rest ih =>
    rw [List.foldlM_cons, h item (by simp) acc, List.foldl_cons]
    exact ih (fun i hi => h i (by simp [hi])) _

section LastElement

variable {f : β → α → Except ε β} {items : List α} {item : α} {acc result : β} {cause : ε}

lemma foldlM_concat_eq_ok : (items ++ [item]).foldlM f acc = .ok result ↔
    ∃ before, items.foldlM f acc = .ok before ∧ f before item = .ok result := by
  rw [List.foldlM_append, bind_eq_ok]
  simp only [List.foldlM_cons, List.foldlM_nil, bind_pure]

lemma foldlM_concat_eq_error : (items ++ [item]).foldlM f acc = .error cause ↔
    items.foldlM f acc = .error cause ∨
      ∃ before, items.foldlM f acc = .ok before ∧ f before item = .error cause := by
  rw [List.foldlM_append, bind_eq_error]
  simp only [List.foldlM_cons, List.foldlM_nil, bind_pure]

end LastElement

/-- A fold that asks for an answer at every element, and fails only where there is none, asks for
all answers first and then folds them in. -/
lemma foldlM_eq_map_mapM {γ : Type} (f : α → Except ε γ) (put : β → α → γ → β) (items : List α)
    (acc : β) :
    items.foldlM (fun acc item => do let answer ← f item; return put acc item answer) acc =
      (fun answers => (items.zip answers).foldl (fun acc e => put acc e.1 e.2) acc) <$>
        items.mapM f := by
  induction items generalizing acc with
  | nil => rfl
  | cons item rest ih =>
    rw [List.foldlM_cons, List.mapM_cons]
    simp only [bind_assoc, pure_bind, ih, ← bind_pure_comp, List.zip_cons_cons, List.foldl_cons]

section Searches

variable {f g : α → Except ε Bool}

lemma findM?_congr : ∀ {items : List α}, (∀ a ∈ items, f a = g a) →
    items.findM? f = items.findM? g
  | [], _ => rfl
  | a :: rest, h => by
    rw [List.forall_mem_cons] at h
    rw [List.findM?, List.findM?, h.1, findM?_congr h.2]

/-- What a search finds was searched. -/
lemma mem_of_findM? {a : α} : ∀ {items : List α}, items.findM? f = .ok (some a) → a ∈ items
  | [], h => by cases h
  | b :: rest, h => by
    rw [List.findM?] at h
    obtain ⟨found, first, h⟩ := bind_eq_ok.mp h
    cases found with
    | true =>
      cases h
      exact List.mem_cons_self
    | false => exact List.mem_cons_of_mem b (mem_of_findM? h)

end Searches

end RoadAtlas
