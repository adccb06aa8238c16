import RoadAtlas.Pool
import RoadAtlas.Proofs.Traversal

/-!
What a pool makes of tasks. Whether tasks succeed together, and with which values, is the same for
every pool; pools differ in the failure that they report.

* `Pool.collect_cases`: tasks come to their values, or to the failure of one of them;
* `Pool.collect_map_eq_ok_iff`, `Pool.exists_collect_eq_ok_iff`: when tasks succeed together;
* `Pool.collect_map_of_single`: for a single worker, tasks are a traversal;
* `Pool.exists_collect_iff`: what tasks may come to in some pool, be it any of their failures.
-/

namespace RoadAtlas

namespace Pool

variable {α β ε : Type} {pool : Pool ε} {tasks : List (Except ε α)} {cause : ε}

/-! ### Success -/

/-- Some task fails, or all have values. -/
lemma exists_error_or_eq_map : ∀ tasks : List (Except ε α),
    (∃ cause, .error cause ∈ tasks) ∨ ∃ values : List α, tasks = values.map Except.ok
  | [] => .inr ⟨[], rfl⟩
  | .error cause :: _ => .inl ⟨cause, List.mem_cons_self⟩
  | .ok value :: rest => by
    rcases exists_error_or_eq_map rest with ⟨cause, fails⟩ | ⟨values, rfl⟩
    · exact .inl ⟨cause, List.mem_cons_of_mem _ fails⟩
    · exact .inr ⟨value :: values, rfl⟩

/-- Tasks come to their values, or to the failure of one of them. -/
lemma collect_cases (pool : Pool ε) (tasks : List (Except ε α)) :
    (∃ values, tasks = values.map Except.ok ∧ pool.collect tasks = .ok values) ∨
      ∃ cause, .error cause ∈ tasks ∧ pool.collect tasks = .error cause := by
  rcases exists_error_or_eq_map tasks with ⟨cause, fails⟩ | ⟨values, rfl⟩
  · exact .inr (pool.collect_error fails)
  · exact .inl ⟨values, rfl, pool.collect_ok values⟩

lemma collect_eq_ok_iff {values : List α} :
    pool.collect tasks = .ok values ↔ tasks = values.map Except.ok := by
  constructor
  · intro collected
    rcases pool.collect_cases tasks with ⟨values', same, result⟩ | ⟨cause, -, result⟩
    · rw [collected] at result
      cases result
      exact same
    · rw [collected] at result
      cases result
  · rintro rfl
    exact pool.collect_ok values

lemma map_eq_map_ok_iff {f : β → Except ε α} {items : List β} {values : List α} :
    items.map f = values.map Except.ok ↔
      List.Forall₂ (fun item value => f item = .ok value) items values := by
  rw [← List.forall₂_eq_eq_eq, List.forall₂_map_left_iff, List.forall₂_map_right_iff]

lemma collect_map_eq_ok_iff {f : β → Except ε α} {items : List β} {values : List α} :
    pool.collect (items.map f) = .ok values ↔
      List.Forall₂ (fun item value => f item = .ok value) items values := by
  rw [collect_eq_ok_iff, map_eq_map_ok_iff]

/-- Tasks succeed together when each of them does. -/
lemma exists_collect_eq_ok_iff :
    (∃ values, pool.collect tasks = .ok values) ↔ ∀ task ∈ tasks, ∃ value, task = .ok value := by
  simp only [collect_eq_ok_iff]
  constructor
  · rintro ⟨values, rfl⟩ task htask
    obtain ⟨value, -, rfl⟩ := List.mem_map.mp htask
    exact ⟨value, rfl⟩
  · intro succeed
    rcases exists_error_or_eq_map tasks with ⟨cause, fails⟩ | all
    · obtain ⟨value, here⟩ := succeed _ fails
      cases here
    · exact all

/-! ### Failure -/

/-- The failure that is reported is that of a task. -/
lemma mem_of_collect_eq_error (collected : pool.collect tasks = .error cause) :
    .error cause ∈ tasks := by
  rcases pool.collect_cases tasks with ⟨values, -, result⟩ | ⟨reported, hmem, result⟩
  · rw [collected] at result
    cases result
  · rw [collected] at result
    cases result
    exact hmem

/-- For a single worker, tasks are a traversal. -/
lemma collect_map_of_single (alone : pool.workers = 1) (f : β → Except ε α) (items : List β) :
    pool.collect (items.map f) = items.mapM f := by
  cases traversed : items.mapM f with
  | ok values => exact collect_map_eq_ok_iff.mpr (mapM_eq_ok_iff.mp traversed)
  | error cause =>
    obtain ⟨before, item, after, rfl, succeed, fails⟩ := mapM_eq_error_iff.mp traversed
    obtain ⟨values, done⟩ := exists_mapM_eq_ok_iff.mpr succeed
    rw [List.map_append, List.map_cons, map_eq_map_ok_iff.mpr (mapM_eq_ok_iff.mp done), fails]
    exact pool.collect_single alone values cause _

/-- For a single worker, where all values are changed in one way, so is what the tasks come to. -/
lemma collect_map_map_of_single (alone : pool.workers = 1) (f : α → β) :
    pool.collect (tasks.map (f <$> ·)) = List.map f <$> pool.collect tasks := by
  have one := collect_map_of_single alone id tasks
  rw [List.map_id] at one
  rw [collect_map_of_single alone, one]
  exact mapM_map_congr fun task _ => rfl

/-! ### Any of several failures -/

/-- The failure of the task at a place, or what a single worker makes of the tasks. -/
def takePreferring (i : ℕ) (tasks : List (Except ε α)) : Except ε (List α) :=
  match tasks[i]? with
  | some (.error cause) => .error cause
  | _ => takeInOrder tasks

lemma takePreferring_ok (i : ℕ) (values : List α) :
    takePreferring i (values.map .ok : List (Except ε α)) = .ok values := by
  rw [takePreferring, List.getElem?_map]
  cases values[i]? with
  | none => exact takeInOrder_ok values
  | some value => exact takeInOrder_ok values

lemma takePreferring_error {i : ℕ} (fails : .error cause ∈ tasks) :
    ∃ reported, .error reported ∈ tasks ∧ takePreferring i tasks = .error reported := by
  rw [takePreferring]
  split
  next reported preferred => exact ⟨reported, List.mem_of_getElem? preferred, rfl⟩
  next => exact takeInOrder_error fails

/-- Two workers, of whom one is through with the task at a place before the other one is with those
in front of it. -/
def preferring (i : ℕ) : Pool ε where
  workers := 2
  collect := takePreferring i
  collect_ok := takePreferring_ok i
  collect_error := takePreferring_error
  collect_single alone _ _ _ := absurd alone (Nat.succ_ne_self 1)

lemma collect_preferring {i : ℕ} (fails : tasks[i]? = some (.error cause)) :
    (preferring i).collect tasks = .error cause := by
  show takePreferring i tasks = .error cause
  rw [takePreferring, fails]

/-- Tasks may come to their values, if they all succeed, and to any of their failures. -/
lemma exists_collect_iff {result : Except ε (List α)} :
    (∃ pool : Pool ε, pool.collect tasks = result) ↔
      (∃ values, tasks = values.map Except.ok ∧ result = .ok values) ∨
        ∃ cause, .error cause ∈ tasks ∧ result = .error cause := by
  constructor
  · rintro ⟨pool, rfl⟩
    exact pool.collect_cases tasks
  · rintro (⟨values, rfl, rfl⟩ | ⟨cause, fails, rfl⟩)
    · exact ⟨single, single.collect_ok values⟩
    · obtain ⟨i, place⟩ := List.mem_iff_getElem?.mp fails
      exact ⟨preferring i, collect_preferring place⟩

/-- Where all values are changed in one way, so is what the tasks may come to. -/
lemma exists_collect_map_iff (f : α → β) {result : Except ε (List β)} :
    (∃ pool : Pool ε, pool.collect (tasks.map (f <$> ·)) = result) ↔
      ∃ result', (∃ pool : Pool ε, pool.collect tasks = result') ∧
        List.map f <$> result' = result := by
  have images (values : List α) :
      (values.map .ok : List (Except ε α)).map (f <$> ·) = (values.map f).map Except.ok := by
    rw [List.map_map, List.map_map]
    rfl
  simp only [exists_collect_iff]
  constructor
  · rintro (⟨values, same, rfl⟩ | ⟨cause, fails, rfl⟩)
    · rcases exists_error_or_eq_map tasks with ⟨cause, fails⟩ | ⟨values', rfl⟩
      · have absent : .error cause ∈ values.map Except.ok :=
          same ▸ List.mem_map.mpr ⟨.error cause, fails, rfl⟩
        obtain ⟨_, -, ⟨⟩⟩ := List.mem_map.mp absent
      · rw [images] at same
        obtain rfl := List.map_injective_iff.mpr (fun _ _ => Except.ok.inj) same
        exact ⟨.ok values', .inl ⟨values', rfl, rfl⟩, rfl⟩
    · obtain ⟨task, htask, failed⟩ := List.mem_map.mp fails
      cases task with
      | ok value => cases failed
      | error cause' =>
        cases failed
        exact ⟨.error cause, .inr ⟨cause, htask, rfl⟩, rfl⟩
  · rintro ⟨_, ⟨values, rfl, rfl⟩ | ⟨cause, fails, rfl⟩, rfl⟩
    · exact .inl ⟨values.map f, images values, rfl⟩
    · exact .inr ⟨cause, List.mem_map.mpr ⟨.error cause, fails, rfl⟩, rfl⟩

end Pool

end RoadAtlas
