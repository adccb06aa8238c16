/-!
Workers that carry out tasks side by side.

* `Pool` is a number of workers and what they make of some tasks together;
* `Pool.single` is the pool of one worker, who goes from task to task.
-/

namespace RoadAtlas

/-- Workers that carry out tasks and collect the results. If all tasks succeed, their values come in
the order of the tasks. If some fail, the error is that of one of these. It is not determined which
one, unless a single worker goes from task to task and stops at the first one that fails. -/
structure Pool (ε : Type) where
  workers : Nat
  /-- What the tasks come to together. -/
  collect {α : Type} : List (Except ε α) → Except ε (List α)
  collect_ok {α : Type} (values : List α) : collect (values.map Except.ok) = .ok values
  collect_error {α : Type} {tasks : List (Except ε α)} {cause : ε} (fails : .error cause ∈ tasks) :
    ∃ reported, .error reported ∈ tasks ∧ collect tasks = .error reported
  collect_single {α : Type} (alone : workers = 1) (values : List α) (cause : ε)
    (rest : List (Except ε α)) :
    collect (values.map Except.ok ++ .error cause :: rest) = .error cause

namespace Pool

variable {ε α : Type}

/-- The values of tasks, up to the first one that fails. -/
def takeInOrder : List (Except ε α) → Except ε (List α)
  | [] => .ok []
  | .error cause :: _ => .error cause
  | .ok value :: rest => (value :: ·) <$> takeInOrder rest

theorem takeInOrder_ok : ∀ values : List α,
    takeInOrder (values.map .ok : List (Except ε α)) = .ok values
  | [] => rfl
  | value :: rest => by
    rw [List.map_cons, takeInOrder, takeInOrder_ok rest]
    rfl

theorem takeInOrder_first (cause : ε) (rest : List (Except ε α)) : ∀ values : List α,
    takeInOrder (values.map Except.ok ++ .error cause :: rest) = .error cause
  | [] => rfl
  | value :: values => by
    rw [List.map_cons, List.cons_append, takeInOrder, takeInOrder_first cause rest values]
    rfl

theorem takeInOrder_error {cause : ε} : ∀ {tasks : List (Except ε α)}, .error cause ∈ tasks →
    ∃ reported, .error reported ∈ tasks ∧ takeInOrder tasks = .error reported
  | .error first :: _, _ => ⟨first, List.mem_cons_self, rfl⟩
  | .ok value :: rest, fails => by
    have later : .error cause ∈ rest := by simpa using fails
    obtain ⟨reported, hmem, result⟩ := takeInOrder_error later
    refine ⟨reported, List.mem_cons_of_mem _ hmem, ?_⟩
    rw [takeInOrder, result]
    rfl

/-- The pool of one worker. -/
def single : Pool ε where
  workers := 1
  collect := takeInOrder
  collect_ok := takeInOrder_ok
  collect_error := takeInOrder_error
  collect_single _ values cause rest := takeInOrder_first cause rest values

end Pool

end RoadAtlas
