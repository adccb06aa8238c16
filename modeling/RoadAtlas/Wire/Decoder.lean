import RoadAtlas.Wire.Cursor

/-!
Decoders: functions from data and a cursor to a value and a later cursor. That a success moves
forward inside its region is part of the type `Outcome`, so every composition of decoders has it. A
failure carries the cursor at which reading stopped.

* decoders form a lawful monad; `run_bind` says how a sequence passes the cursor on;
* `within` decodes a nested region: the inner decoder sees a closer limit, and the outer limit is
  back in force afterwards, wherever the inner decoder stopped;
* `eval` forgets the cursor.
-/

namespace RoadAtlas

/-- What decoding from a cursor ends in. -/
inductive Outcome (α : Type) (c : Cursor) where
  | done (value : α) (next : Cursor) (reach : c.Reaches next)
  | failed (cause : DecodeError) (stopped : Cursor)

namespace Outcome

variable {α β : Type} {c : Cursor}

/-- The value or the cause, without the cursor. -/
def toExcept : Outcome α c → Except DecodeError α
  | done value _ _ => .ok value
  | failed cause _ => .error cause

/-- The cursor that decoding left behind. -/
def cursor : Outcome α c → Cursor
  | done _ next _ => next
  | failed _ stopped => stopped

/-- Changes the value. -/
def map (f : α → β) : Outcome α c → Outcome β c
  | done value next reach => done (f value) next reach
  | failed cause stopped => failed cause stopped

/-- Goes on from the cursor reached. -/
def andThen (o : Outcome α c) (f : α → (c' : Cursor) → c.Reaches c' → Outcome β c') :
    Outcome β c :=
  match o with
  | done value next reach =>
    match f value next reach with
    | done value' next' reach' => done value' next' (reach.trans reach')
    | failed cause stopped => failed cause stopped
  | failed cause stopped => failed cause stopped

/-- What goes on from a cursor succeeds only if both parts do. -/
theorem andThen_eq_done {o : Outcome α c} {f : α → (c' : Cursor) → c.Reaches c' → Outcome β c'}
    {b : β} {next : Cursor} {reach : c.Reaches next} (h : o.andThen f = done b next reach) :
    ∃ a mid, ∃ r : c.Reaches mid, ∃ r' : mid.Reaches next,
      o = done a mid r ∧ f a mid r = done b next r' := by
  cases o with
  | failed cause stopped => cases h
  | done a mid r =>
    simp only [andThen] at h
    cases hf : f a mid r with
    | failed cause stopped =>
      rw [hf] at h
      cases h
    | done b' next' r' =>
      rw [hf] at h
      cases h
      exact ⟨a, mid, r, r', rfl, hf⟩

/-- A changed value stems from a success at the same cursor. -/
theorem map_eq_done {o : Outcome α c} {f : α → β} {b : β} {next : Cursor}
    {reach : c.Reaches next} (h : o.map f = done b next reach) :
    ∃ a, o = done a next reach ∧ f a = b := by
  cases o with
  | failed cause stopped => cases h
  | done a mid r =>
    cases h
    exact ⟨a, rfl, rfl⟩

/-- Leaves a nested region that starts at `c`: the limit of `c` is in force again. -/
def leave {limit : Nat} : Outcome α { c with limit := limit } → Outcome α c
  | done value next reach => done value { next with limit := c.limit } ⟨rfl, reach.position_le⟩
  | failed cause stopped => failed cause stopped

end Outcome

/-- Reads a value at a cursor of some data. -/
structure Decoder (α : Type) where
  run : (data : ByteArray) → (c : Cursor) → Outcome α c

namespace Decoder

variable {α β : Type}

@[ext] theorem ext {x y : Decoder α} (h : ∀ data c, x.run data c = y.run data c) : x = y := by
  cases x
  cases y
  exact congrArg mk (funext fun data => funext fun c => h data c)

instance : Monad Decoder where
  pure value := ⟨fun _ c => .done value c (.refl c)⟩
  bind x f := ⟨fun data c => (x.run data c).andThen fun value c' _ => (f value).run data c'⟩

@[simp] theorem run_pure (value : α) (data : ByteArray) (c : Cursor) :
    (pure value : Decoder α).run data c = .done value c (.refl c) := rfl

@[simp] theorem run_bind (x : Decoder α) (f : α → Decoder β) (data : ByteArray) (c : Cursor) :
    (x >>= f).run data c = (x.run data c).andThen fun value c' _ => (f value).run data c' := rfl

@[simp] theorem run_map (f : α → β) (x : Decoder α) (data : ByteArray) (c : Cursor) :
    (f <$> x).run data c = (x.run data c).map f := by
  have unfolded : (f <$> x).run data c =
      (x.run data c).andThen fun value c' _ => .done (f value) c' (.refl c') := rfl
  rw [unfolded]
  cases x.run data c <;> rfl

instance : LawfulMonad Decoder := LawfulMonad.mk' Decoder
  (fun x => by
    ext data c
    rw [run_map]
    cases x.run data c <;> rfl)
  (fun value f => by
    ext data c
    simp only [run_bind, run_pure, Outcome.andThen]
    cases (f value).run data c <;> rfl)
  (fun x f g => by
    ext data c
    simp only [run_bind]
    cases x.run data c with
    | failed cause stopped => rfl
    | done value next reach =>
      simp only [Outcome.andThen]
      cases (f value).run data next with
      | failed cause stopped => rfl
      | done value' next' reach' =>
        simp only
        cases (g value').run data next' <;> rfl)

/-- Fails where it stands. -/
def fail (cause : DecodeError) : Decoder α := ⟨fun _ c => .failed cause c⟩

/-- Fails where it stands with the cause in `e`, if there is one. -/
def ofExcept (e : Except DecodeError α) : Decoder α :=
  match e with
  | .ok value => pure value
  | .error cause => fail cause

/-- The position, without reading. -/
def position : Decoder Nat := ⟨fun _ c => .done c.position c (.refl c)⟩

/-- The number of bytes left in the region, without reading. -/
def remaining : Decoder Nat := ⟨fun _ c => .done c.remaining c (.refl c)⟩

/-- What `f` finds in the data as a whole, without reading. -/
def inspect (f : ByteArray → α) : Decoder α := ⟨fun data c => .done (f data) c (.refl c)⟩

/-- Decodes the next `length` bytes as a region of their own. -/
def within (length : Nat) (x : Decoder α) : Decoder α := ⟨fun data c =>
  if c.limit < c.position + length then .failed (.endOfRegion c.position c.limit) c
  else (x.run data { c with limit := c.position + length }).leave⟩

/-- The value at a cursor, or why there is none. -/
def eval (x : Decoder α) (data : ByteArray) (c : Cursor) : Except DecodeError α :=
  (x.run data c).toExcept

end Decoder

end RoadAtlas
