/-!
Results kept by what they were computed for. A memo only grows; of two entries with one key the
newer one is found.
-/

namespace RoadAtlas

/-- Results with their keys, newest first. -/
structure Memo (κ ν : Type) where
  entries : List (κ × ν) := []

namespace Memo

variable {κ ν : Type}

instance : EmptyCollection (Memo κ ν) := ⟨{}⟩

instance : Inhabited (Memo κ ν) := ⟨∅⟩

/-- The number of entries. -/
def size (m : Memo κ ν) : Nat := m.entries.length

/-- Keeps a result. -/
def store (m : Memo κ ν) (key : κ) (result : ν) : Memo κ ν := ⟨(key, result) :: m.entries⟩

variable [DecidableEq κ]

/-- The result kept for a key. -/
def get? (m : Memo κ ν) (key : κ) : Option ν :=
  (m.entries.find? fun e => e.1 = key).map Prod.snd

@[simp] theorem get?_empty (key : κ) : (∅ : Memo κ ν).get? key = none := rfl

/-- A stored result is found under its key and nowhere else. -/
theorem get?_store (m : Memo κ ν) (key : κ) (result : ν) (k : κ) :
    (m.store key result).get? k = if k = key then some result else m.get? k := by
  by_cases h : key = k
  · simp [get?, store, h]
  · simp [get?, store, h, Ne.symm h]

end Memo

end RoadAtlas
