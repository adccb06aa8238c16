import Mathlib.Data.List.Forall2
import Mathlib.Data.List.InsertIdx
import RoadAtlas.Road.Polyline

/-!
Ropes are lists. However a rope came about by putting points into others, it answers as the list
of its points does: its size, its elements, its ends, what it is equal to, and what a further
insertion makes of it.

* `PointRun.Proper`, `Polyline.WellFormed`: no run is empty or leaves its array, and the size that a
  rope keeps is the number of its points; `WellFormed.insert?` says that insertions keep this;
* `Polyline.AnswersAs` is a rope that a list stands for, question by question;
* `Polyline.ropes_answer_as_lists` is about all ropes that a run of insertions leaves behind.
-/

namespace RoadAtlas

section Lists

variable {α : Type}

/-- An element put behind a stretch of a list is put into what follows it. -/
lemma insertIdx_append_right (front rest : List α) (index : ℕ) (a : α) :
    (front ++ rest).insertIdx (front.length + index) a = front ++ rest.insertIdx index a :=
  List.modifyTailIdx_add (List.cons a) index front rest

/-- An element put between two stretches of a list. -/
lemma insertIdx_length_append (front rest : List α) (a : α) :
    (front ++ rest).insertIdx front.length a = front ++ a :: rest :=
  insertIdx_append_right front rest 0 a

/-- An element put into a stretch of a list, or right behind it, leaves what follows as it is. -/
lemma insertIdx_append_left {front : List α} {index : ℕ} (h : index ≤ front.length)
    (rest : List α) (a : α) :
    (front ++ rest).insertIdx index a = front.insertIdx index a ++ rest := by
  obtain ⟨before, behind, rfl, rfl⟩ :
      ∃ before behind, front = before ++ behind ∧ index = before.length :=
    ⟨front.take index, front.drop index, (List.take_append_drop index front).symm,
      (List.length_take_of_le h).symm⟩
  rw [List.append_assoc, insertIdx_length_append, insertIdx_length_append, List.append_assoc,
    List.cons_append]

end Lists

/-! ### Runs -/

namespace PointRun

variable {r : PointRun} {index : ℕ} {point : Point}

/-- A run that holds points: a stretch of its array, and not an empty one. -/
def Proper : PointRun → Prop
  | stored points start stop => start < stop ∧ stop ≤ points.size
  | single _ => True

lemma length_toList (h : r.Proper) : r.toList.length = r.size := by
  cases r with
  | stored points start stop =>
    obtain ⟨-, inside⟩ := h
    rw [toList, size, Array.length_toList, Array.size_extract, Nat.min_eq_left inside]
  | single point => rfl

lemma size_pos (h : r.Proper) : 0 < r.size := by
  cases r with
  | stored points start stop => exact Nat.sub_pos_of_lt h.1
  | single point => exact Nat.one_pos

/-- The points of a run can be had one by one. -/
lemma get?_eq (r : PointRun) (index : ℕ) : r.get? index = r.toList[index]? := by
  cases r with
  | stored points start stop =>
    rw [get?, toList, Array.getElem?_toList, Array.getElem?_extract]
    by_cases held : start + index < points.size
    · have same : start + index < stop ↔ index < min stop points.size - start := by omega
      simp only [same]
    · simp [Array.getElem?_eq_none (Nat.le_of_not_lt held)]
  | single point => cases index <;> rfl

/-- The runs that take the place of another one hold its points and the new one. -/
lemma flatMap_split (h : r.Proper) (inside : index < r.size) :
    (r.split index point).flatMap toList = r.toList.insertIdx index point := by
  cases r with
  | stored points start stop =>
    obtain ⟨-, below⟩ := h
    rw [size] at inside
    have cut : (stored points start (start + index)).toList.length = index := by
      simp only [toList, Array.length_toList, Array.size_extract]
      omega
    have whole : (stored points start stop).toList =
        (stored points start (start + index)).toList ++
          (stored points (start + index) stop).toList := by
      simp only [toList, ← Array.toList_append, Array.extract_append_extract]
      congr 2 <;> omega
    have placed := insertIdx_length_append (stored points start (start + index)).toList
      (stored points (start + index) stop).toList point
    rw [cut, ← whole] at placed
    -- the first part of the run is left out when it is empty, which changes no points
    have first : (if start < start + index then [stored points start (start + index)]
        else []).flatMap toList = (stored points start (start + index)).toList := by
      split
      · exact List.flatMap_singleton toList _
      next empty =>
        rw [List.eq_nil_of_length_eq_zero (cut.trans (by omega))]
        rfl
    rw [split, List.flatMap_append, first, placed, List.flatMap_cons, List.flatMap_singleton]
    rfl
  | single first =>
    rw [size, Nat.lt_one_iff] at inside
    rw [inside]
    rfl

/-- None of these runs is empty or leaves its array. -/
lemma proper_of_mem_split (h : r.Proper) (inside : index < r.size) {x : PointRun}
    (hx : x ∈ r.split index point) : x.Proper := by
  cases r with
  | stored points start stop =>
    obtain ⟨-, below⟩ := h
    rw [size] at inside
    rw [split, List.mem_append] at hx
    rcases hx with before | later
    · split at before
      next some =>
        rw [List.mem_singleton.mp before]
        exact ⟨some, by omega⟩
      next => cases before
    · rcases List.mem_cons.mp later with rfl | behind
      · trivial
      · rw [List.mem_singleton.mp behind]
        exact ⟨by omega, below⟩
  | single first =>
    rcases List.mem_cons.mp hx with rfl | behind
    · trivial
    · rw [List.mem_singleton.mp behind]
      trivial

end PointRun

/-! ### Ropes -/

namespace Polyline

/-- A rope whose runs hold points, and which keeps their number. -/
structure WellFormed (p : Polyline) : Prop where
  proper : ∀ r ∈ p.runs, r.Proper
  size_eq : p.size = p.toList.length

/-- The points of some runs can be had one by one. -/
lemma getFrom?_eq : ∀ {runs : List PointRun} (_ : ∀ r ∈ runs, r.Proper) (index : ℕ),
    getFrom? runs index = (runs.flatMap PointRun.toList)[index]?
  | [], _, _ => rfl
  | r :: rest, proper, index => by
    rw [List.forall_mem_cons] at proper
    obtain ⟨first, later⟩ := proper
    rw [getFrom?, List.flatMap_cons, List.getElem?_append, PointRun.length_toList first,
      PointRun.get?_eq, getFrom?_eq later]

/-- A point put into some runs is put into the points that they hold. -/
lemma flatMap_insertFrom (point : Point) : ∀ {runs : List PointRun} {index : ℕ},
    (∀ r ∈ runs, r.Proper) → index ≤ (runs.flatMap PointRun.toList).length →
      (insertFrom point runs index).flatMap PointRun.toList =
        (runs.flatMap PointRun.toList).insertIdx index point
  | [], index, _, inside => by
    rw [Nat.le_zero.mp inside]
    rfl
  | r :: rest, index, proper, inside => by
    rw [List.forall_mem_cons] at proper
    obtain ⟨first, later⟩ := proper
    have size := PointRun.length_toList first
    rw [List.flatMap_cons, List.length_append] at inside
    rw [insertFrom, List.flatMap_cons]
    split
    next here =>
      rw [List.flatMap_append, PointRun.flatMap_split first here,
        insertIdx_append_left (by omega)]
    next behind =>
      rw [List.flatMap_cons, flatMap_insertFrom point later (by omega),
        ← insertIdx_append_right, size, Nat.add_sub_cancel' (Nat.le_of_not_lt behind)]

lemma proper_of_mem_insertFrom {point : Point} {x : PointRun} :
    ∀ {runs : List PointRun} {index : ℕ}, (∀ r ∈ runs, r.Proper) →
      x ∈ insertFrom point runs index → x.Proper
  | [], _, _, hx => by
    rw [List.mem_singleton.mp hx]
    trivial
  | r :: rest, index, proper, hx => by
    rw [List.forall_mem_cons] at proper
    obtain ⟨first, later⟩ := proper
    rw [insertFrom] at hx
    split at hx
    next here =>
      rcases List.mem_append.mp hx with split | behind
      · exact PointRun.proper_of_mem_split first here split
      · exact later x behind
    next =>
      rcases List.mem_cons.mp hx with rfl | behind
      · exact first
      · exact proper_of_mem_insertFrom later behind

lemma toList_ofArray (points : Array Point) : (ofArray points).toList = points.toList := by
  rw [ofArray]
  split
  next empty => simp [toList, Array.isEmpty_iff.mp empty]
  next => simp [toList, PointRun.toList]

lemma wellFormed_ofArray (points : Array Point) : (ofArray points).WellFormed := by
  have list := toList_ofArray points
  constructor
  case proper =>
    rw [ofArray]
    split
    next => exact fun r none => nomatch none
    next some =>
      intro r hr
      rw [List.mem_singleton.mp hr]
      exact ⟨Array.size_pos_iff.mpr (by simpa using some), Nat.le_refl _⟩
  case size_eq =>
    rw [list, ofArray]
    split
    next empty => rw [Array.isEmpty_iff.mp empty]; rfl
    next => exact Array.length_toList.symm

/-- A list with a point before an index; `none` past the end. -/
def insertInto? (list : List Point) (index : ℕ) (point : Point) : Option (List Point) :=
  if list.length < index then none else some (list.insertIdx index point)

namespace WellFormed

variable {p q : Polyline} {index : ℕ} {point : Point}

/-- A rope takes a point as its list does. -/
lemma map_insert? (h : p.WellFormed) (index : ℕ) (point : Point) :
    (p.insert? index point).map toList = insertInto? p.toList index point := by
  rw [Polyline.insert?, insertInto?, h.size_eq]
  split
  next => rfl
  next inside =>
    rw [Option.map_some, toList]
    exact congrArg some (flatMap_insertFrom point h.proper (Nat.le_of_not_lt inside))

/-- What a point is put into stays well formed. -/
lemma of_insert? (h : p.WellFormed) (made : p.insert? index point = some q) : q.WellFormed := by
  rw [Polyline.insert?, h.size_eq] at made
  split at made
  · cases made
  next inside =>
    cases made
    constructor
    case proper => exact fun r hr => proper_of_mem_insertFrom h.proper hr
    case size_eq =>
      have list := flatMap_insertFrom point h.proper (Nat.le_of_not_lt inside)
      simp only [toList, list]
      exact (List.length_insertIdx_of_le_length (Nat.le_of_not_lt inside) _).symm

/-- Ropes are equal when their lists are. -/
lemma beq_iff (hp : p.WellFormed) (hq : q.WellFormed) :
    (p == q) = true ↔ p.toList = q.toList := by
  have unfolded : (p == q) = (p.size == q.size && p.toList == q.toList) := rfl
  rw [unfolded, hp.size_eq, hq.size_eq, Bool.and_eq_true, beq_iff_eq, beq_iff_eq]
  exact and_iff_right_of_imp (congrArg List.length)

end WellFormed

/-- A rope that a list stands for: whatever it is asked, it answers as the list does. -/
structure AnswersAs (p : Polyline) (list : List Point) : Prop where
  toList_eq : p.toList = list
  size_eq : p.size = list.length
  isEmpty_eq : p.isEmpty = list.isEmpty
  get?_eq : ∀ index, p.get? index = list[index]?
  first?_eq : p.first? = list.head?
  last?_eq : p.last? = list.getLast?
  runs_ne_nil : ∀ r ∈ p.runs, r.toList ≠ []
  insert?_eq_none_iff : ∀ index point, p.insert? index point = none ↔ list.length < index
  toList_of_insert? : ∀ index point q, p.insert? index point = some q →
    q.toList = list.insertIdx index point

lemma WellFormed.answersAs {p : Polyline} (h : p.WellFormed) : p.AnswersAs p.toList := by
  have get (index : ℕ) : p.get? index = p.toList[index]? := getFrom?_eq h.proper index
  constructor
  case toList_eq => rfl
  case size_eq => exact h.size_eq
  case isEmpty_eq =>
    rw [isEmpty, h.size_eq]
    cases p.toList <;> rfl
  case get?_eq => exact get
  case first?_eq => rw [first?, get, List.head?_eq_getElem?]
  case last?_eq =>
    rw [last?, get, h.size_eq, List.getLast?_eq_getElem?]
    split
    next empty => rw [List.eq_nil_of_length_eq_zero empty]; rfl
    next => rfl
  case runs_ne_nil =>
    intro r hr empty
    have size := PointRun.length_toList (h.proper r hr)
    have some := PointRun.size_pos (h.proper r hr)
    rw [empty, List.length_nil] at size
    omega
  case insert?_eq_none_iff =>
    intro index point
    rw [← Option.map_eq_none_iff, h.map_insert?, insertInto?]
    split <;> simp [*]
  case toList_of_insert? =>
    intro index point q made
    have list := h.map_insert? index point
    rw [made, Option.map_some, insertInto?] at list
    split at list
    · cases list
    · exact Option.some.inj list

/-! ### Runs of insertions -/

/-- A point to be put into one of the sequences at hand. -/
structure Insertion where
  source : ℕ
  index : ℕ
  point : Point

/-- The sequences at hand and, behind them, what an insertion makes of one of them. -/
def Insertion.extend {α : Type} (insert? : α → ℕ → Point → Option α) (known : List α)
    (i : Insertion) : List α :=
  known ++ (known[i.source]?.bind fun a => insert? a i.index i.point).toList

/-- The ropes that some insertions leave behind, the rope of an array being at hand first. -/
def ropes (points : Array Point) (steps : List Insertion) : List Polyline :=
  steps.foldl (Insertion.extend insert?) [ofArray points]

/-- The lists that some insertions leave behind, one list being at hand first. -/
def lists (points : List Point) (steps : List Insertion) : List (List Point) :=
  steps.foldl (Insertion.extend insertInto?) [points]

/-- The ropes at hand are well formed, and stand for the lists at hand. -/
def Track (known : List Polyline) (known' : List (List Point)) : Prop :=
  (∀ p ∈ known, p.WellFormed) ∧ known.map toList = known'

/-- An insertion into a rope at hand is an insertion into its list. -/
lemma Track.extend {known : List Polyline} {known' : List (List Point)} (h : Track known known')
    (i : Insertion) : Track (i.extend insert? known) (i.extend insertInto? known') := by
  obtain ⟨wellFormed, rfl⟩ := h
  rw [Insertion.extend, Insertion.extend, List.getElem?_map]
  cases found : known[i.source]? with
  | none => exact ⟨by simpa using wellFormed, by simp⟩
  | some p =>
    have source := wellFormed p (List.mem_of_getElem? found)
    have list := source.map_insert? i.index i.point
    rw [Option.bind_some, Option.map_some, Option.bind_some, ← list]
    constructor
    · rw [List.forall_mem_append]
      refine ⟨wellFormed, fun q hq => ?_⟩
      exact source.of_insert? (Option.mem_toList.mp hq)
    · rw [List.map_append, Option.toList_map]

/-- Insertions, one after another, lead from ropes to ropes as they lead from lists to lists. -/
lemma Track.foldl (steps : List Insertion) {known : List Polyline} {known' : List (List Point)}
    (h : Track known known') : Track (steps.foldl (Insertion.extend insert?) known)
      (steps.foldl (Insertion.extend insertInto?) known') := by
  induction steps generalizing known known' with
  | nil => exact h
  | cons i rest ih => exact ih (h.extend i)

lemma track_ropes (points : Array Point) (steps : List Insertion) :
    Track (ropes points steps) (lists points.toList steps) := by
  refine Track.foldl steps ⟨fun p hp => ?_, ?_⟩
  · rw [List.mem_singleton.mp hp]
    exact wellFormed_ofArray points
  · exact congrArg (fun list => [list]) (toList_ofArray points)

/-- Insertions leave the ropes that are at hand as they are. -/
lemma prefix_foldl_extend (steps : List Insertion) (known : List Polyline) :
    known <+: steps.foldl (Insertion.extend insert?) known := by
  induction steps generalizing known with
  | nil => exact List.prefix_refl known
  | cons i rest ih => exact (List.prefix_append known _).trans (ih _)

/-- The ropes that insertions leave behind answer as the lists do that the same insertions leave
behind, and further insertions leave them as they are. Two ropes are equal when their lists are,
however they came about. -/
theorem ropes_answer_as_lists (points : Array Point) (steps : List Insertion) :
    List.Forall₂ AnswersAs (ropes points steps) (lists points.toList steps) ∧
      (∀ more, ropes points steps <+: ropes points (steps ++ more)) ∧
      ∀ points' steps', ∀ p ∈ ropes points steps, ∀ q ∈ ropes points' steps',
        ((p == q) = true ↔ p.toList = q.toList) := by
  obtain ⟨wellFormed, same⟩ := track_ropes points steps
  refine ⟨?_, fun more => ?_, fun points' steps' p hp q hq => ?_⟩
  · rw [← same, List.forall₂_map_right_iff, List.forall₂_same]
    exact fun p hp => (wellFormed p hp).answersAs
  · have later := prefix_foldl_extend more (ropes points steps)
    rwa [ropes, ← List.foldl_append] at later
  · exact (wellFormed p hp).beq_iff ((track_ropes points' steps').1 q hq)

/-- Three points in three runs, and the same points in one. -/
theorem ropes_answer_as_lists_twoCuts :
    ∃ p ∈ ropes #[⟨1, 1⟩, ⟨3, 3⟩] [⟨0, 1, ⟨2, 2⟩⟩],
      ∃ q ∈ ropes #[⟨1, 1⟩, ⟨2, 2⟩, ⟨3, 3⟩] [],
        p.runs.length = 3 ∧ q.runs.length = 1 ∧ (p == q) = true := by
  have made : ropes #[⟨1, 1⟩, ⟨3, 3⟩] [⟨0, 1, ⟨2, 2⟩⟩] =
      [ofArray #[⟨1, 1⟩, ⟨3, 3⟩],
        ⟨[.stored #[⟨1, 1⟩, ⟨3, 3⟩] 0 1, .single ⟨2, 2⟩, .stored #[⟨1, 1⟩, ⟨3, 3⟩] 1 2], 3⟩] := rfl
  have last := List.mem_of_getLast? (congrArg List.getLast? made)
  have first : ofArray #[⟨1, 1⟩, ⟨2, 2⟩, ⟨3, 3⟩] ∈ ropes #[⟨1, 1⟩, ⟨2, 2⟩, ⟨3, 3⟩] [] :=
    List.mem_singleton_self _
  refine ⟨_, last, _, first, rfl, rfl, ?_⟩
  exact ((ropes_answer_as_lists _ _).2.2 _ _ _ last _ first).mpr rfl

end Polyline

end RoadAtlas
