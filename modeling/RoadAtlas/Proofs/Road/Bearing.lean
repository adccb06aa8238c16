import Mathlib.Algebra.Order.BigOperators.Group.List
import Mathlib.Algebra.Order.Ring.Rat
import Mathlib.Tactic.Linarith
import Mathlib.Tactic.NormNum
import RoadAtlas.Proofs.Road.Polyline
import RoadAtlas.Road.Bearing

/-!
Where the point lies that a bearing is taken towards. The walk adds up how far each point is from
the origin. That is not the length walked: on a straight way the first stretch is counted again with
every point, and where the way turns back the length grows without the distance.

* `Pause`: the step after which a walk has covered enough, or the last one; `exists_pause_reach`
  says that `reach` makes it, whatever lengths are;
* `Point.exactMetres`: the Manhattan length with the factors as exact numbers, a distance;
* `scanLength`, `wayLength`: what the walk adds up, and the length of the way along the road;
* `scanLength_le`, `wayLength_le`: the two bound each other;
* `Road.bearing_scans`: where the bearing is taken, and how that compares with the first point at
  which the distance is covered along the road;
* `Road.bearing_falls_short`: they are not the same.
-/

namespace RoadAtlas

/-! ### The pause of a walk -/

/-- A walk of `last` steps pauses at a step: the first from which it need not go on, or the last. A
walk of no steps stays where it is, any other one takes a step before it looks. -/
structure Pause (enough : ℕ → Prop) (last k : ℕ) : Prop where
  le_last : k ≤ last
  before : ∀ j, 0 < j → j < k → ¬ enough j
  arrived : k = last ∨ 0 < k ∧ enough k

namespace Pause

variable {enough enough' : ℕ → Prop} {last k k' : ℕ}

/-- A walk with less to cover pauses no later. -/
lemma le (h : Pause enough last k) (h' : Pause enough' last k') (less : ∀ j, enough' j → enough j) :
    k ≤ k' := by
  by_contra! later
  rcases h'.arrived with rfl | ⟨moved, covered⟩
  · exact absurd h.le_last (Nat.not_le_of_lt later)
  · exact h.before k' moved later (less k' covered)

/-- A walk pauses at one step only. -/
lemma unique (h : Pause enough last k) (h' : Pause enough last k') : k = k' :=
  Nat.le_antisymm (h.le h' fun _ => id) (h'.le h fun _ => id)

/-- Two measures have the same pause where they agree about every step up to it; the last step is
made anyhow. -/
lemma iff_agree (h : Pause enough last k) : Pause enough' last k ↔
    ∀ j, 0 < j → j ≤ k → j < last → (enough j ↔ enough' j) := by
  constructor
  · intro h' j moved le ahead
    rcases le.lt_or_eq with earlier | rfl
    · exact iff_of_false (h.before j moved earlier) (h'.before j moved earlier)
    · exact iff_of_true (h.arrived.resolve_left ahead.ne).2 (h'.arrived.resolve_left ahead.ne).2
  · intro agree
    refine ⟨h.le_last, fun j moved earlier => ?_, ?_⟩
    · have ahead := earlier.trans_le h.le_last
      exact mt (agree j moved earlier.le ahead).mpr (h.before j moved earlier)
    · rcases h.le_last.eq_or_lt with last | ahead
      · exact .inl last
      · obtain ⟨moved, arrived⟩ := h.arrived.resolve_left ahead.ne
        exact .inr ⟨moved, (agree k moved le_rfl ahead).mp arrived⟩

/-- Where the first step is enough, or there is one more at most, only the first step matters. -/
lemma of_first (h : Pause enough last k) (same : enough 1 ↔ enough' 1)
    (near : last ≤ 2 ∨ enough 1) : Pause enough' last k := by
  refine h.iff_agree.mpr fun j moved le ahead => ?_
  have first : j = 1 := by
    rcases near with short | done
    · omega
    · by_contra! later
      exact h.before 1 one_pos (by omega) done
  rwa [first]

end Pause

section Reach

variable {length : Type} [Add length]

/-- What a walk has covered behind some points, with what it had covered before them. -/
def runningTotal (cost : Point → length) (covered : length) (points : List Point) : length :=
  points.foldl (fun covered p => covered + cost p) covered

/-- Where a walk ends is where it pauses: at the first point up to which its total is enough. -/
lemma exists_pause_reach (cost : Point → length) (enough : length → Prop) [DecidablePred enough]
    (covered : length) (here : Point) (way : List Point) :
    ∃ k, Pause (fun j => enough (runningTotal cost covered (way.take j))) way.length k ∧
      (here :: way)[k]? = some (reach cost (fun c => enough c) covered here way) := by
  induction way generalizing covered here with
  | nil => exact ⟨0, ⟨le_rfl, fun j moved earlier => by omega, .inl rfl⟩, rfl⟩
  | cons next rest ih =>
    rw [reach]
    by_cases done : enough (covered + cost next)
    · refine ⟨1, ⟨Nat.succ_le_succ (Nat.zero_le _), fun j moved earlier => by omega,
        .inr ⟨one_pos, done⟩⟩, ?_⟩
      rw [if_pos (decide_eq_true done)]
      rfl
    · -- the walk goes on, and pauses one step later than it does from the next point
      obtain ⟨k, pause, found⟩ := ih (covered + cost next) next
      rw [if_neg (by rwa [decide_eq_true_iff])]
      refine ⟨k + 1, ⟨Nat.succ_le_succ pause.le_last, fun j moved earlier => ?_, ?_⟩, found⟩
      · obtain ⟨j, rfl⟩ := Nat.exists_eq_succ_of_ne_zero moved.ne'
        rcases Nat.eq_zero_or_pos j with rfl | moved
        · exact done
        · exact pause.before j moved (Nat.lt_of_succ_lt_succ earlier)
      · exact pause.arrived.imp (congrArg Nat.succ) fun arrived => ⟨k.succ_pos, arrived.2⟩

end Reach

/-! ### Exact lengths -/

/-- The Manhattan length between two points, with the metres per unit as exact numbers. -/
def Point.exactMetres : Point → Point → ℚ :=
  Point.manhattan (fun units => units * (11 / 1000)) (fun units => units * (1863 / 100000))

namespace Point

lemma exactMetres_eq (p q : Point) : p.exactMetres q =
    (p.offsetTo q).1.natAbs * (11 / 1000) + (p.offsetTo q).2.natAbs * (1863 / 100000) := rfl

lemma exactMetres_nonneg (p q : Point) : 0 ≤ p.exactMetres q := by
  rw [exactMetres_eq]
  positivity

lemma exactMetres_self (p : Point) : p.exactMetres p = 0 := by
  simp [exactMetres_eq, offsetTo]

lemma exactMetres_comm (p q : Point) : p.exactMetres q = q.exactMetres p := by
  have x : (p.offsetTo q).1.natAbs = (q.offsetTo p).1.natAbs := by
    simp only [offsetTo]
    omega
  have y : (p.offsetTo q).2.natAbs = (q.offsetTo p).2.natAbs := by
    simp only [offsetTo]
    omega
  rw [exactMetres_eq, exactMetres_eq, x, y]

lemma exactMetres_triangle (p q r : Point) :
    p.exactMetres r ≤ p.exactMetres q + q.exactMetres r := by
  have x : (p.offsetTo r).1.natAbs ≤ (p.offsetTo q).1.natAbs + (q.offsetTo r).1.natAbs := by
    simp only [offsetTo]
    omega
  have y : (p.offsetTo r).2.natAbs ≤ (p.offsetTo q).2.natAbs + (q.offsetTo r).2.natAbs := by
    simp only [offsetTo]
    omega
  have x' : ((p.offsetTo r).1.natAbs : ℚ) ≤ (p.offsetTo q).1.natAbs + (q.offsetTo r).1.natAbs := by
    exact_mod_cast x
  have y' : ((p.offsetTo r).2.natAbs : ℚ) ≤ (p.offsetTo q).2.natAbs + (q.offsetTo r).2.natAbs := by
    exact_mod_cast y
  rw [exactMetres_eq, exactMetres_eq, exactMetres_eq]
  linarith

end Point

/-! ### Added up from the origin, and along the way -/

/-- How far some points are from the origin, added up. -/
def scanLength (origin : Point) (points : List Point) : ℚ :=
  runningTotal origin.exactMetres 0 points

/-- The length of the way from a point through others. -/
def wayLength : Point → List Point → ℚ
  | _, [] => 0
  | here, next :: rest => here.exactMetres next + wayLength next rest

section Lengths

variable {origin here p : Point} {points : List Point}

lemma runningTotal_eq (cost : Point → ℚ) (covered : ℚ) (points : List Point) :
    runningTotal cost covered points = covered + (points.map cost).sum := by
  induction points generalizing covered with
  | nil => exact (add_zero covered).symm
  | cons p points ih =>
    rw [List.map_cons, List.sum_cons, ← add_assoc, ← ih]
    rfl

lemma scanLength_eq (origin : Point) (points : List Point) :
    scanLength origin points = (points.map origin.exactMetres).sum :=
  (runningTotal_eq _ _ _).trans (zero_add _)

lemma wayLength_nonneg (here : Point) (points : List Point) : 0 ≤ wayLength here points := by
  induction points generalizing here with
  | nil => exact le_rfl
  | cons next rest ih => exact add_nonneg (here.exactMetres_nonneg next) (ih next)

/-- No point of a way is farther from its start than the way is long. -/
lemma exactMetres_le_wayLength (onWay : p ∈ points) :
    here.exactMetres p ≤ wayLength here points := by
  induction points generalizing here with
  | nil => cases onWay
  | cons next rest ih =>
    rcases List.mem_cons.mp onWay with rfl | later
    · exact le_add_of_nonneg_right (wayLength_nonneg p rest)
    · calc here.exactMetres p
          ≤ here.exactMetres next + next.exactMetres p := here.exactMetres_triangle next p
        _ ≤ here.exactMetres next + wayLength next rest := by gcongr; exact ih later

/-- Each point adds at most the length of the way. -/
lemma scanLength_le (origin : Point) (points : List Point) :
    scanLength origin points ≤ points.length * wayLength origin points := by
  rw [scanLength_eq]
  calc (points.map origin.exactMetres).sum
      ≤ (points.map origin.exactMetres).length • wayLength origin points := by
        refine List.sum_le_card_nsmul _ _ fun metres listed => ?_
        obtain ⟨p, onWay, rfl⟩ := List.mem_map.mp listed
        exact exactMetres_le_wayLength onWay
    _ = points.length * wayLength origin points := by rw [List.length_map, nsmul_eq_mul]

/-- Between two points, one may as well go by the origin. -/
lemma wayLength_le_add (origin here : Point) (points : List Point) :
    wayLength here points ≤ origin.exactMetres here + 2 * scanLength origin points := by
  rw [scanLength_eq]
  induction points generalizing here with
  | nil =>
    rw [wayLength, List.map_nil, List.sum_nil, mul_zero, add_zero]
    exact origin.exactMetres_nonneg here
  | cons next rest ih =>
    have byOrigin := here.exactMetres_triangle origin next
    rw [here.exactMetres_comm origin] at byOrigin
    rw [wayLength, List.map_cons, List.sum_cons]
    linarith [ih next]

lemma wayLength_le (origin : Point) (points : List Point) :
    wayLength origin points ≤ 2 * scanLength origin points := by
  have bound := wayLength_le_add origin origin points
  rwa [origin.exactMetres_self, zero_add] at bound

/-- The way keeps heading away: to each of its points it is as long as the point is far. -/
def Outbound (origin : Point) (way : List Point) : Prop :=
  ∀ front, front <+: way → ∀ p ∈ front.getLast?, wayLength origin front = origin.exactMetres p

lemma Outbound.wayLength_le {way : List Point} (outbound : Outbound origin way)
    (inFront : points <+: way) : wayLength origin points ≤ scanLength origin points := by
  rw [scanLength_eq]
  rcases points.eq_nil_or_concat with rfl | ⟨front, p, rfl⟩
  · exact le_rfl
  · rw [outbound _ inFront p (by simp)]
    refine List.single_le_sum ?_ _ (by simp)
    intro metres listed
    obtain ⟨q, -, rfl⟩ := List.mem_map.mp listed
    exact origin.exactMetres_nonneg q

end Lengths

/-! ### The point of a smoothed bearing -/

/-- A step at which a distance is covered along the way, or the last one. -/
abbrev Covered (origin : Point) (way : List Point) (distance : ℚ) : ℕ → Prop :=
  Pause (fun j => distance ≤ wayLength origin (way.take j)) way.length

/-- A step at which the distances from the origin add up to enough, and what that says about the
length of the way. -/
structure Scanned (origin : Point) (way : List Point) (distance : ℚ) (k : ℕ) : Prop where
  pause : Pause (fun j => distance ≤ scanLength origin (way.take j)) way.length k
  /-- Up to here the way was not twice as long as it had to be. -/
  wayLength_lt : ∀ j < k, wayLength origin (way.take j) < 2 * distance
  /-- Unless the way ends here, each step has had its share of the distance. -/
  le_wayLength : k < way.length → distance ≤ k * wayLength origin (way.take k)
  /-- On a way that keeps heading away, the distance is not covered earlier. -/
  le_covered : Outbound origin way → ∀ k', Covered origin way distance k' → k ≤ k'
  /-- The distance is covered here if up to here it is covered as soon as it is scanned. -/
  covered_iff : Covered origin way distance k ↔ ∀ j, 0 < j → j ≤ k → j < way.length →
    (distance ≤ scanLength origin (way.take j) ↔ distance ≤ wayLength origin (way.take j))
  /-- With two points ahead at most, or a first one that is far enough, it is. -/
  covered_of_near : way.length ≤ 2 ∨ distance ≤ wayLength origin (way.take 1) →
    Covered origin way distance k

lemma scanned_of_pause {origin : Point} {way : List Point} {distance : ℚ} {k : ℕ}
    (positive : 0 < distance)
    (pause : Pause (fun j => distance ≤ scanLength origin (way.take j)) way.length k) :
    Scanned origin way distance k where
  pause := pause
  wayLength_lt := by
    intro j earlier
    rcases Nat.eq_zero_or_pos j with rfl | moved
    · rw [List.take_zero, wayLength]
      linarith
    · have short := not_le.mp (pause.before j moved earlier)
      linarith [wayLength_le origin (way.take j)]
  le_wayLength := by
    intro ahead
    rcases pause.arrived with rfl | ⟨-, enough⟩
    · exact absurd ahead (Nat.lt_irrefl _)
    · have bound := scanLength_le origin (way.take k)
      rw [List.length_take_of_le ahead.le] at bound
      exact enough.trans bound
  le_covered := by
    intro outbound k' covered
    refine pause.le covered fun j enough => ?_
    exact enough.trans (outbound.wayLength_le (List.take_prefix j way))
  covered_iff := pause.iff_agree
  covered_of_near := by
    have same : scanLength origin (way.take 1) = wayLength origin (way.take 1) := by
      cases way with
      | nil => rfl
      | cons next rest =>
        rw [scanLength_eq, List.take_succ_cons, List.take_zero, List.map_singleton,
          List.sum_singleton, wayLength, wayLength, add_zero]
    intro near
    rw [← same] at near
    exact pause.of_first (by rw [same]) near

/-! ### The bearing of a road -/

namespace Road

variable {r : Road} {index : ℕ} {origin : Point}

lemma length_pathFrom (wellFormed : r.points.WellFormed) (found : r.points.get? index = some origin)
    (forward : Bool) : (r.pathFrom index forward).length =
      if forward then r.points.size - 1 - index else index := by
  have answers := wellFormed.answersAs
  rw [answers.get?_eq] at found
  obtain ⟨inside, -⟩ := List.getElem?_eq_some_iff.mp found
  rw [pathFrom, answers.size_eq]
  cases forward with
  | true =>
    rw [if_pos rfl, if_pos rfl, List.length_drop]
    omega
  | false =>
    rw [if_neg Bool.false_ne_true, if_neg Bool.false_ne_true, List.length_reverse,
      List.length_take_of_le inside.le]

/-- The points ahead of a point are those at the indices after it, or before it. -/
lemma cons_pathFrom (wellFormed : r.points.WellFormed) (found : r.points.get? index = some origin)
    (forward : Bool) {k : ℕ} (ahead : k ≤ (r.pathFrom index forward).length) :
    (origin :: r.pathFrom index forward)[k]? =
      r.points.get? (if forward then index + k else index - k) := by
  have answers := wellFormed.answersAs
  rw [length_pathFrom wellFormed found] at ahead
  rw [answers.get?_eq] at found ⊢
  obtain ⟨inside, here⟩ := List.getElem?_eq_some_iff.mp found
  rw [pathFrom, ← here]
  cases forward with
  | true =>
    rw [if_pos rfl, if_pos rfl, List.getElem_cons_drop, List.getElem?_drop]
  | false =>
    rw [if_neg Bool.false_ne_true] at ahead
    rw [if_neg Bool.false_ne_true, if_neg Bool.false_ne_true, ← List.reverse_concat,
      List.take_concat_get', List.getElem?_reverse, List.length_take_of_le inside,
      List.getElem?_take_of_lt]
    · rw [Nat.succ_sub_one]
    · omega
    · rw [List.length_take_of_le inside]
      omega

/-- The bearing at a point of a road is taken towards the first point ahead at which the distances
from the origin, not the lengths walked, add up to enough; with exact lengths, the way up to it is
as long as `Scanned` says. -/
theorem bearing_scans (wellFormed : r.points.WellFormed)
    (found : r.points.get? index = some origin) (forward : Bool) :
    let way := r.pathFrom index forward
    way.length = (if forward then r.points.size - 1 - index else index) ∧
    (∀ k ≤ way.length,
      (origin :: way)[k]? = r.points.get? (if forward then index + k else index - k)) ∧
    (∀ distance : Float, ∃ k target, (origin :: way)[k]? = some target ∧
      Pause (fun j => distance ≤ runningTotal origin.manhattanMetres 0.0 (way.take j))
        way.length k ∧
      r.bearing index forward distance = some (angleTo origin target)) ∧
    ∀ distance : ℚ, 0 < distance → ∃ k, Scanned origin way distance k ∧
      (origin :: way)[k]? = some
        (smoothingTarget Point.exactMetres 0 (fun covered => distance ≤ covered) origin way) := by
  intro way
  refine ⟨length_pathFrom wellFormed found forward,
    fun k ahead => cons_pathFrom wellFormed found forward ahead, ?_, ?_⟩
  · intro distance
    obtain ⟨k, pause, target⟩ := exists_pause_reach origin.manhattanMetres
      (fun covered => distance ≤ covered) 0.0 origin way
    refine ⟨k, _, target, pause, ?_⟩
    rw [bearing, found]
    rfl
  · intro distance positive
    obtain ⟨k, pause, target⟩ := exists_pause_reach origin.exactMetres
      (fun covered => distance ≤ covered) 0 origin way
    exact ⟨k, scanned_of_pause positive pause, target⟩

/-- A road with a bend after its third point. -/
def bentRoad : Road where
  id := 1
  sectionId := 0
  points := .ofArray #[⟨0, 0⟩, ⟨200, 0⟩, ⟨400, 0⟩, ⟨400, 400⟩]

theorem bearing_scans_bentRoad : ∃ k,
    Scanned ⟨0, 0⟩ (bentRoad.pathFrom 0 true) 5 k ∧
    (⟨0, 0⟩ :: bentRoad.pathFrom 0 true)[k]? = some ⟨400, 0⟩ := by
  have wellFormed : bentRoad.points.WellFormed :=
    Polyline.wellFormed_ofArray #[⟨0, 0⟩, ⟨200, 0⟩, ⟨400, 0⟩, ⟨400, 400⟩]
  have found : bentRoad.points.get? 0 = some ⟨0, 0⟩ := by decide
  obtain ⟨k, scanned, target⟩ := (bearing_scans wellFormed found true).2.2.2 5 (by norm_num)
  refine ⟨k, scanned, target.trans ?_⟩
  decide +kernel

/-- Five metres along the road lead to its last point, but the bearing over five metres is taken
towards the point before it: the first two points are 2.2 and 4.4 metres from the origin. -/
theorem bearing_falls_short :
    bentRoad.bearing 0 true 5.0 = some (angleTo ⟨0, 0⟩ ⟨400, 0⟩) ∧
    smoothingTarget Point.exactMetres 0 (fun covered => 5 ≤ covered) ⟨0, 0⟩
      (bentRoad.pathFrom 0 true) = ⟨400, 0⟩ ∧
    (∀ k, Covered ⟨0, 0⟩ (bentRoad.pathFrom 0 true) 5 k ↔ k = 3) ∧
    (⟨0, 0⟩ :: bentRoad.pathFrom 0 true)[3]? = some ⟨400, 400⟩ := by
  have target : smoothingTarget Point.manhattanMetres 0.0
      (fun covered => decide ((5.0 : Float) ≤ covered)) ⟨0, 0⟩ (bentRoad.pathFrom 0 true) =
      ⟨400, 0⟩ := by
    decide +kernel
  have short : ∀ j < 3, ¬ 5 ≤ wayLength ⟨0, 0⟩ ((bentRoad.pathFrom 0 true).take j) := by
    decide +kernel
  have covered : Covered ⟨0, 0⟩ (bentRoad.pathFrom 0 true) 5 3 :=
    ⟨le_rfl, fun j _ earlier => short j earlier, .inl rfl⟩
  refine ⟨?_, by decide +kernel, fun k => ⟨fun h => h.unique covered, ?_⟩, rfl⟩
  · rw [← target]
    rfl
  · rintro rfl
    exact covered

end Road

end RoadAtlas
