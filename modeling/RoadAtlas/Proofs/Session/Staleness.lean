import Mathlib.Data.List.Induction
import RoadAtlas.Proofs.Session.Steps

/-!
Values that are asked for before their types are registered. A session reads a value once and keeps
what came of it. What came of a registered type is what would come of it at any later time; what came
of an id that was not registered yet is a failure, and stays one when the id is registered.

* `Session.AskedEarly`: a value was asked for when its id was not registered;
* `Session.Dated`: a session keeps failures for what was asked for too early, and the truth for
  everything else that it keeps;
* `Session.value_is_fresh_unless_askedEarly` says which values are true, `Session.value_is_stale`
  that a value need not be.
-/

namespace RoadAtlas

/-- A value is missing when its id is not registered, and then only. -/
lemma Registry.value_eq_missing_iff {r : Registry} {id : ℕ} {quantity : Quantity} :
    r.value id quantity = .error (.missingTag s!"#{id}") ↔ r.pair? id = none := by
  rw [value]
  cases r.pair? id with
  | none => simp only
  | some pair =>
    simp only [Quantity.parse, reduceCtorEq, iff_false]
    cases quantity.value? pair.2 with
    | some value =>
      rintro ⟨⟩
    | none =>
      rintro ⟨⟩

namespace Session

/-! ### Values that are asked for too early -/

/-- Among some requests to a session the value of an id was asked for when the id was not
registered. -/
def AskedEarly (s : Session) (requests : List Request) (id : ℕ) (quantity : Quantity) : Prop :=
  ∃ before behind, requests = before ++ .value id quantity :: behind ∧
    (s.serveAll before).registry.pair? id = none

lemma not_askedEarly_nil {s : Session} {id : ℕ} {quantity : Quantity} :
    ¬ s.AskedEarly [] id quantity := by
  rintro ⟨before, behind, split, -⟩
  simp at split

/-- A request asks for a value too early, or it was asked for too early before. -/
lemma askedEarly_concat_iff {s : Session} {requests : List Request} {r : Request} {id : ℕ}
    {quantity : Quantity} :
    s.AskedEarly (requests ++ [r]) id quantity ↔ s.AskedEarly requests id quantity ∨
      r = .value id quantity ∧ (s.serveAll requests).registry.pair? id = none := by
  constructor
  · rintro ⟨before, behind, split, unregistered⟩
    rcases List.eq_nil_or_concat behind with rfl | ⟨behind, last, rfl⟩
    · obtain ⟨rfl, same⟩ := List.append_inj' split rfl
      exact .inr ⟨List.singleton_inj.mp same, unregistered⟩
    · rw [List.concat_eq_append, ← List.cons_append, ← List.append_assoc] at split
      obtain ⟨rfl, -⟩ := List.append_inj' split rfl
      exact .inl ⟨before, behind, rfl, unregistered⟩
  · rintro (⟨before, behind, rfl, unregistered⟩ | ⟨rfl, unregistered⟩)
    · exact ⟨before, behind ++ [r], by simp, unregistered⟩
    · exact ⟨requests, [], rfl, unregistered⟩

/-! ### What is kept -/

/-- The session keeps a failure for every value that was asked for too early. Any other value that
it keeps belongs to a registered id and is true. -/
structure Dated (early : ℕ → Quantity → Prop) (s : Session) : Prop where
  missing : ∀ id quantity, early id quantity →
    s.values.get? (id, quantity) = some (.error (.missingTag s!"#{id}"))
  fresh : ∀ id quantity value, ¬ early id quantity → s.values.get? (id, quantity) = some value →
    s.registry.pair? id ≠ none ∧ value = s.registry.value id quantity

namespace Dated

variable {early : ℕ → Quantity → Prop} {s s' : Session} {sectionId id : ℕ} {quantity : Quantity}

lemma congr {early' : ℕ → Quantity → Prop} (dated : s.Dated early)
    (same : ∀ id quantity, early' id quantity ↔ early id quantity) : s.Dated early' where
  missing id quantity asked := dated.missing id quantity ((same id quantity).mp asked)
  fresh id quantity value unasked :=
    dated.fresh id quantity value fun asked => unasked ((same id quantity).mpr asked)

/-- What is kept stays as true as it is while the registry grows. -/
lemma grow (dated : s.Dated early) (values : s'.values = s.values)
    (grown : s.registry.Extends s'.registry) : s'.Dated early where
  missing id quantity asked := values ▸ dated.missing id quantity asked
  fresh id quantity value unasked kept := by
    rw [values] at kept
    obtain ⟨registered, rfl⟩ := dated.fresh id quantity value unasked kept
    refine ⟨grown.pair?_ne_none registered, ?_⟩
    rw [Registry.value, Registry.value, grown.pair?_eq_of_ne_none registered]

/-- A value is given: the failure if it was asked for too early, and else the truth. -/
lemma valueGiven (dated : s.Dated early) (id : ℕ) (quantity : Quantity) :
    (early id quantity → s.valueGiven id quantity = .error (.missingTag s!"#{id}")) ∧
      (¬ early id quantity → s.valueGiven id quantity = s.registry.value id quantity) := by
  rw [valueGiven_eq]
  constructor
  · intro asked
    rw [dated.missing id quantity asked]
    rfl
  · intro unasked
    cases kept : s.values.get? (id, quantity) with
    | some value => exact (dated.fresh id quantity value unasked kept).2
    | none => rfl

/-- A value is read, and too early if its id is not registered. -/
lemma read (dated : s.Dated early) (id : ℕ) (quantity : Quantity) :
    (s.after (value id quantity)).Dated fun id' quantity' => early id' quantity' ∨
      (id', quantity') = (id, quantity) ∧ s.registry.pair? id = none := by
  have registry := (s.value_differsInValues id quantity).registry
  constructor
  case missing =>
    intro id' quantity' asked
    rw [get?_values_after_value]
    split
    next same =>
      cases same
      by_cases before : early id quantity
      · rw [(dated.valueGiven id quantity).1 before]
      · obtain ⟨-, unregistered⟩ := asked.resolve_left before
        rw [(dated.valueGiven id quantity).2 before, Registry.value_eq_missing_iff.mpr unregistered]
    next other => exact dated.missing id' quantity' (asked.resolve_right fun now => other now.1)
  case fresh =>
    intro id' quantity' value' unasked kept
    obtain ⟨before, now⟩ := not_or.mp unasked
    rw [registry]
    rw [get?_values_after_value] at kept
    split at kept
    next same =>
      cases same
      cases kept
      exact ⟨fun unregistered => now ⟨rfl, unregistered⟩, (dated.valueGiven id quantity).2 before⟩
    next => exact dated.fresh id' quantity' value' before kept

/-- Values of registered ids are read in time. -/
lemma readAll {asked : List (ℕ × Quantity)} (dated : s.Dated early)
    (registered : ∀ a ∈ asked, s.registry.pair? a.1 ≠ none) : (s.readAll asked).Dated early := by
  induction asked generalizing s with
  | nil => exact dated
  | cons a rest ih =>
    obtain ⟨first, others⟩ := List.forall_mem_cons.mp registered
    have next : (s.after (value a.1 a.2)).Dated early := by
      have read := dated.read a.1 a.2
      simpa only [first, and_false, or_false] using read
    refine ih next fun a' ha' => ?_
    rw [(s.value_differsInValues a.1 a.2).registry]
    exact others a' ha'

lemma settleAll (dated : s.Dated early) (sectionId : ℕ) (types : List UInt32) :
    (s.settleAll sectionId types).Dated early :=
  settleAll_induction (fun _ _ _ rule _ _ _ dated =>
    dated.grow rfl (Registry.extends_register _ rule.pair)) types dated

/-- Every step reads values in time. -/
lemma take (dated : s.Dated early) (step : Step) : (s.take step).Dated early := by
  cases step with
  | attach sectionId rules =>
    rw [Session.take, attach]
    split
    · exact dated
    · exact dated.grow rfl (.refl _)
  | settle sectionId types =>
    by_cases known : s.isAttached sectionId
    · rw [Session.take, after, universalTypes_run known]
      exact dated.settleAll sectionId types
    · rw [Session.take, after_universalTypes_of_unknown known]
      exact dated
  | evaluate kind sectionId types =>
    rw [Session.take]
    split
    next known =>
      cases kept : s.results.get? (resultKey kind sectionId types) with
      | some result =>
        rw [after_evaluateTypes_of_kept kept]
        exact dated.grow rfl (.refl _)
      | none =>
        obtain ⟨registered, result, evaluated⟩ := after_evaluateTypes_of_new known kept
        rw [evaluated]
        have settled := dated.settleAll sectionId (resultKey kind sectionId types).types
        have counted : (s.settleAll sectionId
            (resultKey kind sectionId types).types).countEvaluation.Dated early :=
          settled.grow rfl (.refl _)
        exact (counted.readAll registered).grow rfl (.refl _)
    next => exact dated
  | setParameter name value => exact dated.grow rfl (.refl _)
  | avoid roadId => exact dated.grow rfl (.refl _)
  | register pair => exact dated.grow rfl (Registry.extends_add _ pair)

lemma takeAll (dated : s.Dated early) (steps : List Step) : (s.takeAll steps).Dated early := by
  induction steps generalizing s with
  | nil => exact dated
  | cons step rest ih => exact ih (dated.take step)

/-- A request leaves a session behind that keeps a failure for one more value at most. -/
lemma serve {requests : List Request} {s₀ : Session} (dated : (s₀.serveAll requests).Dated
    (s₀.AskedEarly requests)) (r : Request) :
    ((s₀.serveAll requests).serve r).Dated (s₀.AskedEarly (requests ++ [r])) := by
  cases r with
  | operation op =>
    rw [Session.serve, perform_eq_takeAll]
    refine (dated.takeAll ((s₀.serveAll requests).steps op)).congr fun id quantity => ?_
    rw [askedEarly_concat_iff, or_iff_left]
    rintro ⟨⟨⟩, -⟩
  | value id quantity =>
    refine (dated.read id quantity).congr fun id' quantity' => ?_
    rw [askedEarly_concat_iff, Request.value.injEq, Prod.mk.injEq]
    refine or_congr_right ?_
    constructor
    · rintro ⟨⟨rfl, rfl⟩, unregistered⟩
      exact ⟨⟨rfl, rfl⟩, unregistered⟩
    · rintro ⟨⟨rfl, rfl⟩, unregistered⟩
      exact ⟨⟨rfl, rfl⟩, unregistered⟩

end Dated

/-- Whatever is asked of a session, it keeps failures for what was asked for too early only. -/
lemma serveAll_dated (profile : Profile) (registry : Registry) (requests : List Request) :
    ((start profile registry).serveAll requests).Dated
      ((start profile registry).AskedEarly requests) := by
  induction requests using List.reverseRecOn with
  | nil => exact ⟨fun _ _ early => absurd early not_askedEarly_nil, fun _ _ _ _ none => nomatch none⟩
  | append_singleton requests r ih =>
    rw [serveAll_concat]
    exact ih.serve r

/-- A value is true unless it was asked for too early. Whatever has been asked of a session, the
value of an id is the one that the registry has for it now, and so it is missing exactly while the id
is not registered, if the value was never asked for before the id was registered; if it was, then it
is missing for good. -/
theorem value_is_fresh_unless_askedEarly (profile : Profile) (registry : Registry)
    (requests : List Request) (id : ℕ) (quantity : Quantity) :
    let s := (start profile registry).serveAll requests
    let given := ((value id quantity).run s).1
    let early := (start profile registry).AskedEarly requests id quantity
    (¬ early → given = s.registry.value id quantity) ∧
      (early → given = .error (.missingTag s!"#{id}")) ∧
      (s.registry.value id quantity = .error (.missingTag s!"#{id}") ↔
        s.registry.pair? id = none) := by
  intro s given early
  obtain ⟨missing, fresh⟩ := (serveAll_dated profile registry requests).valueGiven id quantity
  exact ⟨fresh, missing, Registry.value_eq_missing_iff⟩

/-- A value that is asked for before its id is registered, and again afterwards, is missing both
times. -/
theorem value_is_stale :
    let s := (start { name := "car" } {}).serveAll
      [.value 0 .number, .operation (.register ("maxspeed", "50"))]
    s.registry.pair? 0 = some ("maxspeed", "50") ∧
      ((value 0 .number).run s).1 = .error (.missingTag s!"#{0}") ∧
      s.registry.value 0 .number ≠ .error (.missingTag s!"#{0}") := by
  intro s
  refine ⟨rfl, rfl, fun missing => ?_⟩
  cases Registry.value_eq_missing_iff.mp missing

end Session

end RoadAtlas
