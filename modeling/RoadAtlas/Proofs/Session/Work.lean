import Mathlib.Data.Finset.Card
import RoadAtlas.Proofs.Session.Account

/-!
The work of a session. Universal ids are found once, values are read once, and a ruleset is evaluated
once as long as no parameter is set, whatever is asked of a session and however often.

* `Session.resultKey_eq_iff`: two rulesets share a result when their kinds, their sections and the
  sets of their types are the same;
* `Session.EvaluatedSince`: the rulesets that were evaluated since some time are those whose results
  are kept;
* `Session.work_is_done_once` puts it together with the account of the session.
-/

namespace RoadAtlas

namespace Session

/-! ### Keys -/

lemma nodup_eraseDups (types : List UInt32) : types.eraseDups.Nodup := by
  match types with
  | [] =>
    rw [List.eraseDups_nil]
    exact .nil
  | type :: rest =>
    rw [List.eraseDups_cons, List.nodup_cons, List.mem_eraseDups]
    refine ⟨by simp, ?_⟩
    have shorter := List.length_filter_le (fun other => !other == type) rest
    exact nodup_eraseDups _
termination_by types.length
decreasing_by
  rw [List.length_cons]
  omega

lemma pairwise_resultKey (kind : RulesetKind) (sectionId : ℕ) (types : Array UInt32) :
    (resultKey kind sectionId types).types.Pairwise (· ≤ ·) := by
  have sorted : (types.toList.eraseDups.mergeSort fun a b => decide (a ≤ b)).Pairwise
      fun a b => decide (a ≤ b) = true :=
    List.pairwise_mergeSort (fun a b c => by simpa using UInt32.le_trans)
      (fun a b => by simpa using UInt32.le_total a b) _
  simpa [resultKey] using sorted

/-- A result is kept by its ruleset, its section and the set of its types. -/
lemma resultKey_eq_iff {kind kind' : RulesetKind} {sectionId sectionId' : ℕ}
    {types types' : Array UInt32} :
    resultKey kind sectionId types = resultKey kind' sectionId' types' ↔
      (kind, sectionId, types.toList.toFinset) = (kind', sectionId', types'.toList.toFinset) := by
  have members : types.toList.toFinset = types'.toList.toFinset ↔
      ∀ type, type ∈ types.toList ↔ type ∈ types'.toList := by
    simp only [Finset.ext_iff, List.mem_toFinset]
  rw [Prod.mk.injEq, Prod.mk.injEq, members]
  constructor
  · intro same
    refine ⟨congrArg ResultKey.kind same, congrArg ResultKey.sectionId same, fun type => ?_⟩
    rw [← mem_resultKey kind sectionId, same, mem_resultKey]
  · rintro ⟨rfl, rfl, same⟩
    -- lists that ascend are told apart by how often they hold each type, here once at most
    have once : types.toList.eraseDups.Perm types'.toList.eraseDups :=
      (List.perm_ext_iff_of_nodup (nodup_eraseDups _) (nodup_eraseDups _)).mpr fun type => by
        rw [List.mem_eraseDups, List.mem_eraseDups, same]
    have perm : (resultKey kind sectionId types).types.Perm
        (resultKey kind sectionId types').types :=
      (List.mergeSort_perm ..).trans (once.trans (List.mergeSort_perm ..).symm)
    have equal := perm.eq_of_pairwise (fun _ _ _ _ => UInt32.le_antisymm)
      (pairwise_resultKey kind sectionId types) (pairwise_resultKey kind sectionId types')
    exact congrArg (ResultKey.mk kind sectionId) equal

/-! ### Evaluations while no parameter is set -/

/-- The request sets a parameter. -/
def Request.setsParameter : Request → Bool
  | .operation (.setParameter ..) => true
  | _ => false

/-- Every ruleset of a set was evaluated once since a number of evaluations was counted, and the
results of these are the ones that are kept. -/
structure EvaluatedSince (earlier : ℕ) (rulesets : Finset (RulesetKind × ℕ × Finset UInt32))
    (s : Session) : Prop where
  counted : s.statistics.evaluations = earlier + rulesets.card
  mem_iff : ∀ kind sectionId (types : Array UInt32),
    (kind, sectionId, types.toList.toFinset) ∈ rulesets ↔
      (s.results.get? (resultKey kind sectionId types)).isSome

namespace EvaluatedSince

variable {earlier : ℕ} {rulesets : Finset (RulesetKind × ℕ × Finset UInt32)} {s s' : Session}

lemma of_same (since : s.EvaluatedSince earlier rulesets) (results : s'.results = s.results)
    (counted : s'.statistics.evaluations = s.statistics.evaluations) :
    s'.EvaluatedSince earlier rulesets where
  counted := counted.trans since.counted
  mem_iff kind sectionId types := by rw [since.mem_iff, results]

/-- A ruleset that is asked for is evaluated unless it is in the set. -/
lemma evaluate (since : s.EvaluatedSince earlier rulesets) {sectionId : ℕ}
    (known : s.isAttached sectionId) (kind : RulesetKind) (types : Array UInt32) :
    (s.after (evaluateTypes kind sectionId types)).EvaluatedSince earlier
      (insert (kind, sectionId, types.toList.toFinset) rulesets) := by
  have member := since.mem_iff kind sectionId types
  cases kept : s.results.get? (resultKey kind sectionId types) with
  | some result =>
    rw [Finset.insert_eq_of_mem (member.mpr (kept ▸ Option.isSome_some)),
      after_evaluateTypes_of_kept kept]
    exact since.of_same rfl rfl
  | none =>
    obtain ⟨-, result, evaluated⟩ := after_evaluateTypes_of_new known kept
    rw [kept] at member
    let counted := (s.settleAll sectionId (resultKey kind sectionId types).types).countEvaluation
    let more := counted.valuesFor kind sectionId (resultKey kind sectionId types).types
    have read : s.after (evaluateTypes kind sectionId types) =
        (counted.readAll more).keepResult (resultKey kind sectionId types) result := evaluated
    obtain ⟨-, results, -, evaluations, -⟩ :=
      s.settleAll_leaves sectionId (resultKey kind sectionId types).types
    have results' : (counted.readAll more).results = s.results :=
      (counted.readAll_differsInValues more).results.trans results
    rw [read]
    constructor
    case counted =>
      have unasked : (kind, sectionId, types.toList.toFinset) ∉ rulesets := by
        rw [member]
        exact Bool.false_ne_true
      rw [Finset.card_insert_of_notMem unasked, ← Nat.add_assoc, ← since.counted, ← evaluations]
      exact (counted.readAll_leaves more).2.1
    case mem_iff =>
      intro kind' j types'
      rw [Finset.mem_insert, since.mem_iff, ← resultKey_eq_iff, keepResult, Memo.get?_store,
        results']
      split
      next same => simp [same]
      next differs => simp [differs]

lemma take (since : s.EvaluatedSince earlier rulesets) {step : Step}
    (unset : ∀ name value, step ≠ .setParameter name value) :
    (s.take step).EvaluatedSince earlier (rulesets ∪ (s.askedBy step).rulesets.toFinset) := by
  cases step with
  | attach sectionId rules =>
    rw [askedBy, List.toFinset_nil, Finset.union_empty, Session.take, Session.attach]
    split
    · exact since
    · exact since.of_same rfl rfl
  | settle sectionId types =>
    rw [askedBy, List.toFinset_nil, Finset.union_empty, Session.take]
    by_cases known : s.isAttached sectionId
    · obtain ⟨-, results, -, evaluations, -⟩ := s.settleAll_leaves sectionId types
      rw [after, universalTypes_run known]
      exact since.of_same results evaluations
    · rw [after_universalTypes_of_unknown known]
      exact since
  | evaluate kind sectionId types =>
    rw [askedBy, Session.take]
    split
    next known =>
      rw [List.toFinset_cons, List.toFinset_nil, insert_empty_eq, Finset.union_comm,
        ← Finset.insert_eq]
      exact since.evaluate known kind types
    next =>
      rw [List.toFinset_nil, Finset.union_empty]
      exact since
  | setParameter name value => exact absurd rfl (unset name value)
  | avoid roadId =>
    rw [askedBy, List.toFinset_nil, Finset.union_empty]
    exact since.of_same rfl rfl
  | register pair =>
    rw [askedBy, List.toFinset_nil, Finset.union_empty]
    exact since.of_same rfl rfl

lemma takeAll (since : s.EvaluatedSince earlier rulesets) {steps : List Step}
    (unset : ∀ step ∈ steps, ∀ name value, step ≠ .setParameter name value) :
    (s.takeAll steps).EvaluatedSince earlier
      (rulesets ∪ (s.askedByAll steps).rulesets.toFinset) := by
  induction steps generalizing s rulesets with
  | nil =>
    rw [askedByAll, List.toFinset_nil, Finset.union_empty]
    exact since
  | cons step rest ih =>
    obtain ⟨first, others⟩ := List.forall_mem_cons.mp unset
    rw [askedByAll, Asked.rulesets_append, List.toFinset_append, ← Finset.union_assoc]
    exact ih (since.take first) others

end EvaluatedSince

/-- Only the operation that sets a parameter has a step that does. -/
lemma eq_setParameter_of_mem_steps {s : Session} {op : Operation} {name value : String}
    (h : .setParameter name value ∈ s.steps op) : op = .setParameter name value := by
  have unoffered (road : Road) : .setParameter name value ∉ offered road := by simp [offered]
  cases op with
  | setParameter name' value' =>
    cases List.mem_singleton.mp h
    rfl
  | direction road =>
    rw [steps] at h
    split at h
    · simp [unoffered] at h
    · simp [unoffered] at h
  | accepts road =>
    rw [steps] at h
    split at h
    · simp at h
    · simp [unoffered] at h
  | obstacle kind road point forward =>
    rw [steps] at h
    split at h
    · simp at h
    · simp [unoffered] at h
  | _ => simp [steps, unoffered] at h

namespace EvaluatedSince

variable {earlier : ℕ} {rulesets : Finset (RulesetKind × ℕ × Finset UInt32)} {s : Session}

lemma serve (since : s.EvaluatedSince earlier rulesets) {r : Request}
    (unset : r.setsParameter = false) :
    (s.serve r).EvaluatedSince earlier (rulesets ∪ (s.askedOf r).rulesets.toFinset) := by
  cases r with
  | operation op =>
    rw [Session.serve, perform_eq_takeAll]
    refine since.takeAll fun step hstep name value => ?_
    rintro rfl
    cases eq_setParameter_of_mem_steps hstep
    cases unset
  | value id quantity =>
    rw [askedOf, List.toFinset_nil, Finset.union_empty]
    have same := s.value_differsInValues id quantity
    exact since.of_same same.results (s.readAll_leaves [(id, quantity)]).2.1

lemma serveAll (since : s.EvaluatedSince earlier rulesets) {requests : List Request}
    (unset : ∀ r ∈ requests, r.setsParameter = false) :
    (s.serveAll requests).EvaluatedSince earlier
      (rulesets ∪ (s.askedOfAll requests).rulesets.toFinset) := by
  induction requests generalizing s rulesets with
  | nil =>
    rw [askedOfAll, List.toFinset_nil, Finset.union_empty]
    exact since
  | cons r rest ih =>
    obtain ⟨first, others⟩ := List.forall_mem_cons.mp unset
    rw [askedOfAll, Asked.rulesets_append, List.toFinset_append, ← Finset.union_assoc]
    exact ih (since.serve first) others

end EvaluatedSince

/-- When a session is new, or a parameter was just set, no result is kept. -/
lemma evaluatedSince_of_last (profile : Profile) (registry : Registry) {requests : List Request}
    (last : ∀ r ∈ requests.getLast?, r.setsParameter) :
    let s := (start profile registry).serveAll requests
    s.EvaluatedSince s.statistics.evaluations ∅ := by
  rcases List.eq_nil_or_concat requests with rfl | ⟨before, r, rfl⟩
  · exact ⟨rfl, fun _ _ _ => ⟨nofun, nofun⟩⟩
  · rw [List.concat_eq_append] at last ⊢
    rw [serveAll_concat]
    have sets : r.setsParameter := last r List.getLast?_concat
    match r, sets with
    | .operation (.setParameter name value), _ => exact ⟨rfl, fun _ _ _ => ⟨nofun, nofun⟩⟩

/-- Work is done once and counted exactly, whatever has been asked of a session. As many universal
ids were found as there are types of known sections, with a rule, that were asked about, and as many
values were read as there are different ones that were asked for. Every ruleset that was asked for
was evaluated or its result was reused. Since the last time a parameter was set, as many rulesets
were evaluated as there are different ones that were asked for, by their kinds, their sections and
the sets of their types, and one that is asked for again is not evaluated again. -/
theorem work_is_done_once (profile : Profile) (registry : Registry) (requests : List Request) :
    let s := (start profile registry).serveAll requests
    let asked := (start profile registry).askedOfAll requests
    s.statistics.typesResolved = asked.types.toFinset.card ∧
      s.statistics.valuesParsed = asked.values.toFinset.card ∧
      s.statistics.evaluations + s.statistics.resultsReused = asked.rulesets.length ∧
      ∀ before stretch, requests = before ++ stretch →
        (∀ r ∈ before.getLast?, r.setsParameter) → (∀ r ∈ stretch, r.setsParameter = false) →
          let s₀ := (start profile registry).serveAll before
          let evaluated := (s₀.askedOfAll stretch).rulesets.toFinset
          s.statistics.evaluations = s₀.statistics.evaluations + evaluated.card ∧
            ∀ r, r.setsParameter = false →
              (s.serve r).statistics.evaluations =
                s.statistics.evaluations + ((s.askedOf r).rulesets.toFinset \ evaluated).card := by
  intro s asked
  have accounted : s.Accounted ({} ++ asked) := (start_accounted profile registry).serveAll requests
  refine ⟨accounted.types.counted, accounted.values.counted, accounted.rulesets, ?_⟩
  rintro before stretch rfl last unset s₀ evaluated
  have since : s.EvaluatedSince s₀.statistics.evaluations evaluated := by
    have since := (evaluatedSince_of_last profile registry last).serveAll unset
    rw [Finset.empty_union] at since
    exact (congrArg (EvaluatedSince _ _) List.foldl_append).mpr since
  refine ⟨since.counted, fun r kept => ?_⟩
  rw [(since.serve kept).counted, since.counted, Nat.add_assoc, ← Finset.card_union_of_disjoint
    Finset.disjoint_sdiff, Finset.union_sdiff_self_eq_union]

end Session

end RoadAtlas
