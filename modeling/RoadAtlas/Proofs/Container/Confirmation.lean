import Mathlib.Data.List.Induction
import RoadAtlas.Proofs.Container.Catalog
import RoadAtlas.Proofs.Wire.Rounds

/-!
The fields of a container's index, one after another, and what a container must say to be accepted.
Reading keeps of the index what its last fields say, but a confirmation is compared with the version
in front of it, and a version behind it is not compared with anything.

* `IndexField.readAll`: the fields of an index in file order, with what they say;
* `Index.read_eq`: reading an index comes to adding its fields up;
* `IndexField.lastVersion`, `IndexField.lastConfirmation`: what the last fields of a kind say;
* `Catalog.read_confirmed`: an accepted container has the last version of its index, and has it
  confirmed if and only if the version does not change behind the last confirmation;
* `Catalog.read_reversioned`: a container whose version does.
-/

namespace RoadAtlas

open Decoder

/-! ### The fields of an index -/

/-- A field of the index of a container, with what it says. -/
inductive IndexField where
  | version (value : UInt32)
  | created (value : UInt64)
  | confirmation (value : UInt32)
  | place (entry : SectionEntry)
  | unknown
  deriving DecidableEq, Repr

namespace IndexField

/-- Reads the payload of a field. -/
def decoder (t : Tag) : Decoder IndexField :=
  if t.field = Format.Index.version then version <$> varint32
  else if t.field = Format.Index.created then created <$> varint
  else if t.field = Format.Index.confirmation then confirmation <$> varint32
  else
    match SectionKind.ofField? t.field with
    | some kind => place <$> Index.readSection kind
    | none => (fun _ => unknown) <$> skipSectionField t

/-- Reads the fields of an index, in file order. -/
def listing : Decoder (List IndexField) :=
  fields [] fun t known => (fun f => known ++ [f]) <$> decoder t

/-- The fields of the index of some data. -/
def readAll (data : ByteArray) : Except DecodeError (List IndexField) :=
  listing.eval data (.start data)

/-- The version that a field gives. -/
def version? : IndexField → Option UInt32
  | version value => some value
  | _ => none

/-- The version that a field confirms. -/
def confirmation? : IndexField → Option UInt32
  | confirmation value => some value
  | _ => none

/-- The version that the last version field gives. -/
def lastVersion (fields : List IndexField) : Option UInt32 := (fields.filterMap version?).getLast?

/-- The version that the last confirmation confirms. -/
def lastConfirmation (fields : List IndexField) : Option UInt32 :=
  (fields.filterMap confirmation?).getLast?

/-- The version at the end of an index is the one at its last confirmation, if there is one. -/
def VersionKept (fields : List IndexField) : Prop :=
  ∀ before value after, fields = before ++ confirmation value :: after →
    lastConfirmation after = none → lastVersion fields = lastVersion before

/-! ### The last fields of a kind -/

lemma lastVersion_concat (fields : List IndexField) (f : IndexField) :
    lastVersion (fields ++ [f]) = f.version?.or (lastVersion fields) := by
  cases f <;> simp [lastVersion, version?]

lemma lastConfirmation_concat (fields : List IndexField) (f : IndexField) :
    lastConfirmation (fields ++ [f]) = f.confirmation?.or (lastConfirmation fields) := by
  cases f <;> simp [lastConfirmation, confirmation?]

lemma lastConfirmation_append {before after : List IndexField} {value : UInt32}
    (last : lastConfirmation after = none) :
    lastConfirmation (before ++ confirmation value :: after) = some value := by
  induction after using List.reverseRecOn with
  | nil => rw [lastConfirmation_concat, confirmation?, Option.some_or]
  | append_singleton after f ih =>
    rw [lastConfirmation_concat, Option.or_eq_none_iff] at last
    rw [← List.cons_append, ← List.append_assoc, lastConfirmation_concat, last.1, Option.none_or,
      ih last.2]

/-- An index with a confirmation has a last one. -/
lemma exists_lastConfirmation {fields : List IndexField} {value : UInt32}
    (h : lastConfirmation fields = some value) : ∃ before after,
      fields = before ++ confirmation value :: after ∧ lastConfirmation after = none := by
  induction fields using List.reverseRecOn with
  | nil => cases h
  | append_singleton fields f ih =>
    rw [lastConfirmation_concat] at h
    cases given : f.confirmation? with
    | some confirmed =>
      rw [given, Option.some_or] at h
      cases f <;> cases given
      cases h
      exact ⟨fields, [], rfl, rfl⟩
    | none =>
      rw [given, Option.none_or] at h
      obtain ⟨before, after, rfl, last⟩ := ih h
      refine ⟨before, after ++ [f], by simp, ?_⟩
      rw [lastConfirmation_concat, given, last, Option.or_none]

/-- An index has one last confirmation. -/
lemma lastConfirmation_unique {before before' after after' : List IndexField}
    {value value' : UInt32} (last : lastConfirmation after = none)
    (last' : lastConfirmation after' = none)
    (same : before ++ confirmation value :: after = before' ++ confirmation value' :: after') :
    before = before' := by
  rcases List.append_eq_append_iff.mp same with ⟨between, rfl, later⟩ | ⟨between, rfl, later⟩
  · cases between with
    | nil => rw [List.append_nil]
    | cons f between =>
      rw [List.cons_append, List.cons.injEq] at later
      rw [later.2, lastConfirmation_append last'] at last
      cases last
  · cases between with
    | nil => rw [List.append_nil]
    | cons f between =>
      rw [List.cons_append, List.cons.injEq] at later
      rw [later.2, lastConfirmation_append last] at last'
      cases last'

/-- The version is kept if it is the same in front of the last confirmation as at the end. -/
lemma versionKept_iff {before after : List IndexField} {value : UInt32}
    (last : lastConfirmation after = none) :
    VersionKept (before ++ confirmation value :: after) ↔
      lastVersion (before ++ confirmation value :: after) = lastVersion before := by
  constructor
  · exact fun kept => kept before value after rfl last
  · intro same before' value' after' split last'
    rw [same, lastConfirmation_unique last last' split]

end IndexField

/-! ### Adding fields up -/

namespace Index

open IndexField (lastVersion lastConfirmation)

/-- The index with what a further field gives. -/
def add (index : Index) : IndexField → Index
  | .version value => { index with version := some value }
  | .created value => { index with created := value }
  | .confirmation value => { index with confirmed := index.version = some value }
  | .place entry => index.push entry
  | .unknown => index

/-- A step of the index is a field that is added. -/
lemma step_eq_add (t : Tag) (index : Index) :
    step t index = index.add <$> IndexField.decoder t := by
  rw [step_eq, IndexField.decoder]
  split_ifs with version created confirmation
  · rw [Functor.map_map]
    rfl
  · rw [Functor.map_map]
    rfl
  · rw [Functor.map_map]
    rfl
  · cases SectionKind.ofField? t.field with
    | some kind =>
      dsimp only
      rw [Functor.map_map]
      rfl
    | none =>
      dsimp only
      rw [Functor.map_map]
      rfl

/-- Reading an index comes to adding its fields up. -/
lemma read_eq (data : ByteArray) :
    read data = (fun known => known.foldl add {}) <$> IndexField.readAll data := by
  have folded : fields {} step = (fun known => known.foldl add {}) <$> IndexField.listing := by
    refine fields_map (f := fun known => known.foldl add {}) (fun t known => ?_) []
    rw [step_eq_add, Functor.map_map]
    refine congrArg (· <$> IndexField.decoder t) (funext fun f => ?_)
    rw [List.foldl_append]
    rfl
  rw [read, folded, IndexField.readAll, eval_map]

/-- The version of an index is the one given last. -/
lemma version_foldl_add (known : List IndexField) (index : Index) :
    (known.foldl add index).version = (lastVersion known).or index.version := by
  induction known using List.reverseRecOn with
  | nil => rfl
  | append_singleton known f ih =>
    rw [List.foldl_append, IndexField.lastVersion_concat]
    cases f <;> simp [add, push, IndexField.version?, ih]

/-- Without a further confirmation an index stays confirmed, or unconfirmed. -/
lemma confirmed_foldl_add {known : List IndexField} (last : lastConfirmation known = none)
    (index : Index) : (known.foldl add index).confirmed = index.confirmed := by
  induction known using List.reverseRecOn with
  | nil => rfl
  | append_singleton known f ih =>
    rw [IndexField.lastConfirmation_concat, Option.or_eq_none_iff] at last
    rw [List.foldl_append, ← ih last.2]
    cases f <;> first | rfl | cases last.1

/-- An index is accepted with its version, if that was confirmed. -/
lemma check_eq_ok_iff {index : Index} {catalog : Catalog} : index.check = .ok catalog ↔
    index.confirmed = true ∧ index.version = some catalog.version ∧
      catalog.created = index.created ∧ catalog.sections = index.sections := by
  obtain ⟨version, confirmed, created, sections⟩ := index
  obtain ⟨version', created', sections'⟩ := catalog
  cases version with
  | none => simp [check]
  | some version => cases confirmed <;> simp [check, eq_comm]

lemma check_eq_unconfirmed_iff {index : Index} {version : UInt32} :
    index.check = .error (.unconfirmed version) ↔
      index.confirmed = false ∧ index.version = some version := by
  obtain ⟨given, confirmed, created, sections⟩ := index
  cases given with
  | none => simp [check]
  | some given => cases confirmed <;> simp [check]

end Index

/-! ### Accepted containers -/

namespace Catalog

open IndexField (lastVersion lastConfirmation VersionKept)

variable {data : ByteArray} {known : List IndexField}

/-- A container is accepted or refused for what its fields add up to. -/
lemma read_eq_iff (listed : IndexField.readAll data = .ok known) :
    (∀ catalog, read data = .ok catalog ↔ (known.foldl Index.add {}).check = .ok catalog) ∧
      ∀ cause, read data = .error (.invalid cause) ↔
        (known.foldl Index.add {}).check = .error cause := by
  have index : Index.read data = .ok (known.foldl Index.add {}) := by
    rw [Index.read_eq, listed]
    rfl
  cases checked : (known.foldl Index.add {}).check with
  | ok catalog => simp [read, index, checked]
  | error cause => simp [read, index, checked]

/-- An accepted container has an index. -/
lemma exists_readAll_eq_ok {catalog : Catalog} (h : read data = .ok catalog) :
    ∃ known, IndexField.readAll data = .ok known := by
  rw [read, Index.read_eq] at h
  cases listed : IndexField.readAll data with
  | ok known => exact ⟨known, rfl⟩
  | error cause =>
    rw [listed] at h
    cases h

/-- An index is confirmed if its last confirmation gives the version in front of it. -/
lemma confirmed_iff : (known.foldl Index.add {}).confirmed = true ↔ ∃ before value after,
    known = before ++ .confirmation value :: after ∧ lastConfirmation after = none ∧
      lastVersion before = some value := by
  have added (before : List IndexField) (value : UInt32) {after : List IndexField}
      (last : lastConfirmation after = none) :
      ((before ++ .confirmation value :: after).foldl Index.add {}).confirmed =
        decide (lastVersion before = some value) := by
    rw [List.foldl_append, List.foldl_cons, Index.confirmed_foldl_add last, Index.add,
      Index.version_foldl_add, Option.or_none]
  constructor
  · intro confirmed
    cases last : lastConfirmation known with
    | none =>
      rw [Index.confirmed_foldl_add last] at confirmed
      cases confirmed
    | some value =>
      obtain ⟨before, after, rfl, last'⟩ := IndexField.exists_lastConfirmation last
      rw [added before value last', decide_eq_true_eq] at confirmed
      exact ⟨before, value, after, rfl, last', confirmed⟩
  · rintro ⟨before, value, after, rfl, last, confirmed⟩
    rw [added before value last, confirmed, decide_eq_true_eq]

/-- The version of an accepted container is the last one of its index, and it is the one confirmed
if and only if the version does not change behind the last confirmation. Where it does not, a
container with another confirmation than its version, or with none, is refused. -/
theorem read_confirmed (data : ByteArray) :
    (∀ catalog, read data = .ok catalog → ∃ known, IndexField.readAll data = .ok known ∧
      lastVersion known = some catalog.version ∧
      (lastConfirmation known = some catalog.version ↔ VersionKept known)) ∧
    ∀ known version, IndexField.readAll data = .ok known → VersionKept known →
      lastVersion known = some version → lastConfirmation known ≠ some version →
      read data = .error (.invalid (.unconfirmed version)) := by
  constructor
  · intro catalog accepted
    obtain ⟨known, listed⟩ := exists_readAll_eq_ok accepted
    rw [(read_eq_iff listed).1, Index.check_eq_ok_iff, Index.version_foldl_add,
      Option.or_none] at accepted
    obtain ⟨confirmed, version, -⟩ := accepted
    refine ⟨known, listed, version, ?_⟩
    obtain ⟨before, value, after, rfl, last, here⟩ := confirmed_iff.mp confirmed
    rw [IndexField.lastConfirmation_append last, IndexField.versionKept_iff last, version, here]
    exact eq_comm
  · intro known version listed kept given differs
    rw [(read_eq_iff listed).2, Index.check_eq_unconfirmed_iff, Index.version_foldl_add,
      Option.or_none]
    refine ⟨Bool.eq_false_iff.mpr fun confirmed => differs ?_, given⟩
    obtain ⟨before, value, after, rfl, last, here⟩ := confirmed_iff.mp confirmed
    rw [IndexField.lastConfirmation_append last, ← here,
      ← (IndexField.versionKept_iff last).mp kept, given]

/-- A container whose version is given twice and confirmed behind both fields. -/
def confirmedSample : ByteArray := [8, 3, 8, 2, 128, 2, 2].toByteArray

/-- A container in which another version is confirmed. -/
def disputedSample : ByteArray := [8, 2, 128, 2, 3].toByteArray

theorem read_confirmed_samples :
    (∃ known, IndexField.readAll confirmedSample = .ok known ∧ lastVersion known = some 2 ∧
      lastConfirmation known = some 2) ∧
    read disputedSample = .error (.invalid (.unconfirmed 2)) := by
  constructor
  · have accepted : read confirmedSample = .ok ⟨2, 0, #[]⟩ :=
      eq_ok_of_mem_toOption (by decide +kernel)
    have listed : IndexField.readAll confirmedSample =
        .ok [.version 3, .version 2, .confirmation 2] := eq_ok_of_mem_toOption (by decide +kernel)
    obtain ⟨known, listed', version, confirmed⟩ := (read_confirmed confirmedSample).1 _ accepted
    obtain rfl := Except.ok.inj (listed.symm.trans listed')
    have kept : VersionKept ([.version 3, .version 2] ++ .confirmation 2 :: []) :=
      (IndexField.versionKept_iff rfl).mpr rfl
    exact ⟨_, listed, version, confirmed.mpr kept⟩
  · have listed : IndexField.readAll disputedSample = .ok [.version 2, .confirmation 3] :=
      eq_ok_of_mem_toOption (by decide +kernel)
    have kept : VersionKept ([.version 2] ++ .confirmation 3 :: []) :=
      (IndexField.versionKept_iff rfl).mpr rfl
    exact (read_confirmed disputedSample).2 _ 2 listed kept rfl (by decide)

/-- A container whose version is confirmed, and then given anew. -/
def reversionedSample : ByteArray := [8, 2, 128, 2, 2, 8, 3].toByteArray

/-- A container whose version changes behind its confirmation is accepted with a version that was
never confirmed. -/
theorem read_reversioned : ¬ ∀ data catalog, read data = .ok catalog →
    ∃ known, IndexField.readAll data = .ok known ∧ lastVersion known = some catalog.version ∧
      lastConfirmation known = some catalog.version := by
  intro confirmed
  have accepted : read reversionedSample = .ok ⟨3, 0, #[]⟩ :=
    eq_ok_of_mem_toOption (by decide +kernel)
  have listed : IndexField.readAll reversionedSample =
      .ok [.version 2, .confirmation 2, .version 3] := eq_ok_of_mem_toOption (by decide +kernel)
  obtain ⟨known, listed', -, last⟩ := confirmed _ _ accepted
  obtain rfl := Except.ok.inj (listed.symm.trans listed')
  exact absurd last (by decide)

end Catalog

end RoadAtlas
