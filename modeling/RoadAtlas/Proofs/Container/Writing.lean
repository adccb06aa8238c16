import RoadAtlas.Container.Writing
import RoadAtlas.Proofs.Container.Catalog
import RoadAtlas.Proofs.Wire.Message

/-!
Containers read back. The index passes over the body of a section by its length, so it comes to the
next section whatever the body holds, and the name found in the body decides nothing. A written
container is accepted when its confirmation repeats the version.

* `SectionEntry.Stores`: an entry of the index tells where a written section lies;
* `Index.section_ends`, `Index.sections_end`: one written section, and by induction all of them, are
  read as entries that store them;
* `Index.read_written`: what the index of a written container is read as;
* `Catalog.read_container`: there is a catalog, which lists what was written, or the confirmation is
  missing or another one.
-/

namespace RoadAtlas

open Decoder

/-- An entry of the index of some data tells the kind of a section and where its body lies. -/
structure SectionEntry.Stores (data : ByteArray) (s : SectionEntry)
    (written : SectionKind × List UInt8) : Prop where
  kind : s.kind = written.1
  length : s.length = written.2.length
  inside : s.stop ≤ data.size
  body : data.extract s.offset s.stop = written.2.toByteArray

/-- The body of a section lies at its place. -/
lemma SectionEntry.Stores.holds {data : ByteArray} {s : SectionEntry}
    {written : SectionKind × List UInt8} (h : s.Stores data written) :
    Holds data s.offset written.2 := by
  intro i b found
  obtain ⟨inside, rfl⟩ := List.getElem?_eq_some_iff.mp found
  have size := congrArg ByteArray.size h.body
  have stored : (data.extract s.offset s.stop)[i]? = some written.2[i] := by
    rw [h.body, getElem?_pos _ i (by rwa [List.size_toByteArray]), List.getElem_toByteArray]
  rw [ByteArray.size_extract, List.size_toByteArray] at size
  rw [getElem?_pos _ i (by rw [ByteArray.size_extract]; omega), ByteArray.getElem_extract] at stored
  rw [getElem?_pos data _ (by omega)]
  exact stored

/-- What a body consists of lies there piece by piece. -/
lemma SectionEntry.Stores.holds_append {data : ByteArray} {s : SectionEntry} {kind : SectionKind}
    {front back : List UInt8} (h : s.Stores data (kind, front ++ back)) :
    Holds data s.offset front ∧ Holds data (s.offset + front.length) back ∧
      s.offset + front.length + back.length = s.stop := by
  have length := h.length
  rw [List.length_append] at length
  exact ⟨h.holds.left, h.holds.right, by rw [stop, length, Nat.add_assoc]⟩

/-- A section is stored where it stands between other bytes. -/
lemma SectionEntry.stores_toByteArray (kind : SectionKind) (name : String)
    (front body back : List UInt8) :
    SectionEntry.Stores (front ++ body ++ back).toByteArray ⟨kind, name, front.length, body.length⟩
      (kind, body) where
  kind := rfl
  length := rfl
  inside := by
    simp only [stop, List.size_toByteArray, List.length_append]
    omega
  body := (holds_toByteArray front body back).extract_eq (by
    simp only [List.size_toByteArray, List.length_append]
    omega)

namespace Index

/-! ### Written sections -/

variable {data : ByteArray} {p limit : ℕ} {kind : SectionKind} {body : List UInt8} {index : Index}

lemma field_number (kind : SectionKind) : FieldNumber kind.field := by
  cases kind <;> decide

lemma field_apart (kind : SectionKind) : kind.field ≠ Format.Index.version ∧
    kind.field ≠ Format.Index.created ∧ kind.field ≠ Format.Index.confirmation := by
  cases kind <;> decide

/-- A field that holds a section is read as one. -/
lemma step_section (kind : SectionKind) (wire : ℕ) (index : Index) :
    step ⟨kind.field, wire⟩ index = index.push <$> readSection kind := by
  obtain ⟨version, created, confirmation⟩ := field_apart kind
  rw [step_eq, if_neg version, if_neg created, if_neg confirmation, SectionKind.ofField?_field]

/-- A section is read as an entry that stores it. -/
lemma readSection_ends (kind : SectionKind) (small : data.size < positionBound)
    (below : limit ≤ data.size)
    (held : Holds data p (Wire.be32 (UInt32.ofNat body.length) ++ body))
    (inside : p + (4 + body.length) ≤ limit) (sized : body.length < 2 ^ 32) :
    ∃ s, SectionEntry.Stores data s (kind, body) ∧
      ((readSection kind).run data ⟨p, limit⟩).Ends s ⟨p + (4 + body.length), limit⟩ := by
  have found := held.right
  rw [Wire.length_be32] at found
  rw [← Nat.add_assoc] at inside ⊢
  refine ⟨⟨kind, scanName kind (p + 4) body.length data, p + 4, body.length⟩, ?_, ?_⟩
  · constructor
    case kind => rfl
    case length => rfl
    case inside => exact inside.trans below
    case body => exact found.extract_eq (inside.trans below)
  · rw [run_readSection]
    refine (be32_readsAt _ data limit small below held.left ?_).andThen fun _ => ?_
    · exact (Nat.le_add_right _ _).trans inside
    rw [UInt32.toNat_ofNat_of_lt' sized, Wire.length_be32,
      if_neg (Nat.not_lt.mpr (inside.trans below))]
    exact (skip_readsAt body data limit small below found inside).map

/-- A field with a section is read as an entry that stores it, and the index goes on behind it. -/
lemma section_ends (small : data.size < positionBound) (below : limit ≤ data.size)
    (held : Holds data p (Wire.blockField kind.field body))
    (inside : p + (Wire.blockField kind.field body).length ≤ limit)
    (sized : body.length < 2 ^ 32) :
    ∃ s, SectionEntry.Stores data s (kind, body) ∧ ∀ index value next,
      ((fields (index.push s) step).run data
        ⟨p + (Wire.blockField kind.field body).length, limit⟩).Ends value next →
      ((fields index step).run data ⟨p, limit⟩).Ends value next := by
  have valid := field_number kind
  rw [Wire.blockField, Wire.blockHeader, List.append_assoc] at held inside ⊢
  rw [List.length_append, List.length_append, Wire.length_be32, ← Nat.add_assoc] at inside ⊢
  obtain ⟨s, stores, read⟩ := readSection_ends kind small below held.right inside sized
  refine ⟨s, stores, fun index value next later => ?_⟩
  rw [fields_eq, run_bind]
  refine (tag_readsAt .fixed32 valid.2 data limit small below held.left (by omega)).andThen
    fun _ => ?_
  simp only [isEnd_eq_false .fixed32 valid, Bool.false_eq_true, ↓reduceIte, step_section,
    run_bind, run_map]
  exact read.map.andThen fun _ => later

/-- Written sections are read as entries that store them, in order. -/
lemma sections_end (small : data.size < positionBound) (below : limit ≤ data.size) :
    ∀ {sections : List (SectionKind × List UInt8)} {p : ℕ},
      (∀ s ∈ sections, s.2.length < 2 ^ 32) →
      Holds data p (ContainerDraft.writeSections sections) →
      p + (ContainerDraft.writeSections sections).length ≤ limit →
      ∃ entries, List.Forall₂ (SectionEntry.Stores data) entries sections ∧ ∀ index value next,
        ((fields { index with sections := index.sections ++ List.toArray entries } step).run data
          ⟨p + (ContainerDraft.writeSections sections).length, limit⟩).Ends value next →
        ((fields index step).run data ⟨p, limit⟩).Ends value next
  | [], p, _, _, _ => by
    refine ⟨[], .nil, fun index value next later => ?_⟩
    have same : { index with sections := index.sections ++ List.toArray [] } = index := by simp
    rwa [same] at later
  | (kind, body) :: rest, p, sized, held, inside => by
    have split : ContainerDraft.writeSections ((kind, body) :: rest) =
        Wire.blockField kind.field body ++ ContainerDraft.writeSections rest := rfl
    rw [split] at held inside ⊢
    rw [List.length_append, ← Nat.add_assoc] at inside ⊢
    obtain ⟨s, stores, here⟩ := section_ends small below held.left
      ((Nat.le_add_right _ _).trans inside) (sized (kind, body) List.mem_cons_self)
    obtain ⟨entries, all, behind⟩ := sections_end small below
      (fun s hs => sized s (List.mem_cons_of_mem _ hs)) held.right inside
    refine ⟨s :: entries, .cons stores all, fun index value next later => ?_⟩
    refine here index value next (behind (index.push s) value next ?_)
    rwa [push, List.push_append_toArray]

/-! ### The written index -/

lemma version_carries (version : UInt32) (index : Index) :
    Carries (fields · step) p index (Wire.varint32Field Format.Index.version version)
      { index with version := some version } := by
  have read : varint32.ReadsAt (p + (Wire.tag Format.Index.version .varint).length)
      (Wire.varint version.toUInt64) version := varint32_readsAt version
  exact Carries.field (by decide) read.bind_pure

lemma created_carries (created : UInt64) (index : Index) :
    Carries (fields · step) p index (Wire.varintField Format.Index.created created)
      { index with created } :=
  Carries.field (by decide) (varint_readsAt created).bind_pure

/-- A confirmation is compared with the version before it; without one nothing is confirmed. -/
lemma confirmation_carries (confirmation : Option UInt32) (version : UInt32) (created : UInt64)
    (sections : Array SectionEntry) :
    Carries (fields · step) p ⟨some version, false, created, sections⟩
      (ContainerDraft.writeConfirmation confirmation)
      ⟨some version, confirmation = some version, created, sections⟩ := by
  cases confirmation with
  | none => exact Carries.nil _
  | some given =>
    have read : varint32.ReadsAt (p + (Wire.tag Format.Index.confirmation .varint).length)
        (Wire.varint given.toUInt64) given := varint32_readsAt given
    simp only [eq_comm (a := some given)]
    exact Carries.field (by decide) read.bind_pure

/-- The index of a written container has its version and date, entries that store its sections, and
a confirmation where the version was given again. -/
lemma read_written {d : ContainerDraft} (sized : ∀ s ∈ d.sections, s.2.length < 2 ^ 32)
    (addressable : data.size < positionBound) (size : data.size = d.write.length)
    (held : Holds data 0 d.write) :
    ∃ entries, List.Forall₂ (SectionEntry.Stores data) entries d.sections ∧
      read data = .ok
        ⟨some d.version, d.confirmation = some d.version, d.created, entries.toArray⟩ := by
  have full : 0 + d.write.length = data.size := by omega
  rw [ContainerDraft.write] at held full
  have front := held.left
  have tail := held.right
  rw [List.length_append, ← Nat.add_assoc] at full tail
  rw [List.length_append, ← Nat.add_assoc] at full
  have head := (version_carries (p := 0) d.version {}).trans (created_carries d.created _)
  obtain ⟨entries, stores, middle⟩ :=
    sections_end addressable (Nat.le_refl _) sized front.right (full ▸ Nat.le_add_right _ _)
  refine ⟨entries, stores, ?_⟩
  -- behind the sections the confirmation fills the rest of the data
  have last := (confirmation_carries d.confirmation d.version d.created
    (#[] ++ entries.toArray)).fields_fillsAt data addressable full.le tail
  rw [full] at last
  have whole := (head data _ addressable (Nat.le_refl _) front.left (by omega) _ _).mpr
    (middle _ _ _ last)
  rw [Array.empty_append] at whole
  exact whole.toExcept_eq

end Index

/-! ### The catalog -/

lemma Index.check_confirmed (version : UInt32) (created : UInt64) (sections : Array SectionEntry)
    (confirmation : Option UInt32) :
    Index.check ⟨some version, confirmation = some version, created, sections⟩ =
      if confirmation = some version then .ok ⟨version, created, sections⟩
      else .error (.unconfirmed version) := by
  simp [Index.check]

namespace Catalog

/-- A catalog of some data lists what a container was written from: the version, the date, and the
sections in order. -/
structure Lists (data : ByteArray) (catalog : Catalog) (d : ContainerDraft) : Prop where
  version : catalog.version = d.version
  created : catalog.created = d.created
  sections : List.Forall₂ (SectionEntry.Stores data) catalog.sections.toList d.sections

/-- A written container has a catalog if and only if the version is given again as its confirmation.
The catalog lists what was written, and without one the container is invalid. -/
theorem read_container (d : ContainerDraft) (sized : ∀ s ∈ d.sections, s.2.length < 2 ^ 32)
    (addressable : d.write.length < positionBound) :
    ((∃ catalog, read d.write.toByteArray = .ok catalog) ↔ d.confirmation = some d.version) ∧
      (∀ catalog, read d.write.toByteArray = .ok catalog →
        catalog.Lists d.write.toByteArray d) ∧
      (d.confirmation ≠ some d.version →
        read d.write.toByteArray = .error (.invalid (.unconfirmed d.version))) := by
  have held : Holds d.write.toByteArray 0 d.write := by
    have h := holds_toByteArray [] d.write []
    rwa [List.append_nil, List.nil_append] at h
  have size : d.write.toByteArray.size = d.write.length := List.size_toByteArray
  obtain ⟨entries, stores, index⟩ := Index.read_written sized (by rwa [size]) size held
  by_cases confirmed : d.confirmation = some d.version
  · have outcome : read d.write.toByteArray =
        .ok ⟨d.version, d.created, entries.toArray⟩ := by
      simp only [read, index, Index.check_confirmed, if_pos confirmed]
    refine ⟨⟨fun _ => confirmed, fun _ => ⟨_, outcome⟩⟩, fun catalog found => ?_,
      fun differs => absurd confirmed differs⟩
    obtain rfl := Except.ok.inj (outcome.symm.trans found)
    exact ⟨rfl, rfl, stores⟩
  · have outcome : read d.write.toByteArray = .error (.invalid (.unconfirmed d.version)) := by
      simp only [read, index, Index.check_confirmed, if_neg confirmed]
    have refused (catalog : Catalog) : read d.write.toByteArray ≠ .ok catalog := by
      simp [outcome]
    refine ⟨⟨?_, fun again => absurd again confirmed⟩, fun catalog found => ?_, fun _ => outcome⟩
    · rintro ⟨catalog, found⟩
      exact absurd found (refused catalog)
    · exact absurd found (refused catalog)

/-- A container with a section that looks like the end of an index and its confirmation, one whose
name goes on behind it, and an empty one. -/
def containerSample : ContainerDraft where
  version := 2
  created := 1700000000000
  sections := [(.routing, [0, 128, 2, 2]), (.poi, [10, 200]), (.map, [])]

theorem read_containerSample : ∃ catalog, read containerSample.write.toByteArray = .ok catalog ∧
    catalog.Lists containerSample.write.toByteArray containerSample := by
  have sized : ∀ s ∈ containerSample.sections, s.2.length < 2 ^ 32 := by decide
  obtain ⟨accepted, lists, -⟩ := read_container containerSample sized (by decide +kernel)
  obtain ⟨catalog, found⟩ := accepted.mpr rfl
  exact ⟨catalog, found, lists catalog found⟩

end Catalog

end RoadAtlas
