import RoadAtlas.Proofs.Container.Catalog
import RoadAtlas.Proofs.Wire.Lengths

/-!
Where the sections of a container lie. Every field of the index starts with a tag, a section has its
length behind the tag, and reading goes on behind its body. So the bodies follow one another with
room for a header in front of each, whatever is in the bodies and whatever else is in the index.

* `SectionEntry.Headed`: a section lies inside the data, behind a header that gives its length;
* `Index.LaidOut`: sections that lie in front of a position, one behind another;
* `Index.step_laidOut`, `Index.folds_laidOut`: one field of the index, and by induction all of them,
  keep this;
* `Catalog.sections_apart`: the sections of an accepted container share no byte, and a cursor over
  each is bounded to its body.
-/

namespace RoadAtlas

open Decoder

/-- The fewest bytes in front of a body: one for the tag, four for the length. -/
def SectionEntry.leastHeader : ℕ := 5

/-- A section lies inside the data, and in front of it stand its length and a tag. -/
structure SectionEntry.Headed (data : ByteArray) (s : SectionEntry) : Prop where
  header : leastHeader ≤ s.offset
  inside : s.stop ≤ data.size
  length : ∃ n : UInt32, s.length = n.toNat ∧
    data.extract (s.offset - 4) s.offset = (Wire.be32 n).toByteArray

/-- A section that lies inside the data can be read from a cursor over its body. -/
lemma SectionEntry.Headed.cursor_eq {data : ByteArray} {s : SectionEntry} (h : s.Headed data) :
    s.cursor data = .ok ⟨s.offset, s.stop⟩ :=
  Cursor.region_eq_ok_iff.mpr ⟨h.inside, rfl⟩

namespace Index

variable {data : ByteArray} {c c₁ next : Cursor} {index index' : Index} {s : SectionEntry}
  {sections : List SectionEntry} {position : ℕ}

/-! ### Sections in front of a position -/

/-- Sections that lie in front of a position, each behind the one before it and a header. -/
structure LaidOut (data : ByteArray) (sections : List SectionEntry) (position : ℕ) : Prop where
  headed : ∀ s ∈ sections, s.Headed data
  before : ∀ s ∈ sections, s.stop ≤ position
  apart : sections.Pairwise fun s u => s.stop + SectionEntry.leastHeader ≤ u.offset

namespace LaidOut

lemma nil : LaidOut data [] position where
  headed _ none := nomatch none
  before _ none := nomatch none
  apart := .nil

/-- What lies in front of a position lies in front of a later one. -/
lemma mono (h : LaidOut data sections position) {position' : ℕ} (later : position ≤ position') :
    LaidOut data sections position' :=
  { h with before := fun s hs => (h.before s hs).trans later }

/-- A section behind the position and a header may be added. -/
lemma concat (h : LaidOut data sections position) (headed : s.Headed data)
    (behind : position + SectionEntry.leastHeader ≤ s.offset) :
    LaidOut data (sections ++ [s]) s.stop where
  headed := List.forall_mem_append.mpr ⟨h.headed, List.forall_mem_singleton.mpr headed⟩
  before := by
    refine List.forall_mem_append.mpr ⟨fun u hu => ?_, List.forall_mem_singleton.mpr le_rfl⟩
    calc u.stop ≤ position := h.before u hu
      _ ≤ s.offset := (Nat.le_add_right _ _).trans behind
      _ ≤ s.stop := Nat.le_add_right _ _
  apart := by
    refine List.pairwise_append.mpr ⟨h.apart, List.pairwise_singleton _ _, fun u hu v hv => ?_⟩
    rw [List.mem_singleton.mp hv]
    exact (Nat.add_le_add_right (h.before u hu) _).trans behind

end LaidOut

/-! ### Reading the index -/

/-- A section that was read lies behind its length, and reading goes on behind it. -/
lemma readSection_headed {kind : SectionKind} {reach : c.Reaches next}
    (h : (readSection kind).run data c = .done s next reach) (tagged : 1 ≤ c.position)
    (inside : c.limit ≤ data.size) :
    s.Headed data ∧ s.offset = c.position + 4 ∧ s.stop = next.position := by
  obtain ⟨-, stop, -⟩ := readSection_place h
  obtain ⟨n, c₁, r₁, r₂, head, fits, -, rfl⟩ := readSection_done h
  obtain ⟨-, -, bytes, rfl⟩ := (be32_ends_iff inside).mp ⟨r₁, head⟩
  refine ⟨⟨?_, Nat.le_of_not_lt fits, n, rfl, ?_⟩, rfl, stop⟩
  · exact Nat.add_le_add_right tagged 4
  · exact bytes

/-- A field of the index behind its tag leaves the sections laid out. -/
lemma step_laidOut {t : Tag} {reach : c₁.Reaches next} (lead : c.Precedes c₁)
    (inside : c₁.limit ≤ data.size) (h : LaidOut data index.sections.toList c.position)
    (read : (step t index).run data c₁ = .done index' next reach) :
    LaidOut data index'.sections.toList next.position := by
  have forward := lead.position_lt
  rcases step_cases t with ⟨kind, isSection⟩ | ⟨α, x, f, -, isPlain, sections, -⟩
  case inl =>
    rw [isSection, run_map] at read
    obtain ⟨s, body, rfl⟩ := Outcome.map_eq_done read
    obtain ⟨headed, offset, stop⟩ := readSection_headed body (Nat.one_le_of_lt forward) inside
    have behind : c.position + SectionEntry.leastHeader ≤ s.offset := by
      rw [offset, SectionEntry.leastHeader]
      omega
    rw [push, Array.toList_push, ← stop]
    exact h.concat headed behind
  case inr =>
    rw [isPlain, run_map] at read
    obtain ⟨a, -, rfl⟩ := Outcome.map_eq_done read
    rw [sections]
    exact h.mono (forward.le.trans reach.position_le)

/-- The sections of an index are laid out in front of the place where reading ends. -/
lemma folds_laidOut (folds : Folds step data c index next index') (inside : c.limit ≤ data.size)
    (h : LaidOut data index.sections.toList c.position) :
    LaidOut data index'.sections.toList next.position := by
  have kept : next.limit ≤ data.size ∧ LaidOut data index'.sections.toList next.position := by
    refine folds.ensuresAt (P := fun c index =>
      c.limit ≤ data.size ∧ LaidOut data index.sections.toList c.position) ?_ ?_ ⟨inside, h⟩
    · rintro index c₀ c₁ reach ⟨inside, h⟩
      exact ⟨reach.limit_eq.trans_le inside, h.mono reach.position_le⟩
    · rintro t index c₀ c₁ index₁ c₂ reach lead ⟨inside, h⟩ read
      have inside₁ : c₁.limit ≤ data.size := lead.limit_eq.trans_le inside
      exact ⟨reach.limit_eq.trans_le inside₁, step_laidOut lead inside₁ h read⟩
  exact kept.2

end Index

/-! ### Accepted containers -/

namespace Catalog

/-- The sections of an accepted container partition its bytes. They stand in file order, each
behind the one before it with room for its own header, so no two share a byte; each lies inside the
data behind the big-endian length of its body, and a cursor over it ends with it. -/
theorem sections_apart {data : ByteArray} {catalog : Catalog} (h : read data = .ok catalog) :
    (catalog.sections.toList.Pairwise fun s u => s.offset < u.offset ∧
      s.stop + SectionEntry.leastHeader ≤ u.offset) ∧
    ∀ s ∈ catalog.sections.toList, s.Headed data ∧ s.cursor data = .ok ⟨s.offset, s.stop⟩ := by
  obtain ⟨index, next, folds, checked⟩ := read_eq_ok_iff.mp h
  have laidOut := Index.folds_laidOut folds le_rfl .nil
  rw [Index.sections_of_check checked]
  refine ⟨laidOut.apart.imp fun {s u} apart => ⟨?_, apart⟩,
    fun s hs => ⟨laidOut.headed s hs, (laidOut.headed s hs).cursor_eq⟩⟩
  rw [SectionEntry.stop, SectionEntry.leastHeader] at apart
  omega

/-- A container whose index mixes a date, an unknown block, an empty section and one with a body
that cannot be read. -/
def mixedIndex : ByteArray :=
  [8, 2, 77, 0, 0, 0, 0, 125, 0, 0, 0, 2, 9, 9, 144, 1, 7, 53, 0, 0, 0, 3, 255, 255, 255, 128, 2,
    2].toByteArray

theorem sections_apart_mixedIndex :
    let first : SectionEntry := ⟨.routing, "", 7, 0⟩
    let second : SectionEntry := ⟨.map, "", 22, 3⟩
    read mixedIndex = .ok ⟨2, 7, #[first, second]⟩ ∧
      first.stop + SectionEntry.leastHeader ≤ second.offset ∧ second.Headed mixedIndex ∧
      second.cursor mixedIndex = .ok ⟨22, 25⟩ := by
  intro first second
  have accepted : read mixedIndex = .ok ⟨2, 7, #[first, second]⟩ := by decide +kernel
  obtain ⟨apart, each⟩ := sections_apart accepted
  obtain ⟨headed, cursor⟩ := each second (List.mem_cons_of_mem first List.mem_cons_self)
  exact ⟨accepted, (List.rel_of_pairwise_cons apart List.mem_cons_self).2, headed, cursor⟩

end Catalog

end RoadAtlas
