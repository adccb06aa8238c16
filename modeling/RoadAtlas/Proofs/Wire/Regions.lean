import RoadAtlas.Proofs.Traversal
import RoadAtlas.Proofs.Wire.Containment

/-!
A reader that is driven step by step keeps inside its data, whatever is asked of it and whatever
fails on the way. The limits that it narrowed are given back later, and a failure in between may
have narrowed the region once more, so what is kept is stated for all outstanding limits together.

* `Decoder.IsSlice`: bytes that stand between two positions of the data;
* `Reader.Read`, `Reader.Operation`: what may be read, and what may be done with a reader;
* `Reader.Sound`: the position lies before the limit, and the limits that are kept for later widen
  up to the end of the data;
* `Sound.perform`, `performAll_sound`: one operation, and by induction any number of them, leave a
  sound reader;
* `Reader.operations_keep_regions`: what this says of every read that is made, and which failures
  change nothing.
-/

namespace RoadAtlas

namespace Decoder

variable {data : ByteArray} {c : Cursor}

/-! ### Bytes that are handed out -/

/-- The bytes are a stretch of the data between two positions. -/
def IsSlice (data : ByteArray) (lo hi : ℕ) (b : ByteArray) : Prop :=
  ∃ start stop, lo ≤ start ∧ start ≤ stop ∧ stop ≤ hi ∧ b = data.extract start stop

lemma IsSlice.mono {lo hi lo' hi' : ℕ} {b : ByteArray} (h : IsSlice data lo hi b) (lower : lo' ≤ lo)
    (upper : hi ≤ hi') : IsSlice data lo' hi' b := by
  obtain ⟨start, stop, above, ordered, below, rfl⟩ := h
  exact ⟨start, stop, lower.trans above, ordered, below.trans upper, rfl⟩

lemma bytes_isSlice {b : ByteArray} {next : Cursor} (h : (bytes.run data c).Ends b next) :
    IsSlice data c.position next.position b := by
  obtain ⟨length, start, ⟨n, ⟨reach, -⟩, -⟩, taken⟩ := (counted_ends_iff (f := take)).mp h
  obtain ⟨-, -, rfl, rfl⟩ := take_ends_iff.mp taken
  exact ⟨start, start + length, reach.position_le, Nat.le_add_right _ _, le_rfl, rfl⟩

lemma string_isSlice {text : String} {next : Cursor} (h : (string.run data c).Ends text next) :
    IsSlice data c.position next.position text.toUTF8 := by
  rw [string, run_position_bind, bind_ends_iff] at h
  obtain ⟨encoded, mid, counted, decoded⟩ := h
  split at decoded
  next found =>
    obtain ⟨rfl, rfl⟩ := pure_ends_iff.mp decoded
    have same : text.toUTF8 = encoded := by
      rw [String.fromUTF8?] at found
      split at found
      · cases found
        rfl
      · cases found
    exact same ▸ bytes_isSlice counted
  next =>
    obtain ⟨_, ⟨⟩⟩ := decoded

/-- Every text of a table stands between the ends of the table. -/
lemma stringTableBody_isSlice {texts : Array String} {next : Cursor}
    (h : (stringTableBody.run data c).Ends texts next) :
    ∀ text ∈ texts, IsSlice data c.position next.position text.toUTF8 := by
  obtain ⟨reach, done⟩ := h
  have kept : c.position ≤ next.position ∧
      ∀ text ∈ texts, IsSlice data c.position next.position text.toUTF8 := by
    refine (folds_of_run done).ensuresAt (P := fun here texts => c.position ≤ here.position ∧
      ∀ text ∈ texts, IsSlice data c.position here.position text.toUTF8) ?_ ?_ ⟨le_rfl, by simp⟩
    · rintro texts c₀ c₁ reach ⟨behind, slices⟩
      exact ⟨behind.trans reach.position_le,
        fun text listed => (slices text listed).mono le_rfl reach.position_le⟩
    · rintro t texts c₀ c₁ texts' c₂ reach lead ⟨behind, slices⟩ payload
      have earlier : ∀ text ∈ texts, IsSlice data c.position c₂.position text.toUTF8 :=
        fun text listed => (slices text listed).mono le_rfl
          (lead.reaches.position_le.trans reach.position_le)
      refine ⟨(behind.trans lead.reaches.position_le).trans reach.position_le, ?_⟩
      split at payload
      · obtain ⟨text, read, rfl⟩ := bind_pure_done payload
        have added := (string_isSlice ⟨_, read⟩).mono (behind.trans lead.reaches.position_le) le_rfl
        intro text' listed
        rcases Array.mem_push.mp listed with known | rfl
        · exact earlier text' known
        · exact added
      · obtain ⟨_, -, rfl⟩ := bind_pure_done payload
        exact earlier
  exact kept.2

lemma stringTable_isSlice {texts : Array String} {next : Cursor}
    (h : (stringTable.run data c).Ends texts next) :
    ∀ text ∈ texts, IsSlice data c.position next.position text.toUTF8 := by
  obtain ⟨length, start, ⟨n, ⟨reach, -⟩, -⟩, -, stopped, body, rfl⟩ := sized_ends_iff.mp h
  exact fun text listed => (stringTableBody_isSlice body text listed).mono reach.position_le le_rfl

end Decoder

open Decoder

/-! ### Operations -/

/-- What may be read at a cursor, with the type of its value. -/
inductive Reader.Read : Type → Type
  | tag : Read Tag
  | varint : Read UInt64
  | varint32 : Read UInt32
  | sint32 : Read Int32
  | sint64 : Read Int64
  | bool : Read Bool
  | be32 : Read UInt32
  | bytes : Read ByteArray
  | string : Read String
  | packed : Read (Array UInt32)
  | stringTable : Read (Array String)
  | stringTableBody : Read (Array String)
  | skip (length : ℕ) : Read Unit
  | skipField (t : Tag) : Read Unit
  | skipBlock : Read Unit

namespace Reader.Read

variable {α : Type} {data : ByteArray} {c next : Cursor}

/-- The decoder of a read. -/
def decoder : {α : Type} → Read α → Decoder α
  | _, tag => Decoder.tag
  | _, varint => Decoder.varint
  | _, varint32 => Decoder.varint32
  | _, sint32 => Decoder.sint32
  | _, sint64 => Decoder.sint64
  | _, bool => Decoder.bool
  | _, be32 => Decoder.be32
  | _, bytes => Decoder.bytes
  | _, string => Decoder.string
  | _, packed => Decoder.packed
  | _, stringTable => Decoder.stringTable
  | _, stringTableBody => Decoder.stringTableBody
  | _, skip length => Decoder.skip length
  | _, skipField t => Decoder.skipField t
  | _, skipBlock => Decoder.skipBlock

/-- The byte strings that a value was made of, where they are handed out. -/
def contents : {α : Type} → Read α → α → List ByteArray
  | _, bytes, b => [b]
  | _, string, text => [text.toUTF8]
  | _, stringTable, texts => texts.toList.map String.toUTF8
  | _, stringTableBody, texts => texts.toList.map String.toUTF8
  | _, _, _ => []

lemma decoder_contained (x : Read α) : x.decoder.Contained := by
  cases x with
  | tag => exact tag_contained
  | varint => exact varint_contained
  | varint32 => exact varint32_contained
  | sint32 => exact varint32_contained.bind fun _ => pure_contained _
  | sint64 => exact varint_contained.bind fun _ => pure_contained _
  | bool => exact varint_contained.bind fun _ => pure_contained _
  | be32 => exact be32_contained
  | bytes => exact bytes_contained
  | string => exact string_contained
  | packed => exact packed_contained
  | stringTable => exact stringTable_contained
  | stringTableBody => exact stringTableBody_contained
  | skip length => exact skip_contained length
  | skipField t => exact skipField_contained t
  | skipBlock => exact skipBlock_contained

lemma decoder_local (x : Read α) : x.decoder.Local := by
  cases x with
  | tag => exact tag_local
  | varint => exact varint_local
  | varint32 => exact varint32_local
  | sint32 => exact sint32_local
  | sint64 => exact sint64_local
  | bool => exact bool_local
  | be32 => exact be32_local
  | bytes => exact bytes_local
  | string => exact string_local
  | packed => exact packed_local
  | stringTable => exact stringTable_local
  | stringTableBody => exact stringTableBody_local
  | skip length => exact skip_local length
  | skipField t => exact skipField_local t
  | skipBlock => exact skipBlock_local

/-- What is handed out was read between the cursors before and after. -/
lemma contents_isSlice (x : Read α) {a : α} (h : (x.decoder.run data c).Ends a next) :
    ∀ b ∈ x.contents a, IsSlice data c.position next.position b := by
  cases x with
  | bytes => exact List.forall_mem_singleton.mpr (bytes_isSlice h)
  | string => exact List.forall_mem_singleton.mpr (string_isSlice h)
  | stringTable =>
    refine List.forall_mem_map.mpr fun text listed => ?_
    exact stringTable_isSlice h text (Array.mem_toList_iff.mp listed)
  | stringTableBody =>
    refine List.forall_mem_map.mpr fun text listed => ?_
    exact stringTableBody_isSlice h text (Array.mem_toList_iff.mp listed)
  | _ => exact List.forall_mem_nil _

end Reader.Read

namespace Reader

variable {data : ByteArray} {r : Reader}

/-- Something that is done with a reader. Limits are given back newest first. -/
inductive Operation : Type 1
  | read {α : Type} (x : Read α)
  | seek (position : ℕ)
  | push (length : ℕ)
  /-- A region behind a varint length is entered. -/
  | pushSized
  /-- A region behind a big-endian length is entered. -/
  | pushBlock
  | pop

/-- Whether an operation succeeds, and the reader behind it. -/
def perform (data : ByteArray) (r : Reader) : Operation → Except DecodeError Unit × Reader
  | .read x => ((fun _ => ()) <$> (r.read x.decoder data).1, (r.read x.decoder data).2)
  | .seek position => r.seek data position
  | .push length => r.push length
  | .pushSized => r.pushSized Decoder.varint32 data
  | .pushBlock => r.pushSized Decoder.be32 data
  | .pop => (.ok (), r.pop?.getD r)

/-- The reader behind some operations, one after another, whether they succeed or not. -/
def performAll (data : ByteArray) (r : Reader) (operations : List Operation) : Reader :=
  operations.foldl (fun r operation => (perform data r operation).2) r

/-- An operation on a number of bytes, or on a position, that is known beforehand. -/
inductive Operation.FixedExtent : Operation → Prop
  | be32 : FixedExtent (.read .be32)
  | skip (length : ℕ) : FixedExtent (.read (.skip length))
  | fixed32 (field : ℕ) : FixedExtent (.read (.skipField ⟨field, WireType.fixed32.code⟩))
  | fixed64 (field : ℕ) : FixedExtent (.read (.skipField ⟨field, WireType.fixed64.code⟩))
  | seek (position : ℕ) : FixedExtent (.seek position)
  | push (length : ℕ) : FixedExtent (.push length)

/-! ### Sound readers -/

/-- The position lies before the limit, and the limits are nested inside the data: the one in force
first, and each that is kept for later as wide as those before it. -/
structure Sound (data : ByteArray) (r : Reader) : Prop where
  position_le : r.cursor.position ≤ r.cursor.limit
  widening : (r.cursor.limit :: r.outer).Pairwise (· ≤ ·)
  inside : ∀ limit ∈ r.cursor.limit :: r.outer, limit ≤ data.size

lemma start_sound (data : ByteArray) : (start data).Sound data where
  position_le := Nat.zero_le _
  widening := List.pairwise_singleton _ _
  inside := List.forall_mem_singleton.mpr le_rfl

namespace Sound

/-- A reader may be anywhere in its region, or in a narrower one. -/
lemma move (h : r.Sound data) {c : Cursor} (inside : c.position ≤ c.limit)
    (narrower : c.limit ≤ r.cursor.limit) : Sound data ⟨c, r.outer⟩ := by
  obtain ⟨first, outer⟩ := List.pairwise_cons.mp h.widening
  obtain ⟨within, outside⟩ := List.forall_mem_cons.mp h.inside
  exact ⟨inside,
    List.pairwise_cons.mpr ⟨fun limit kept => narrower.trans (first limit kept), outer⟩,
    List.forall_mem_cons.mpr ⟨narrower.trans within, outside⟩⟩

lemma read {α : Type} (h : r.Sound data) {x : Decoder α} (contained : x.Contained) :
    (r.read x data).2.Sound data := by
  have encloses := contained data r.cursor h.position_le
  exact h.move encloses.inside encloses.limit_le

lemma seek (h : r.Sound data) (position : ℕ) : (r.seek data position).2.Sound data := by
  rw [Reader.seek, Cursor.seek]
  split
  next moved =>
    split at moved
    · cases moved
    next inside =>
      cases moved
      exact h.move (Nat.le_of_not_lt inside) le_rfl
  next => exact h

lemma push (h : r.Sound data) (length : ℕ) : (r.push length).2.Sound data := by
  rw [Reader.push, Cursor.narrow]
  split
  next narrowed =>
    split at narrowed
    · cases narrowed
    next room =>
      cases narrowed
      have narrower := Nat.le_of_not_lt room
      have kept := h.move (c := ⟨r.cursor.position, _⟩) (Nat.le_add_right _ length) narrower
      refine ⟨Nat.le_add_right _ _, List.pairwise_cons.mpr ⟨?_, h.widening⟩,
        List.forall_mem_cons.mpr ⟨?_, h.inside⟩⟩
      · refine List.forall_mem_cons.mpr ⟨narrower, (List.pairwise_cons.mp kept.widening).1⟩
      · exact (List.forall_mem_cons.mp kept.inside).1
  next => exact h

lemma pushSized (h : r.Sound data) {x : Decoder UInt32} (contained : x.Contained) :
    (r.pushSized x data).2.Sound data := by
  have behind := h.read contained
  rw [Reader.pushSized]
  split
  next length r' read =>
    rw [read] at behind
    exact behind.push length.toNat
  next cause r' read =>
    rw [read] at behind
    exact behind

/-- A limit that is given back is as wide as the one in force. -/
lemma pop (h : r.Sound data) : (r.pop?.getD r).Sound data := by
  obtain ⟨⟨position, limit⟩, outer⟩ := r
  cases outer with
  | nil => exact h
  | cons wider outer =>
    obtain ⟨first, outer⟩ := List.pairwise_cons.mp h.widening
    exact ⟨h.position_le.trans (first wider List.mem_cons_self), outer,
      (List.forall_mem_cons.mp h.inside).2⟩

/-- Every operation, successful or not, leaves a sound reader. -/
lemma perform (h : r.Sound data) (operation : Operation) :
    (perform data r operation).2.Sound data := by
  cases operation with
  | read x => exact h.read x.decoder_contained
  | seek position => exact h.seek position
  | push length => exact h.push length
  | pushSized => exact h.pushSized varint32_contained
  | pushBlock => exact h.pushSized be32_contained
  | pop => exact h.pop

end Sound

lemma performAll_sound (operations : List Operation) (h : r.Sound data) :
    (performAll data r operations).Sound data := by
  induction operations generalizing r with
  | nil => exact h
  | cons operation rest ih => exact ih (h.perform operation)

/-! ### Failures that change nothing -/

/-- A failed read of a fixed extent leaves the reader as it was. -/
lemma read_eq_of_error {α : Type} {x : Decoder α} (stays : x.StaysOnFailure) {cause : DecodeError}
    (fails : (r.read x data).1 = .error cause) : (r.read x data).2 = r := by
  rw [read] at fails ⊢
  cases run : x.run data r.cursor with
  | done a next reach =>
    rw [run] at fails
    cases fails
  | failed cause' stopped =>
    obtain rfl := stays data r.cursor cause' stopped run
    rfl

lemma seek_eq_of_error {position : ℕ} {cause : DecodeError}
    (fails : (r.seek data position).1 = .error cause) : (r.seek data position).2 = r := by
  rw [seek] at fails ⊢
  split
  next moved =>
    rw [moved] at fails
    cases fails
  next => rfl

lemma push_eq_of_error {length : ℕ} {cause : DecodeError}
    (fails : (r.push length).1 = .error cause) : (r.push length).2 = r := by
  rw [push] at fails ⊢
  split
  next narrowed =>
    rw [narrowed] at fails
    cases fails
  next => rfl

/-- An operation of fixed extent that fails changes nothing. -/
lemma perform_eq_of_error {operation : Operation} (fixed : operation.FixedExtent)
    {cause : DecodeError} (fails : (perform data r operation).1 = .error cause) :
    (perform data r operation).2 = r := by
  have failed {α : Type} {e : Except DecodeError α} (h : (fun _ => ()) <$> e = .error cause) :
      e = .error cause := by
    cases e with
    | ok a => cases h
    | error cause' => exact congrArg Except.error (Except.error.inj h)
  cases fixed with
  | be32 => exact read_eq_of_error be32_staysOnFailure (failed fails)
  | skip length => exact read_eq_of_error (skip_staysOnFailure length) (failed fails)
  | fixed32 field => exact read_eq_of_error (skip_staysOnFailure 4) (failed fails)
  | fixed64 field => exact read_eq_of_error (skip_staysOnFailure 8) (failed fails)
  | seek position => exact seek_eq_of_error fails
  | push length => exact push_eq_of_error fails

/-- Data that agree on the region of a reader answer every operation alike. -/
lemma perform_congr {data' : ByteArray}
    (agree : AgreeOn data data' r.cursor.position r.cursor.limit) (operation : Operation) :
    perform data' r operation = perform data r operation := by
  have same {α : Type} {x : Decoder α} (isLocal : x.Local) : r.read x data' = r.read x data := by
    rw [read, read, (isLocal r.cursor).run_eq agree]
  cases operation with
  | read x => simp only [perform, same x.decoder_local]
  | seek position => simp only [perform, seek, Cursor.seek, overrun_eq agree.size_eq]
  | push length => rfl
  | pushSized => simp only [perform, pushSized, same varint32_local]
  | pushBlock => simp only [perform, pushSized, same be32_local]
  | pop => rfl

/-! ### Runs of operations -/

/-- A reader that is opened at an offset is one that was moved there. -/
lemma at?_eq_ok {offset : ℕ} (h : at? data offset = .ok r) :
    r = performAll data (start data) [.seek offset] := by
  rw [at?] at h
  obtain ⟨c, moved, h⟩ := bind_eq_ok.mp h
  cases h
  have there : (start data).seek data offset = (.ok (), ⟨c, []⟩) := by
    rw [seek, start, moved]
  rw [performAll, List.foldl_cons, List.foldl_nil, perform, there]

/-- A reader keeps to its regions, whatever is done with it. Behind any operations, some of which
may have failed, its position lies before its limit, and the limits that are still to be given back
are nested around that one inside the data. From there, a read that succeeds stops in the region,
hands out nothing but bytes that stand between the places before and behind it, and does not depend
on others; whether it succeeds or not, no byte outside the region decides what an operation does. An
operation whose extent is known beforehand changes nothing when it fails. A reader that is opened at
an offset is one of these. -/
theorem operations_keep_regions (data : ByteArray) (operations : List Operation) :
    let r := performAll data (start data) operations
    r.Sound data ∧
    (∀ {α : Type} (x : Read α) (a : α) (next : Cursor),
      (x.decoder.run data r.cursor).Ends a next →
        next.limit = r.cursor.limit ∧ r.cursor.position ≤ next.position ∧
        next.position ≤ r.cursor.limit ∧
        (∀ b ∈ x.contents a, IsSlice data r.cursor.position next.position b) ∧
        ∀ data', AgreeOn data data' r.cursor.position next.position →
          (x.decoder.run data' r.cursor).Ends a next) ∧
    (∀ data', AgreeOn data data' r.cursor.position r.cursor.limit →
      ∀ operation, perform data' r operation = perform data r operation) ∧
    (∀ operation, operation.FixedExtent → ∀ cause, (perform data r operation).1 = .error cause →
      (perform data r operation).2 = r) ∧
    ∀ offset r', at? data offset = .ok r' → r' = performAll data (start data) [.seek offset] := by
  intro r
  have sound : r.Sound data := performAll_sound operations (start_sound data)
  refine ⟨sound, ?_, fun data' agree => perform_congr agree,
    fun operation fixed cause => perform_eq_of_error fixed, fun offset r' => at?_eq_ok⟩
  rintro α x a next ⟨reach, done⟩
  have inside : next.position ≤ r.cursor.limit :=
    (x.decoder_local r.cursor).position_le sound.position_le done
  exact ⟨reach.limit_eq, reach.position_le, inside, x.contents_isSlice ⟨reach, done⟩,
    fun data' agree => ⟨reach, x.decoder_local.run_done done agree⟩⟩

end Reader

end RoadAtlas
