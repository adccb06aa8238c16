import RoadAtlas.Proofs.Wire.Folding

/-!
Bytes that stand elsewhere. A decoder that does not answer with positions finds in some bytes what
it finds in a copy of them, wherever the copy lies. That includes failures: where one run stops on a
reference that dangles, so does the other, and where one stops for another cause, so does the other,
though the cause names another position.

* `Copied`: the regions of two cursors hold the same bytes;
* `Outcome.Alike`, `Decoder.AlikeIn`: two runs end alike, and two decoders do on all copies of some
  length;
* `AlikeIn.bind`, `AlikeIn.sized`, `AlikeIn.entries`, …: this follows the making of decoders;
* `Decoder.Finds`, `Decoder.FindsWhole`: what a decoder makes of some bytes wherever they stand, or
  wherever they fill their region;
* `Relocatable.exists_findsWhole`: whatever fills a region is found as something.
-/

namespace RoadAtlas

/-! ### Reasons -/

/-- The reference that dangles, if that is why decoding stopped. All other causes are about the
place at which it stopped. -/
def DecodeError.reference? : DecodeError → Option Dangling
  | .dangling reference => some reference
  | _ => none

lemma DecodeError.reference?_eq_some {cause : DecodeError} {reference : Dangling} :
    cause.reference? = some reference ↔ cause = .dangling reference := by
  cases cause <;> simp [reference?]

lemma Cursor.reference?_overrun (c : Cursor) (data : ByteArray) (position : ℕ) :
    (c.overrun data position).reference? = none := by
  rw [overrun]
  split <;> rfl

/-- What came of decoding, whatever it says about positions. -/
abbrev Verdict (α : Type) := Except (Option Dangling) α

/-! ### Copies -/

/-- The regions of two cursors hold the same bytes, `left` of them. -/
structure Copied (data : ByteArray) (c : Cursor) (data' : ByteArray) (c' : Cursor) (left : ℕ) :
    Prop where
  small : data.size < positionBound
  small' : data'.size < positionBound
  limit_eq : c.limit = c.position + left
  limit_eq' : c'.limit = c'.position + left
  below : c.limit ≤ data.size
  below' : c'.limit ≤ data'.size
  byte_eq : ∀ i < left, data'[c'.position + i]? = data[c.position + i]?

namespace Copied

variable {data data' : ByteArray} {c c' : Cursor} {left read : ℕ}

/-- Behind the first bytes, the rest is copied. -/
lemma advance (h : Copied data c data' c' left) (inside : read ≤ left) :
    Copied data ⟨c.position + read, c.limit⟩ data' ⟨c'.position + read, c'.limit⟩
      (left - read) where
  small := h.small
  small' := h.small'
  limit_eq := by have := h.limit_eq; dsimp only; omega
  limit_eq' := by have := h.limit_eq'; dsimp only; omega
  below := h.below
  below' := h.below'
  byte_eq i hi := by
    have same := h.byte_eq (read + i) (by omega)
    rwa [← Nat.add_assoc, ← Nat.add_assoc] at same

/-- The first bytes are copied. -/
lemma narrow (h : Copied data c data' c' left) (inside : read ≤ left) :
    Copied data ⟨c.position, c.position + read⟩ data' ⟨c'.position, c'.position + read⟩ read where
  small := h.small
  small' := h.small'
  limit_eq := rfl
  limit_eq' := rfl
  below := by have := h.limit_eq; have := h.below; dsimp only; omega
  below' := by have := h.limit_eq'; have := h.below'; dsimp only; omega
  byte_eq i hi := h.byte_eq i (by omega)

lemma atLimit_iff (h : Copied data c data' c' left) : c.limit ≤ c.position ↔ left = 0 := by
  rw [h.limit_eq]
  omega

lemma atLimit_iff' (h : Copied data c data' c' left) : c'.limit ≤ c'.position ↔ left = 0 := by
  rw [h.limit_eq']
  omega

end Copied

/-- The same bytes are held in two places. -/
lemma Copied.of_holds {data data' : ByteArray} {p p' : ℕ} {bytes : List UInt8}
    (small : data.size < positionBound) (small' : data'.size < positionBound)
    (inside : p + bytes.length ≤ data.size) (inside' : p' + bytes.length ≤ data'.size)
    (held : Holds data p bytes) (held' : Holds data' p' bytes) :
    Copied data ⟨p, p + bytes.length⟩ data' ⟨p', p' + bytes.length⟩ bytes.length where
  small := small
  small' := small'
  limit_eq := rfl
  limit_eq' := rfl
  below := inside
  below' := inside'
  byte_eq i hi := by
    have byte := List.getElem?_eq_getElem hi
    exact (held' i _ byte).trans (held i _ byte).symm

/-! ### Runs that end alike -/

/-- Two runs end alike: in one value, as many bytes further on, or for one reason. -/
inductive Outcome.Alike {α : Type} {c c' : Cursor} (o : Outcome α c) (o' : Outcome α c') : Prop
  | ended (value : α) (read : ℕ) (inside : c.position + read ≤ c.limit)
      (ends : o.Ends value ⟨c.position + read, c.limit⟩)
      (ends' : o'.Ends value ⟨c'.position + read, c'.limit⟩)
  | stopped (cause cause' : DecodeError) (place place' : Cursor) (failed : o = .failed cause place)
      (failed' : o' = .failed cause' place') (reason : cause'.reference? = cause.reference?)

namespace Decoder

variable {α β σ : Type} {left : ℕ} {x y : Decoder α}

/-- Two decoders end alike on all copies of a length. -/
def AlikeIn (left : ℕ) (x y : Decoder α) : Prop :=
  ∀ data c data' c', Copied data c data' c' left → (x.run data c).Alike (y.run data' c')

/-- The decoder ends alike on all copies. -/
def Relocatable (x : Decoder α) : Prop := ∀ left, AlikeIn left x x

lemma pure_alikeIn (a : α) : AlikeIn left (pure a) (pure a) := by
  intro data c data' c' copied
  refine .ended a 0 ?_ ⟨.refl _, rfl⟩ ⟨.refl _, rfl⟩
  have := copied.limit_eq
  omega

lemma fail_alikeIn {cause cause' : DecodeError} (reason : cause'.reference? = cause.reference?) :
    AlikeIn left (fail cause : Decoder α) (fail cause') :=
  fun _ _ _ _ _ => .stopped cause cause' _ _ rfl rfl reason

lemma ofExcept_alikeIn (e : Except DecodeError α) : AlikeIn left (ofExcept e) (ofExcept e) := by
  cases e with
  | ok a => exact pure_alikeIn a
  | error cause => exact fail_alikeIn rfl

/-- What goes on alike behind runs that end alike. That the first part has read something may be
used for the second. -/
lemma AlikeIn.bind {f g : α → Decoder β} (hx : AlikeIn left x y)
    (hf : ∀ a read, read ≤ left →
      (∃ data c, (x.run data c).Ends a ⟨c.position + read, c.limit⟩) →
        AlikeIn (left - read) (f a) (g a)) :
    AlikeIn left (x >>= f) (y >>= g) := by
  intro data c data' c' copied
  rw [run_bind, run_bind]
  cases hx data c data' c' copied with
  | stopped cause cause' _ _ failed failed' reason =>
    rw [failed, failed']
    exact .stopped cause cause' _ _ rfl rfl reason
  | ended a read inside ends ends' =>
    have within : read ≤ left := by
      have := copied.limit_eq
      omega
    have rest := hf a read within ⟨data, c, ends⟩ _ _ _ _ (copied.advance within)
    cases rest with
    | stopped cause cause' _ _ failed failed' reason =>
      obtain ⟨r, done⟩ := ends
      obtain ⟨r', done'⟩ := ends'
      rw [done, done', Outcome.andThen, Outcome.andThen, failed, failed']
      exact .stopped cause cause' _ _ rfl rfl reason
    | ended b more inside' later later' =>
      dsimp only at inside' later later'
      rw [Nat.add_assoc] at inside' later later'
      exact .ended b (read + more) inside' (ends.andThen fun _ => later)
        (ends'.andThen fun _ => later')

lemma AlikeIn.map (f : α → β) (h : AlikeIn left x y) : AlikeIn left (f <$> x) (f <$> y) := by
  rw [map_eq_pure_bind, map_eq_pure_bind]
  exact h.bind fun a _ _ _ => pure_alikeIn (f a)

lemma run_position_bind (f : ℕ → Decoder β) (data : ByteArray) (c : Cursor) :
    (position >>= f).run data c = (f c.position).run data c := by
  rw [run_bind, position]
  simp only [Outcome.andThen]
  cases (f c.position).run data c <;> rfl

/-- Where a decoder asks for its position, it must not matter. -/
lemma AlikeIn.position_bind {f g : ℕ → Decoder β} (h : ∀ s s', AlikeIn left (f s) (g s')) :
    AlikeIn left (position >>= f) (position >>= g) := by
  intro data c data' c' copied
  rw [run_position_bind, run_position_bind]
  exact h _ _ data c data' c' copied

/-! ### Numbers -/

lemma byte_alikeIn : AlikeIn left byte byte := by
  intro data c data' c' copied
  rw [byte]
  simp only [copied.atLimit_iff, copied.atLimit_iff']
  split
  next =>
    refine .stopped _ _ _ _ rfl rfl ?_
    rw [Cursor.reference?_overrun, Cursor.reference?_overrun]
  next ahead =>
    have same := copied.byte_eq 0 (by omega)
    rw [Nat.add_zero, Nat.add_zero] at same
    rw [same]
    refine .ended _ 1 ?_ ⟨_, rfl⟩ ⟨_, rfl⟩
    have := copied.limit_eq
    omega

lemma varintBytes_alikeIn (start start' : ℕ) : ∀ count left,
    AlikeIn left (varintBytes start count) (varintBytes start' count) := by
  intro count
  induction count with
  | zero => exact fun left => fail_alikeIn rfl
  | succ count ih =>
    intro left
    rw [varintBytes, varintBytes]
    refine byte_alikeIn.bind fun b read _ _ => ?_
    split
    next => exact (ih _).bind fun rest _ _ _ => pure_alikeIn _
    next => exact pure_alikeIn _

lemma varint_alikeIn : AlikeIn left varint varint :=
  AlikeIn.position_bind fun start start' =>
    (varintBytes_alikeIn start start' _ _).bind fun _ _ _ _ => pure_alikeIn _

lemma varint32_alikeIn : AlikeIn left varint32 varint32 :=
  varint_alikeIn.bind fun _ _ _ _ => pure_alikeIn _

lemma sint32_alikeIn : AlikeIn left sint32 sint32 :=
  varint32_alikeIn.bind fun _ _ _ _ => pure_alikeIn _

/-! ### Regions -/

lemma AlikeIn.within {length : ℕ} (h : AlikeIn length x y) :
    AlikeIn left (within length x) (within length y) := by
  intro data c data' c' copied
  have beyond : c.limit < c.position + length ↔ left < length := by
    rw [copied.limit_eq]
    omega
  have beyond' : c'.limit < c'.position + length ↔ left < length := by
    rw [copied.limit_eq']
    omega
  simp only [Decoder.within, beyond, beyond']
  split
  next => exact .stopped _ _ _ _ rfl rfl rfl
  next fits =>
    cases h _ _ _ _ (copied.narrow (Nat.le_of_not_lt fits)) with
    | stopped cause cause' _ _ failed failed' reason =>
      rw [failed, failed']
      exact .stopped cause cause' _ _ rfl rfl reason
    | ended a read inside ends ends' =>
      obtain ⟨r, done⟩ := ends
      obtain ⟨r', done'⟩ := ends'
      dsimp only at inside done done'
      refine .ended a read ?_ ⟨⟨rfl, r.position_le⟩, ?_⟩ ⟨⟨rfl, r'.position_le⟩, ?_⟩
      · have := copied.limit_eq
        omega
      · rw [done]
        rfl
      · rw [done']
        rfl

lemma AlikeIn.sized (h : ∀ length, AlikeIn length x y) : AlikeIn left (sized x) (sized y) :=
  varint32_alikeIn.bind fun _ _ _ _ => AlikeIn.within (h _)

lemma run_remaining_bind (f : ℕ → Decoder β) (data : ByteArray) (c : Cursor) :
    (remaining >>= f).run data c = (f c.remaining).run data c := by
  rw [run_bind, remaining]
  simp only [Outcome.andThen]
  cases (f c.remaining).run data c <;> rfl

/-- What is left in the region is the same in every copy. -/
lemma AlikeIn.remaining_bind {f g : ℕ → Decoder β} (h : AlikeIn left (f left) (g left)) :
    AlikeIn left (remaining >>= f) (remaining >>= g) := by
  intro data c data' c' copied
  have counted : c.remaining = left := by
    rw [Cursor.remaining, copied.limit_eq, Nat.add_sub_cancel_left]
  have counted' : c'.remaining = left := by
    rw [Cursor.remaining, copied.limit_eq', Nat.add_sub_cancel_left]
  rw [run_remaining_bind, run_remaining_bind, counted, counted']
  exact h data c data' c' copied

/-- Entries that are read alike fill regions alike. -/
lemma AlikeIn.entries {step : UInt32 → σ → Decoder σ}
    (h : ∀ lead acc left, AlikeIn left (step lead acc) (step lead acc)) (acc : σ) :
    AlikeIn left (entries acc step) (entries acc step) := by
  induction left using Nat.strongRecOn generalizing acc with
  | ind left ih =>
    rw [entries_eq]
    refine AlikeIn.remaining_bind ?_
    split
    next => exact pure_alikeIn acc
    next ahead =>
      refine varint32_alikeIn.bind fun lead read within consumed => ?_
      refine (h lead acc _).bind fun acc' more within' _ => ih _ ?_ acc'
      -- the number that leads an entry takes at least one byte
      obtain ⟨data, c, reach, done⟩ := consumed
      have := (varint32_precedes done).position_lt
      dsimp only at this
      omega

lemma packed_alikeIn : AlikeIn left packed packed :=
  AlikeIn.sized fun _ => AlikeIn.entries (fun _ _ _ => pure_alikeIn _) _

end Decoder

/-! ### What is found -/

/-- Decoding came to a verdict, and if that is a value, at a cursor. -/
def Outcome.Shows {α : Type} {c : Cursor} (o : Outcome α c) (v : Verdict α) (next : Cursor) :
    Prop :=
  match v with
  | .ok a => o.Ends a next
  | .error reference => ∃ cause place, o = .failed cause place ∧ cause.reference? = reference

namespace Decoder

variable {α β σ : Type} {left : ℕ} {x y : Decoder α} {bytes more body head : List UInt8}
  {v : Verdict α}

/-- The verdict on some bytes, wherever they stand. -/
def Finds (x : Decoder α) (bytes : List UInt8) (v : Verdict α) : Prop :=
  ∀ p data limit, data.size < positionBound → limit ≤ data.size → Holds data p bytes →
    p + bytes.length ≤ limit → (x.run data ⟨p, limit⟩).Shows v ⟨p + bytes.length, limit⟩

/-- The verdict on some bytes, wherever they fill a region. -/
def FindsWhole (x : Decoder α) (bytes : List UInt8) (v : Verdict α) : Prop :=
  ∀ p data, data.size < positionBound → p + bytes.length ≤ data.size → Holds data p bytes →
    (x.run data ⟨p, p + bytes.length⟩).Shows v ⟨p + bytes.length, p + bytes.length⟩

lemma pure_finds (a : α) : (pure a : Decoder α).Finds [] (.ok a) :=
  fun _ => pure_readsAt a

lemma ofExcept_finds (e : Except DecodeError α) :
    (ofExcept e).Finds [] (e.mapError DecodeError.reference?) := by
  cases e with
  | ok a => exact pure_finds a
  | error cause => exact fun _ _ _ _ _ _ _ => ⟨cause, _, rfl, rfl⟩

/-- A failure stands, whatever bytes follow. -/
lemma Finds.bind_error {f : α → Decoder β} {reference : Option Dangling}
    (h : x.Finds bytes (.error reference)) :
    (x >>= f).Finds (bytes ++ more) (.error reference) := by
  intro p data limit small below held inside
  rw [List.length_append] at inside
  obtain ⟨cause, place, failed, reason⟩ := h p data limit small below held.left (by omega)
  refine ⟨cause, place, ?_, reason⟩
  rw [run_bind, failed, Outcome.andThen]

lemma Finds.bind_ok {f : α → Decoder β} {a : α} {w : Verdict β} (h : x.Finds bytes (.ok a))
    (hf : (f a).Finds more w) : (x >>= f).Finds (bytes ++ more) w := by
  cases w with
  | ok b => exact fun p => ReadsAt.bind (h p) (hf _)
  | error reference =>
    intro p data limit small below held inside
    rw [List.length_append] at inside
    obtain ⟨reach, done⟩ := h p data limit small below held.left (by omega)
    obtain ⟨cause, place, failed, reason⟩ :=
      hf (p + bytes.length) data limit small below held.right (by omega)
    refine ⟨cause, place, ?_, reason⟩
    rw [run_bind, done, Outcome.andThen, failed]

/-- What goes on without reading more. -/
lemma Finds.bind {f : α → Decoder β} {w : α → Verdict β} (h : x.Finds bytes v)
    (hf : ∀ a, (f a).Finds [] (w a)) : (x >>= f).Finds bytes (v >>= w) := by
  rw [← List.append_nil bytes]
  cases v with
  | ok a => exact h.bind_ok (hf a)
  | error reference => exact h.bind_error

lemma Finds.map (f : α → β) (h : x.Finds bytes v) : (f <$> x).Finds bytes (f <$> v) := by
  rw [map_eq_pure_bind, map_eq_pure_bind]
  exact h.bind fun a => pure_finds (f a)

lemma Finds.findsWhole (h : x.Finds bytes v) : x.FindsWhole bytes v :=
  fun p data small inside held => h p data _ small inside held (Nat.le_refl _)

lemma FindsWhole.bind_ok {f : α → Decoder β} {a : α} {w : Verdict β} (h : x.Finds bytes (.ok a))
    (hf : (f a).FindsWhole more w) : (x >>= f).FindsWhole (bytes ++ more) w := by
  cases w with
  | ok b => exact fun p => FillsAt.bind (h p) (hf _)
  | error reference =>
    intro p data small inside held
    rw [List.length_append, ← Nat.add_assoc] at inside ⊢
    obtain ⟨reach, done⟩ := h p data _ small inside held.left (Nat.le_add_right _ _)
    obtain ⟨cause, place, failed, reason⟩ := hf (p + bytes.length) data small inside held.right
    refine ⟨cause, place, ?_, reason⟩
    rw [run_bind, done, Outcome.andThen, failed]

lemma FindsWhole.map (f : α → β) (h : x.FindsWhole bytes v) :
    (f <$> x).FindsWhole bytes (f <$> v) := by
  intro p data small inside held
  have shown := h p data small inside held
  rw [run_map]
  cases v with
  | ok a => exact shown.map
  | error reference =>
    obtain ⟨cause, place, failed, reason⟩ := shown
    exact ⟨cause, place, by rw [failed, Outcome.map], reason⟩

/-- A region behind its length is found as it is where it fills its region. -/
lemma FindsWhole.sized {n : UInt64} (h : x.FindsWhole body v) (spells : Varint.Spells head n)
    (counts : n.toUInt32.toNat = body.length) : (sized x).Finds (head ++ body) v := by
  have length : varint32.Finds head (.ok n.toUInt32) := fun _ => (spells_readsAt spells).bind_pure
  refine length.bind_ok ?_
  rw [counts]
  intro p data limit small below held inside
  have shown := h p data small (by omega) held
  cases v with
  | ok a => exact ends_within shown inside
  | error reference =>
    obtain ⟨cause, place, failed, reason⟩ := shown
    have fits : ¬ limit < p + body.length := by omega
    refine ⟨cause, place, ?_, reason⟩
    simp only [within, fits, ↓reduceIte, failed, Outcome.leave]

/-- A text behind its length is found as what its bytes spell. -/
lemma string_finds {n : UInt64} (spells : Varint.Spells head n)
    (counts : n.toUInt32.toNat = body.length) :
    string.Finds (head ++ body) (match String.fromUTF8? body.toByteArray with
      | some text => .ok text
      | none => .error none) := by
  have length : varint32.Finds head (.ok n.toUInt32) := fun _ => (spells_readsAt spells).bind_pure
  have read : Decoder.bytes.Finds (head ++ body) (.ok body.toByteArray) := by
    refine length.bind_ok ?_
    rw [counts]
    exact fun _ => take_readsAt body
  intro p data limit small below held inside
  rw [string, run_position_bind]
  have decoded : ((do
      let encoded ← Decoder.bytes
      match String.fromUTF8? encoded with
      | some text => return text
      | none => fail (.invalidUtf8 p)) : Decoder String).Finds (head ++ body)
        (match String.fromUTF8? body.toByteArray with
        | some text => .ok text
        | none => .error none) := by
    refine read.bind (w := fun encoded => match String.fromUTF8? encoded with
      | some text => .ok text
      | none => .error none) fun encoded => ?_
    split
    next text _ => exact pure_finds text
    next => exact fun _ _ _ _ _ _ _ => ⟨_, _, rfl, rfl⟩
  exact decoded p data limit small below held inside

/-! ### Regions that are read to their end -/

/-- A success leads to the end of the region. -/
def Exhausts (x : Decoder α) : Prop :=
  ∀ data c a next, (x.run data c).Ends a next → next.limit ≤ next.position

lemma entries_exhausts (step : UInt32 → σ → Decoder σ) (acc : σ) :
    (entries acc step).Exhausts := by
  intro data c
  induction left : c.remaining using Nat.strongRecOn generalizing c acc with
  | ind left ih =>
    subst left
    rintro result next ⟨reach, done⟩
    rw [entries_eq, run_remaining_bind] at done
    split at done
    next empty =>
      cases done
      rw [Cursor.remaining] at empty
      omega
    next ahead =>
      obtain ⟨lead, c₁, r₁, r₁', first, done⟩ := bind_done done
      obtain ⟨acc', c₂, r₂, r₂', -, done⟩ := bind_done done
      have fewer := ((varint32_precedes first).trans_reaches r₂).remaining_lt
      exact ih _ fewer acc' c₂ rfl result next ⟨r₂', done⟩

lemma Exhausts.map (f : α → β) (h : x.Exhausts) : (f <$> x).Exhausts := by
  rintro data c b next ⟨reach, done⟩
  rw [run_map] at done
  obtain ⟨a, first, -⟩ := Outcome.map_eq_done done
  exact h data c a next ⟨reach, first⟩

/-- What a relocatable decoder makes of a region is the same wherever the region lies. -/
lemma Relocatable.exists_findsWhole (h : x.Relocatable) (exhausts : x.Exhausts)
    (bytes : List UInt8) : ∃ v, x.FindsWhole bytes v := by
  by_cases small : bytes.length < positionBound
  case neg =>
    -- no data have room for so many bytes
    exact ⟨.error none, fun p data small' inside _ => by omega⟩
  case pos =>
    have held : Holds bytes.toByteArray 0 bytes := holds_append [] bytes
    have size : bytes.toByteArray.size = bytes.length := List.size_toByteArray ..
    have alike (p : ℕ) (data : ByteArray) (small' : data.size < positionBound)
        (inside : p + bytes.length ≤ data.size) (held' : Holds data p bytes) :
        (x.run bytes.toByteArray ⟨0, 0 + bytes.length⟩).Alike
          (x.run data ⟨p, p + bytes.length⟩) :=
      h _ _ _ _ _ (.of_holds (size.symm ▸ small) small' (by omega) inside held held')
    cases first : x.run bytes.toByteArray ⟨0, 0 + bytes.length⟩ with
    | done a next reach =>
      refine ⟨.ok a, fun p data small' inside held' => ?_⟩
      have ending := exhausts _ _ _ _ ⟨reach, first⟩
      cases alike p data small' inside held' with
      | stopped cause cause' _ _ failed => rw [first] at failed; cases failed
      | ended a' read within ends ends' =>
        obtain ⟨rfl, rfl⟩ := Outcome.Ends.unique ⟨reach, first⟩ ends
        dsimp only at ending within ends'
        have whole : read = bytes.length := by omega
        rwa [whole] at ends'
    | failed cause place =>
      refine ⟨.error cause.reference?, fun p data small' inside held' => ?_⟩
      cases alike p data small' inside held' with
      | ended a' read within ends => obtain ⟨r, done⟩ := ends; rw [first] at done; cases done
      | stopped cause₁ cause' _ place' failed failed' reason =>
        rw [first] at failed
        cases failed
        exact ⟨cause', place', failed', reason⟩

end Decoder

end RoadAtlas
