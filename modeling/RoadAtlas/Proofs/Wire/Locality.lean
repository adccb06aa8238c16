import Mathlib.Order.MinMax
import RoadAtlas.Wire.Field

/-!
Decoders look at what they consume, and consume no more than their region. A decoder that succeeds
depends on the bytes between the cursors before and after it alone, and one that fails on no byte
behind the limit of its region. Data of one length that agree there are decoded alike, failures
included.

* `AgreeOn`: the same bytes in a range;
* `Outcome.extent`: how far a decoder may have looked;
* `Decoder.LocalAt`, `Decoder.Local`: the outcome does not depend on what lies beyond, and a success
  does not lead there;
* `LocalAt.bind`, `LocalAt.within`, `fields_localAt`, …: what is made of local decoders is local.
-/

namespace RoadAtlas

/-! ### Data that agree -/

/-- Data of one length whose bytes from `lo` on and below `hi` are the same. -/
structure AgreeOn (data data' : ByteArray) (lo hi : ℕ) : Prop where
  size_eq : data'.size = data.size
  byte_eq : ∀ i, lo ≤ i → i < hi → data'[i]? = data[i]?

namespace AgreeOn

variable {data data' : ByteArray} {lo hi lo' hi' : ℕ}

lemma mono (h : AgreeOn data data' lo hi) (hlo : lo ≤ lo') (hhi : hi' ≤ hi) :
    AgreeOn data data' lo' hi' :=
  ⟨h.size_eq, fun i above below => h.byte_eq i (hlo.trans above) (below.trans_le hhi)⟩

lemma extract_eq (h : AgreeOn data data' lo hi) : data'.extract lo hi = data.extract lo hi := by
  refine ByteArray.ext_getElem ?_ fun i hi hi' => ?_
  · rw [ByteArray.size_extract, ByteArray.size_extract, h.size_eq]
  · rw [ByteArray.size_extract] at hi hi'
    have same := h.byte_eq (lo + i) (Nat.le_add_right _ _) (by omega)
    rw [getElem?_pos data' (lo + i) (by omega), getElem?_pos data (lo + i) (by omega)] at same
    rw [ByteArray.getElem_extract, ByteArray.getElem_extract]
    exact Option.some.inj same

end AgreeOn

/-! ### Regions -/

namespace Cursor

/-- A region must start inside the data and end there. -/
lemma region_eq (data : ByteArray) (offset length : ℕ) :
    region data offset length =
      if data.size < offset then .error (.endOfData offset)
      else if data.size < offset + length then .error (.endOfRegion offset data.size)
      else .ok ⟨offset, offset + length⟩ := by
  have whole : (start data).overrun data offset = .endOfData offset :=
    if_pos (Nat.le_refl data.size)
  have seeks : (start data).seek data offset =
      if data.size < offset then .error (.endOfData offset) else .ok ⟨offset, data.size⟩ := by
    rw [seek, whole]
    rfl
  rw [region, seeks]
  split
  · rfl
  · rfl

lemma region_congr {data data' : ByteArray} (size : data'.size = data.size) (offset length : ℕ) :
    region data' offset length = region data offset length := by
  rw [region_eq, region_eq, size]

lemma region_eq_ok_iff {data : ByteArray} {offset length : ℕ} {c : Cursor} :
    region data offset length = .ok c ↔
      offset + length ≤ data.size ∧ c = ⟨offset, offset + length⟩ := by
  rw [region_eq]
  constructor
  · intro h
    split at h
    · cases h
    · split at h
      · cases h
      next inside =>
        cases h
        exact ⟨Nat.le_of_not_lt inside, rfl⟩
  · rintro ⟨inside, rfl⟩
    rw [if_neg (by omega), if_neg (by omega)]

end Cursor

/-! ### How far a decoder looks -/

namespace Outcome

variable {α β : Type} {c : Cursor}

/-- The position before which a decoder looked: where it stopped, or the limit when it failed. -/
def extent : Outcome α c → ℕ
  | done _ next _ => min next.position c.limit
  | failed _ _ => c.limit

lemma extent_le_limit (o : Outcome α c) : o.extent ≤ c.limit := by
  cases o with
  | done value next reach => exact Nat.min_le_right _ _
  | failed cause stopped => exact Nat.le_refl _

lemma le_extent (o : Outcome α c) : min c.position c.limit ≤ o.extent := by
  cases o with
  | done value next reach => exact min_le_min_right _ reach.position_le
  | failed cause stopped => exact Nat.min_le_right _ _

lemma extent_andThen {a : α} {mid : Cursor} {reach : c.Reaches mid}
    {f : α → (c' : Cursor) → c.Reaches c' → Outcome β c'} :
    ((done a mid reach).andThen f).extent = (f a mid reach).extent := by
  rw [andThen]
  cases f a mid reach with
  | done b next reach' => simp only [extent, reach.limit_eq]
  | failed cause stopped => exact reach.limit_eq.symm

/-- A success did not lead out of the region. -/
def Confined : Outcome α c → Prop
  | done _ next _ => next.position ≤ c.limit
  | failed _ _ => True

lemma Confined.andThen {o : Outcome α c} {f : α → (c' : Cursor) → c.Reaches c' → Outcome β c'}
    (h : ∀ a mid reach, o = done a mid reach → (f a mid reach).Confined) :
    (o.andThen f).Confined := by
  cases o with
  | failed cause stopped => trivial
  | done a mid reach =>
    have inner := h a mid reach rfl
    rw [Outcome.andThen]
    cases second : f a mid reach with
    | failed cause stopped => trivial
    | done b next reach' =>
      rw [second] at inner
      exact inner.trans_eq reach.limit_eq

end Outcome

namespace Decoder

variable {α β σ : Type} {c : Cursor}

/-- From the cursor `c` the decoder depends on no byte beyond its extent, and does not lead out of
the region. -/
structure LocalAt (x : Decoder α) (c : Cursor) : Prop where
  run_congr : ∀ data data', AgreeOn data data' c.position (x.run data c).extent →
    x.run data' c = x.run data c
  confined : c.position ≤ c.limit → ∀ data, (x.run data c).Confined

/-- The decoder depends on no byte beyond its extent and does not lead out of its region. -/
def Local (x : Decoder α) : Prop := ∀ c, x.LocalAt c

/-- The decoder reads nothing. -/
lemma LocalAt.of_const {x : Decoder α} {o : Outcome α c} (h : ∀ data, x.run data c = o)
    (stays : c.position ≤ c.limit → o.Confined) : x.LocalAt c where
  run_congr data data' _ := by rw [h, h]
  confined inside data := by
    rw [h]
    exact stays inside

/-- Data that agree on the region of the cursor are decoded alike. -/
lemma LocalAt.run_eq {x : Decoder α} (h : x.LocalAt c) {data data' : ByteArray}
    (agree : AgreeOn data data' c.position c.limit) : x.run data' c = x.run data c :=
  h.run_congr data data' (agree.mono (Nat.le_refl _) (Outcome.extent_le_limit _))

/-- A success stays in the region. -/
lemma LocalAt.position_le {x : Decoder α} (h : x.LocalAt c) (inside : c.position ≤ c.limit)
    {data : ByteArray} {a : α} {next : Cursor} {reach : c.Reaches next}
    (done : x.run data c = .done a next reach) : next.position ≤ c.limit := by
  have stays := h.confined inside data
  rwa [done] at stays

/-- Data that agree on what was consumed are decoded alike. -/
lemma Local.run_done {x : Decoder α} (h : x.Local) {data data' : ByteArray} {a : α} {next : Cursor}
    {reach : c.Reaches next} (done : x.run data c = .done a next reach)
    (agree : AgreeOn data data' c.position next.position) : x.run data' c = .done a next reach := by
  rw [← done]
  refine (h c).run_congr data data' (agree.mono (Nat.le_refl _) ?_)
  rw [done]
  exact Nat.min_le_left _ _

lemma pure_local (a : α) : (pure a : Decoder α).Local := fun _ => .of_const (fun _ => rfl) id

lemma fail_local (cause : DecodeError) : (fail cause : Decoder α).Local :=
  fun _ => .of_const (fun _ => rfl) fun _ => trivial

lemma ofExcept_local (e : Except DecodeError α) : (ofExcept e).Local := by
  cases e with
  | ok a => exact pure_local a
  | error cause => exact fail_local cause

lemma position_local : position.Local := fun _ => .of_const (fun _ => rfl) id

lemma remaining_local : remaining.Local := fun _ => .of_const (fun _ => rfl) id

/-! ### Sequences and regions -/

lemma LocalAt.bind {x : Decoder α} {f : α → Decoder β} (hx : x.LocalAt c)
    (hf : ∀ data a mid reach, x.run data c = .done a mid reach → (f a).LocalAt mid) :
    (x >>= f).LocalAt c where
  run_congr data data' agree := by
    rw [run_bind] at agree ⊢
    rw [run_bind]
    cases first : x.run data c with
    | failed cause stopped =>
      rw [first] at agree
      have same := hx.run_congr data data' (by rwa [first])
      rw [same, first]
      rfl
    | done a mid reach =>
      rw [first, Outcome.extent_andThen] at agree
      -- the second decoder looks at least as far as the first
      have before : min mid.position c.limit ≤ ((f a).run data mid).extent := by
        rw [← reach.limit_eq]
        exact Outcome.le_extent _
      have same := hx.run_congr data data' (by rw [first]; exact agree.mono (Nat.le_refl _) before)
      have behind := agree.mono reach.position_le (Nat.le_refl _)
      have same' := (hf data a mid reach first).run_congr data data' behind
      rw [same, first]
      simp only [Outcome.andThen, same']
  confined inside data := by
    rw [run_bind]
    refine Outcome.Confined.andThen fun a mid reach first => ?_
    have still := hx.position_le inside first
    rw [← reach.limit_eq] at still
    exact (hf data a mid reach first).confined still data

lemma Local.bind {x : Decoder α} {f : α → Decoder β} (hx : x.Local) (hf : ∀ a, (f a).Local) :
    (x >>= f).Local :=
  fun c => (hx c).bind fun _ a mid _ _ => hf a mid

lemma LocalAt.map {x : Decoder α} (hx : x.LocalAt c) (f : α → β) : (f <$> x).LocalAt c := by
  rw [← bind_pure_comp]
  exact hx.bind fun _ a mid _ _ => pure_local (f a) mid

lemma Local.map {x : Decoder α} (hx : x.Local) (f : α → β) : (f <$> x).Local :=
  fun c => (hx c).map f

/-- A nested region is looked at, and left, no further than its end. -/
lemma LocalAt.within {x : Decoder α} {length : ℕ}
    (hx : ¬ c.limit < c.position + length → x.LocalAt { c with limit := c.position + length }) :
    (within length x).LocalAt c where
  run_congr data data' agree := by
    simp only [Decoder.within] at agree ⊢
    split
    · rfl
    next inside =>
      rw [if_neg inside] at agree
      have inner : (x.run data { c with limit := c.position + length }).extent ≤
          (x.run data { c with limit := c.position + length }).leave.extent := by
        cases x.run data { c with limit := c.position + length } with
        | done a next reach => exact min_le_min_left _ (Nat.le_of_not_lt inside)
        | failed cause stopped => exact Nat.le_of_not_lt inside
      rw [(hx inside).run_congr data data' (agree.mono (Nat.le_refl _) inner)]
  confined _ data := by
    simp only [Decoder.within]
    split
    · trivial
    next inside =>
      have inner := (hx inside).confined (Nat.le_add_right _ _) data
      cases region : x.run data { c with limit := c.position + length } with
      | done a next reach =>
        rw [region] at inner
        exact inner.trans (Nat.le_of_not_lt inside)
      | failed cause stopped => trivial

lemma Local.within {x : Decoder α} (hx : x.Local) (length : ℕ) : (within length x).Local :=
  fun _ => LocalAt.within fun _ => hx _

/-! ### Scalars -/

lemma overrun_eq {data data' : ByteArray} (size : data'.size = data.size) (position : ℕ) :
    c.overrun data' position = c.overrun data position := by
  rw [Cursor.overrun, Cursor.overrun, size]

lemma byte_local : byte.Local := fun c => {
  run_congr data data' agree := by
    simp only [byte] at agree ⊢
    split
    · rw [overrun_eq agree.size_eq]
    next inside =>
      rw [if_neg inside] at agree
      have here := agree.byte_eq c.position (Nat.le_refl _) (by simp only [Outcome.extent]; omega)
      rw [here]
  confined _ data := by
    simp only [byte]
    split
    · trivial
    next inside => exact Nat.lt_of_not_le inside }

lemma take_local (length : ℕ) : (take length).Local := fun c => {
  run_congr data data' agree := by
    simp only [take] at agree ⊢
    split
    · rfl
    next addressable =>
      split
      · rw [overrun_eq agree.size_eq]
      next inside =>
        rw [if_neg addressable, if_neg inside] at agree
        have range : min (c.position + length) c.limit = c.position + length := by omega
        simp only [Outcome.extent, range] at agree
        rw [agree.extract_eq]
  confined _ data := by
    simp only [take]
    split
    · trivial
    · split
      · trivial
      next inside => exact Nat.le_of_not_lt inside }

/-- What is passed over is not looked at. -/
lemma run_skip_eq {data data' : ByteArray} (size : data'.size = data.size) (length : ℕ) :
    (skip length).run data' c = (skip length).run data c := by
  simp only [skip, run_bind, take, overrun_eq size]
  split
  · rfl
  · split
    · rfl
    · rfl

lemma skip_local (length : ℕ) : (skip length).Local :=
  (take_local length).bind fun _ => pure_local _

lemma varintBytes_local (start left : ℕ) : (varintBytes start left).Local := by
  induction left with
  | zero => exact fail_local _
  | succ left ih =>
    refine byte_local.bind fun b => ?_
    split
    · exact ih.bind fun rest => pure_local _
    · exact pure_local _

lemma varint_local : varint.Local :=
  position_local.bind fun start => (varintBytes_local start _).bind fun _ => pure_local _

lemma varint32_local : varint32.Local := varint_local.bind fun _ => pure_local _

lemma sint32_local : sint32.Local := varint32_local.bind fun _ => pure_local _

lemma sint64_local : sint64.Local := varint_local.bind fun _ => pure_local _

lemma bool_local : bool.Local := varint_local.bind fun _ => pure_local _

lemma be32_local : be32.Local := (take_local 4).bind fun _ => pure_local _

lemma bytes_local : bytes.Local := varint32_local.bind fun length => take_local length.toNat

lemma string_local : string.Local := by
  refine position_local.bind fun start => bytes_local.bind fun encoded => ?_
  split
  · exact pure_local _
  · exact fail_local _

lemma Local.sized {x : Decoder α} (hx : x.Local) : (sized x).Local :=
  varint32_local.bind fun length => hx.within length.toNat

/-! ### Messages -/

lemma tag_local : tag.Local := by
  intro c
  by_cases ended : c.atLimit = true
  · refine .of_const (o := .done .finish c (.refl c)) (fun data => ?_) id
    simp only [tag, if_pos ended]
  · have run : ∀ data, tag.run data c = (Tag.ofWord <$> varint32).run data c := by
      intro data
      rw [run_map]
      simp only [tag, if_neg ended]
    have word := varint32_local.map Tag.ofWord c
    refine ⟨fun data data' agree => ?_, fun inside data => ?_⟩
    · rw [run] at agree ⊢
      rw [run]
      exact word.run_congr data data' agree
    · rw [run]
      exact word.confined inside data

/-- A tag that does not end its message consumes at least one byte. -/
lemma tag_precedes {data : ByteArray} {t : Tag} {mid : Cursor} {reach : c.Reaches mid}
    (h : tag.run data c = .done t mid reach) (goes : ¬ t.isEnd = true) : c.Precedes mid := by
  simp only [tag] at h
  split at h
  · cases h
    exact absurd rfl goes
  · obtain ⟨lead, hlead, -⟩ := Outcome.map_eq_done h
    exact varint32_precedes hlead

lemma fieldsUntil_localAt {stop : Tag → Bool} {step : Tag → σ → Decoder σ} {acc : σ}
    (h : ∀ t acc c', c.Precedes c' → (step t acc).LocalAt c') :
    (fieldsUntil stop acc step).LocalAt c := by
  induction left : c.remaining using Nat.strong_induction_on generalizing c acc with
  | _ left ih =>
    subst left
    rw [fieldsUntil_eq]
    refine (tag_local c).bind fun data t mid reach first => ?_
    split
    · exact pure_local _ _
    next goes =>
      have notEnd : ¬ t.isEnd = true := fun ended => goes (by simp [ended])
      have before := tag_precedes first notEnd
      refine (h t acc mid before).bind fun data' acc' c' reach' _ => ?_
      have before' := before.trans_reaches reach'
      exact ih _ before'.remaining_lt
        (fun t acc c'' later => h t acc c'' (before'.reaches.trans_precedes later)) rfl

lemma fields_localAt {step : Tag → σ → Decoder σ} {acc : σ}
    (h : ∀ t acc c', c.Precedes c' → (step t acc).LocalAt c') : (fields acc step).LocalAt c := by
  rw [fields_eq_map_fieldsUntil]
  exact (fieldsUntil_localAt h).map _

lemma fields_local {step : Tag → σ → Decoder σ} {acc : σ} (h : ∀ t acc, (step t acc).Local) :
    (fields acc step).Local :=
  fun _ => fields_localAt fun t acc c' _ => h t acc c'

lemma entries_local {step : UInt32 → σ → Decoder σ} {acc : σ}
    (h : ∀ lead acc, (step lead acc).Local) : (entries acc step).Local := by
  intro c
  induction left : c.remaining using Nat.strong_induction_on generalizing c acc with
  | _ left ih =>
    subst left
    rw [entries_eq]
    refine (remaining_local c).bind fun data left mid reach first => ?_
    cases first
    split
    · exact pure_local _ _
    · refine (varint32_local c).bind fun data' lead c₁ reach₁ hlead => ?_
      have before := varint32_precedes hlead
      refine (h lead acc c₁).bind fun data'' acc' c₂ reach₂ _ => ?_
      exact ih _ (before.trans_reaches reach₂).remaining_lt _ rfl

lemma skipField_local (t : Tag) : (skipField t).Local := by
  rw [skipField]
  split
  · exact varint_local.bind fun _ => pure_local _
  · exact skip_local 8
  · exact skip_local 4
  · exact varint32_local.bind fun length => skip_local length.toNat
  · exact position_local.bind fun here => fail_local _

lemma skipBlock_local : skipBlock.Local := be32_local.bind fun length => skip_local length.toNat

lemma packed_local : packed.Local := (entries_local fun _ _ => pure_local _).sized

/-- A string table is a message whose steps are local. -/
lemma stringTableBody_eq : ∃ step : Tag → Array String → Decoder (Array String),
    stringTableBody = fields #[] step ∧ ∀ t strings, (step t strings).Local := by
  refine ⟨_, rfl, fun t strings => ?_⟩
  split
  · exact string_local.bind fun text => pure_local _
  · exact (skipField_local t).bind fun _ => pure_local _

lemma stringTableBody_local : stringTableBody.Local := by
  obtain ⟨step, body, steps⟩ := stringTableBody_eq
  rw [body]
  exact fields_local steps

lemma stringTable_local : stringTable.Local := stringTableBody_local.sized

end Decoder

end RoadAtlas
