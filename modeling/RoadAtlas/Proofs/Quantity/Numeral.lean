import Mathlib.Data.List.DropRight
import Mathlib.Data.List.Induction
import RoadAtlas.Quantity

/-!
Reading a numeral takes as much of a text as is one. What counts as a numeral is said by a grammar
(`NumeralForm.Accepts`) that does not mention the reader: an optional minus sign, digits, and an
optional point with more digits behind it.

* `Text.TrimsTo`: a text without its blank margins;
* `NumeralForm.LongestIn`: the longest numeral of a form at the front of a text;
* `Numeral.accepts_of_take`, `Numeral.length_le_take`: what is taken is a numeral, and nothing
  longer is;
* `NumeralForm.Accepts.prefix_utf8_iff`: among the bytes of a text there are no other numerals than
  among its characters;
* `Quantity.integer?_toString`: integers are read as they are written;
* `Numeral.leading_is_longest` puts these together.
-/

namespace RoadAtlas

/-! ### Margins -/

namespace Text

variable {before core : List Char}

/-- What is left of a text when the blanks at both ends are taken off. -/
def TrimsTo (text core : List Char) : Prop :=
  ∃ before after, text = before ++ core ++ after ∧ (∀ c ∈ before ++ after, isBlank c = true) ∧
    (∀ c ∈ core.head?, isBlank c = false) ∧ ∀ c ∈ core.getLast?, isBlank c = false

lemma trim_eq (text : List Char) : trim text = (text.dropWhile isBlank).rdropWhile isBlank := rfl

/-- Blanks in front go, and of what follows a text without blank ends only the end may go. -/
lemma exists_trim_append (blank : ∀ c ∈ before, isBlank c = true) (filled : core ≠ [])
    (first : ∀ c ∈ core.head?, isBlank c = false) (last : ∀ c ∈ core.getLast?, isBlank c = false)
    (after : List Char) :
    ∃ rest, rest <+: after ∧ trim (before ++ core ++ after) = core ++ rest := by
  have front : (before ++ core ++ after).dropWhile isBlank = core ++ after := by
    rw [List.append_assoc, List.dropWhile_append_of_pos blank]
    cases core with
    | nil => exact absurd rfl filled
    | cons c core =>
      rw [List.cons_append, List.dropWhile_cons_of_neg]
      rw [first c rfl]
      exact Bool.false_ne_true
  rw [trim_eq, front]
  clear front
  induction after using List.reverseRecOn with
  | nil =>
    refine ⟨[], List.prefix_rfl, ?_⟩
    rw [List.append_nil, List.rdropWhile_eq_self_iff]
    intro filled
    rw [last _ (List.getLast?_eq_some_getLast filled)]
    exact Bool.false_ne_true
  | append_singleton after c ih =>
    rw [← List.append_assoc, List.rdropWhile_concat]
    split
    next blankEnd =>
      obtain ⟨rest, inFront, trimmed⟩ := ih
      exact ⟨rest, inFront.trans (List.prefix_append _ _), trimmed⟩
    next => exact ⟨after ++ [c], List.prefix_rfl, List.append_assoc _ _ _⟩

lemma trimsTo_trim (text : List Char) : TrimsTo text (trim text) := by
  have inFront := List.takeWhile_append_dropWhile (p := isBlank) (l := text)
  have behind := List.rdropWhile_append_rtakeWhile (p := isBlank) (l := text.dropWhile isBlank)
  refine ⟨text.takeWhile isBlank, (text.dropWhile isBlank).rtakeWhile isBlank, ?_, ?_, ?_, ?_⟩
  · rw [trim_eq, List.append_assoc, behind, inFront]
  · intro c listed
    rcases List.mem_append.mp listed with first | last
    · exact List.mem_takeWhile_imp first
    · exact List.mem_rtakeWhile_imp last
  · intro c found
    obtain ⟨rest, same⟩ := List.rdropWhile_prefix isBlank (text.dropWhile isBlank)
    have head : (text.dropWhile isBlank).head? = some c := by
      rw [← same, List.head?_append, ← trim_eq, found, Option.some_or]
    have ends := List.head?_dropWhile_not isBlank text
    rw [head] at ends
    exact ends
  · intro c found
    rw [trim_eq] at found
    have filled := List.getLast?_isSome.mp (Option.isSome_of_mem found)
    have ends := List.rdropWhile_last_not isBlank _ filled
    rw [List.getLast?_eq_some_getLast filled, Option.mem_some] at found
    rwa [found, Bool.not_eq_true] at ends

/-- A digit is not a blank. -/
lemma isBlank_eq_false_of_isDigit {c : Char} (digit : c.isDigit = true) : isBlank c = false := by
  rw [Char.isDigit_iff_toNat] at digit
  have h0 : ('0' : Char).toNat = 48 := rfl
  have h9 : ('9' : Char).toNat = 57 := rfl
  simp [isBlank, Char.le_def, UInt32.le_iff_toNat_le, Char.ext_iff, ← UInt32.toNat_inj]
  omega

end Text

/-! ### The grammar -/

/-- One or more decimal digits. -/
structure Digits (text : List Char) : Prop where
  ne_nil : text ≠ []
  isDigit : ∀ c ∈ text, c.isDigit = true

/-- A text is a numeral of a form: a minus sign if the form has one, digits, and if the form has a
fraction, a point and digits. -/
def NumeralForm.Accepts (form : NumeralForm) (text : List Char) : Prop :=
  ∃ sign whole fraction, text = sign ++ whole ++ fraction ∧
    (sign = [] ∨ form.signed = true ∧ sign = ['-']) ∧ Digits whole ∧
    (fraction = [] ∨ form.fractional = true ∧ ∃ digits, Digits digits ∧ fraction = '.' :: digits)

/-- The longest numeral of a form at the front of a text. -/
structure NumeralForm.LongestIn (form : NumeralForm) (text numeral : List Char) : Prop where
  isPrefix : numeral <+: text
  accepts : form.Accepts numeral
  longest : ∀ other, other <+: text → form.Accepts other → other.length ≤ numeral.length

/-- The integer that a text denotes in decimal digits. -/
def Denotes (text : List Char) (value : ℤ) : Prop :=
  ∃ digits, Digits digits ∧
    (text = digits ∧ value = Nat.ofDigitChars 10 digits 0 ∨
      text = '-' :: digits ∧ value = -(Nat.ofDigitChars 10 digits 0 : ℤ))

/-- A text has one longest numeral at most. -/
lemma NumeralForm.LongestIn.unique {form : NumeralForm} {text numeral numeral' : List Char}
    (h : form.LongestIn text numeral) (h' : form.LongestIn text numeral') : numeral = numeral' := by
  have length := Nat.le_antisymm (h'.longest _ h.isPrefix h.accepts)
    (h.longest _ h'.isPrefix h'.accepts)
  exact (List.prefix_of_prefix_length_le h.isPrefix h'.isPrefix length.le).eq_of_length length

/-- A minus sign is not a digit. -/
lemma not_digits_minus (rest : List Char) : ¬ Digits ('-' :: rest) := fun digits =>
  absurd (digits.isDigit '-' List.mem_cons_self) (by decide)

/-- A text denotes one integer at most. -/
lemma Denotes.unique {text : List Char} {value value' : ℤ} (h : Denotes text value)
    (h' : Denotes text value') : value = value' := by
  obtain ⟨digits, numeric, ⟨rfl, rfl⟩ | ⟨rfl, rfl⟩⟩ := h <;>
    obtain ⟨digits', numeric', ⟨same, rfl⟩ | ⟨same, rfl⟩⟩ := h'
  · rw [same]
  · exact absurd (same ▸ numeric) (not_digits_minus _)
  · exact absurd (same ▸ numeric') (not_digits_minus _)
  · rw [(List.cons.inj same).2]

namespace Numeral

variable {form : NumeralForm} {fractional negative : Bool} {text whole rest : List Char}
  {n : Numeral}

/-! ### What is taken -/

/-- A text is its first digits and what follows them. -/
lemma exists_digits_append (text : List Char) : ∃ whole rest, text = whole ++ rest ∧
    (∀ c ∈ whole, c.isDigit = true) ∧ ∀ c ∈ rest.head?, c.isDigit = false := by
  refine ⟨text.takeWhile Char.isDigit, text.dropWhile Char.isDigit,
    List.takeWhile_append_dropWhile.symm, fun c listed => List.mem_takeWhile_imp listed, ?_⟩
  intro c found
  have ends := List.head?_dropWhile_not Char.isDigit text
  rw [found] at ends
  exact ends

lemma takeWhile_digits (digits : ∀ c ∈ whole, c.isDigit = true)
    (stops : ∀ c ∈ rest.head?, c.isDigit = false) :
    (whole ++ rest).takeWhile Char.isDigit = whole := by
  rw [List.takeWhile_append_of_pos digits]
  cases rest with
  | nil => rw [List.takeWhile_nil, List.append_nil]
  | cons c rest =>
    rw [List.takeWhile_cons_of_neg (by rw [stops c rfl]; exact Bool.false_ne_true),
      List.append_nil]

lemma dropWhile_digits (digits : ∀ c ∈ whole, c.isDigit = true)
    (stops : ∀ c ∈ rest.head?, c.isDigit = false) :
    (whole ++ rest).dropWhile Char.isDigit = rest := by
  have all := List.takeWhile_append_dropWhile (p := Char.isDigit) (l := whole ++ rest)
  rw [takeWhile_digits digits stops] at all
  exact List.append_cancel_left all

/-- Of a text that starts with digits, these are taken, and the fraction behind them. -/
lemma takeUnsigned_digits (digits : Digits whole) (stops : ∀ c ∈ rest.head?, c.isDigit = false) :
    takeUnsigned fractional negative (whole ++ rest) =
      some ⟨negative, whole, if fractional then takeFraction rest else []⟩ := by
  rw [takeUnsigned, takeWhile_digits digits.isDigit stops, dropWhile_digits digits.isDigit stops,
    if_neg (by rw [List.isEmpty_iff]; exact digits.ne_nil)]

/-- Of a text that starts with something else, nothing is taken. -/
lemma takeUnsigned_eq_none (stops : ∀ c ∈ text.head?, c.isDigit = false) :
    takeUnsigned fractional negative text = none := by
  have nothing := takeWhile_digits (List.forall_mem_nil _) stops
  rw [List.nil_append] at nothing
  rw [takeUnsigned, nothing]
  rfl

/-- A point and the digits behind it are a fraction, where one is allowed and there are such
digits. -/
lemma fraction_cases (fractional : Bool) (text : List Char) :
    let fraction := if fractional then takeFraction text else []
    fraction = [] ∨ fractional = true ∧ Digits fraction ∧ '.' :: fraction <+: text := by
  cases fractional with
  | false => exact .inl rfl
  | true =>
    rw [if_pos rfl]
    unfold takeFraction
    split
    next rest =>
      by_cases missing : rest.takeWhile Char.isDigit = []
      · exact .inl missing
      · refine .inr ⟨rfl, ⟨missing, fun c listed => List.mem_takeWhile_imp listed⟩, ?_⟩
        exact List.cons_prefix_cons.mpr ⟨rfl, List.takeWhile_prefix _⟩
    next => exact .inl rfl

/-- The sign of a numeral. -/
def signChars (negative : Bool) : List Char := if negative then ['-'] else []

lemma chars_of_fraction_eq_nil (whole : n.fraction = []) :
    n.chars = signChars n.negative ++ n.whole := by
  rw [chars, signChars, whole, List.isEmpty_nil, if_pos rfl, List.append_nil]

lemma chars_of_digits (digits : Digits n.fraction) :
    n.chars = signChars n.negative ++ n.whole ++ '.' :: n.fraction := by
  have written : ¬ n.fraction.isEmpty = true := by
    rw [List.isEmpty_iff]
    exact digits.ne_nil
  rw [chars, signChars, if_neg written]

/-- What is taken stands at the front and is digits, with a fraction where one is allowed. -/
lemma of_takeUnsigned (h : takeUnsigned fractional negative text = some n) : Digits n.whole ∧
    ∃ fraction, n.chars = signChars negative ++ n.whole ++ fraction ∧ n.whole ++ fraction <+: text ∧
      (fraction = [] ∨ fractional = true ∧ ∃ digits, Digits digits ∧ fraction = '.' :: digits) := by
  obtain ⟨whole, rest, rfl, digits, stops⟩ := exists_digits_append text
  by_cases missing : whole = []
  · rw [missing, List.nil_append, takeUnsigned_eq_none stops] at h
    cases h
  have found : Digits whole := ⟨missing, digits⟩
  rw [takeUnsigned_digits found stops] at h
  obtain rfl := Option.some.inj h
  refine ⟨found, ?_⟩
  rcases fraction_cases fractional rest with nothing | ⟨allowed, more, inFront⟩
  · refine ⟨[], ?_, ?_, .inl rfl⟩
    · rw [chars_of_fraction_eq_nil nothing, List.append_nil]
    · rw [List.append_nil]
      exact List.prefix_append _ _
  · refine ⟨_, chars_of_digits more, ?_, .inr ⟨allowed, _, more, rfl⟩⟩
    exact (List.prefix_append_right_inj _).mpr inFront

/-- Where a numeral without its sign stands in front, one as long is taken. -/
lemma length_le_takeUnsigned {fraction : List Char} (digits : Digits whole)
    (behind : fraction = [] ∨ fractional = true ∧ ∃ digits, Digits digits ∧
      fraction = '.' :: digits) (rest : List Char) :
    ∃ n, takeUnsigned fractional negative (whole ++ fraction ++ rest) = some n ∧
      (signChars negative ++ whole ++ fraction).length ≤ n.chars.length := by
  rcases behind with rfl | ⟨rfl, more, moreDigits, rfl⟩
  · -- more digits may follow, and a fraction behind them
    obtain ⟨further, rest, rfl, furtherDigits, stops⟩ := exists_digits_append rest
    have all : Digits (whole ++ further) :=
      ⟨List.append_ne_nil_of_left_ne_nil digits.ne_nil _,
        List.forall_mem_append.mpr ⟨digits.isDigit, furtherDigits⟩⟩
    rw [List.append_nil, ← List.append_assoc, takeUnsigned_digits all stops]
    refine ⟨_, rfl, ?_⟩
    simp only [chars, signChars, List.length_append, List.length_nil]
    omega
  · have stops : ∀ c ∈ ('.' :: (more ++ rest)).head?, c.isDigit = false := by
      rintro c ⟨⟩
      rfl
    rw [List.append_assoc, List.cons_append, takeUnsigned_digits digits stops]
    refine ⟨_, rfl, ?_⟩
    have taken : takeFraction ('.' :: (more ++ rest)) = more ++ rest.takeWhile Char.isDigit :=
      List.takeWhile_append_of_pos moreDigits.isDigit
    have all : Digits (more ++ rest.takeWhile Char.isDigit) :=
      ⟨List.append_ne_nil_of_left_ne_nil moreDigits.ne_nil _,
        List.forall_mem_append.mpr ⟨moreDigits.isDigit, fun c => List.mem_takeWhile_imp⟩⟩
    rw [if_pos rfl, taken, chars_of_digits all]
    simp only [List.length_append, List.length_cons]
    omega

/-- A numeral is taken from behind its sign, if it has one. -/
lemma take_cases (form : NumeralForm) (text : List Char) :
    (∃ rest, form.signed = true ∧ text = '-' :: rest ∧
      take form text = takeUnsigned form.fractional true rest) ∨
    ((form.signed = true → text.head? ≠ some '-') ∧
      take form text = takeUnsigned form.fractional false text) := by
  obtain ⟨signed, fractional⟩ := form
  unfold take
  split
  next rest signs => exact .inl ⟨rest, signs, rfl, rfl⟩
  next unsigned =>
    refine .inr ⟨fun signs first => ?_, rfl⟩
    obtain ⟨rest, rfl⟩ := List.head?_eq_some_iff.mp first
    exact unsigned rest signs rfl

/-- What is taken from a text is a numeral at its front. -/
lemma accepts_of_take (h : take form text = some n) :
    form.Accepts n.chars ∧ n.chars <+: text := by
  rcases take_cases form text with ⟨rest, signs, rfl, taken⟩ | ⟨-, taken⟩
  · obtain ⟨digits, fraction, written, inFront, behind⟩ := of_takeUnsigned (taken.symm.trans h)
    rw [written]
    refine ⟨⟨_, _, _, rfl, .inr ⟨signs, rfl⟩, digits, behind⟩, ?_⟩
    rw [List.append_assoc]
    exact List.cons_prefix_cons.mpr ⟨rfl, inFront⟩
  · obtain ⟨digits, fraction, written, inFront, behind⟩ := of_takeUnsigned (taken.symm.trans h)
    rw [written]
    exact ⟨⟨_, _, _, rfl, .inl rfl, digits, behind⟩, inFront⟩

lemma take_neg (signs : form.signed = true) (rest : List Char) :
    take form ('-' :: rest) = takeUnsigned form.fractional true rest := by
  simp only [take, signs]

lemma take_digits (digits : Digits whole) (rest : List Char) :
    take form (whole ++ rest) = takeUnsigned form.fractional false (whole ++ rest) := by
  rcases take_cases form (whole ++ rest) with ⟨_, -, same, -⟩ | ⟨-, taken⟩
  · -- a digit is no sign
    cases whole with
    | nil => exact absurd rfl digits.ne_nil
    | cons digit whole =>
      obtain ⟨rfl, -⟩ := List.cons.inj same
      exact absurd digits (not_digits_minus whole)
  · exact taken

/-- Where a numeral stands at the front of a text, one as long is taken. -/
lemma length_le_take {other : List Char} (accepts : form.Accepts other) (inFront : other <+: text) :
    ∃ n, take form text = some n ∧ other.length ≤ n.chars.length := by
  obtain ⟨rest, rfl⟩ := inFront
  obtain ⟨sign, whole, fraction, rfl, sign, digits, behind⟩ := accepts
  rcases sign with rfl | ⟨signs, rfl⟩
  · rw [List.nil_append, List.append_assoc, take_digits digits, ← List.append_assoc]
    exact length_le_takeUnsigned digits behind rest
  · rw [List.append_assoc, List.append_assoc, List.singleton_append, take_neg signs,
      ← List.append_assoc]
    exact length_le_takeUnsigned digits behind rest

/-- What is taken from a text is its longest numeral. -/
lemma take_eq_some_iff (p : List Char) :
    (take form text).map chars = some p ↔ form.LongestIn text p := by
  constructor
  · intro h
    obtain ⟨n, taken, rfl⟩ := Option.map_eq_some_iff.mp h
    obtain ⟨accepts, isPrefix⟩ := accepts_of_take taken
    refine ⟨isPrefix, accepts, fun other inFront numeral => ?_⟩
    obtain ⟨n', taken', length⟩ := length_le_take numeral inFront
    rwa [Option.some.inj (taken.symm.trans taken')]
  · intro longest
    obtain ⟨n, taken, length⟩ := length_le_take longest.accepts longest.isPrefix
    obtain ⟨accepts, isPrefix⟩ := accepts_of_take taken
    have longest' : form.LongestIn text n.chars :=
      ⟨isPrefix, accepts, fun other inFront numeral =>
        (longest.longest other inFront numeral).trans length⟩
    rw [taken, Option.map_some, longest'.unique longest]

lemma take_eq_none_iff : take form text = none ↔ ∀ p, p <+: text → ¬ form.Accepts p := by
  constructor
  · intro nothing p inFront accepts
    obtain ⟨n, taken, -⟩ := length_le_take accepts inFront
    rw [nothing] at taken
    cases taken
  · intro nothing
    cases taken : take form text with
    | none => rfl
    | some n =>
      obtain ⟨accepts, isPrefix⟩ := accepts_of_take taken
      exact absurd accepts (nothing _ isPrefix)

/-! ### Its value -/

/-- The numeral read as an integer has no fraction. -/
lemma fraction_eq_nil (h : takeUnsigned false negative text = some n) : n.fraction = [] := by
  simp only [takeUnsigned] at h
  split at h
  · cases h
  · obtain rfl := Option.some.inj h
    rfl

lemma denotes_signChars {digits : List Char} (numeric : Digits digits) (negative : Bool) :
    Denotes (signChars negative ++ digits) (toInt ⟨negative, digits, []⟩) := by
  cases negative with
  | false => exact ⟨digits, numeric, .inl ⟨rfl, rfl⟩⟩
  | true => exact ⟨digits, numeric, .inr ⟨rfl, rfl⟩⟩

lemma denotes_of_take (h : take .integer text = some n) : Denotes n.chars n.toInt := by
  have unsigned : ∃ negative rest, takeUnsigned false negative rest = some n := by
    rcases take_cases .integer text with ⟨rest, -, -, taken⟩ | ⟨-, taken⟩
    · exact ⟨true, rest, taken.symm.trans h⟩
    · exact ⟨false, text, taken.symm.trans h⟩
  obtain ⟨negative, rest, taken⟩ := unsigned
  rw [chars_of_fraction_eq_nil (fraction_eq_nil taken)]
  exact denotes_signChars (of_takeUnsigned taken).1 n.negative

lemma toInt32?_eq_some_iff {v : Int32} : n.toInt32? = some v ↔ n.toInt = v.toInt := by
  have low := Int32.le_toInt v
  have high := Int32.toInt_lt v
  rw [toInt32?]
  split
  next fits =>
    rw [Option.some_inj]
    constructor
    · rintro rfl
      exact (Int32.toInt_ofInt_of_le fits.1 fits.2).symm
    · intro same
      rw [same, Int32.ofInt_toInt]
  next outside =>
    refine ⟨fun found => ?_, fun same => ?_⟩
    · cases found
    · rw [same] at outside
      exact absurd ⟨low, high⟩ outside

/-! ### Integers as they are written -/

/-- An integer is written as a sign, if it is negative, and digits. -/
lemma exists_toList_repr (i : ℤ) : ∃ negative digits, Digits digits ∧
    i.repr.toList = signChars negative ++ digits ∧ toInt ⟨negative, digits, []⟩ = i := by
  have written (n : ℕ) : Digits (Nat.toDigits 10 n) :=
    ⟨Nat.toDigits_ne_nil, fun c => Nat.isDigit_of_mem_toDigits (by decide) le_rfl⟩
  have value (n : ℕ) : ofDigits (Nat.toDigits 10 n) = n := Nat.ofDigitChars_ten_toDigits
  cases i with
  | ofNat n =>
    refine ⟨false, Nat.toDigits 10 n, written n, Nat.toList_repr, ?_⟩
    exact congrArg Int.ofNat (value n)
  | negSucc n =>
    refine ⟨true, Nat.toDigits 10 n.succ, written _, ?_, ?_⟩
    · rw [Int.repr, String.toList_append, Nat.toList_repr]
      rfl
    · rw [toInt, if_pos rfl, value]
      rfl

/-- A written integer is taken whole from in front of what is not a digit. -/
lemma take_written {digits : List Char} (numeric : Digits digits) (negative : Bool)
    (stops : ∀ c ∈ rest.head?, c.isDigit = false) :
    take .integer (signChars negative ++ digits ++ rest) = some ⟨negative, digits, []⟩ := by
  cases negative with
  | false =>
    rw [signChars, if_neg Bool.false_ne_true, List.nil_append, take_digits numeric,
      takeUnsigned_digits numeric stops]
    rfl
  | true =>
    rw [signChars, if_pos rfl, List.append_assoc, List.singleton_append, take_neg rfl,
      takeUnsigned_digits numeric stops]
    rfl

end Numeral

/-! ### Bytes -/

namespace Text

variable {c d : Char} {front : List Char}

lemma toNat_toUInt8 (narrow : c.toNat < 128) : c.toUInt8.toNat = c.toNat := by
  have same : c.toUInt8.toNat = c.toNat % 256 := rfl
  omega

/-- An ASCII character is one byte. -/
lemma utf8EncodeChar_of_lt (narrow : c.toNat < 128) : String.utf8EncodeChar c = [c.toUInt8] := by
  refine String.utf8EncodeChar_eq_singleton (Char.utf8Size_eq_one_iff.mpr ?_)
  exact UInt32.le_iff_toNat_le.mpr (Nat.le_of_lt_succ narrow)

/-- Any other character has no ASCII byte in front. -/
lemma exists_utf8EncodeChar_cons (wide : 128 ≤ c.toNat) :
    ∃ b bytes, String.utf8EncodeChar c = b :: bytes ∧ 128 ≤ b.toNat := by
  have several : ¬ c.val.toNat ≤ 127 := Nat.not_le_of_lt (Nat.lt_of_succ_le wide)
  simp only [String.utf8EncodeChar, if_neg several]
  -- two, three or four bytes, the first with its highest bit set
  split_ifs <;>
  · refine ⟨_, _, rfl, ?_⟩
    rw [UInt8.toNat_ofNat']
    omega

/-- ASCII characters start the bytes of a text where they start the text. -/
lemma ascii_prefix_utf8_iff (ascii : ∀ c ∈ front, c.toNat < 128) (text : List Char) :
    front.map Char.toUInt8 <+: text.flatMap String.utf8EncodeChar ↔ front <+: text := by
  induction front generalizing text with
  | nil => exact iff_of_true List.nil_prefix List.nil_prefix
  | cons c front ih =>
    obtain ⟨narrow, ascii⟩ := List.forall_mem_cons.mp ascii
    cases text with
    | nil =>
      rw [List.flatMap_nil, List.map_cons, List.prefix_nil, List.prefix_nil]
      exact iff_of_false (List.cons_ne_nil _ _) (List.cons_ne_nil _ _)
    | cons d text =>
      rw [List.map_cons, List.flatMap_cons, List.cons_prefix_cons]
      rcases lt_or_ge d.toNat 128 with narrow' | wide
      · have same : c.toUInt8 = d.toUInt8 ↔ c = d := by
          rw [← UInt8.toNat_inj, toNat_toUInt8 narrow, toNat_toUInt8 narrow', Char.toNat_inj]
        rw [utf8EncodeChar_of_lt narrow', List.singleton_append, List.cons_prefix_cons, same,
          ih ascii]
      · obtain ⟨b, bytes, encoded, high⟩ := exists_utf8EncodeChar_cons wide
        rw [encoded, List.cons_append, List.cons_prefix_cons]
        refine iff_of_false (fun h => ?_) (fun h => ?_)
        · rw [← h.1, toNat_toUInt8 narrow] at high
          omega
        · rw [← h.1] at wide
          omega

end Text

lemma Digits.ascii {digits : List Char} (numeric : Digits digits) : ∀ c ∈ digits, c.toNat < 128 := by
  intro c listed
  have digit := Char.isDigit_iff_toNat.mp (numeric.isDigit c listed)
  have last : ('9' : Char).toNat = 57 := rfl
  omega

/-- A numeral is made of ASCII characters. -/
lemma NumeralForm.Accepts.ascii {form : NumeralForm} {numeral : List Char}
    (accepts : form.Accepts numeral) : ∀ c ∈ numeral, c.toNat < 128 := by
  obtain ⟨sign, whole, fraction, rfl, sign, digits, behind⟩ := accepts
  refine List.forall_mem_append.mpr ⟨List.forall_mem_append.mpr ⟨?_, digits.ascii⟩, ?_⟩
  · rcases sign with rfl | ⟨-, rfl⟩
    · exact List.forall_mem_nil _
    · exact List.forall_mem_singleton.mpr (by decide)
  · rcases behind with rfl | ⟨-, digits, numeric, rfl⟩
    · exact List.forall_mem_nil _
    · exact List.forall_mem_cons.mpr ⟨by decide, numeric.ascii⟩

/-- Where a numeral starts the bytes of a text, it starts the text. -/
lemma NumeralForm.Accepts.prefix_utf8_iff {form : NumeralForm} {numeral : List Char}
    (accepts : form.Accepts numeral) (text : List Char) :
    numeral.map Char.toUInt8 <+: text.flatMap String.utf8EncodeChar ↔ numeral <+: text :=
  Text.ascii_prefix_utf8_iff accepts.ascii text

namespace Quantity

/-- An integer is read where the text starts with one that 32 bits hold. -/
lemma integer?_eq_some_iff (text : String) (v : Int32) : integer? text = some v ↔
    ∃ p, NumeralForm.integer.LongestIn (Text.trim text.toList) p ∧ Denotes p v.toInt := by
  rw [integer?, Option.bind_eq_some_iff]
  constructor
  · rintro ⟨n, taken, value⟩
    rw [Numeral.leading] at taken
    refine ⟨n.chars, Numeral.take_eq_some_iff _ |>.mp (by rw [taken, Option.map_some]), ?_⟩
    rw [← Numeral.toInt32?_eq_some_iff.mp value]
    exact Numeral.denotes_of_take taken
  · rintro ⟨p, longest, denotes⟩
    obtain ⟨n, taken, rfl⟩ := Option.map_eq_some_iff.mp (Numeral.take_eq_some_iff p |>.mpr longest)
    exact ⟨n, taken, Numeral.toInt32?_eq_some_iff.mpr
      ((Numeral.denotes_of_take taken).unique denotes)⟩

/-- An integer is read as it is written, between blanks and in front of what is not a digit. -/
lemma integer?_toString (v : Int32) {before after : String}
    (blank : ∀ c ∈ before.toList, Text.isBlank c = true)
    (stops : ∀ c ∈ after.toList.head?, c.isDigit = false) :
    integer? (before ++ toString v ++ after) = some v := by
  obtain ⟨negative, digits, numeric, written, value⟩ := Numeral.exists_toList_repr v.toInt
  have printed : ∀ c ∈ Numeral.signChars negative ++ digits, Text.isBlank c = false := by
    intro c listed
    rcases List.mem_append.mp listed with sign | digit
    · cases negative with
      | false => cases sign
      | true =>
        obtain rfl := List.mem_singleton.mp sign
        decide
    · exact Text.isBlank_eq_false_of_isDigit (numeric.isDigit c digit)
  obtain ⟨rest, inFront, trimmed⟩ := Text.exists_trim_append blank
    (List.append_ne_nil_of_right_ne_nil _ numeric.ne_nil)
    (fun c first => printed c (List.mem_of_head? first))
    (fun c last => printed c (List.mem_of_getLast? last)) after.toList
  have stopsRest : ∀ c ∈ rest.head?, c.isDigit = false := by
    intro c first
    obtain ⟨_, same⟩ := inFront
    refine stops c ?_
    rw [← same, List.head?_append, first, Option.some_or]
    rfl
  have taken : Numeral.leading .integer (before ++ toString v ++ after) =
      some ⟨negative, digits, []⟩ := by
    have same : (toString v).toList = Numeral.signChars negative ++ digits := written
    rw [Numeral.leading, String.toList_append, String.toList_append, same, trimmed,
      Numeral.take_written numeric negative stopsRest]
  rw [integer?, taken, Option.bind_some]
  exact Numeral.toInt32?_eq_some_iff.mpr value

end Quantity

/-- What a text is read as is the longest numeral at the front of what its margins enclose, nothing
where no numeral stands there, and the same whether its characters or its bytes are looked at; so an
integer is read where the front denotes one of 32 bits, and every such integer is read back from its
own digits. -/
theorem Numeral.leading_is_longest (form : NumeralForm) (text : String) :
    Text.TrimsTo text.toList (Text.trim text.toList) ∧
    (∀ p, (leading form text).map chars = some p ↔ form.LongestIn (Text.trim text.toList) p) ∧
    (leading form text = none ↔ ∀ p, p <+: Text.trim text.toList → ¬ form.Accepts p) ∧
    (∀ p, form.Accepts p →
      (p.map Char.toUInt8 <+: (Text.trim text.toList).flatMap String.utf8EncodeChar ↔
        p <+: Text.trim text.toList)) ∧
    (∀ v : Int32, Quantity.integer? text = some v ↔
      ∃ p, NumeralForm.integer.LongestIn (Text.trim text.toList) p ∧ Denotes p v.toInt) ∧
    ∀ (v : Int32) (before after : String), (∀ c ∈ before.toList, Text.isBlank c = true) →
      (∀ c ∈ after.toList.head?, c.isDigit = false) →
      Quantity.integer? (before ++ toString v ++ after) = some v := by
  refine ⟨Text.trimsTo_trim _, fun p => take_eq_some_iff p, take_eq_none_iff, ?_, ?_, ?_⟩
  · intro p accepts
    exact accepts.prefix_utf8_iff _
  · intro v
    exact Quantity.integer?_eq_some_iff text v
  · intro v before after blank stops
    exact Quantity.integer?_toString v blank stops

/-- The least integer of 32 bits, which its digits without the sign exceed, is read from between a
tabulator and a unit. -/
theorem Numeral.leading_is_longest_minValue :
    Quantity.integer? ("\t" ++ toString Int32.minValue ++ " t") = some Int32.minValue := by
  have blank : ∀ c ∈ "\t".toList, Text.isBlank c = true := List.all_eq_true.mp (by decide)
  have stops : ∀ c ∈ " t".toList.head?, c.isDigit = false := by
    have first : " t".toList.head? = some ' ' := by decide
    rw [first]
    rintro c ⟨⟩
    rfl
  exact (leading_is_longest .integer "").2.2.2.2.2 Int32.minValue "\t" " t" blank stops

end RoadAtlas
